import EntityStore.Component

/-!
# Records: instances of native components

A record holds one cell for each declared field.  Fields are read and written by name; a field
that is not reflected does not show.

* `Record.default` — every cell at its default;
* `Record.get?`, `Record.write?` — access by name;
* `Record.fieldView` — the reflected fields with their values.
-/

namespace EntityStore

/-- An instance of a native component. -/
structure Record where
  type : ComponentType
  cells : List FieldValue
deriving Repr, Inhabited

namespace Record

def default (t : ComponentType) : Record :=
  ⟨t, t.fields.map (·.type.default)⟩

def fields (r : Record) : List (FieldDecl × FieldValue) :=
  r.type.fields.zip r.cells

def reflectedFields (r : Record) : List (FieldDecl × FieldValue) :=
  r.fields.filter (·.1.reflected)

def fieldNames (r : Record) : List String :=
  r.reflectedFields.map (·.1.name)

/-- Value of the reflected field with the given name. -/
def get? (r : Record) (name : String) : Option Value :=
  (r.reflectedFields.find? (·.1.name == name)).map (·.2.toValue)

def fieldView (r : Record) : FieldView :=
  ⟨r.type.typeName, r.reflectedFields.map fun (d, c) => (d.name, c.toValue)⟩

/-- The cells after a value is written to the first reflected field of the given name; nothing
if there is no such field or the value does not fit it. -/
def writeCells? (name : String) (v : Value) :
    List FieldDecl → List FieldValue → Option (List FieldValue)
  | d :: ds, c :: cs =>
    if d.reflected && d.name == name then
      (d.type.ofValue? v).map (· :: cs)
    else
      (writeCells? name v ds cs).map (c :: ·)
  | _, _ => none

/-- Writes a field by name; nothing if it cannot be written. -/
def write? (r : Record) (name : String) (v : Value) : Option Record :=
  (writeCells? name v r.type.fields r.cells).map fun cells => { r with cells }

/-- The record after an amount is added to its first field; a record without fields stays. -/
def add (amount : Int) (r : Record) : Record :=
  match r.cells with
  | [] => r
  | c :: cs => { r with cells := c.add amount :: cs }

end Record

end EntityStore
