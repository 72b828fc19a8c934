import EntityStore.Error
import EntityStore.Value

/-!
# Script components

Components whose shape is only known at run time.  A schema lists named fields with their
defaults; the default also fixes the kind of value that the field takes.

* `Schema`, `Schema.check` — the shape, and the rules that it keeps;
* `ScriptRecord` — one value for each field of a schema;
* `ScriptRecord.write`, `ScriptRecord.writeAll` — writing one field, or several in order;
* `schema_of_write` — writing keeps the shape.
-/

namespace EntityStore

/-- One named field and its default value. -/
structure SchemaField where
  name : String
  /-- Value of a fresh instance; its kind is the field's kind. -/
  default : Value
deriving BEq, Repr, Inhabited

/-- The shape of a script component. -/
structure Schema where
  name : String
  fields : List SchemaField := []
deriving BEq, Repr, Inhabited

namespace Schema

/-- The first name of the list that stands earlier in it or in `seen`. -/
def firstRepeated? (seen : List String) : List String → Option String
  | [] => none
  | n :: rest => if seen.contains n then some n else firstRepeated? (n :: seen) rest

theorem firstRepeated?_eq_none_iff (seen names : List String) :
    firstRepeated? seen names = none ↔ names.Nodup ∧ ∀ n ∈ names, n ∉ seen := by
  induction names generalizing seen with
  | nil => simp [firstRepeated?]
  | cons n rest ih =>
    simp only [firstRepeated?, List.contains_iff_mem]
    split
    · simp_all
    · rw [ih]
      simp only [List.nodup_cons, List.mem_cons, forall_eq_or_imp, not_or]
      constructor
      · rintro ⟨hnd, hall⟩
        refine ⟨⟨fun hmem => (hall n hmem).1 rfl, hnd⟩, ‹_›, fun m hm => (hall m hm).2⟩
      · rintro ⟨⟨hn, hnd⟩, _, hall⟩
        exact ⟨hnd, fun m hm => ⟨fun h => hn (h ▸ hm), hall m hm⟩⟩

/-- A schema needs a name, and its fields need different names. -/
def check (schema : Schema) : Except StoreError Unit :=
  if schema.name = "" then
    .error (.deserialization "script component name is empty")
  else
    match firstRepeated? [] (schema.fields.map (·.name)) with
    | some field => .error (.deserialization s!"{schema.name}: duplicate field `{field}`")
    | none => .ok ()

theorem check_eq_ok_iff (schema : Schema) :
    schema.check = .ok () ↔ schema.name ≠ "" ∧ (schema.fields.map (·.name)).Nodup := by
  unfold check
  have h := firstRepeated?_eq_none_iff [] (schema.fields.map (·.name))
  split
  · simp_all
  · split <;> simp_all

/-- Position of the first field with the given name. -/
def indexOf? (schema : Schema) (name : String) : Option Nat :=
  schema.fields.findIdx? (·.name == name)

end Schema

/-- An instance of a script component. -/
structure ScriptRecord where
  schema : Schema
  values : List Value
deriving BEq, Repr, Inhabited

namespace ScriptRecord

/-- The instance with every field at its default. -/
def fresh (schema : Schema) : ScriptRecord :=
  ⟨schema, schema.fields.map (·.default)⟩

def get? (s : ScriptRecord) (name : String) : Option Value :=
  (s.schema.indexOf? name).bind (s.values[·]?)

/-- Writes a field.  The field has to exist and the value has to be of its kind. -/
def write (s : ScriptRecord) (name : String) (v : Value) : Except StoreError ScriptRecord :=
  match s.schema.indexOf? name with
  | none => .error (.unknownField name)
  | some i =>
    match s.values[i]? with
    | none => .error (.unknownField name)
    | some old =>
      if old.sameKind v then
        .ok { s with values := s.values.set i v }
      else
        .error (.fieldTypeMismatch name)

theorem schema_of_write {s s' : ScriptRecord} {name : String} {v : Value}
    (h : s.write name v = .ok s') : s'.schema = s.schema := by
  unfold write at h
  repeat' split at h
  all_goals cases h
  rfl

/-- Writes a field; nothing if it cannot be written. -/
def write? (s : ScriptRecord) (name : String) (v : Value) : Option ScriptRecord :=
  (s.write name v).toOption

/-- Writes several fields in order, up to the first that cannot be written. -/
def writeAll : ScriptRecord → List (String × Value) → Except StoreError ScriptRecord
  | s, [] => .ok s
  | s, (name, v) :: rest =>
    match s.write name v with
    | .ok s' => writeAll s' rest
    | .error err => .error err

def fieldNames (s : ScriptRecord) : List String :=
  s.schema.fields.map (·.name)

/-- The full type name that every script instance shows. -/
def typeName : String := "DynamicComponent"

def fieldView (s : ScriptRecord) : FieldView :=
  ⟨typeName, s.fieldNames.filterMap fun n => (s.get? n).map fun v => (n, v)⟩

end ScriptRecord

end EntityStore
