import EntityStore.Component.Record
import EntityStore.Schema
import EntityStore.Storage.Batch

/-!
# Storages

A storage keeps every instance of one component.  There are five sorts: one instance an
entity, several of them, one with the accesses counted, one that typed access does not find,
and one for script components.

* `Storage.empty`, `Storage.emptyScript` — empty storages;
* `Storage.mapTable`, `Storage.view` — what works alike on every sort;
* `Storage.fetch` — a fetch for reading or for writing, with its side effect;
* `Storage.first?`, `Storage.records` — the instances of an entity;
* `Storage.insert`, `Storage.insertNamed` — inserting a record, or named values.

A fetch for writing marks the entity that is found.  What is read or written through a fetch
afterwards marks nothing more.
-/

namespace EntityStore

/-- Numbers of accesses to a counting storage. -/
structure FetchCounts where
  shared : Nat := 0
  exclusive : Nat := 0
  inserts : Nat := 0
deriving DecidableEq, Repr, Inhabited

def FetchCounts.fetch (counts : FetchCounts) (mutable : Bool) : FetchCounts :=
  if mutable then { counts with exclusive := counts.exclusive + 1 }
  else { counts with shared := counts.shared + 1 }

/-- An instance of a native or a script component. -/
inductive Instance where
  | native (record : Record)
  | script (inst : ScriptRecord)
deriving Repr, Inhabited

namespace Instance

def fieldView : Instance → FieldView
  | .native record => record.fieldView
  | .script inst => inst.fieldView

def get? : Instance → String → Option Value
  | .native record, name => record.get? name
  | .script inst, name => inst.get? name

/-- Writes a field by name; nothing if it cannot be written. -/
def write? : Instance → String → Value → Option Instance
  | .native record, name, v => (record.write? name v).map .native
  | .script inst, name, v => (inst.write? name v).map .script

end Instance

/-- All instances of one component. -/
inductive Storage where
  | dense (type : ComponentType) (table : Table Record)
  | batch (type : ComponentType) (rows : BatchTable Record)
  | counting (type : ComponentType) (table : Table Record) (counts : FetchCounts)
  | hidden (type : ComponentType) (table : Table Record)
  | script (schema : Schema) (table : Table ScriptRecord)
deriving Inhabited

namespace Storage

/-- The empty storage that a component type declares. -/
def empty (t : ComponentType) : Storage :=
  match t.storage with
  | .dense => .dense t {}
  | .batch limit => .batch t { limit }
  | .counting _ => .counting t {} {}
  | .hidden _ => .hidden t {}

/-- The empty storage of a script component. -/
def emptyScript (schema : Schema) : Storage :=
  .script schema {}

/-- Applies one table operation, whatever the instances are. -/
def mapTable (f : ∀ {α : Type}, Table α → Table α) : Storage → Storage
  | .dense t table => .dense t (f table)
  | .batch t rows => .batch t { rows with table := f rows.table }
  | .counting t table counts => .counting t (f table) counts
  | .hidden t table => .hidden t (f table)
  | .script schema table => .script schema (f table)

/-- Looks at the table, whatever the instances are. -/
def view {β : Type} (f : ∀ {α : Type}, Table α → β) : Storage → β
  | .dense _ table => f table
  | .batch _ rows => f rows.table
  | .counting _ table _ => f table
  | .hidden _ table => f table
  | .script _ table => f table

/-! ### Presence and flags -/

def contains (s : Storage) (e : Entity) : Bool :=
  s.view (·.contains e)

def erase (s : Storage) (e : Entity) : Storage :=
  s.mapTable (·.erase e)

def clear (s : Storage) : Storage :=
  s.mapTable (·.clear)

/-- The entities that hold the component, in storage order. -/
def entities (s : Storage) : List Entity :=
  s.view (·.entities)

def flags (s : Storage) : ChangeFlags :=
  s.view (·.flags)

/-- The storage with its changed flags replaced by what `f` makes of them. -/
def mapFlags (f : ChangeFlags → ChangeFlags) (s : Storage) : Storage :=
  s.mapTable (·.mapFlags f)

def switchTracing (enabled : Bool) (s : Storage) : Storage :=
  s.mapFlags (·.switch enabled)

def isTracing (s : Storage) : Bool :=
  s.flags.enabled

/-- Marks a held entity as changed. -/
def mark (s : Storage) (e : Entity) : Storage :=
  s.mapTable (·.mark e)

def isMarked (s : Storage) (e : Entity) : Bool :=
  s.flags.isMarked e

def unmarkAll (s : Storage) : Storage :=
  s.mapFlags (·.unmarkAll)

/-! ### Fetching -/

/-- The side effect of one fetch: a counting storage counts it, and a fetch for writing marks a
held entity. -/
def fetch (s : Storage) (mutable : Bool) (e : Entity) : Storage :=
  let counted :=
    match s with
    | .counting t table counts => .counting t table (counts.fetch mutable)
    | other => other
  if mutable then counted.mapTable (·.touch e) else counted

/-- The records that a native storage holds for an entity. -/
def records (s : Storage) (e : Entity) : List Record :=
  match s with
  | .dense _ table | .counting _ table _ | .hidden _ table => (table.get? e).toList
  | .batch _ rows => rows.instances e
  | .script .. => []

/-- The first instance that a storage holds for an entity. -/
def first? (s : Storage) (e : Entity) : Option Instance :=
  match s with
  | .script _ table => (table.get? e).map .script
  | native => (native.records e).head?.map .native

/-- Changes every record of an entity, through an earlier fetch for writing. -/
def writeAll (s : Storage) (e : Entity) (f : Record → Record) : Storage :=
  match s with
  | .dense t table => .dense t (table.write e f)
  | .batch t rows => .batch t { rows with table := rows.table.write e (List.map f) }
  | .counting t table counts => .counting t (table.write e f) counts
  | .hidden t table => .hidden t (table.write e f)
  | .script schema table => .script schema table

/-- Changes the first record of an entity, through an earlier fetch for writing. -/
def writeFirst (s : Storage) (e : Entity) (f : Record → Record) : Storage :=
  match s with
  | .batch t rows => .batch t { rows with table := rows.table.write e (List.modifyHead f) }
  | other => other.writeAll e f

/-- Changes a script instance, through an earlier fetch for writing. -/
def writeScript (s : Storage) (e : Entity) (f : ScriptRecord → ScriptRecord) : Storage :=
  match s with
  | .script schema table => .script schema (table.write e f)
  | other => other

/-- Writes a field of an entity's first instance, through an earlier fetch for writing.  The
answer tells whether the field was written; if not, nothing changes. -/
def writeField (s : Storage) (e : Entity) (name : String) (v : Value) : Bool × Storage :=
  match (s.first? e).bind (·.write? name v) with
  | some (.native record) => (true, s.writeFirst e fun _ => record)
  | some (.script inst) => (true, s.writeScript e fun _ => inst)
  | none => (false, s)

/-! ### Inserting -/

/-- Inserts a record into a native storage. -/
def insert (s : Storage) (e : Entity) (record : Record) : Storage :=
  match s with
  | .dense t table => .dense t (table.insert e record)
  | .batch t rows => .batch t (rows.insert e record)
  | .counting t table counts =>
    .counting t (table.insert e record) { counts with inserts := counts.inserts + 1 }
  | .hidden t table => .hidden t (table.insert e record)
  | .script schema table => .script schema table

def name (s : Storage) : String :=
  match s with
  | .dense t _ | .batch t _ | .counting t _ _ | .hidden t _ => t.storageName
  | .script .. => "ScriptStorage"

/-- Inserts an instance described by named values.  A script storage starts from the defaults
and takes the values in order; if one of them does not fit, nothing changes.  Native storages
refuse. -/
def insertNamed (s : Storage) (e : Entity) (values : List (String × Value)) :
    Except StoreError Unit × Storage :=
  match s with
  | .script schema table =>
    match (ScriptRecord.fresh schema).writeAll values with
    | .ok inst => (.ok (), .script schema (table.insert e inst))
    | .error err => (.error err, s)
  | native =>
    (.error (.unsupportedOperation s!"{native.name} does not accept dynamic values"), native)

/-! ### Typed access -/

/-- Whether typed access to the component type finds this storage. -/
def opens (s : Storage) (t : ComponentType) : Bool :=
  match s with
  | .dense u _ | .batch u _ | .counting u _ _ => u == t
  | .hidden .. | .script .. => false

/-- Whether the storage is that of a script component. -/
def isScript (s : Storage) : Bool :=
  match s with
  | .script .. => true
  | _ => false

/-! ### Listing -/

/-- One line of a listing: an entity, its flag, and its fields as reflection shows them. -/
structure Line where
  entity : Entity
  changed : Bool
  fields : Option (List (String × Value))

/-- Lists the storage.  Every listed entity is fetched once for reading. -/
def listing (s : Storage) : List Line × Storage :=
  (s.entities.map fun e =>
      { entity := e, changed := s.isMarked e, fields := (s.first? e).map (·.fieldView.fields) },
    s.entities.foldl (fun s e => s.fetch false e) s)

/-! ### What the operations keep -/

@[simp] theorem entities_mapFlags (f : ChangeFlags → ChangeFlags) (s : Storage) :
    (s.mapFlags f).entities = s.entities := by
  cases s <;> rfl

@[simp] theorem contains_mapFlags (f : ChangeFlags → ChangeFlags) (s : Storage) (e : Entity) :
    (s.mapFlags f).contains e = s.contains e := by
  cases s <;> rfl

@[simp] theorem flags_mapFlags (f : ChangeFlags → ChangeFlags) (s : Storage) :
    (s.mapFlags f).flags = f s.flags := by
  cases s <;> rfl

end Storage

end EntityStore
