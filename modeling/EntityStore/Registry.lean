import EntityStore.Storage
import EntityStore.Text.Diagnostic

/-!
# The component registry

Components are registered once and then named by their position.  A native component is
registered for its type, a script component for its schema; the registry leads from either
to the position, and from a name to the first component that was registered with it.

* `Registry.register`, `Registry.registerSchema` — registration;
* `Registry.position?`, `Registry.find?`, `Registry.entry?` — look-up by type, name, position;
* `Entry.emptyStorage`, `Entry.debugText` — the storage that an entry prescribes, its text.

Registering a native type again gives the same position.  Native types may share a name, which
then leads to the first of them; a script component needs a name that is not taken.
-/

namespace EntityStore

/-- What a registry entry stands for. -/
inductive Source where
  | native (type : ComponentType)
  | script (schema : Schema)
deriving Repr, Inhabited

/-- One registry entry. -/
structure Entry where
  id : ComponentId
  name : String
  source : Source
deriving Repr, Inhabited

namespace Entry

def schema? (entry : Entry) : Option Schema :=
  match entry.source with
  | .script schema => some schema
  | .native _ => none

def type? (entry : Entry) : Option ComponentType :=
  match entry.source with
  | .native t => some t
  | .script _ => none

/-- Text for diagnostics of the entry at a position. -/
def debugText (entry : Entry) (id : ComponentId) : String :=
  s!"ComponentInfo \x7b id: ComponentId({id.raw}), name: {Text.diagnosticQuote entry.name}, " ++
    s!"script: {entry.schema?.isSome} \x7d"

def emptyStorage (entry : Entry) : Storage :=
  match entry.source with
  | .native t => .empty t
  | .script schema => .emptyScript schema

end Entry

/-- Registered components, with the ways that lead to them. -/
structure Registry where
  entries : Array Entry := #[]
  byType : List (ComponentType × ComponentId) := []
  /-- The first position of each name. -/
  byName : Std.TreeMap String ComponentId := {}

namespace Registry

instance : Inhabited Registry := ⟨{}⟩

def size (r : Registry) : Nat :=
  r.entries.size

def entry? (r : Registry) (id : ComponentId) : Option Entry :=
  r.entries[id.raw]?

def contains (r : Registry) (id : ComponentId) : Bool :=
  (r.entry? id).isSome

def position? (r : Registry) (t : ComponentType) : Option ComponentId :=
  r.byType.lookup t

/-- The position of the first entry with the given name. -/
def find? (r : Registry) (name : String) : Option ComponentId :=
  r.byName[name]?

/-- Appends an entry.  A name that is taken keeps its first position. -/
def append (r : Registry) (name : String) (source : Source) : ComponentId × Registry :=
  let id : ComponentId := ⟨r.size⟩
  (id,
    { r with
      entries := r.entries.push { id, name, source }
      byName := r.byName.insertIfNew name id })

/-- The position of a native type, which is registered if it is new. -/
def register (r : Registry) (t : ComponentType) : ComponentId × Registry :=
  match r.position? t with
  | some id => (id, r)
  | none =>
    let (id, r) := r.append t.name (.native t)
    (id, { r with byType := (t, id) :: r.byType })

/-- Registers a script component.  A name that is taken is reported before a schema that breaks
a rule. -/
def registerSchema (r : Registry) (schema : Schema) : Except StoreError (ComponentId × Registry) :=
  if r.byName.contains schema.name then
    .error (.duplicateComponent schema.name)
  else
    match schema.check with
    | .error err => .error err
    | .ok () => .ok (r.append schema.name (.script schema))

/-- Registers several native types in order. -/
def registerAll (r : Registry) (ts : List ComponentType) : Registry :=
  ts.foldl (fun r t => (r.register t).2) r

theorem register_of_position? {r : Registry} {t : ComponentType} {id : ComponentId}
    (h : r.position? t = some id) : r.register t = (id, r) := by
  simp only [register, h]

/-- A type that was just registered is found at the position that was given. -/
theorem position?_register (r : Registry) (t : ComponentType) :
    (r.register t).2.position? t = some (r.register t).1 := by
  unfold register
  split
  · next id h => exact h
  · simp only [position?, List.lookup_cons_self]

end Registry

end EntityStore
