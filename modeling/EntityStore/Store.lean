import EntityStore.Registry
import EntityStore.World

/-!
# Stores: a registry with a world

Operations that name a component by its type register the type, so they work on the registry
and the world together.  An operation that fails gives its error and the store as it then is:
a component that was registered and a storage that was made on the way stay.

* `Store.column` — typed access, which registers the type;
* `Store.attach`, `Store.attachNamed`, `Store.detach`, `Store.read`, `Store.update` — the
  components of an entity;
* `Store.spawn` — an entity with components, all or none;
* `Store.startEntity`, `Store.addPart`, `Store.completeEntity` — the same, one component at a
  time.

Attaching to an entity that is not alive fails before the type is registered.
-/

namespace EntityStore

/-- Registered components and a world with instances of them. -/
structure Store where
  registry : Registry := {}
  world : World := {}
deriving Inhabited

namespace Store

/-- The column of a native type, which is registered if it is new. -/
def column (s : Store) (t : ComponentType) : Column × Store :=
  let (id, registry) := s.registry.register t
  (⟨t, id⟩, { s with registry })

/-! ### Components of an entity -/

/-- Attaches a record to a live entity, or overwrites or adds to what is attached. -/
def attach (s : Store) (e : Entity) (record : Record) : Except StoreError Unit × Store :=
  if s.world.isAlive e then
    let (c, s) := s.column record.type
    let world := s.world.ensureSlot c.id (.empty record.type)
    match world.typed? c with
    | some _ => (.ok (), { s with world := world.modifyStorage c.id (·.insert e record) })
    | none => (.error (.storageTypeMismatch record.type.name), { s with world })
  else
    (.error .entityNotFound, s)

/-- Attaches a component known only by its position, described by named values.  A position
without an entry leaves the slot table as it is. -/
def attachNamed (s : Store) (e : Entity) (id : ComponentId) (values : List (String × Value)) :
    Except StoreError Unit × Store :=
  if s.world.isAlive e then
    match s.world.storage? id with
    | some storage =>
      let (result, storage) := storage.insertNamed e values
      (result, { s with world := s.world.modifyStorage id fun _ => storage })
    | none =>
      match s.registry.entry? id with
      | none => (.error (.componentNotRegistered id), s)
      | some entry =>
        let (result, storage) := entry.emptyStorage.insertNamed e values
        (result, { s with world := s.world.ensureSlot id storage })
  else
    (.error .entityNotFound, s)

def detach (s : Store) (t : ComponentType) (e : Entity) : Bool × Store :=
  let (c, s) := s.column t
  let (detached, world) := s.world.detach e c.id
  (detached, { s with world })

/-- Whether the entity holds a component of a native type. -/
def holds (s : Store) (t : ComponentType) (e : Entity) : Bool × Store :=
  let (c, s) := s.column t
  (s.world.holds c e, s)

def read (s : Store) (t : ComponentType) (e : Entity) : Option Record × Store :=
  let (c, s) := s.column t
  match s.world.typed? c with
  | some storage =>
    ((storage.records e).head?, { s with world := s.world.fetch c.id false e })
  | none => (none, s)

/-- Fetches a component of a native type for writing, changes its first instance and gives the
new value. -/
def update (s : Store) (t : ComponentType) (e : Entity) (f : Record → Record) :
    Option Record × Store :=
  let (c, s) := s.column t
  match s.world.typed? c with
  | some _ =>
    let world := (s.world.fetch c.id true e).writeFirst c.id e f
    (world.value? c e, { s with world })
  | none => (none, s)

/-! ### Entities with components -/

/-- A component to attach: a record, or named values for a position. -/
inductive Part where
  | native (record : Record)
  | named (id : ComponentId) (values : List (String × Value))
deriving Repr, Inhabited

def attachPart (s : Store) (e : Entity) : Part → Except StoreError Unit × Store
  | .native record => s.attach e record
  | .named id values => s.attachNamed e id values

/-- Attaches records in order, up to the first that fails. -/
def attachAll (s : Store) (e : Entity) : List Record → Except StoreError Unit × Store
  | [] => (.ok (), s)
  | record :: rest =>
    match s.attach e record with
    | (.ok (), s) => attachAll s e rest
    | (.error err, s) => (.error err, s)

/-- Removes an entity with all its components. -/
def despawn (s : Store) (e : Entity) : Except StoreError Unit × Store :=
  match s.world.despawn e with
  | .ok world => (.ok (), { s with world })
  | .error err => (.error err, s)

def spawnBare (s : Store) : Entity × Store :=
  let (e, world) := s.world.spawnBare
  (e, { s with world })

/-- Gives up a new entity because of an error. -/
def giveUp (s : Store) (e : Entity) (err : StoreError) : Except StoreError Entity × Store :=
  match s.despawn e with
  | (.ok (), s) => (.error err, s)
  | (.error lost, s) => (.error lost, s)

/-- Makes an entity with the given components.  If one of them fails, the entity is removed
again. -/
def spawn (s : Store) (bundle : List Record) : Except StoreError Entity × Store :=
  let (e, s) := s.spawnBare
  match s.attachAll e bundle with
  | (.ok (), s) => (.ok e, s)
  | (.error err, s) => s.giveUp e err

/-- An entity under construction, with the first error that occurred. -/
structure Builder where
  entity : Entity
  error : Option StoreError := none

def startEntity (s : Store) : Builder × Store :=
  let (e, s) := s.spawnBare
  ({ entity := e }, s)

/-- Attaches a part, unless an earlier one failed. -/
def addPart (s : Store) (b : Builder) (part : Part) : Builder × Store :=
  match b.error with
  | some _ => (b, s)
  | none =>
    match s.attachPart b.entity part with
    | (.ok (), s) => (b, s)
    | (.error err, s) => ({ b with error := some err }, s)

/-- Completes an entity.  After an error it is removed again. -/
def completeEntity (s : Store) (b : Builder) : Except StoreError Entity × Store :=
  match b.error with
  | none => (.ok b.entity, s)
  | some err => s.giveUp b.entity err

/-! ### Listing -/

/-- Lists every storage of a registered component, by position. -/
def listing (s : Store) : List (ComponentId × List Storage.Line) × Store :=
  (List.range s.registry.size).foldl
    (fun (lines, s) raw =>
      let id : ComponentId := ⟨raw⟩
      match s.world.storage? id with
      | some storage =>
        let (listed, storage) := storage.listing
        (lines ++ [(id, listed)], { s with world := s.world.modifyStorage id fun _ => storage })
      | none => (lines, s))
    ([], s)

/-! ### What the operations give -/

theorem addPart_of_error {s : Store} {b : Builder} {err : StoreError} (h : b.error = some err)
    (part : Part) : s.addPart b part = (b, s) := by
  simp only [addPart, h]

end Store

end EntityStore
