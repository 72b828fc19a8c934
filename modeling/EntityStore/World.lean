import EntityStore.Entity.Allocator
import EntityStore.Storage

/-!
# Worlds

A world holds the live entities and a slot table with the storages of their components.  A
storage is made when its component is first inserted and stays as long as the world.

* `World.spawnBare`, `World.despawn`, `World.isAlive` — entities;
* `World.storage?`, `World.modifyStorage`, `World.ensureSlot` — the slot table;
* `Column`, `World.typed?` — typed access to the storage of a component;
* `World.value?`, `World.values`, `World.writeFirst`, `World.writeAll` — payloads of an entity.
-/

namespace EntityStore

/-- Live entities and the storages of their components. -/
structure World where
  entities : Allocator := {}
  storages : Array (Option Storage) := #[]
deriving Inhabited

/-- A native component type with its position: what typed access needs to find a storage. -/
structure Column where
  type : ComponentType
  id : ComponentId
deriving DecidableEq, Repr, Inhabited

namespace World

/-! ### Entities -/

def isAlive (w : World) (e : Entity) : Bool :=
  w.entities.contains e

def population (w : World) : Nat :=
  w.entities.size

def spawnBare (w : World) : Entity × World :=
  let (e, entities) := w.entities.allocate
  (e, { w with entities })

/-- Removes a live entity, and its components from every storage. -/
def despawn (w : World) (e : Entity) : Except StoreError World :=
  match w.entities.release e with
  | none => .error .entityNotFound
  | some entities =>
    .ok { entities, storages := w.storages.map (Option.map (·.erase e)) }

/-! ### The slot table -/

def storage? (w : World) (id : ComponentId) : Option Storage :=
  w.storages[id.raw]?.join

/-- The world with the storage of a component replaced by what `f` makes of it. -/
def modifyStorage (w : World) (id : ComponentId) (f : Storage → Storage) : World :=
  { w with storages := w.storages.modify id.raw (Option.map f) }

/-- The slot table, grown to hold the component, with the given storage in its slot if the slot
was empty. -/
def ensureSlot (w : World) (id : ComponentId) (fresh : Storage) : World :=
  let grown := w.storages ++ Array.replicate (id.raw + 1 - w.storages.size) none
  { w with storages := grown.modify id.raw fun slot => some (slot.getD fresh) }

def unmarkAll (w : World) : World :=
  { w with storages := w.storages.map (Option.map (·.unmarkAll)) }

/-- Detaches a component.  The answer tells whether the entity had it. -/
def detach (w : World) (e : Entity) (id : ComponentId) : Bool × World :=
  (((w.storage? id).map (·.contains e)).getD false, w.modifyStorage id (·.erase e))

/-- The side effect of one fetch from the storage of a component. -/
def fetch (w : World) (id : ComponentId) (mutable : Bool) (e : Entity) : World :=
  w.modifyStorage id (·.fetch mutable e)

/-- Switches change tracing of a storage on. -/
def trace (w : World) (id : ComponentId) : World :=
  w.modifyStorage id (·.switchTracing true)

/-! ### Typed access -/

/-- The storage of a column, if it is there and typed access finds it. -/
def typed? (w : World) (c : Column) : Option Storage :=
  (w.storage? c.id).filter (·.opens c.type)

/-- Whether typed access finds the component on the entity. -/
def holds (w : World) (c : Column) (e : Entity) : Bool :=
  ((w.typed? c).map (·.contains e)).getD false

/-- Whether typed access finds the entity flagged. -/
def isMarked (w : World) (c : Column) (e : Entity) : Bool :=
  ((w.typed? c).map (·.isMarked e)).getD false

/-- All instances of an entity. -/
def values (w : World) (c : Column) (e : Entity) : List Record :=
  ((w.typed? c).map (·.records e)).getD []

/-- The first instance of an entity. -/
def value? (w : World) (c : Column) (e : Entity) : Option Record :=
  (w.values c e).head?

/-- Changes the first instance of an entity, through an earlier fetch for writing. -/
def writeFirst (w : World) (id : ComponentId) (e : Entity) (f : Record → Record) : World :=
  w.modifyStorage id (·.writeFirst e f)

/-- Changes every instance of an entity, through an earlier fetch for writing. -/
def writeAll (w : World) (id : ComponentId) (e : Entity) (f : Record → Record) : World :=
  w.modifyStorage id (·.writeAll e f)

/-! ### What the operations keep -/

@[simp] theorem entities_modifyStorage (w : World) (id : ComponentId) (f : Storage → Storage) :
    (w.modifyStorage id f).entities = w.entities := rfl

theorem storage?_modifyStorage (w : World) (id id' : ComponentId) (f : Storage → Storage) :
    (w.modifyStorage id f).storage? id' =
      if id = id' then (w.storage? id').map f else w.storage? id' := by
  simp only [storage?, modifyStorage, Array.getElem?_modify]
  have hid : id.raw = id'.raw ↔ id = id' := by cases id; cases id'; simp
  simp only [hid]
  split
  · cases w.storages[id'.raw]? with
    | none => rfl
    | some slot => cases slot <;> rfl
  · rfl

/-- Only the named slot changes, and only if it was empty. -/
theorem storage?_ensureSlot (w : World) (id id' : ComponentId) (fresh : Storage) :
    (w.ensureSlot id fresh).storage? id' =
      if id = id' then some ((w.storage? id').getD fresh) else w.storage? id' := by
  have hid : id.raw = id'.raw ↔ id = id' := by cases id; cases id'; simp
  simp only [storage?, ensureSlot, Array.getElem?_modify, hid, Array.getElem?_append,
    Array.getElem?_replicate]
  by_cases hlt : id'.raw < w.storages.size
  · simp only [hlt, if_true, Array.getElem?_eq_getElem hlt]
    split <;> rfl
  · simp only [hlt, if_false, Array.getElem?_eq_none (Nat.le_of_not_lt hlt)]
    split
    · next heq =>
      subst heq
      have hpad : id.raw - w.storages.size < id.raw + 1 - w.storages.size := by omega
      simp only [hpad, if_true]
      rfl
    · split <;> rfl

end World

end EntityStore
