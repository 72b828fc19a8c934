import EntityStore.Entity

/-!
# Allocation of entities

A table of slots, each empty or owned by one generation, and the entities that wait for their
slot to be used again.  What was released last is handed out first; when nothing waits, the
table grows by one slot.

* `Allocator.contains` — the entity is alive;
* `Allocator.allocate`, `Allocator.release` — hand out an entity, take it back;
* `Allocator.size` — the number of live entities.

Slot 0 is never handed out, so the first entity of an empty table lives in slot 1.
-/

namespace EntityStore

/-- Slots with their live generation, and the entities to hand out next. -/
structure Allocator where
  slots : Array (Option Generation) := #[none]
  /-- Entities to hand out in vacated slots, the next one first. -/
  free : List Entity := []
deriving Inhabited

namespace Allocator

/-- An entity is alive while its slot holds its generation. -/
def contains (a : Allocator) (e : Entity) : Bool :=
  a.slots[e.slot]? == some (some e.generation)

def size (a : Allocator) : Nat :=
  a.slots.countP Option.isSome

/-- Hands out an entity, which is alive from then on. -/
def allocate (a : Allocator) : Entity × Allocator :=
  match a.free with
  | e :: rest =>
    (e, { slots := a.slots.setIfInBounds e.slot (some e.generation), free := rest })
  | [] =>
    (⟨a.slots.size, 0⟩, { a with slots := a.slots.push (some 0) })

/-- Takes a live entity back; its slot waits with the next generation.  An entity that is not
alive is refused. -/
def release (a : Allocator) (e : Entity) : Option Allocator :=
  if a.contains e then
    some
      { slots := a.slots.setIfInBounds e.slot none
        free := ⟨e.slot, e.generation + 1⟩ :: a.free }
  else
    none

theorem release_isSome (a : Allocator) (e : Entity) :
    (a.release e).isSome = a.contains e := by
  unfold release
  split <;> simp_all

end Allocator

end EntityStore
