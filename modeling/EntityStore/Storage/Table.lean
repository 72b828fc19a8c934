import EntityStore.ChangeFlags
import EntityStore.SparseSet

/-!
# Tables: sparse sets with changed flags

A table keeps the instances of one component for the entities that hold it, and remembers
which of them were changed.  A value that is inserted, a value that is fetched for writing and
an explicit mark flag their entity; a value that is read flags nothing.

* `Table.insert`, `Table.erase`, `Table.clear` — presence;
* `Table.get?`, `Table.touch`, `Table.write` — reading, fetching for writing, writing;
* `Table.mark` — an explicit mark, which counts for held entities only.

Erasing an entity takes its flag back also when the entity is not held, so the flag of a slot
never outlives the entity that it was set for.
-/

namespace EntityStore

/-- Instances of one component with their changed flags. -/
structure Table (α : Type) where
  set : SparseSet α := {}
  flags : ChangeFlags := {}

namespace Table

variable {α : Type}

instance : Inhabited (Table α) := ⟨{}⟩

def contains (t : Table α) (e : Entity) : Bool :=
  t.set.contains e

def get? (t : Table α) (e : Entity) : Option α :=
  t.set.get? e

/-- The entities that hold the component, in row order. -/
def entities (t : Table α) : List Entity :=
  t.set.entities.toList

def toList (t : Table α) : List (Entity × α) :=
  t.set.toList

/-- The table with its flags replaced by what `f` makes of them. -/
def mapFlags (f : ChangeFlags → ChangeFlags) (t : Table α) : Table α :=
  { t with flags := f t.flags }

/-- Creates or overwrites the instance of an entity and marks it. -/
def insert (t : Table α) (e : Entity) (a : α) : Table α :=
  { set := t.set.insert e a, flags := t.flags.mark e }

/-- Takes the entity's flag back and drops its instance. -/
def erase (t : Table α) (e : Entity) : Table α :=
  { set := t.set.erase e, flags := t.flags.unmark e }

def clear (t : Table α) : Table α :=
  { set := {}, flags := t.flags.unmarkAll }

/-- Marks the entity if it holds the component. -/
def mark (t : Table α) (e : Entity) : Table α :=
  if t.contains e then t.mapFlags (·.mark e) else t

/-- Fetches the instance for writing, which marks a held entity. -/
def touch (t : Table α) (e : Entity) : Table α :=
  if (t.set.row? e).isSome then t.mapFlags (·.mark e) else t

/-- Writes through an earlier fetch: only the instance changes. -/
def write (t : Table α) (e : Entity) (f : α → α) : Table α :=
  { t with set := t.set.modify e f }

@[simp] theorem set_touch (t : Table α) (e : Entity) : (t.touch e).set = t.set := by
  unfold touch
  split <;> rfl

@[simp] theorem set_mark (t : Table α) (e : Entity) : (t.mark e).set = t.set := by
  unfold mark
  split <;> rfl

@[simp] theorem entities_write (t : Table α) (e : Entity) (f : α → α) :
    (t.write e f).entities = t.entities := by
  simp only [entities, write, SparseSet.entities_modify]

end Table

end EntityStore
