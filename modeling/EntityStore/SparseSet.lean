import EntityStore.Entity
import Std.Data.TreeMap.Basic

/-!
# Sparse sets

Values keyed by entity, kept in dense rows so that they can be walked without gaps.  A value
and its entity stand at the same row, and an index leads from the entity to the row.  Erasing
moves the last row into the gap.

* `SparseSet.get?`, `SparseSet.contains` — look-up through the index;
* `SparseSet.insert`, `SparseSet.modify`, `SparseSet.erase` — the operations;
* `SparseSet.toList` — the pairs in row order.
-/

namespace EntityStore

/-- Dense rows of values with their entities, and the row of each entity. -/
structure SparseSet (α : Type) where
  rows : Array α := #[]
  entities : Array Entity := #[]
  index : Std.TreeMap Entity Nat := {}

namespace SparseSet

variable {α : Type}

instance : Inhabited (SparseSet α) := ⟨{}⟩

def contains (s : SparseSet α) (e : Entity) : Bool :=
  s.index.contains e

def row? (s : SparseSet α) (e : Entity) : Option Nat :=
  s.index[e]?

def get? (s : SparseSet α) (e : Entity) : Option α :=
  (s.row? e).bind (s.rows[·]?)

def size (s : SparseSet α) : Nat :=
  s.entities.size

def toList (s : SparseSet α) : List (Entity × α) :=
  s.entities.toList.zip s.rows.toList

/-- Overwrites the value of an entity that has a row, and appends a row for any other. -/
def insert (s : SparseSet α) (e : Entity) (a : α) : SparseSet α :=
  match s.row? e with
  | some row => { s with rows := s.rows.setIfInBounds row a }
  | none =>
    { rows := s.rows.push a
      entities := s.entities.push e
      index := s.index.insert e s.rows.size }

/-- Changes the value of an entity in place. -/
def modify (s : SparseSet α) (e : Entity) (f : α → α) : SparseSet α :=
  match s.row? e with
  | some row => { s with rows := s.rows.modify row f }
  | none => s

/-- The array without position `i`: the last element moves there. -/
def swapRemove {β : Type} (xs : Array β) (i : Nat) : Array β :=
  match xs.back? with
  | some last => (xs.setIfInBounds i last).pop
  | none => xs

theorem size_swapRemove {β : Type} (xs : Array β) (i : Nat) :
    (swapRemove xs i).size = xs.size - 1 := by
  unfold swapRemove
  split
  · simp only [Array.size_pop, Array.size_setIfInBounds]
  · next h => simp_all

/-- Drops the row of an entity.  The entity that moves into the gap gets the row. -/
def erase (s : SparseSet α) (e : Entity) : SparseSet α :=
  match s.row? e with
  | none => s
  | some row =>
    let entities := swapRemove s.entities row
    let index := s.index.erase e
    { rows := swapRemove s.rows row
      entities
      index :=
        match entities[row]? with
        | some moved => index.insert moved row
        | none => index }

theorem erase_of_row?_eq_none {s : SparseSet α} {e : Entity} (h : s.row? e = none) :
    s.erase e = s := by
  simp only [erase, h]

theorem modify_of_row?_eq_none {s : SparseSet α} {e : Entity} (h : s.row? e = none)
    (f : α → α) : s.modify e f = s := by
  simp only [modify, h]

@[simp] theorem entities_modify (s : SparseSet α) (e : Entity) (f : α → α) :
    (s.modify e f).entities = s.entities := by
  unfold modify
  split <;> rfl

@[simp] theorem index_modify (s : SparseSet α) (e : Entity) (f : α → α) :
    (s.modify e f).index = s.index := by
  unfold modify
  split <;> rfl

end SparseSet

end EntityStore
