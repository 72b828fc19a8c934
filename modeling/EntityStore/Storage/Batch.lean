import EntityStore.Storage.Table

/-!
# Batches: several instances an entity

A batch table keeps a list of instances for each entity that holds the component, in the order
in which they were inserted.  With a limit, instances beyond it are dropped; with limit zero
nothing is ever kept.

* `BatchTable.insert` — appends, within the limit;
* `BatchTable.instances`, `BatchTable.count` — all instances of an entity, and their number.
-/

namespace EntityStore

/-- Lists of instances with an optional bound on their length. -/
structure BatchTable (α : Type) where
  /-- Greatest number of instances an entity; unbounded if there is none. -/
  limit : Option Nat
  table : Table (List α) := {}

namespace BatchTable

variable {α : Type}

/-- Whether a list of `n` instances can take no more. -/
def full (limit : Option Nat) (n : Nat) : Bool :=
  match limit with
  | some bound => bound ≤ n
  | none => false

/-- All instances of an entity, in insertion order. -/
def instances (b : BatchTable α) (e : Entity) : List α :=
  (b.table.get? e).getD []

def count (b : BatchTable α) (e : Entity) : Nat :=
  (b.instances e).length

/-- Appends an instance and marks the entity.  A full list drops the instance and marks
nothing. -/
def insert (b : BatchTable α) (e : Entity) (a : α) : BatchTable α :=
  if full b.limit (b.count e) then b
  else { b with table := b.table.insert e (b.instances e ++ [a]) }

theorem limit_insert (b : BatchTable α) (e : Entity) (a : α) :
    (b.insert e a).limit = b.limit := by
  unfold insert
  split <;> rfl

end BatchTable

end EntityStore
