/-!
# Tuples of slots

A row of fixed length whose slots are read and written by position.  Each slot has a type of its
own, and writing one slot leaves the others alone.

* `SlotTuple.get`, `SlotTuple.set` — access to a slot;
* `get_set_self`, `get_set_of_ne` — a slot is what was last written to it.
-/

namespace EntityStore

/-- A tuple with slots of the types `τ i`. -/
structure SlotTuple {n : Nat} (τ : Fin n → Type) where
  slot : (i : Fin n) → τ i

namespace SlotTuple

variable {n : Nat} {τ : Fin n → Type}

def size (_ : SlotTuple τ) : Nat :=
  n

def get (t : SlotTuple τ) (i : Fin n) : τ i :=
  t.slot i

def set (t : SlotTuple τ) (i : Fin n) (x : τ i) : SlotTuple τ :=
  ⟨fun j => if h : i = j then h ▸ x else t.slot j⟩

theorem get_set_self (t : SlotTuple τ) (i : Fin n) (x : τ i) : (t.set i x).get i = x := by
  simp only [get, set, dif_pos]

theorem get_set_of_ne (t : SlotTuple τ) {i j : Fin n} (h : i ≠ j) (x : τ i) :
    (t.set i x).get j = t.get j := by
  simp only [get, set, dif_neg h]

end SlotTuple

end EntityStore
