import EntityStore.Proofs.SparseSet
import Mathlib.Logic.Function.Basic

/-!
# Ordered maps: what a sparse set looks like from outside

An ordered map has a list of keys and a value for each of them.  A new key goes to the end; when
a key is dropped, the last one takes its position.  Seen through its look-ups and its listing a
sparse set is such a map, and its operations are the operations of the map.

* `vacate` — the order after a key is dropped, and `vacate_concat`, `vacate_of_notMem`;
* `OrderedMap` with `insert`, `modify`, `erase`, `toList` — the map;
* `SparseSet.toMap` — the map that a sparse set stands for;
* `Valid.toMap_insert`, `Valid.toMap_modify`, `Valid.toMap_erase` — the operations agree;
* `Valid.toList_eq`, `Valid.contains_eq_decide`, `size_eq` — so do listing, presence and size.
-/

namespace EntityStore

variable {α : Type}

/-! ### Dropping a key -/

/-- The order without a key: the last key takes its position. -/
def vacate (order : List Entity) (e : Entity) : List Entity :=
  if e ∈ order then (order.set (order.idxOf e) (order.getLast?.getD e)).dropLast else order

theorem vacate_of_notMem {order : List Entity} {e : Entity} (h : e ∉ order) :
    vacate order e = order :=
  if_neg h

/-- A key that came last leaves the order as it was. -/
theorem vacate_concat {order : List Entity} {e : Entity} (h : e ∉ order) :
    vacate (order ++ [e]) e = order := by
  have hmem : e ∈ order ++ [e] := by simp
  have hidx : (order ++ [e]).idxOf e = order.length := by
    rw [List.idxOf_append, if_neg h, List.idxOf_cons_self, Nat.zero_add]
  rw [vacate, if_pos hmem, hidx, List.set_append_right _ _ (Nat.le_refl _), Nat.sub_self]
  simp

example : vacate [⟨1, 0⟩, ⟨2, 0⟩, ⟨3, 0⟩, ⟨4, 0⟩] ⟨2, 0⟩ = [⟨1, 0⟩, ⟨4, 0⟩, ⟨3, 0⟩] := by decide

/-! ### The map -/

/-- Keys in order, with their values. -/
structure OrderedMap (α : Type) where
  keys : List Entity := []
  value : Entity → Option α := fun _ => none

namespace OrderedMap

/-- Gives a key a value.  A new key goes to the end. -/
def insert (m : OrderedMap α) (e : Entity) (a : α) : OrderedMap α where
  keys := if e ∈ m.keys then m.keys else m.keys ++ [e]
  value := Function.update m.value e (some a)

def modify (m : OrderedMap α) (e : Entity) (f : α → α) : OrderedMap α where
  keys := m.keys
  value := Function.update m.value e ((m.value e).map f)

/-- Drops a key.  The last key takes its position. -/
def erase (m : OrderedMap α) (e : Entity) : OrderedMap α where
  keys := vacate m.keys e
  value := Function.update m.value e none

def toList (m : OrderedMap α) : List (Entity × α) :=
  m.keys.filterMap fun e => (m.value e).map (e, ·)

end OrderedMap

/-! ### Sparse sets are ordered maps -/

namespace SparseSet

/-- The map that a sparse set stands for. -/
def toMap (s : SparseSet α) : OrderedMap α :=
  ⟨s.entities.toList, s.get?⟩

theorem toMap_empty : toMap ({} : SparseSet α) = {} := by
  have hget : get? ({} : SparseSet α) = fun _ => none := by
    funext e
    simp [get?, row?]
  rw [toMap, hget]

theorem toList_swapRemove {β : Type} (xs : Array β) (i : Nat) (b : β) :
    (swapRemove xs i).toList = (xs.toList.set i (xs.toList.getLast?.getD b)).dropLast := by
  rw [swapRemove]
  cases hlast : xs.back? with
  | none =>
      have hempty : xs = #[] := by simpa using hlast
      subst hempty
      rfl
  | some last =>
      have hlast' : xs.toList.getLast? = some last := by
        rw [Array.getLast?_toList, hlast]
      show (xs.setIfInBounds i last).pop.toList = _
      rw [Array.toList_pop, Array.toList_setIfInBounds, hlast', Option.getD_some]

theorem size_eq (s : SparseSet α) : s.size = s.toMap.keys.length := by
  simp [size, toMap]

namespace Valid

variable {s : SparseSet α}

/-- The index of an entity is its position in the listing. -/
theorem row?_eq_idxOf (h : s.Valid) {e : Entity} {row : Nat} (hrow : s.row? e = some row) :
    s.entities.toList.idxOf e = row := by
  have hat := (h.row?_eq_some_iff e row).1 hrow
  obtain ⟨hlt, rfl⟩ := Array.getElem?_eq_some_iff.1 hat
  have hlt' : row < s.entities.toList.length := by simpa using hlt
  simpa using h.nodup.idxOf_getElem row hlt'

theorem mem_of_row? (h : s.Valid) {e : Entity} {row : Nat} (hrow : s.row? e = some row) :
    e ∈ s.entities.toList := by
  rw [← h.contains_iff_mem, contains_eq_isSome_row?, hrow]
  rfl

theorem notMem_of_row? (h : s.Valid) {e : Entity} (hrow : s.row? e = none) :
    e ∉ s.entities.toList := by
  rw [← h.contains_iff_mem, contains_eq_isSome_row?, hrow]
  simp

theorem toMap_insert (h : s.Valid) (e : Entity) (a : α) :
    (s.insert e a).toMap = s.toMap.insert e a := by
  have hvalue : (s.insert e a).get? = Function.update s.get? e (some a) := by
    funext e'
    rw [h.get?_insert, Function.update_apply]
    simp only [eq_comm]
  have hkeys : (s.insert e a).entities.toList =
      if e ∈ s.entities.toList then s.entities.toList else s.entities.toList ++ [e] := by
    cases hrow : s.row? e with
    | none => rw [insert_of_row?_eq_none hrow, if_neg (h.notMem_of_row? hrow), Array.toList_push]
    | some row => rw [insert_of_row?_eq_some hrow, if_pos (h.mem_of_row? hrow)]
  rw [toMap, hvalue, hkeys]
  rfl

theorem toMap_modify (h : s.Valid) (e : Entity) (f : α → α) :
    (s.modify e f).toMap = s.toMap.modify e f := by
  have hvalue : (s.modify e f).get? = Function.update s.get? e ((s.get? e).map f) := by
    funext e'
    rw [h.get?_modify, Function.update_apply]
    by_cases he : e = e'
    · simp [he]
    · simp [he, Ne.symm he]
  rw [toMap, hvalue, entities_modify]
  rfl

theorem toMap_erase (h : s.Valid) (e : Entity) : (s.erase e).toMap = s.toMap.erase e := by
  have hvalue : (s.erase e).get? = Function.update s.get? e none := by
    funext e'
    rw [h.get?_erase, Function.update_apply]
    simp only [eq_comm]
  have hkeys : (s.erase e).entities.toList = vacate s.entities.toList e := by
    cases hrow : s.row? e with
    | none => rw [erase_of_row?_eq_none hrow, vacate_of_notMem (h.notMem_of_row? hrow)]
    | some row =>
        rw [erase_of_row?_eq_some hrow, vacate, if_pos (h.mem_of_row? hrow), h.row?_eq_idxOf hrow]
        exact toList_swapRemove s.entities row e
  rw [toMap, hvalue, hkeys]
  rfl

/-- The rows list every key with its value. -/
theorem toList_eq (h : s.Valid) : s.toList = s.toMap.toList := by
  have hrows : s.toMap.toList =
      s.entities.toList.filterMap fun e => (s.get? e).map (e, ·) := rfl
  have hat : ∀ p ∈ s.toList, (s.get? p.1).map (p.1, ·) = some p := by
    intro p hp
    obtain ⟨i, hi⟩ := List.mem_iff_getElem?.1 hp
    rw [toList, List.getElem?_zip_eq_some, Array.getElem?_toList, Array.getElem?_toList] at hi
    rw [get?, (h.row?_eq_some_iff p.1 i).2 hi.1, Option.bind_some, hi.2]
    rfl
  have hkeys : s.toList.map Prod.fst = s.entities.toList := by
    apply List.map_fst_zip
    simp [h.size_rows]
  rw [hrows, ← hkeys, List.filterMap_map]
  symm
  calc s.toList.filterMap ((fun e => (s.get? e).map (e, ·)) ∘ Prod.fst)
      = s.toList.filterMap some := List.filterMap_congr hat
    _ = s.toList := List.filterMap_some

theorem contains_eq_decide (h : s.Valid) (e : Entity) :
    s.contains e = decide (e ∈ s.toMap.keys) := by
  rw [Bool.eq_iff_iff, h.contains_iff_mem, decide_eq_true_iff]
  rfl

end Valid

end SparseSet

end EntityStore
