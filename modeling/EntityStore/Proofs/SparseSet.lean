import EntityStore.SparseSet
import Mathlib.Data.List.Nodup
import Std.Data.TreeMap.Lemmas

/-!
# Sparse sets: the index leads to the rows

The rows of a sparse set, their entities and the index are kept in step by every operation.

* `SparseSet.Valid` — as many rows as entities, and the index leads from an entity exactly to the
  row that it stands at;
* `Valid.insert`, `Valid.modify`, `Valid.erase` — every operation keeps the set valid;
* `Valid.contains_iff_mem`, `Valid.nodup` — look-up and the entity list tell the same, and each
  entity is listed once;
* `contains_insert`, `Valid.contains_erase` — presence after an operation;
* `Valid.get?_insert`, `Valid.get?_modify`, `Valid.get?_erase` — the value of each entity after an
  operation;
* `mem_rows_insert` and the following — where the values of a set come from.
-/

namespace EntityStore.SparseSet

variable {α : Type}

/-- The dense arrays and the index say the same. -/
structure Valid (s : SparseSet α) : Prop where
  size_rows : s.rows.size = s.entities.size
  row?_eq_some_iff : ∀ e i, s.row? e = some i ↔ s.entities[i]? = some e

theorem valid_empty : Valid ({} : SparseSet α) where
  size_rows := rfl
  row?_eq_some_iff e i := by simp [row?]

/-! ### Reading a valid set -/

theorem contains_eq_isSome_row? (s : SparseSet α) (e : Entity) :
    s.contains e = (s.row? e).isSome := by
  simp only [contains, row?, Std.TreeMap.contains_eq_isSome_getElem?]

namespace Valid

variable {s : SparseSet α}

theorem row_lt (h : s.Valid) {e : Entity} {i : Nat} (hi : s.row? e = some i) :
    i < s.rows.size := by
  have hget := (h.row?_eq_some_iff e i).1 hi
  rw [h.size_rows]
  exact (Array.getElem?_eq_some_iff.1 hget).1

theorem contains_iff_mem (h : s.Valid) (e : Entity) :
    s.contains e = true ↔ e ∈ s.entities.toList := by
  rw [contains_eq_isSome_row?, Option.isSome_iff_exists, Array.mem_toList_iff,
    Array.mem_iff_getElem?]
  exact exists_congr fun i => h.row?_eq_some_iff e i

/-- An entity is listed once: both of its rows would be the one that the index gives. -/
theorem nodup (h : s.Valid) : s.entities.toList.Nodup := by
  rw [List.nodup_iff_injective_getElem]
  intro i j hij
  have hi : s.row? s.entities.toList[i] = some i.val :=
    (h.row?_eq_some_iff _ _).2 (by simp)
  have hj : s.row? s.entities.toList[j] = some j.val :=
    (h.row?_eq_some_iff _ _).2 (by simp)
  have hij' : s.entities.toList[i] = s.entities.toList[j] := hij
  rw [hij', hj] at hi
  exact Fin.ext (Option.some.inj hi).symm

/-- A held entity has a value. -/
theorem isSome_get? (h : s.Valid) (e : Entity) : (s.get? e).isSome = s.contains e := by
  rw [contains_eq_isSome_row?, get?]
  cases hrow : s.row? e with
  | none => rfl
  | some i => simp [Array.getElem?_eq_getElem (h.row_lt hrow)]

end Valid

theorem mem_rows_of_get? {s : SparseSet α} {e : Entity} {a : α} (h : s.get? e = some a) :
    a ∈ s.rows := by
  obtain ⟨i, _, hi⟩ := Option.bind_eq_some_iff.1 h
  exact Array.mem_of_getElem? hi

/-! ### Inserting -/

theorem insert_of_row?_eq_some {s : SparseSet α} {e : Entity} {i : Nat} (h : s.row? e = some i)
    (a : α) : s.insert e a = { s with rows := s.rows.setIfInBounds i a } := by
  simp only [insert, h]

theorem insert_of_row?_eq_none {s : SparseSet α} {e : Entity} (h : s.row? e = none) (a : α) :
    s.insert e a =
      { rows := s.rows.push a
        entities := s.entities.push e
        index := s.index.insert e s.rows.size } := by
  simp only [insert, h]

theorem row?_insert_of_none {s : SparseSet α} {e : Entity} (h : s.row? e = none) (a : α)
    (e' : Entity) :
    (s.insert e a).row? e' = if e = e' then some s.rows.size else s.row? e' := by
  rw [insert_of_row?_eq_none h]
  simp only [row?, Std.TreeMap.getElem?_insert, Std.compare_eq_iff_eq]

theorem contains_insert (s : SparseSet α) (e : Entity) (a : α) (e' : Entity) :
    (s.insert e a).contains e' = (decide (e = e') || s.contains e') := by
  simp only [contains_eq_isSome_row?]
  cases hrow : s.row? e with
  | none =>
      rw [row?_insert_of_none hrow]
      by_cases he : e = e' <;> simp [he]
  | some i =>
      have hsame : (s.insert e a).row? e' = s.row? e' := by
        rw [insert_of_row?_eq_some hrow]
        rfl
      rw [hsame]
      by_cases he : e = e'
      · subst he
        simp [hrow]
      · simp [he]

theorem Valid.insert {s : SparseSet α} (h : s.Valid) (e : Entity) (a : α) :
    (s.insert e a).Valid := by
  cases hrow : s.row? e with
  | some i =>
      rw [insert_of_row?_eq_some hrow]
      exact ⟨by simpa only [Array.size_setIfInBounds] using h.size_rows, h.row?_eq_some_iff⟩
  | none =>
      refine ⟨?_, fun e' j => ?_⟩
      · rw [insert_of_row?_eq_none hrow]
        simp only [Array.size_push, h.size_rows]
      · rw [row?_insert_of_none hrow, insert_of_row?_eq_none hrow, h.size_rows,
          Array.getElem?_push]
        have hold := h.row?_eq_some_iff e' j
        by_cases hj : j = s.entities.size
        · -- the new row, which no entity stood at
          subst hj
          have hnone : s.row? e' ≠ some s.entities.size := fun hi => by simp [hi] at hold
          by_cases he : e = e' <;> simp [he, hnone]
        · -- an old row, at which the new entity did not stand
          by_cases he : e = e'
          · subst he
            simpa [hrow, hj, Ne.symm hj] using hold
          · simpa [he, hj] using hold

theorem mem_rows_insert {s : SparseSet α} {e : Entity} {a b : α} (h : b ∈ (s.insert e a).rows) :
    b = a ∨ b ∈ s.rows := by
  rw [insert] at h
  split at h
  · exact (Array.mem_or_eq_of_mem_setIfInBounds h).symm
  · exact (Array.mem_push.1 h).symm

/-- The row of an entity is nobody else's. -/
theorem Valid.row_ne {s : SparseSet α} (h : s.Valid) {e e' : Entity} {i j : Nat}
    (hi : s.row? e = some i) (hj : s.row? e' = some j) (hne : e ≠ e') : i ≠ j := by
  rintro rfl
  have hat := (h.row?_eq_some_iff e i).1 hi
  rw [(h.row?_eq_some_iff e' i).1 hj] at hat
  exact hne (Option.some.inj hat).symm

/-- The new value is that of its entity, and all other values stay. -/
theorem Valid.get?_insert {s : SparseSet α} (h : s.Valid) (e : Entity) (a : α) (e' : Entity) :
    (s.insert e a).get? e' = if e = e' then some a else s.get? e' := by
  cases hrow : s.row? e with
  | some i =>
      have hlt := h.row_lt hrow
      rw [insert_of_row?_eq_some hrow]
      show (s.row? e').bind (fun j => (s.rows.setIfInBounds i a)[j]?) = _
      by_cases he : e = e'
      · subst he
        rw [if_pos rfl, hrow]
        exact Array.getElem?_setIfInBounds_self_of_lt hlt
      · rw [if_neg he, get?]
        cases hrow' : s.row? e' with
        | none => rfl
        | some j => exact Array.getElem?_setIfInBounds_ne (h.row_ne hrow hrow' he)
  | none =>
      rw [get?, row?_insert_of_none hrow, insert_of_row?_eq_none hrow]
      by_cases he : e = e'
      · rw [if_pos he, if_pos he]
        exact Array.getElem?_push_size
      · rw [if_neg he, if_neg he, get?]
        cases hrow' : s.row? e' with
        | none => rfl
        | some j =>
            have hlt := h.row_lt hrow'
            show (s.rows.push a)[j]? = s.rows[j]?
            rw [Array.getElem?_push, if_neg (Nat.ne_of_lt hlt)]

/-! ### Writing in place -/

@[simp] theorem row?_modify (s : SparseSet α) (e : Entity) (f : α → α) (e' : Entity) :
    (s.modify e f).row? e' = s.row? e' := by
  simp only [row?, index_modify]

@[simp] theorem contains_modify (s : SparseSet α) (e : Entity) (f : α → α) (e' : Entity) :
    (s.modify e f).contains e' = s.contains e' := by
  simp only [contains, index_modify]

theorem Valid.modify {s : SparseSet α} (h : s.Valid) (e : Entity) (f : α → α) :
    (s.modify e f).Valid where
  size_rows := by
    rw [entities_modify, ← h.size_rows]
    rw [SparseSet.modify]
    split
    · simp only [Array.size_modify]
    · rfl
  row?_eq_some_iff e' i := by
    rw [row?_modify, entities_modify]
    exact h.row?_eq_some_iff e' i

/-- Only the value of the named entity changes. -/
theorem Valid.get?_modify {s : SparseSet α} (h : s.Valid) (e : Entity) (f : α → α)
    (e' : Entity) : (s.modify e f).get? e' = if e = e' then (s.get? e').map f else s.get? e' := by
  cases hrow : s.row? e with
  | none =>
      rw [modify_of_row?_eq_none hrow]
      by_cases he : e = e'
      · subst he
        rw [if_pos rfl, get?, hrow]
        rfl
      · rw [if_neg he]
  | some i =>
      rw [get?, row?_modify, get?]
      cases hrow' : s.row? e' with
      | none =>
          split <;> rfl
      | some j =>
          simp only [SparseSet.modify, hrow, Option.bind_some, Array.getElem?_modify]
          by_cases he : e = e'
          · subst he
            rw [hrow, Option.some.injEq] at hrow'
            rw [if_pos rfl, if_pos hrow']
          · rw [if_neg he, if_neg (h.row_ne hrow hrow' he)]

theorem mem_rows_modify {s : SparseSet α} {e : Entity} {f : α → α} {b : α}
    (h : b ∈ (s.modify e f).rows) : b ∈ s.rows ∨ ∃ a ∈ s.rows, b = f a := by
  rw [modify] at h
  split at h
  · next row _ =>
    obtain ⟨i, hi⟩ := Array.mem_iff_getElem?.1 h
    rw [Array.getElem?_modify] at hi
    split at hi
    · obtain ⟨a, ha, rfl⟩ := Option.map_eq_some_iff.1 hi
      exact .inr ⟨a, Array.mem_of_getElem? ha, rfl⟩
    · exact .inl (Array.mem_of_getElem? hi)
  · exact .inl h

/-! ### Erasing -/

/-- What stands where after the last element has moved into the gap. -/
theorem getElem?_swapRemove {β : Type} (xs : Array β) (i j : Nat) :
    (swapRemove xs i)[j]? =
      if j + 1 < xs.size then if i = j then xs[xs.size - 1]? else xs[j]? else none := by
  rw [swapRemove]
  split
  · next last hlast =>
    rw [Array.back?_eq_getElem?] at hlast
    rw [Array.getElem?_pop, Array.size_setIfInBounds, Array.getElem?_setIfInBounds, hlast]
    by_cases hj : j + 1 < xs.size
    · have hj' : j < xs.size - 1 := by omega
      by_cases he : i = j
      · subst he
        have hi : i < xs.size := by omega
        simp only [hj, hj', hi, if_true]
      · simp only [hj, hj', he, if_true, if_false]
    · have hj' : ¬ j < xs.size - 1 := by omega
      simp only [hj, hj', if_false]
  · next hnone =>
    have hsize : xs.size = 0 := by
      rw [Array.back?_eq_getElem?, Array.getElem?_eq_none_iff] at hnone
      omega
    have hj : ¬ j + 1 < xs.size := by omega
    have hj' : xs.size ≤ j := by omega
    simp only [hj, if_false, Array.getElem?_eq_none hj']

theorem mem_of_mem_swapRemove {β : Type} {xs : Array β} {i : Nat} {b : β}
    (h : b ∈ swapRemove xs i) : b ∈ xs := by
  obtain ⟨j, hj⟩ := Array.mem_iff_getElem?.1 h
  rw [getElem?_swapRemove] at hj
  split at hj
  · split at hj <;> exact Array.mem_of_getElem? hj
  · cases hj

theorem erase_of_row?_eq_some {s : SparseSet α} {e : Entity} {row : Nat}
    (h : s.row? e = some row) :
    s.erase e =
      { rows := swapRemove s.rows row
        entities := swapRemove s.entities row
        index :=
          match (swapRemove s.entities row)[row]? with
          | some moved => (s.index.erase e).insert moved row
          | none => s.index.erase e } := by
  rw [erase]
  generalize s.row? e = found at h
  subst h
  rfl

/-- After erasing the entity at `row`, the entity that moved into the gap is found there, and all
others where they were. -/
theorem row?_erase_of_some {s : SparseSet α} {e : Entity} {row : Nat} (h : s.row? e = some row)
    (e' : Entity) :
    (s.erase e).row? e' =
      if (swapRemove s.entities row)[row]? = some e' then some row
      else if e = e' then none else s.row? e' := by
  rw [erase_of_row?_eq_some h]
  cases hmoved : (swapRemove s.entities row)[row]? with
  | some moved =>
      simp only [row?, Option.some.injEq, Std.TreeMap.getElem?_insert,
        Std.TreeMap.getElem?_erase, Std.compare_eq_iff_eq]
  | none =>
      simp only [row?, reduceCtorEq, if_false, Std.TreeMap.getElem?_erase, Std.compare_eq_iff_eq]

theorem Valid.erase {s : SparseSet α} (h : s.Valid) (e : Entity) : (s.erase e).Valid := by
  cases hrow : s.row? e with
  | none =>
      rw [erase_of_row?_eq_none hrow]
      exact h
  | some row =>
      have hat : s.entities[row]? = some e := (h.row?_eq_some_iff e row).1 hrow
      refine ⟨?_, fun e' i => ?_⟩
      · rw [erase_of_row?_eq_some hrow]
        simp only [size_swapRemove, h.size_rows]
      · rw [row?_erase_of_some hrow, erase_of_row?_eq_some hrow]
        have hlt : row < s.entities.size := (Array.getElem?_eq_some_iff.1 hat).1
        have hold := h.row?_eq_some_iff e' i
        have hend : ∀ x, s.entities[s.entities.size - 1]? = some x →
            s.row? x = some (s.entities.size - 1) := fun x => (h.row?_eq_some_iff x _).2
        have hbound : s.entities[i]? = some e' → i < s.entities.size := fun hi =>
          (Array.getElem?_eq_some_iff.1 hi).1
        simp only [getElem?_swapRemove, if_true]
        by_cases hmid : row + 1 < s.entities.size
        · -- the last entity moves into the gap
          by_cases hi : row = i <;> grind
        · -- the erased entity was the last one
          have hrow' : row = s.entities.size - 1 := by omega
          grind

/-- Only the erased entity leaves the set. -/
theorem Valid.contains_erase {s : SparseSet α} (h : s.Valid) (e e' : Entity) :
    (s.erase e).contains e' = (s.contains e' && !decide (e = e')) := by
  simp only [contains_eq_isSome_row?]
  cases hrow : s.row? e with
  | none =>
      rw [erase_of_row?_eq_none hrow]
      by_cases he : e = e'
      · subst he
        simp [hrow]
      · simp [he]
  | some row =>
      rw [row?_erase_of_some hrow, getElem?_swapRemove]
      have hat : s.entities[row]? = some e := (h.row?_eq_some_iff e row).1 hrow
      have hend := h.row?_eq_some_iff e' (s.entities.size - 1)
      by_cases hmid : row + 1 < s.entities.size
      · by_cases hlast : s.entities[s.entities.size - 1]? = some e'
        · have hne : e ≠ e' := fun he => by
            rw [he, hend.2 hlast, Option.some.injEq] at hrow
            omega
          simp [hmid, hlast, hne, hend.2 hlast]
        · by_cases he : e = e' <;> simp [hmid, hlast, he]
      · by_cases he : e = e' <;> simp [hmid, he]

/-- The value of the erased entity is gone, and all other values stay: that of the entity which
moved into the gap moved along. -/
theorem Valid.get?_erase {s : SparseSet α} (h : s.Valid) (e e' : Entity) :
    (s.erase e).get? e' = if e = e' then none else s.get? e' := by
  cases hrow : s.row? e with
  | none =>
      rw [erase_of_row?_eq_none hrow]
      by_cases he : e = e'
      · subst he
        rw [if_pos rfl, get?, hrow]
        rfl
      · rw [if_neg he]
  | some row =>
      have hat : s.entities[row]? = some e := (h.row?_eq_some_iff e row).1 hrow
      have hlt : row < s.entities.size := (Array.getElem?_eq_some_iff.1 hat).1
      have hrows : (s.erase e).rows = swapRemove s.rows row := by
        rw [erase_of_row?_eq_some hrow]
      rw [get?, row?_erase_of_some hrow, hrows, getElem?_swapRemove, if_pos rfl]
      by_cases hmoved : row + 1 < s.entities.size ∧
          s.entities[s.entities.size - 1]? = some e'
      · -- the entity that moved into the gap
        obtain ⟨hmid, hlast⟩ := hmoved
        have hrow' : s.row? e' = some (s.entities.size - 1) := (h.row?_eq_some_iff e' _).2 hlast
        have hne : e ≠ e' := by
          rintro rfl
          rw [hrow, Option.some.injEq] at hrow'
          omega
        rw [if_pos hmid, if_pos hlast, if_neg hne, get?, hrow', Option.bind_some,
          Option.bind_some, getElem?_swapRemove, h.size_rows, if_pos hmid, if_pos rfl]
      · have hstays : ¬ (if row + 1 < s.entities.size then s.entities[s.entities.size - 1]?
            else none) = some e' := by
          split
          · next hmid => exact fun hlast => hmoved ⟨hmid, hlast⟩
          · nofun
        rw [if_neg hstays]
        by_cases he : e = e'
        · rw [if_pos he, if_pos he]
          rfl
        · rw [if_neg he, if_neg he, get?]
          cases hrow' : s.row? e' with
          | none => rfl
          | some j =>
              -- any other entity keeps its row, which is not the last one
              have hat' := (h.row?_eq_some_iff e' j).1 hrow'
              have hlt' : j < s.entities.size := (Array.getElem?_eq_some_iff.1 hat').1
              have hne := h.row_ne hrow hrow' he
              have hinner : j + 1 < s.entities.size := by
                by_contra hend
                have hj : j = s.entities.size - 1 := by omega
                subst hj
                exact hmoved ⟨by omega, hat'⟩
              show (swapRemove s.rows row)[j]? = s.rows[j]?
              rw [getElem?_swapRemove, h.size_rows, if_pos hinner, if_neg hne]

theorem mem_rows_erase {s : SparseSet α} {e : Entity} {a : α} (h : a ∈ (s.erase e).rows) :
    a ∈ s.rows := by
  cases hrow : s.row? e with
  | none => rwa [erase_of_row?_eq_none hrow] at h
  | some row =>
      rw [erase_of_row?_eq_some hrow] at h
      exact mem_of_mem_swapRemove h

end EntityStore.SparseSet
