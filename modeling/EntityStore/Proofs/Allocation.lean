import EntityStore.Entity.Allocator
import Mathlib.Data.Finset.Card
import Mathlib.Data.List.Nodup

/-!
# Allocation: live entities keep their slots

Handing out and taking back entities never touches another live one.

* `Allocator.eq_of_slot_eq` — a slot belongs to at most one live entity;
* `Allocator.Valid` — what waits to be handed out again lives in slots of its own, all vacant;
* `Valid.allocate`, `Valid.release` — both operations keep the table valid;
* `Valid.contains_allocate`, `contains_release` — who is alive afterwards;
* `Valid.slot_ne_allocate` — a new entity gets a slot of its own;
* `Allocator.live`, `card_live` — everybody who is alive, and how many they are.
-/

namespace EntityStore.Allocator

theorem contains_iff (a : Allocator) (e : Entity) :
    a.contains e = true ↔ a.slots[e.slot]? = some (some e.generation) := by
  simp only [contains, beq_iff_eq]

/-- **A slot has one owner.**  Two live entities in one slot are the same. -/
theorem eq_of_slot_eq {a : Allocator} {e e' : Entity} (h : a.contains e = true)
    (h' : a.contains e' = true) (hslot : e.slot = e'.slot) : e = e' := by
  rw [contains_iff] at h h'
  rw [hslot, h', Option.some.injEq, Option.some.injEq] at h
  cases e
  cases e'
  simp only at hslot h
  rw [hslot, h]

/-- The waiting entities have vacant slots, all different. -/
structure Valid (a : Allocator) : Prop where
  vacant : ∀ e ∈ a.free, a.slots[e.slot]? = some none
  nodup : (a.free.map Entity.slot).Nodup

theorem valid_initial : Valid ({} : Allocator) :=
  ⟨by simp, by simp⟩

/-! ### Handing out -/

theorem Valid.allocate {a : Allocator} (h : a.Valid) : a.allocate.2.Valid := by
  rw [Allocator.allocate]
  split
  · next e rest hfree =>
    have hnodup := h.nodup
    rw [hfree, List.map_cons, List.nodup_cons] at hnodup
    refine ⟨?_, hnodup.2⟩
    intro e' he'
    have hne : e.slot ≠ e'.slot := by
      intro hslot
      exact hnodup.1 (hslot ▸ List.mem_map_of_mem he')
    show (a.slots.setIfInBounds e.slot (some e.generation))[e'.slot]? = some none
    rw [Array.getElem?_setIfInBounds_ne hne]
    exact h.vacant e' (hfree ▸ List.mem_cons_of_mem e he')
  · next hfree =>
    refine ⟨?_, ?_⟩
    · intro e he
      rw [show a.free = [] from hfree] at he
      cases he
    · exact h.nodup

/-- The new entity is alive, and whoever was alive stays so. -/
theorem Valid.contains_allocate {a : Allocator} (h : a.Valid) (e : Entity) :
    a.allocate.2.contains e = (decide (a.allocate.1 = e) || a.contains e) := by
  rw [Bool.eq_iff_iff, Bool.or_eq_true, decide_eq_true_iff, contains_iff, contains_iff]
  rw [Allocator.allocate]
  split
  · next new rest hfree =>
    have hvacant := h.vacant new (hfree ▸ List.mem_cons_self)
    have hlt := (Array.getElem?_eq_some_iff.1 hvacant).1
    simp only [Array.getElem?_setIfInBounds]
    by_cases hslot : new.slot = e.slot
    · rw [← hslot, hvacant]
      cases new
      cases e
      simp_all
    · have hne : new ≠ e := by
        intro he
        exact hslot (he ▸ rfl)
      simp [hslot, hne]
  · simp only [Array.getElem?_push]
    by_cases hslot : e.slot = a.slots.size
    · cases e
      simp_all [eq_comm]
    · have hne : (⟨a.slots.size, 0⟩ : Entity) ≠ e := by
        intro he
        exact hslot (he ▸ rfl)
      simp [hslot, hne]

theorem Valid.contains_allocate_self {a : Allocator} (h : a.Valid) :
    a.allocate.2.contains a.allocate.1 = true := by
  rw [h.contains_allocate, decide_eq_true rfl, Bool.true_or]

/-- **A new entity gets a slot of its own.**  Nobody who is alive lives in it. -/
theorem Valid.slot_ne_allocate {a : Allocator} (h : a.Valid) {e : Entity}
    (he : a.contains e = true) : e.slot ≠ a.allocate.1.slot := by
  rw [contains_iff] at he
  rw [Allocator.allocate]
  split
  · next new rest hfree =>
    have hvacant := h.vacant new (hfree ▸ List.mem_cons_self)
    intro hslot
    rw [hslot, hvacant] at he
    cases he
  · have hlt := (Array.getElem?_eq_some_iff.1 he).1
    exact Nat.ne_of_lt hlt

/-! ### Taking back -/

theorem release_eq_some_iff {a a' : Allocator} {e : Entity} :
    a.release e = some a' ↔
      a.contains e = true ∧
        a' =
          { slots := a.slots.setIfInBounds e.slot none
            free := ⟨e.slot, e.generation + 1⟩ :: a.free } := by
  rw [release]
  split
  · next h => simp [h, eq_comm]
  · next h => simp [h]

theorem Valid.release {a a' : Allocator} (h : a.Valid) {e : Entity}
    (hr : a.release e = some a') : a'.Valid := by
  obtain ⟨halive, rfl⟩ := release_eq_some_iff.1 hr
  rw [contains_iff] at halive
  have hlt := (Array.getElem?_eq_some_iff.1 halive).1
  refine ⟨?_, ?_⟩
  · intro e' he'
    by_cases hslot : e.slot = e'.slot
    · simp [← hslot, Array.getElem?_setIfInBounds_self_of_lt hlt]
    · rw [Array.getElem?_setIfInBounds_ne hslot]
      rcases List.mem_cons.1 he' with rfl | he'
      · exact absurd rfl hslot
      · exact h.vacant e' he'
  · rw [List.map_cons, List.nodup_cons]
    refine ⟨?_, h.nodup⟩
    intro hmem
    obtain ⟨e', he', hslot⟩ := List.mem_map.1 hmem
    -- a waiting slot is vacant, and the one of a live entity is not
    have hvacant := h.vacant e' he'
    rw [hslot, halive] at hvacant
    cases hvacant

/-- Only the entity that was taken back is no longer alive. -/
theorem contains_release {a a' : Allocator} {e : Entity} (hr : a.release e = some a')
    (e' : Entity) : a'.contains e' = (a.contains e' && !decide (e = e')) := by
  obtain ⟨halive, rfl⟩ := release_eq_some_iff.1 hr
  have hlt : e.slot < a.slots.size :=
    (Array.getElem?_eq_some_iff.1 ((contains_iff a e).1 halive)).1
  by_cases he : e = e'
  · subst he
    simp [contains, Array.getElem?_setIfInBounds_self_of_lt hlt]
  · by_cases hslot : e.slot = e'.slot
    · have hdead : a.contains e' = false := by
        rw [Bool.eq_false_iff]
        intro h'
        exact he (eq_of_slot_eq halive h' hslot)
      rw [hdead, Bool.false_and, Bool.eq_false_iff]
      intro h'
      rw [contains_iff, ← hslot, Array.getElem?_setIfInBounds_self_of_lt hlt] at h'
      cases h'
    · simp [contains, Array.getElem?_setIfInBounds_ne hslot, he]

/-- Who is handed out and taken back at once leaves everybody as they were. -/
theorem Valid.contains_release_allocate {a a' : Allocator} (h : a.Valid)
    (hr : a.allocate.2.release a.allocate.1 = some a') (e : Entity) :
    a'.contains e = a.contains e := by
  rw [contains_release hr, h.contains_allocate]
  by_cases he : a.allocate.1 = e
  · have hdead : a.contains e = false := by
      rw [Bool.eq_false_iff]
      intro halive
      exact h.slot_ne_allocate halive (congrArg Entity.slot he.symm)
    simp [he, hdead]
  · simp [he]

/-! ### Everybody who is alive -/

def occupant? (entry : Option Generation × Nat) : Option Entity :=
  entry.1.map fun generation => ⟨entry.2, generation⟩

theorem occupant?_eq_some_iff {entry : Option Generation × Nat} {e : Entity} :
    occupant? entry = some e ↔ entry = (some e.generation, e.slot) := by
  obtain ⟨generation, slot⟩ := entry
  rw [occupant?, Option.map_eq_some_iff]
  constructor
  · rintro ⟨g, hg, rfl⟩
    exact Prod.ext hg rfl
  · intro h
    cases h
    exact ⟨e.generation, rfl, rfl⟩

/-- The live entities, by slot. -/
def occupants (a : Allocator) : List Entity :=
  a.slots.toList.zipIdx.filterMap occupant?

theorem mem_occupants (a : Allocator) (e : Entity) : e ∈ a.occupants ↔ a.contains e = true := by
  rw [occupants, List.mem_filterMap, contains_iff]
  simp only [occupant?_eq_some_iff, exists_eq_right]
  rw [List.mem_zipIdx_iff_getElem?, Array.getElem?_toList]

theorem nodup_occupants (a : Allocator) : a.occupants.Nodup := by
  have hslots : (a.slots.toList.zipIdx).Nodup := by
    apply List.Nodup.of_map Prod.snd
    rw [List.zipIdx_map_snd]
    exact List.nodup_range'
  refine hslots.filterMap ?_
  intro entry entry' e he he'
  rw [Option.mem_def, occupant?_eq_some_iff] at he he'
  rw [he, he']

theorem length_occupants (a : Allocator) : a.occupants.length = a.size := by
  have hsome : (fun entry => (occupant? entry).isSome) = Option.isSome ∘ Prod.fst := by
    funext entry
    exact Option.isSome_map
  rw [occupants, List.length_filterMap_eq_countP, hsome, ← List.countP_map, List.zipIdx_map_fst,
    Array.countP_toList]
  rfl

def live (a : Allocator) : Finset Entity :=
  a.occupants.toFinset

theorem mem_live (a : Allocator) (e : Entity) : e ∈ a.live ↔ a.contains e = true := by
  rw [live, List.mem_toFinset, mem_occupants]

/-- **The size is the number of live entities.** -/
theorem card_live (a : Allocator) : a.live.card = a.size := by
  rw [live, List.toFinset_card_of_nodup a.nodup_occupants, length_occupants]

/-- The size tells only who is alive. -/
theorem size_eq_of_contains {a a' : Allocator} (h : ∀ e, a'.contains e = a.contains e) :
    a'.size = a.size := by
  rw [← card_live, ← card_live]
  congr 1
  ext e
  rw [mem_live, mem_live, h]

end EntityStore.Allocator
