import EntityStore.Proofs.Allocation
import EntityStore.Proofs.Fetching
import EntityStore.Proofs.Storage
import EntityStore.Query.Traversal

/-!
# Worlds: storages hold live entities only

A world is valid when its allocator and its storages are and no storage holds an entity that is
not alive.  Whatever does not insert keeps that for a simple reason: the entities stay, and each
storage comes from its former self without an insertion.

* `World.Valid` — the invariant of a world;
* `World.Within` — what all operations but insertion and removal have in common;
* `modifyStorage_congr`, `modifyStorage_const` — modifying a storage, seen from its slot;
* `within_perform`, `within_fetchRow`, `within_updateRow` — fetching and writing are of that kind;
* `Valid.spawnBare`, `Valid.despawn`, `Valid.insert`, `Valid.ensureSlot` — the other operations.
-/

namespace EntityStore

namespace World

/-- What every operation keeps. -/
structure Valid (w : World) : Prop where
  entities : w.entities.Valid
  storage : ∀ id s, w.storage? id = some s → s.Valid
  alive : ∀ id s, w.storage? id = some s → ∀ e, s.contains e = true → w.isAlive e = true

/-- The world came from another one without an insertion and with the same live entities. -/
structure Within (w' w : World) : Prop where
  entities : w'.entities = w.entities
  slots : w'.storages.size = w.storages.size
  storage : ∀ id s', w'.storage? id = some s' → ∃ s, w.storage? id = some s ∧ s'.Within s

theorem valid_initial : Valid ({} : World) where
  entities := Allocator.valid_initial
  storage id s h := by simp [storage?] at h
  alive id s h := by simp [storage?] at h

theorem Within.refl (w : World) : w.Within w where
  entities := rfl
  slots := rfl
  storage _ s' h := ⟨s', h, .refl s'⟩

theorem Within.trans {w₁ w₂ w₃ : World} (h : w₃.Within w₂) (h' : w₂.Within w₁) :
    w₃.Within w₁ where
  entities := h.entities.trans h'.entities
  slots := h.slots.trans h'.slots
  storage id s₃ hs₃ := by
    obtain ⟨s₂, hs₂, hwithin⟩ := h.storage id s₃ hs₃
    obtain ⟨s₁, hs₁, hwithin'⟩ := h'.storage id s₂ hs₂
    exact ⟨s₁, hs₁, hwithin.trans hwithin'⟩

theorem Within.valid {w' w : World} (h : w'.Within w) (hw : w.Valid) : w'.Valid where
  entities := by
    rw [h.entities]
    exact hw.entities
  storage id s' hs' := by
    obtain ⟨s, hs, hwithin⟩ := h.storage id s' hs'
    exact hwithin.valid (hw.storage id s hs)
  alive id s' hs' e he := by
    obtain ⟨s, hs, hwithin⟩ := h.storage id s' hs'
    show w'.entities.contains e = true
    rw [h.entities]
    exact hw.alive id s hs e (hwithin.contains (hw.storage id s hs) e he)

/-! ### Replacing a storage -/

/-- Only what is done to the storage in the slot counts. -/
theorem modifyStorage_congr {w : World} {id : ComponentId} {f g : Storage → Storage}
    (h : ∀ s, w.storage? id = some s → f s = g s) :
    w.modifyStorage id f = w.modifyStorage id g := by
  rw [modifyStorage]
  congr 1
  apply Array.ext_getElem?
  intro i
  rw [Array.getElem?_modify, Array.getElem?_modify]
  split
  · next hi =>
    subst hi
    rw [storage?] at h
    rcases hslot : w.storages[id.raw]? with _ | _ | s
    · rfl
    · rfl
    · rw [Option.map_some, Option.map_some, Option.map_some, Option.map_some,
        h s (by rw [hslot]; rfl)]
  · rfl

theorem modifyStorage_of_eq_self {w : World} {c : ComponentId} {f : Storage → Storage}
    (h : ∀ s, w.storage? c = some s → f s = s) : w.modifyStorage c f = w := by
  rw [modifyStorage_congr (g := id) h]
  have hsame : w.storages.modify c.raw (Option.map id) = w.storages := by
    apply Array.ext_getElem?
    intro i
    rw [Array.getElem?_modify, Option.map_id]
    split
    · exact Option.map_id'
    · rfl
  rw [modifyStorage]
  rw [hsame]

section Slot

variable {w : World} {id : ComponentId}

/-- What is made of the storage in the slot can be put there. -/
theorem modifyStorage_const {s : Storage} (hs : w.storage? id = some s) (f : Storage → Storage) :
    w.modifyStorage id (fun _ => f s) = w.modifyStorage id f := by
  apply modifyStorage_congr
  intro s' hs'
  rw [Option.some.inj (hs.symm.trans hs')]

/-- The storage in the slot can be put back. -/
theorem modifyStorage_const_self {s : Storage} (hs : w.storage? id = some s) :
    w.modifyStorage id (fun _ => s) = w := by
  apply modifyStorage_of_eq_self
  intro s' hs'
  exact Option.some.inj (hs.symm.trans hs')

/-- Nothing is done to an empty slot. -/
theorem modifyStorage_of_eq_none (h : w.storage? id = none) (f : Storage → Storage) :
    w.modifyStorage id f = w := by
  apply modifyStorage_of_eq_self
  intro s hs
  rw [h] at hs
  cases hs

end Slot

/-! ### Operations that do not insert -/

theorem within_modifyStorage (w : World) (id : ComponentId) {f : Storage → Storage}
    (hf : ∀ s, w.storage? id = some s → (f s).Within s) : (w.modifyStorage id f).Within w where
  entities := rfl
  slots := Array.size_modify
  storage id' s' hs' := by
    rw [storage?_modifyStorage] at hs'
    split at hs'
    · next hid =>
      subst hid
      obtain ⟨s, hs, rfl⟩ := Option.map_eq_some_iff.1 hs'
      exact ⟨s, hs, hf s hs⟩
    · exact ⟨s', hs', .refl s'⟩

theorem storage?_mapStorages (w : World) (entities : Allocator) (f : Storage → Storage)
    (id : ComponentId) :
    storage? { entities, storages := w.storages.map (Option.map f) } id =
      (w.storage? id).map f := by
  simp only [storage?, Array.getElem?_map]
  rcases w.storages[id.raw]? with _ | _ | s <;> rfl

theorem within_fetch (w : World) (id : ComponentId) (mutable : Bool) (e : Entity) :
    (w.fetch id mutable e).Within w :=
  within_modifyStorage w id fun s _ => s.within_fetch mutable e

theorem within_trace (w : World) (id : ComponentId) : (w.trace id).Within w :=
  within_modifyStorage w id fun s _ => s.within_mapFlags _

theorem within_detach (w : World) (e : Entity) (id : ComponentId) : (w.detach e id).2.Within w :=
  within_modifyStorage w id fun s _ => s.within_erase e

theorem within_writeFirst (w : World) (id : ComponentId) (e : Entity) (f : Record → Record) :
    (w.writeFirst id e f).Within w :=
  within_modifyStorage w id fun s _ => s.within_writeFirst e f

theorem within_writeAll (w : World) (id : ComponentId) (e : Entity) (f : Record → Record) :
    (w.writeAll id e f).Within w :=
  within_modifyStorage w id fun s _ => s.within_writeAll e f

theorem within_unmarkAll (w : World) : w.unmarkAll.Within w where
  entities := rfl
  slots := Array.size_map
  storage id s' hs' := by
    rw [unmarkAll, storage?_mapStorages] at hs'
    obtain ⟨s, hs, rfl⟩ := Option.map_eq_some_iff.1 hs'
    exact ⟨s, hs, s.within_mapFlags _⟩

theorem within_traceAll (w : World) (cs : List Column) : (w.traceAll cs).Within w := by
  induction cs generalizing w with
  | nil => exact .refl w
  | cons c rest ih =>
      show (traceAll (if (w.typed? c).isSome then w.trace c.id else w) rest).Within w
      split
      · exact (ih _).trans (within_trace w c.id)
      · exact ih w

theorem within_perform (st : FetchState) (e : Entity) (fs : List Fetch) :
    (st.perform e fs).world.Within st.world := by
  induction fs generalizing st with
  | nil =>
      rw [FetchState.perform_nil]
      exact .refl st.world
  | cons f rest ih =>
      rw [FetchState.perform_cons]
      exact (ih _).trans (within_fetch st.world f.component f.mutable e)

theorem within_fetchTerm (e : Entity) (t : Term Column) (st : FetchState) :
    (t.fetch e st).2.world.Within st.world := by
  obtain ⟨fs, hst, _⟩ := t.fetchesOnce_fetch e st
  rw [hst]
  exact within_perform st e fs

theorem within_pointTerm (e : Entity) (t : UntypedTerm) (st : FetchState) :
    (t.point e st).2.world.Within st.world := by
  obtain ⟨fs, hst, _⟩ := t.fetchesOnce_point e st
  rw [hst]
  exact within_perform st e fs

theorem within_fetchRow (e : Entity) (ts : List (Term Column)) (st : FetchState) :
    (fetchRow e ts st).2.world.Within st.world := by
  obtain ⟨fs, hst, _⟩ := fetches_fetchRow e ts st
  rw [hst]
  exact within_perform st e fs

theorem within_pointAll (e : Entity) (ts : List UntypedTerm) (st : FetchState) :
    (pointAll e ts st).2.world.Within st.world := by
  obtain ⟨fs, hst, _⟩ := fetches_pointAll e ts st
  rw [hst]
  exact within_perform st e fs

theorem within_update (f : Record → Record) (slot : Slot) (w : World) :
    (slot.update f w).Within w := by
  fun_induction Slot.update f slot w with
  | case1 c e w => exact within_writeFirst w c.id e f
  | case2 slot w ih => exact ih
  | case3 c e w => exact within_writeAll w c.id e f
  | case4 id _ e w => exact within_writeFirst w id e f
  | case5 id _ e _ w => exact within_writeAll w id e f
  | case6 _ w => exact .refl w

theorem within_updateRow (f : Record → Record) (row : Row) (w : World) :
    (updateRow f row w).Within w := by
  induction row generalizing w with
  | nil => exact .refl w
  | cons slot rest ih => exact (ih (slot.update f w)).trans (within_update f slot w)

/-! ### Operations that make, remove or insert -/

theorem Valid.spawnBare {w : World} (h : w.Valid) : w.spawnBare.2.Valid where
  entities := h.entities.allocate
  storage := h.storage
  alive id s hs e he := by
    show w.entities.allocate.2.contains e = true
    rw [h.entities.contains_allocate, Bool.or_eq_true]
    exact .inr (h.alive id s hs e he)

/-- An entity that is removed leaves every storage, so what is still held is still alive. -/
theorem Valid.despawn {w w' : World} {e : Entity} (h : w.Valid) (hd : w.despawn e = .ok w') :
    w'.Valid := by
  rw [World.despawn] at hd
  split at hd
  · cases hd
  · next entities hrelease =>
    cases hd
    refine ⟨h.entities.release hrelease, ?_, ?_⟩
    · intro id s' hs'
      rw [storage?_mapStorages] at hs'
      obtain ⟨s, hs, rfl⟩ := Option.map_eq_some_iff.1 hs'
      exact (s.within_erase e).valid (h.storage id s hs)
    · intro id s' hs' e' he'
      rw [storage?_mapStorages] at hs'
      obtain ⟨s, hs, rfl⟩ := Option.map_eq_some_iff.1 hs'
      have hvalid := h.storage id s hs
      rw [hvalid.contains_erase, Bool.and_eq_true] at he'
      show entities.contains e' = true
      rw [Allocator.contains_release hrelease, Bool.and_eq_true]
      exact ⟨h.alive id s hs e' he'.1, he'.2⟩

/-- Inserting for a live entity, in whatever way, keeps the world valid. -/
theorem Valid.modifyStorage {w : World} (h : w.Valid) {e : Entity} (halive : w.isAlive e = true)
    (id : ComponentId) {f : Storage → Storage} (hvalid : ∀ s : Storage, s.Valid → (f s).Valid)
    (hcontains : ∀ (s : Storage) (e' : Entity),
      (f s).contains e' = true → e = e' ∨ s.contains e' = true) :
    (w.modifyStorage id f).Valid where
  entities := h.entities
  storage id' s' hs' := by
    rw [storage?_modifyStorage] at hs'
    split at hs'
    · obtain ⟨s, hs, rfl⟩ := Option.map_eq_some_iff.1 hs'
      exact hvalid s (h.storage id' s hs)
    · exact h.storage id' s' hs'
  alive id' s' hs' e' he' := by
    rw [storage?_modifyStorage] at hs'
    split at hs'
    · obtain ⟨s, hs, rfl⟩ := Option.map_eq_some_iff.1 hs'
      rcases hcontains s e' he' with rfl | hold
      · exact halive
      · exact h.alive id' s hs e' hold
    · exact h.alive id' s' hs' e' he'

/-- A storage that is put into an empty slot keeps the world valid if it is valid and holds live
entities only. -/
theorem Valid.ensureSlot {w : World} (h : w.Valid) (id : ComponentId) {fresh : Storage}
    (hfresh : fresh.Valid) (halive : ∀ e, fresh.contains e = true → w.isAlive e = true) :
    (w.ensureSlot id fresh).Valid := by
  have hcases : ∀ id' s', (w.ensureSlot id fresh).storage? id' = some s' →
      s' = fresh ∨ w.storage? id' = some s' := by
    intro id' s' hs'
    rw [storage?_ensureSlot] at hs'
    split at hs'
    · cases hold : w.storage? id' with
      | none =>
          rw [hold] at hs'
          exact .inl (Option.some.inj hs').symm
      | some s =>
          rw [hold] at hs'
          exact .inr hs'
    · exact .inr hs'
  refine ⟨h.entities, ?_, ?_⟩
  · intro id' s' hs'
    rcases hcases id' s' hs' with rfl | hold
    · exact hfresh
    · exact h.storage id' s' hold
  · intro id' s' hs' e he
    rcases hcases id' s' hs' with rfl | hold
    · exact halive e he
    · exact h.alive id' s' hold e he

end World

end EntityStore
