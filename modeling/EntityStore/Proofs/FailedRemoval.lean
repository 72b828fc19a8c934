import EntityStore.Proofs.Holding
import EntityStore.Proofs.Reporting

/-!
# Removals that find nothing

Detaching a component takes the flag in the slot of the entity back, and only then looks whether the
entity has the component.  If it has not, nobody loses a component or a value.  A flag is lost all
the same if the entity is gone and its slot belongs to somebody else who has the component and was
changed; this is the only thing that can be lost.

* `Storage.Owned.call`, `Store.Reachable.owned` — a flag belongs to somebody who has the component;
* `Storage.erase_of_not_held`, `World.detach_of_not_held` — what is left of a removal that finds
  nothing;
* `World.facets_unmark_eq_iff` — what taking the flag of a slot back changes;
* `Store.Reachable.facets_unmark_eq_iff` — who keeps everything after a removal that finds nothing;
* `Store.failed_removal` — **all of it, for every reachable store.**
-/

namespace EntityStore

/-! ### Who has a flag -/

/-- A call keeps flags with those who are held. -/
theorem Storage.Owned.call {s : Storage} (h : s.Owned) (hs : s.Valid) (c : Call) :
    (c.apply s).Owned := by
  intro e hmarked
  rw [c.isMarked_apply] at hmarked
  obtain ⟨owner, hholds, hslot⟩ := h.of_flags hmarked
  exact ⟨owner, (c.contains_apply hs owner).trans hholds, hslot⟩

theorem Storage.owned_blank (s : Storage) : s.blank.Owned := by
  intro e hmarked
  rw [s.isMarked_blank] at hmarked
  cases hmarked

namespace Store

variable {s : Store}

/-- In a reachable store, also after removals that named somebody who is gone, a flag is in the slot
of somebody who has the component. -/
theorem Reachable.owned (h : s.Reachable) {id : ComponentId} {storage : Storage}
    (hstorage : s.world.storage? id = some storage) : storage.Owned := by
  obtain ⟨ops, rfl⟩ := h
  have hreplay := replays_history {} ops id
  rw [hstorage] at hreplay
  refine (replay_invariant (P := fun s => s.Valid ∧ s.Owned) ?_ ?_ ?_ hreplay.symm).2
  · rintro step hstep fresh rfl
    obtain ⟨op, -, s', hmem⟩ := mem_history hstep
    rw [← Operation.makes_blank hmem]
    exact ⟨fresh.valid_blank, fresh.owned_blank⟩
  · rintro step - c - old ⟨hvalid, howned⟩
    exact ⟨c.valid_apply hvalid, howned.call hvalid c⟩
  · intro old hold
    simp [World.storage?] at hold

/-- Somebody who is alive and flagged has the component. -/
theorem Reachable.contains_of_isMarked (h : s.Reachable) {id : ComponentId} {storage : Storage}
    (hstorage : s.world.storage? id = some storage) {e : Entity}
    (halive : s.world.isAlive e = true) (hmarked : storage.isMarked e = true) :
    storage.contains e = true := by
  obtain ⟨owner, hheld, hslot⟩ := h.owned hstorage e hmarked
  have howner := (h.tidy.storage id storage hstorage).held owner hheld
  rw [← Allocator.eq_of_slot_eq howner halive hslot]
  exact hheld

end Store

/-! ### What is left of a removal -/

namespace Storage

/-- Erasing somebody who is not held takes a flag back. -/
theorem erase_of_not_held {s : Storage} {e : Entity} (h : s.contains e = false) :
    s.erase e = s.mapFlags (·.unmark e) := by
  refine mapTable_congr (·.contains e) ?_ h
  intro α t ht
  have hrow : t.set.row? e = none := by
    rw [Table.contains, SparseSet.contains_eq_isSome_row?] at ht
    exact Option.isNone_iff_eq_none.1 (by simpa using ht)
  rw [Table.erase, SparseSet.erase_of_row?_eq_none hrow]
  rfl

theorem isMarked_unmark (s : Storage) (e e' : Entity) :
    (s.mapFlags (·.unmark e)).isMarked e' = (s.isMarked e' && !decide (e.slot = e'.slot)) := by
  rw [isMarked, s.flags_mapFlags]
  exact s.flags.isMarked_unmark e e'

/-- Of an entity's facet, taking the flag of a slot back changes the flag. -/
theorem facet_unmark (s : Storage) (e e' : Entity) :
    (s.mapFlags (·.unmark e)).facet e' =
      { s.facet e' with marked := s.isMarked e' && !decide (e.slot = e'.slot) } := by
  rw [facet_mapFlags, s.flags.isMarked_unmark e e']
  rfl

end Storage

namespace World

variable {w : World}

/-- A removal that finds nothing takes a flag back. -/
theorem detach_of_not_held {e : Entity} {id : ComponentId} (h : (w.detach e id).1 = false) :
    (w.detach e id).2 = w.modifyStorage id (·.mapFlags (·.unmark e)) := by
  apply modifyStorage_congr
  intro storage hstorage
  rw [detach, hstorage] at h
  exact Storage.erase_of_not_held h

theorem holding?_modifyFlags (w : World) (id : ComponentId) (f : ChangeFlags → ChangeFlags)
    (id' : ComponentId) (e : Entity) :
    (w.modifyStorage id (·.mapFlags f)).holding? id' e = w.holding? id' e := by
  rw [holding?_modifyStorage]
  split
  · simp only [Storage.holding?_mapFlags]
    rfl
  · rfl

theorem isMarked_modifyUnmark (w : World) (id : ComponentId) (e : Entity) (id' : ComponentId)
    (e' : Entity) :
    ((w.modifyStorage id (·.mapFlags (·.unmark e))).storage? id').any (·.isMarked e') =
      ((w.storage? id').any (·.isMarked e') && !decide (id = id' ∧ e.slot = e'.slot)) := by
  rw [storage?_modifyStorage]
  by_cases hid : id = id'
  · subst hid
    rw [if_pos rfl]
    cases w.storage? id with
    | none => rfl
    | some storage =>
        rw [Option.map_some, Option.any_some, Option.any_some, storage.isMarked_unmark]
        simp only [true_and]
  · rw [if_neg hid, decide_eq_false fun h => hid h.1, Bool.not_false, Bool.and_true]

/-- Of the facets of an entity, taking the flag of its slot back changes one, if it was flagged. -/
theorem facets_unmark_eq_iff (w : World) (id : ComponentId) (e e' : Entity) :
    (w.modifyStorage id (·.mapFlags (·.unmark e))).facets e' = w.facets e' ↔
      (e.slot = e'.slot → (w.storage? id).any (·.isMarked e') = false) := by
  constructor
  · intro hfacets hslot
    -- in this slot the flag is gone afterwards, so it was not there before
    have hsame := congrFun hfacets id
    rw [facets, facets, storage?_modifyStorage, if_pos rfl] at hsame
    cases hstorage : w.storage? id with
    | none => rfl
    | some storage =>
        rw [hstorage, Option.map_some, Option.map_some, Option.map_some, Option.some.injEq,
          storage.facet_unmark, hslot, decide_eq_true rfl, Bool.not_true, Bool.and_false] at hsame
        exact (congrArg Facet.marked hsame).symm
  · intro hunmarked
    funext id'
    rw [facets, facets, storage?_modifyStorage]
    split
    · next hid =>
      subst hid
      cases hstorage : w.storage? id with
      | none => rfl
      | some storage =>
          rw [hstorage, Option.any_some] at hunmarked
          rw [Option.map_some, Option.map_some, Option.map_some, storage.facet_unmark]
          by_cases hslot : e.slot = e'.slot
          · rw [hunmarked hslot, Bool.false_and, ← hunmarked hslot]
            rfl
          · rw [decide_eq_false hslot, Bool.not_false, Bool.and_true]
            rfl
    · rfl

end World

namespace Store

variable {s : Store}

/-- Somebody who is alive and is not found by a removal is not flagged. -/
theorem Reachable.unmarked_of_detach (h : s.Reachable) {e : Entity} {id : ComponentId}
    (halive : s.world.isAlive e = true) (hfailed : (s.world.detach e id).1 = false) :
    (s.world.storage? id).any (·.isMarked e) = false := by
  rw [World.detach] at hfailed
  cases hstorage : s.world.storage? id with
  | none => rfl
  | some storage =>
      have habsent : storage.contains e = false := by
        rw [hstorage] at hfailed
        exact hfailed
      rw [Option.any_some, Bool.eq_false_iff]
      intro hmarked
      rw [h.contains_of_isMarked hstorage halive hmarked] at habsent
      cases habsent

/-- Whoever is alive keeps everything, if nobody else has a flag in the slot. -/
theorem Reachable.facets_unmark_eq_iff (h : s.Reachable) {e : Entity} {id : ComponentId}
    (hfailed : (s.world.detach e id).1 = false) :
    (∀ e', s.world.isAlive e' = true →
        (s.world.modifyStorage id (·.mapFlags (·.unmark e))).facets e' = s.world.facets e') ↔
      ∀ e', s.world.isAlive e' = true → e' ≠ e → e.slot = e'.slot →
        (s.world.storage? id).any (·.isMarked e') = false := by
  constructor
  · intro hfacets e' halive _
    exact (s.world.facets_unmark_eq_iff id e e').1 (hfacets e' halive)
  · intro hothers e' halive
    refine (s.world.facets_unmark_eq_iff id e e').2 fun hslot => ?_
    by_cases hsame : e' = e
    · subst hsame
      exact h.unmarked_of_detach halive hfailed
    · exact hothers e' halive hsame hslot

/-- **A removal that finds nothing.**  Let a removal in a reachable store, which names the component
by its position or by its type, answer that the entity does not have it, whoever the entity is.
Then everybody stays alive or gone, and nobody's components or values change.  A flag is lost
exactly if it is one of that component and in the slot of the entity.  So whoever is alive keeps
everything, the flags in all storages included, exactly if nobody else who is alive and flagged has
the slot of the entity; and this is so if the entity is alive itself. -/
theorem failed_removal (hs : s.Reachable) {e : Entity} {id : ComponentId} {removal : Bool × World}
    (hremoval : removal = s.world.detach e id ∨
      ∃ t, (s.column t).1.id = id ∧ removal = ((s.detach t e).1, (s.detach t e).2.world))
    (hfailed : removal.1 = false) :
    (∀ e', removal.2.isAlive e' = s.world.isAlive e') ∧
    (∀ id' e', removal.2.holding? id' e' = s.world.holding? id' e') ∧
    (∀ id' e', (removal.2.storage? id').any (·.isMarked e') =
      ((s.world.storage? id').any (·.isMarked e') && !decide (id = id' ∧ e.slot = e'.slot))) ∧
    ((∀ e', s.world.isAlive e' = true → removal.2.facets e' = s.world.facets e') ↔
      ∀ e', s.world.isAlive e' = true → e' ≠ e → e.slot = e'.slot →
        (s.world.storage? id).any (·.isMarked e') = false) ∧
    (s.world.isAlive e = true →
      ∀ e', s.world.isAlive e' = true → removal.2.facets e' = s.world.facets e') := by
  have hdetach : removal = s.world.detach e id := by
    rcases hremoval with hat | ⟨t, rfl, hof⟩
    · exact hat
    · exact hof
  rw [hdetach] at hfailed
  rw [hdetach, World.detach_of_not_held hfailed]
  have hkept := hs.facets_unmark_eq_iff hfailed
  refine ⟨fun _ => rfl, s.world.holding?_modifyFlags id _, s.world.isMarked_modifyUnmark id e,
    hkept, ?_⟩
  intro halive
  refine hkept.2 fun e' halive' hne hslot => ?_
  exact absurd (Allocator.eq_of_slot_eq halive' halive hslot.symm) hne

/-- Operations for examples: an entity is removed, changes of levels are traced, and a new entity
with a level gets the slot. -/
def reuse : List Operation :=
  [.spawn [.default Catalogue.level], .spawnBare, .despawn ⟨2, 0⟩,
    .storage ⟨0⟩ (.switchTracing true), .spawn [.default Catalogue.level]]

/-- In the sample run the level of the new entity is flagged.  Removing the level of the entity that
is gone finds nothing, and the new entity has its level still, but not its flag. -/
theorem failed_removal_takes_flag :
    (run {} reuse).world.isAlive ⟨2, 1⟩ = true ∧
    ((run {} reuse).world.storage? ⟨0⟩).any (·.isMarked ⟨2, 1⟩) = true ∧
    ((run {} reuse).world.detach ⟨2, 0⟩ ⟨0⟩).1 = false ∧
    ((run {} reuse).world.detach ⟨2, 0⟩ ⟨0⟩).2.holding? ⟨0⟩ ⟨2, 1⟩ =
      (run {} reuse).world.holding? ⟨0⟩ ⟨2, 1⟩ ∧
    (((run {} reuse).world.detach ⟨2, 0⟩ ⟨0⟩).2.storage? ⟨0⟩).any (·.isMarked ⟨2, 1⟩) = false ∧
    ¬∀ e, (run {} reuse).world.isAlive e = true →
      ((run {} reuse).world.detach ⟨2, 0⟩ ⟨0⟩).2.facets e = (run {} reuse).world.facets e := by
  have halive : (run {} reuse).world.isAlive ⟨2, 1⟩ = true := by decide +kernel
  have hmarked : ((run {} reuse).world.storage? ⟨0⟩).any (·.isMarked ⟨2, 1⟩) = true := by
    decide +kernel
  have hfailed : ((run {} reuse).world.detach ⟨2, 0⟩ ⟨0⟩).1 = false := by decide +kernel
  obtain ⟨-, hholding, hflags, hkept, -⟩ := failed_removal ⟨reuse, rfl⟩ (.inl rfl) hfailed
  refine ⟨halive, hmarked, hfailed, hholding ⟨0⟩ ⟨2, 1⟩, ?_, ?_⟩
  · rw [hflags, hmarked]
    rfl
  · intro hfacets
    have hunmarked := hkept.1 hfacets ⟨2, 1⟩ halive (by decide) rfl
    rw [hmarked] at hunmarked
    cases hunmarked

end Store

end EntityStore
