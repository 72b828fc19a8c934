import EntityStore.Proofs.ChangeFlags

/-!
# Slots are handed out clean

Storages hold live entities only, and a changed flag that is set belongs to the slot of a live
entity.  A report that an entity was changed may go past the storages that hold it, and a removal
may name an entity that is long gone; still, a slot that is handed out again carries no flag of its
former owner.

* `Storage.Tidy` — the invariant of one storage, and `Tidy.call`, `Tidy.erase` — what keeps it;
* `World.Tidy` — the invariant of a world, and `Tidy.of_replays` — steps that store for live
  entities keep it;
* `Step.Proper`, `Store.proper_steps` — the steps of an operation store for live entities;
* `Store.tidy_make`, `Store.tidy_apply`, `Store.tidy_run` — so every operation keeps a world tidy;
* `Action`, `Store.Permits`, `Store.perform` — operations and reports to changed flags;
* `Store.slots_are_clean` — all of it, for every run from the empty store.
-/

namespace EntityStore

/-! ### One storage -/

/-- A valid storage whose entities are alive and whose flags are in slots of live entities. -/
structure Storage.Tidy (a : Allocator) (s : Storage) : Prop where
  valid : s.Valid
  held : ∀ e, s.contains e = true → a.contains e = true
  flagged : ∀ e, s.isMarked e = true → ∃ e', a.contains e' = true ∧ e'.slot = e.slot

namespace Storage.Tidy

variable {a : Allocator} {s : Storage}

/-- A flag after an event is in the slot of somebody who is alive: a flag is set only for an entity
that is stored or held. -/
theorem flagged_of_flags (h : s.Tidy a) {event : Event} {dropped : Entity → Prop}
    (hnames : event.Names (a.contains ·) dropped) {e : Entity} (hflags : event.flags s e = true) :
    ∃ e', a.contains e' = true ∧ e'.slot = e.slot := by
  have htouched : ∀ e' : Entity,
      (s.isMarked e || (s.contains e' && s.isTracing && decide (e'.slot = e.slot))) = true →
      ∃ e', a.contains e' = true ∧ e'.slot = e.slot := by
    intro e' htouch
    rcases Bool.or_eq_true_iff.1 htouch with hmarked | hnew
    · exact h.flagged e hmarked
    · simp only [Bool.and_eq_true, decide_eq_true_eq] at hnew
      exact ⟨e', h.held e' hnew.1.1, hnew.2⟩
  cases event with
  | stored e' =>
      rcases Bool.or_eq_true_iff.1 hflags with hmarked | hnew
      · exact h.flagged e hmarked
      · simp only [Bool.and_eq_true, decide_eq_true_eq] at hnew
        exact ⟨e', hnames, hnew.2⟩
  | dropped e' => exact h.flagged e (Bool.and_eq_true_iff.1 hflags).1
  | fetched e' => exact htouched e' hflags
  | reported e' => exact htouched e' hflags
  | cleared => cases hflags
  | flushed => cases hflags
  | other => exact h.flagged e hflags

/-- **One call keeps a storage tidy,** if it inserts for an entity that is alive. -/
theorem call (h : s.Tidy a) {c : Call} {dropped : Entity → Prop}
    (hnames : c.Names (a.contains ·) dropped) : (c.apply s).Tidy a where
  valid := c.valid_apply h.valid
  held e he := by
    rw [c.contains_apply h.valid] at he
    exact (hnames.event s).of_holds h.held he
  flagged e he := by
    rw [c.isMarked_apply] at he
    exact h.flagged_of_flags (hnames.event s) he

theorem of_blank {fresh : Storage} (h : fresh.blank = fresh) (a : Allocator) : fresh.Tidy a := by
  have hflagged := Flagged.of_blank h a ⟨0⟩ []
  refine ⟨hflagged.valid, hflagged.alive, ?_⟩
  intro e he
  obtain ⟨e', hheld, hslot⟩ := hflagged.owned e he
  exact ⟨e', hflagged.alive e' hheld, hslot⟩

/-- Whoever is born, a tidy storage stays so. -/
theorem grow (h : s.Tidy a) {a' : Allocator}
    (hgrow : ∀ e, a.contains e = true → a'.contains e = true) : s.Tidy a' where
  valid := h.valid
  held e he := hgrow e (h.held e he)
  flagged e he := by
    obtain ⟨e', halive, hslot⟩ := h.flagged e he
    exact ⟨e', hgrow e' halive, hslot⟩

/-- A storage stays tidy when an entity dies and is dropped, whether or not the storage holds it:
its flag goes with it. -/
theorem erase (h : s.Tidy a) {a' : Allocator} {e : Entity} (hr : a.release e = some a') :
    (s.erase e).Tidy a' where
  valid := (s.within_erase e).valid h.valid
  held e' he' := by
    rw [h.valid.contains_erase, Bool.and_eq_true] at he'
    rw [Allocator.contains_release hr, Bool.and_eq_true]
    exact ⟨h.held e' he'.1, he'.2⟩
  flagged e' he' := by
    rw [s.isMarked_erase, Bool.and_eq_true, Bool.not_eq_true', decide_eq_false_iff_not] at he'
    obtain ⟨owner, halive, hslot⟩ := h.flagged e' he'.1
    have hne : e ≠ owner := by
      rintro rfl
      exact he'.2 hslot
    refine ⟨owner, ?_, hslot⟩
    rw [Allocator.contains_release hr, halive, decide_eq_false hne]
    rfl

/-- A report to the flags of a storage is harmless if the entity is alive. -/
theorem notify (h : s.Tidy a) {e : Entity} (halive : a.contains e = true) :
    (s.mapFlags (·.mark e)).Tidy a where
  valid := (s.within_mapFlags _).valid h.valid
  held e' he' := by
    rw [s.contains_mapFlags] at he'
    exact h.held e' he'
  flagged e' he' := by
    rw [isMarked, s.flags_mapFlags, ChangeFlags.isMarked_mark, Bool.or_eq_true,
      Bool.and_eq_true] at he'
    rcases he' with hmarked | ⟨-, hslot⟩
    · exact h.flagged e' hmarked
    · exact ⟨e, halive, of_decide_eq_true hslot⟩

end Storage.Tidy

/-! ### Steps -/

/-- The step makes storages empty and inserts nothing for an entity that is not alive. -/
def Step.Stores (a : Allocator) (step : Step) : Prop :=
  step.Names (a.contains ·) (fun _ => True) (fun _ => True)

/-- The step stores nothing for an entity that is not alive, and drops none but a live one from
every storage. -/
def Step.Proper (a : Allocator) (step : Step) : Prop :=
  step.Names (a.contains ·) (fun _ => True) (a.contains ·)

theorem Step.Proper.stores {a : Allocator} {step : Step} (h : step.Proper a) : step.Stores a :=
  h.mono (fun _ => id) (fun _ => id) (fun _ _ => trivial)

namespace Storage.Tidy

variable {a : Allocator}

/-- Steps that store for live entities keep a storage tidy. -/
theorem replay {slot : Option Storage} (h : ∀ s, slot = some s → s.Tidy a) {steps : List Step}
    (hstores : AllAre (Step.Stores a) steps) {id : ComponentId} {s' : Storage}
    (hreplay : replay id steps slot = some s') : s'.Tidy a := by
  refine replay_invariant ?_ ?_ h hreplay
  · rintro step hstep fresh rfl
    exact of_blank (hstores _ hstep) a
  · intro step hstep c hcall s hs
    exact hs.call ((hstores step hstep).call hcall)

end Storage.Tidy

/-! ### Worlds -/

/-- Allocator and storages are in order. -/
structure World.Tidy (w : World) : Prop where
  entities : w.entities.Valid
  storage : ∀ id s, w.storage? id = some s → s.Tidy w.entities

namespace World.Tidy

variable {w : World}

theorem initial : World.Tidy {} where
  entities := Allocator.valid_initial
  storage id s h := by simp [storage?] at h

/-- **Steps that store for live entities keep a world tidy.** -/
theorem of_replays (h : w.Tidy) {steps : List Step} {w' : World}
    (hreplays : Replays steps w w') (hentities : w'.entities = w.entities)
    (hstores : AllAre (Step.Stores w.entities) steps) : w'.Tidy where
  entities := hentities ▸ h.entities
  storage id s' hs' := by
    rw [hreplays id] at hs'
    rw [hentities]
    exact Storage.Tidy.replay (fun s hs => h.storage id s hs) hstores hs'

theorem spawnBare (h : w.Tidy) : w.spawnBare.2.Tidy where
  entities := h.entities.allocate
  storage id s hs := by
    refine (h.storage id s hs).grow ?_
    intro e he
    show w.entities.allocate.2.contains e = true
    rw [h.entities.contains_allocate, he, Bool.or_true]

theorem despawn (h : w.Tidy) {e : Entity} {w' : World} (hd : w.despawn e = .ok w') : w'.Tidy := by
  rw [World.despawn] at hd
  split at hd
  · cases hd
  · next entities hrelease =>
    cases hd
    refine ⟨h.entities.release hrelease, ?_⟩
    intro id s' hs'
    rw [storage?_mapStorages] at hs'
    obtain ⟨s, hs, rfl⟩ := Option.map_eq_some_iff.1 hs'
    exact (h.storage id s hs).erase hrelease

theorem notify (h : w.Tidy) (id : ComponentId) {e : Entity} (halive : w.isAlive e = true) :
    (w.modifyStorage id (·.mapFlags (·.mark e))).Tidy where
  entities := h.entities
  storage id' s' hs' := by
    rw [storage?_modifyStorage] at hs'
    split at hs'
    · obtain ⟨s, hs, rfl⟩ := Option.map_eq_some_iff.1 hs'
      exact (h.storage id' s hs).notify halive
    · exact h.storage id' s' hs'

end World.Tidy

/-! ### Operations -/

namespace Store

variable {s : Store}

theorem tidy_despawn (h : s.world.Tidy) (e : Entity) : (s.despawn e).2.world.Tidy := by
  rw [Store.despawn]
  split
  · next w hd => exact h.despawn hd
  · exact h

theorem tidy_attachParts (h : s.world.Tidy) {e : Entity} (he : s.world.isAlive e = true)
    (parts : List Part) : (s.attachParts e parts).2.world.Tidy :=
  h.of_replays (s.replays_attachParts e parts) (s.entities_attachParts e parts)
    ((s.fills_partsSteps e parts).mono fun _ hfills => hfills.names he)

theorem tidy_made (h : s.world.Tidy) (parts : List Part) :
    (s.spawnBare.2.attachParts s.spawnBare.1 parts).2.world.Tidy := by
  have hspawned : s.spawnBare.2.world.Tidy := h.spawnBare
  exact tidy_attachParts hspawned h.entities.contains_allocate_self parts

theorem tidy_make (h : s.world.Tidy) (parts : List Part) : (s.make parts).2.world.Tidy := by
  have hmade := tidy_made h parts
  rw [make]
  rcases houtcome : s.spawnBare.2.attachParts s.spawnBare.1 parts with ⟨err | _, s'⟩
  · rw [houtcome] at hmade
    show (s'.giveUp s.spawnBare.1 err).2.world.Tidy
    rw [snd_giveUp]
    exact tidy_despawn hmade s.spawnBare.1
  · rw [houtcome] at hmade
    exact hmade

theorem proper_steps (h : s.world.Tidy) (op : Operation) :
    AllAre (Step.Proper (op.during s)) (op.steps s) :=
  (names_steps h.entities op).mono fun _ hnames =>
    hnames.mono (fun _ => id) (fun _ _ => trivial) (fun _ => id)

theorem during_of_not_populates {op : Operation} (h : ¬op.Populates) (s : Store) :
    op.during s = s.world.entities := by
  cases op with
  | spawn bundle => exact absurd trivial h
  | assemble parts complete => exact absurd trivial h
  | _ => rfl

/-- **One operation keeps a world tidy.** -/
theorem tidy_apply (h : s.world.Tidy) (op : Operation) : (op.apply s).world.Tidy := by
  by_cases hpopulates : op.Populates
  · cases op with
    | spawnBare => exact h.spawnBare
    | spawn bundle =>
        show (s.spawn bundle).2.world.Tidy
        rw [spawn_eq_make]
        exact tidy_make h _
    | assemble parts complete =>
        cases complete with
        | true =>
            have hmake := tidy_make h parts
            rw [← completeEntity_eq_make] at hmake
            exact hmake
        | false =>
            have hserve := congrArg (fun outcome : Answer × Store => outcome.2)
              (s.serve_assemble parts)
            show ((Request.assemble parts false).serve s).2.world.Tidy
            rw [show ((Request.assemble parts false).serve s).2 = _ from hserve]
            exact tidy_made h parts
    | despawn e => exact tidy_despawn h e
    | _ => cases hpopulates
  · have hstores := (proper_steps h op).mono fun _ => Step.Proper.stores
    rw [during_of_not_populates hpopulates] at hstores
    exact h.of_replays (s.replays_apply op) (Operation.entities_apply hpopulates s) hstores

theorem tidy_run (h : s.world.Tidy) (ops : List Operation) : (s.run ops).world.Tidy := by
  induction ops generalizing s with
  | nil => exact h
  | cons op rest ih => exact ih (tidy_apply h op)

/-- The world of a reachable store is tidy. -/
theorem Reachable.tidy (h : s.Reachable) : s.world.Tidy := by
  obtain ⟨ops, rfl⟩ := h
  exact tidy_run World.Tidy.initial ops

end Store

/-! ### Runs -/

/-- An operation on a store, or a report to the changed flags of a storage. -/
inductive Action where
  | operation (op : Operation)
  /-- A report that an entity was changed, whether or not the storage holds it. -/
  | notify (id : ComponentId) (e : Entity)

namespace Action

def apply (action : Action) (s : Store) : Store :=
  match action with
  | .operation op => op.apply s
  | .notify id e => { s with world := s.world.modifyStorage id (·.mapFlags (·.mark e)) }

/-- Only live entities are reported to the changed flags of a storage. -/
def Allowed (action : Action) (s : Store) : Prop :=
  match action with
  | .operation _ => True
  | .notify _ e => s.world.isAlive e = true

end Action

namespace Store

def perform (s : Store) (actions : List Action) : Store :=
  actions.foldl (fun s action => action.apply s) s

/-- Each action of a run is allowed where it is taken. -/
def Permits : Store → List Action → Prop
  | _, [] => True
  | s, action :: rest => action.Allowed s ∧ Permits (action.apply s) rest

theorem tidy_perform {s : Store} (h : s.world.Tidy) (actions : List Action)
    (hpermits : s.Permits actions) : (s.perform actions).world.Tidy := by
  induction actions generalizing s with
  | nil => exact h
  | cons action rest ih =>
      refine ih ?_ hpermits.2
      cases action with
      | operation op => exact tidy_apply h op
      | notify id e => exact h.notify id hpermits.1

/-- **Slots are handed out clean.**  After any run from the empty store of operations, and of
reports that live entities were changed, whoever a storage lists is alive, no two of them have the
same slot, and a flag that is set is in the slot of somebody who is alive.  An entity that is made
next, in whatever slot, is alive, is held by no storage and is flagged in none. -/
theorem slots_are_clean (actions : List Action) (hpermits : Store.Permits {} actions) :
    (∀ id storage, (perform {} actions).world.storage? id = some storage →
      (∀ e ∈ storage.entities, (perform {} actions).world.isAlive e = true) ∧
      (storage.entities.map Entity.slot).Nodup ∧
      ∀ i, storage.flags.marks.contains i = true →
        ∃ e, (perform {} actions).world.isAlive e = true ∧ e.slot = i) ∧
    (perform {} actions).spawnBare.2.world.isAlive (perform {} actions).spawnBare.1 = true ∧
    ∀ id storage, (perform {} actions).spawnBare.2.world.storage? id = some storage →
      storage.contains (perform {} actions).spawnBare.1 = false ∧
      storage.isMarked (perform {} actions).spawnBare.1 = false := by
  have htidy := tidy_perform World.Tidy.initial actions hpermits
  generalize perform {} actions = s at htidy
  have hnew := fun e (he : s.world.isAlive e = true) => htidy.entities.slot_ne_allocate he
  refine ⟨?_, ?_, ?_⟩
  · intro id storage hstorage
    have hstored := htidy.storage id storage hstorage
    have halive : ∀ e ∈ storage.entities, s.world.isAlive e = true :=
      fun e he => hstored.held e ((hstored.valid.contains_iff_mem e).2 he)
    refine ⟨halive, ?_, fun i hi => hstored.flagged ⟨i, 0⟩ hi⟩
    refine List.Nodup.map_on ?_ hstored.valid.nodup_entities
    intro e he e' he'
    exact Allocator.eq_of_slot_eq (halive e he) (halive e' he')
  · exact htidy.entities.contains_allocate_self
  · intro id storage hstorage
    have hstored := htidy.storage id storage hstorage
    refine ⟨Bool.eq_false_iff.2 fun hheld => ?_, Bool.eq_false_iff.2 fun hmarked => ?_⟩
    · exact hnew _ (hstored.held _ hheld) rfl
    · obtain ⟨owner, halive, hslot⟩ := hstored.flagged _ hmarked
      exact hnew owner halive hslot

/-- Actions for examples: an entity without components is reported as changed to a storage that
traces changes but does not hold it, and is removed. -/
def reports : List Action :=
  [.operation (.spawn [.default Catalogue.level]), .operation .spawnBare,
    .operation (.storage ⟨0⟩ (.switchTracing true)), .notify ⟨0⟩ ⟨2, 0⟩,
    .operation (.despawn ⟨2, 0⟩)]

/-- In the sample run the slot of the removed entity, which was flagged, is handed out again without
the flag. -/
theorem reports_leave_clean_slot :
    Store.Permits {} reports ∧
      ((perform {} (reports.take 4)).world.storage? ⟨0⟩).any (·.isMarked ⟨2, 0⟩) = true ∧
      (perform {} reports).spawnBare.1 = ⟨2, 1⟩ ∧
      ∃ storage, (perform {} reports).spawnBare.2.world.storage? ⟨0⟩ = some storage ∧
        storage.isTracing = true ∧ storage.contains ⟨2, 1⟩ = false ∧
        storage.isMarked ⟨2, 1⟩ = false := by
  have halive : (perform {} (reports.take 3)).world.isAlive ⟨2, 0⟩ = true := by decide +kernel
  have hpermits : Store.Permits {} reports := ⟨trivial, trivial, trivial, halive, trivial, trivial⟩
  have hflagged : ((perform {} (reports.take 4)).world.storage? ⟨0⟩).any
      (·.isMarked ⟨2, 0⟩) = true := by decide +kernel
  have hnext : (perform {} reports).spawnBare.1 = ⟨2, 1⟩ := by decide +kernel
  have htraced : ((perform {} reports).spawnBare.2.world.storage? ⟨0⟩).any
      (·.isTracing) = true := by decide +kernel
  obtain ⟨storage, hstorage, htracing⟩ := (Option.any_eq_true _ _).1 htraced
  obtain ⟨-, -, hclean⟩ := slots_are_clean reports hpermits
  have hboth := hclean ⟨0⟩ storage hstorage
  rw [hnext] at hboth
  exact ⟨hpermits, hflagged, hnext, storage, hstorage, htracing, hboth.1, hboth.2⟩

end Store

end EntityStore
