import EntityStore.Proofs.Events

/-!
# What a changed flag means

A flag tells that its entity was changed while changes were traced, after everything was last
flushed or cleared and after the entity last came into the storage.

* `Step.Marks`, `Step.Resets` — a step that counts as a change, and one that starts anew;
* `MarkedSince` — a change since the latest step that starts anew;
* `Flagged` — what every step keeps: flags belong to entities that are held, and tell just that;
* `Event.Names`, `Step.Names` — for whom an event or a step stores, and whom it drops;
* `Flagged.flags_iff` — what an event does to the flags, seen from who is held;
* `Flagged.step`, `Flagged.steps` — one step, and many.
-/

namespace EntityStore

/-! ### Changes in a history -/

/-- Whether the event counts as a change of the entity, in a storage that traces changes. -/
def Event.marks (event : Event) (s : Storage) (e : Entity) : Bool :=
  match event with
  | .stored e' | .reported e' => decide (e' = e)
  | .fetched e' => decide (e' = e) && s.contains e
  | .dropped _ | .cleared | .flushed | .other => false

/-- Whether earlier changes of the entity no longer count after the event. -/
def Event.resets (event : Event) (s : Storage) (e : Entity) : Bool :=
  match event with
  | .stored e' => decide (e' = e) && !s.contains e
  | .cleared | .flushed => true
  | .dropped _ | .fetched _ | .reported _ | .other => false

/-- What a step calls the storage of a component for. -/
def Step.call? (id : ComponentId) (step : Step) : Option Call :=
  match step with
  | .make .. => none
  | .call id' what => if id' = id then some what else none
  | .callAll what => some what

/-- The step counts as a change: tracing is switched on, and a value is stored for the entity, it is
found by a fetch for writing, or it is reported. -/
def Step.Marks (id : ComponentId) (e : Entity) (step : Step) (slot : Option Storage) : Prop :=
  ∃ s what, slot = some s ∧ step.call? id = some what ∧ s.isTracing = true ∧
    (what.event s).marks s e = true

/-- The step starts anew: everything is flushed or cleared, or the entity comes into the storage. -/
def Step.Resets (id : ComponentId) (e : Entity) (step : Step) (slot : Option Storage) : Prop :=
  ∃ s what, slot = some s ∧ step.call? id = some what ∧ (what.event s).resets s e = true

/-- The entity was changed, and nothing started anew after that. -/
def MarkedSince (id : ComponentId) (e : Entity) (history : List Step) : Prop :=
  ∃ before step after, history = before ++ step :: after ∧
    step.Marks id e (replay id before none) ∧
    ∀ earlier next later, after = earlier ++ next :: later →
      ¬next.Resets id e (replay id (before ++ step :: earlier) none)

/-- With one more step, the entity is changed by it, or it was and the step does not start anew. -/
theorem markedSince_append_singleton {id : ComponentId} {e : Entity} {history : List Step}
    {step : Step} :
    MarkedSince id e (history ++ [step]) ↔
      step.Marks id e (replay id history none) ∨
        (MarkedSince id e history ∧ ¬step.Resets id e (replay id history none)) := by
  constructor
  · rintro ⟨before, change, after, hsplit, hmarks, hkept⟩
    -- the change is the last step, or the last step comes after it
    rcases List.eq_nil_or_concat after with rfl | ⟨init, last, rfl⟩
    · obtain ⟨rfl, hlast⟩ := List.append_inj' hsplit rfl
      cases hlast
      exact .inl hmarks
    · rw [List.concat_eq_append, ← List.cons_append, ← List.append_assoc] at hsplit
      obtain ⟨rfl, hlast⟩ := List.append_inj' hsplit rfl
      cases hlast
      refine .inr ⟨⟨before, change, init, rfl, hmarks, ?_⟩, ?_⟩
      · intro earlier next later hinit
        apply hkept earlier next (later ++ [step])
        rw [List.concat_eq_append, hinit, List.append_assoc, List.cons_append]
      · apply hkept init step []
        exact List.concat_eq_append
  · rintro (hmarks | ⟨⟨before, change, after, rfl, hmarks, hkept⟩, hresets⟩)
    · refine ⟨history, step, [], rfl, hmarks, ?_⟩
      intro earlier next later hnil
      cases earlier <;> cases hnil
    · refine ⟨before, change, after ++ [step], ?_, hmarks, ?_⟩
      · rw [List.append_assoc, List.cons_append]
      · intro earlier next later hafter
        rcases List.eq_nil_or_concat later with rfl | ⟨init, last, rfl⟩
        · obtain ⟨rfl, hlast⟩ := List.append_inj' hafter rfl
          cases hlast
          exact hresets
        · rw [List.concat_eq_append, ← List.cons_append, ← List.append_assoc] at hafter
          exact hkept earlier next init (List.append_inj' hafter rfl).1

/-! ### What a step keeps -/

/-- A storage with its history: who is held is alive, a flag belongs to somebody who is held, and
it tells that this entity was changed since. -/
structure Flagged (a : Allocator) (id : ComponentId) (history : List Step) (s : Storage) :
    Prop where
  valid : s.Valid
  alive : ∀ e, s.contains e = true → a.contains e = true
  owned : ∀ e, s.isMarked e = true → ∃ e', s.contains e' = true ∧ e'.slot = e.slot
  changed : ∀ e, s.contains e = true → (s.isMarked e = true ↔ MarkedSince id e history)

/-- Every flag is in the slot of somebody who is held. -/
def Storage.Owned (s : Storage) : Prop :=
  ∀ e, s.isMarked e = true → ∃ e', s.contains e' = true ∧ e'.slot = e.slot

/-- A flag after an event belongs to somebody who is held after it. -/
theorem Storage.Owned.of_flags {s : Storage} (h : s.Owned) {event : Event} {e : Entity}
    (hflags : event.flags s e = true) :
    ∃ e', event.holds s e' = true ∧ e'.slot = e.slot := by
  cases event with
  | stored e' =>
      rcases Bool.or_eq_true_iff.1 hflags with hmarked | hstored
      · obtain ⟨owner, hheld, hslot⟩ := h e hmarked
        exact ⟨owner, Bool.or_eq_true_iff.2 (.inr hheld), hslot⟩
      · have hslot := of_decide_eq_true (Bool.and_eq_true_iff.1 hstored).2
        exact ⟨e', by simp [Event.holds], hslot⟩
  | dropped e' =>
      obtain ⟨hmarked, hother⟩ := Bool.and_eq_true_iff.1 hflags
      obtain ⟨owner, hheld, hslot⟩ := h e hmarked
      refine ⟨owner, ?_, hslot⟩
      -- the flag outlived the drop, so its slot is another one
      have hne : e' ≠ owner := by
        rintro rfl
        rw [hslot, decide_eq_true rfl] at hother
        cases hother
      simp [Event.holds, hheld, hne]
  | fetched e' =>
      rcases Bool.or_eq_true_iff.1 hflags with hmarked | hfetched
      · exact h e hmarked
      · obtain ⟨hfound, hslot⟩ := Bool.and_eq_true_iff.1 hfetched
        exact ⟨e', (Bool.and_eq_true_iff.1 hfound).1, of_decide_eq_true hslot⟩
  | reported e' =>
      rcases Bool.or_eq_true_iff.1 hflags with hmarked | hreported
      · exact h e hmarked
      · obtain ⟨hfound, hslot⟩ := Bool.and_eq_true_iff.1 hreported
        exact ⟨e', (Bool.and_eq_true_iff.1 hfound).1, of_decide_eq_true hslot⟩
  | cleared => cases hflags
  | flushed => cases hflags
  | other => exact h e hflags

/-! ### Who is stored and who is dropped -/

section Names

variable {stored dropped removed : Entity → Prop}

/-- For whom the event stores has the one property, and whom it drops has the other. -/
def Event.Names (stored dropped : Entity → Prop) (event : Event) : Prop :=
  match event with
  | .stored e => stored e
  | .dropped e => dropped e
  | .fetched _ | .reported _ | .cleared | .flushed | .other => True

/-- For whom the call inserts has the one property, and whom it erases has the other. -/
def Call.Names (stored dropped : Entity → Prop) (c : Call) : Prop :=
  match c with
  | .insert e _ | .insertNamed e _ => stored e
  | .use (.erase e) => dropped e
  | _ => True

theorem Call.Names.event {c : Call} (h : c.Names stored dropped) (s : Storage) :
    (c.event s).Names stored dropped := by
  cases c with
  | insert e record =>
      rw [Call.event]
      split
      · exact h
      · trivial
  | insertNamed e values =>
      rw [Call.event]
      split
      · exact h
      · trivial
  | writeFirst e f => trivial
  | writeAll e f => trivial
  | use u =>
      cases u with
      | erase e => exact h
      | fetch mutable e => cases mutable <;> trivial
      | _ => trivial

theorem Call.Names.mono {c : Call} (h : c.Names stored dropped) {stored' dropped' : Entity → Prop}
    (hstored : ∀ e, stored e → stored' e) (hdropped : ∀ e, dropped e → dropped' e) :
    c.Names stored' dropped' := by
  cases c with
  | insert e record => exact hstored e h
  | insertNamed e values => exact hstored e h
  | writeFirst e f => trivial
  | writeAll e f => trivial
  | use u =>
      cases u with
      | erase e => exact hdropped e h
      | _ => trivial

/-- If all who are held have a property, and those for whom an event stores, then so have all who
are held after it. -/
theorem Event.Names.of_holds {event : Event} (h : event.Names stored dropped) {s : Storage}
    (hheld : ∀ e, s.contains e = true → stored e) {e : Entity}
    (hholds : event.holds s e = true) : stored e := by
  cases event with
  | stored e' =>
      rcases Bool.or_eq_true_iff.1 hholds with hsame | hold
      · rw [← of_decide_eq_true hsame]
        exact h
      · exact hheld e hold
  | dropped e' => exact hheld e (Bool.and_eq_true_iff.1 hholds).1
  | cleared => cases hholds
  | fetched e' => exact hheld e hholds
  | reported e' => exact hheld e hholds
  | flushed => exact hheld e hholds
  | other => exact hheld e hholds

/-- A step makes storages empty.  For whom it inserts has the first property, whom it erases from
one storage has the second, and whom it erases from all storages has the third. -/
def Step.Names (stored dropped removed : Entity → Prop) (step : Step) : Prop :=
  match step with
  | .make _ fresh => fresh.blank = fresh
  | .call _ what => what.Names stored dropped
  | .callAll what => what.Names stored removed

theorem Step.Names.mono {step : Step} (h : step.Names stored dropped removed)
    {stored' dropped' removed' : Entity → Prop} (hstored : ∀ e, stored e → stored' e)
    (hdropped : ∀ e, dropped e → dropped' e) (hremoved : ∀ e, removed e → removed' e) :
    step.Names stored' dropped' removed' := by
  cases step with
  | make id fresh => exact h
  | call id what => exact Call.Names.mono h hstored hdropped
  | callAll what => exact Call.Names.mono h hstored hremoved

theorem Step.Names.call {step : Step} (h : step.Names stored dropped dropped) {id : ComponentId}
    {what : Call} (hcall : step.call? id = some what) : what.Names stored dropped := by
  cases step with
  | make id' fresh => cases hcall
  | call id' c =>
      rw [Step.call?] at hcall
      split at hcall
      · cases hcall
        exact h
      · cases hcall
  | callAll c =>
      cases hcall
      exact h

end Names

/-- The step stores and drops nobody who is not alive, and makes storages empty. -/
def Step.NamesLive (a : Allocator) (step : Step) : Prop :=
  step.Names (a.contains ·) (a.contains ·) (a.contains ·)

theorem Storage.isMarked_blank (s : Storage) (e : Entity) : s.blank.isMarked e = false := by
  cases s <;> simp [blank, isMarked, flags, view, ChangeFlags.isMarked, BitSet.contains,
    BitSet.wordAt]

namespace Flagged

variable {a : Allocator} {id : ComponentId} {history : List Step} {s : Storage}

/-- Of those who are alive only the owner of a flag is flagged. -/
theorem contains_of_isMarked (h : Flagged a id history s) {e : Entity}
    (halive : a.contains e = true) (hmarked : s.isMarked e = true) : s.contains e = true := by
  obtain ⟨e', hheld, hslot⟩ := h.owned e hmarked
  rw [← Allocator.eq_of_slot_eq (h.alive e' hheld) halive hslot]
  exact hheld

/-- Two who are alive have the same slot only if they are the same. -/
theorem decide_slot_eq {e e' : Entity} (he : a.contains e = true) (he' : a.contains e' = true) :
    decide (e.slot = e'.slot) = decide (e = e') := by
  rw [decide_eq_decide]
  exact ⟨Allocator.eq_of_slot_eq he he', congrArg Entity.slot⟩

/-- Who is held is changed for being named, not for sharing a slot. -/
theorem touches_eq (h : Flagged a id history s) {e : Entity} (hheld : s.contains e = true)
    (e' : Entity) :
    (s.contains e' && s.isTracing && decide (e'.slot = e.slot)) =
      (s.isTracing && decide (e' = e)) := by
  by_cases hsame : e' = e
  · subst hsame
    simp [hheld]
  · rw [decide_eq_false hsame, Bool.and_false]
    cases hheld' : s.contains e' with
    | false => rfl
    | true =>
        rw [decide_slot_eq (h.alive e' hheld') (h.alive e hheld), decide_eq_false hsame,
          Bool.and_false]

/-- Who is flagged after an event: the entity that it changes, and one that was flagged before
unless the event starts anew for it. -/
theorem flags_iff (h : Flagged a id history s) {event : Event}
    (hnames : event.Names (a.contains ·) (a.contains ·)) {e : Entity}
    (hholds : event.holds s e = true) :
    event.flags s e = true ↔
      (s.isTracing = true ∧ event.marks s e = true) ∨
        (s.contains e = true ∧ s.isMarked e = true ∧ event.resets s e = false) := by
  cases event with
  | stored e' =>
      cases hheld : s.contains e with
      | true =>
          rw [Event.flags, decide_slot_eq hnames (h.alive e hheld)]
          simp [Event.marks, Event.resets, hheld, or_comm]
      | false =>
          have hsame : e' = e := by simpa [Event.holds, hheld] using hholds
          subst hsame
          -- a flag in the slot of the newcomer would belong to another live entity in it
          have hunmarked : s.isMarked e' = false := by
            by_contra hmarked
            rw [h.contains_of_isMarked hnames (by simpa using hmarked)] at hheld
            cases hheld
          simp [Event.flags, Event.marks, hunmarked]
  | dropped e' =>
      obtain ⟨hheld, hother⟩ := Bool.and_eq_true_iff.1 hholds
      rw [Event.flags, decide_slot_eq hnames (h.alive e hheld), hother]
      simp [Event.marks, Event.resets, hheld]
  | fetched e' =>
      have hheld : s.contains e = true := hholds
      rw [Event.flags, h.touches_eq hheld]
      simp [Event.marks, Event.resets, hheld, or_comm]
  | reported e' =>
      have hheld : s.contains e = true := hholds
      rw [Event.flags, h.touches_eq hheld]
      simp [Event.marks, Event.resets, hheld, or_comm]
  | cleared => cases hholds
  | flushed => simp [Event.flags, Event.marks, Event.resets]
  | other =>
      have hheld : s.contains e = true := hholds
      simp [Event.flags, Event.marks, Event.resets, hheld]

/-- A step that calls the storage keeps it flagged. -/
theorem call (h : Flagged a id history s) (hreplay : replay id history none = some s)
    {step : Step} (hnames : step.NamesLive a) {what : Call} (hcall : step.call? id = some what) :
    Flagged a id (history ++ [step]) (what.apply s) where
  valid := what.valid_apply h.valid
  alive e he := by
    rw [what.contains_apply h.valid] at he
    exact ((hnames.call hcall).event s).of_holds h.alive he
  owned e he := by
    rw [what.isMarked_apply] at he
    obtain ⟨owner, hholds, hslot⟩ := Storage.Owned.of_flags h.owned he
    exact ⟨owner, (what.contains_apply h.valid owner).trans hholds, hslot⟩
  changed e he := by
    rw [what.contains_apply h.valid] at he
    rw [what.isMarked_apply, h.flags_iff ((hnames.call hcall).event s) he,
      markedSince_append_singleton, hreplay]
    have hmarks : step.Marks id e (some s) ↔
        s.isTracing = true ∧ (what.event s).marks s e = true := by
      simp [Step.Marks, hcall]
    have hresets : step.Resets id e (some s) ↔ (what.event s).resets s e = true := by
      simp [Step.Resets, hcall]
    rw [hmarks, hresets, Bool.not_eq_true]
    cases hheld : s.contains e with
    | true => simp only [true_and, h.changed e hheld]
    | false =>
        -- who is not held and is held now has come in, so everything before it is reset
        have hcame : (what.event s).resets s e = true := by
          cases hevent : what.event s with
          | stored e' => simpa [hevent, Event.holds, Event.resets, hheld] using he
          | _ => simp [hevent, Event.holds, hheld] at he
        simp [hcame]

/-- A step that does not call the storage keeps it flagged. -/
theorem pass (h : Flagged a id history s) {step : Step} (hcall : step.call? id = none) :
    Flagged a id (history ++ [step]) s where
  valid := h.valid
  alive := h.alive
  owned := h.owned
  changed e he := by
    rw [h.changed e he, markedSince_append_singleton]
    simp [Step.Marks, Step.Resets, hcall]

/-- An empty storage is flagged. -/
theorem of_blank {fresh : Storage} (h : fresh.blank = fresh) (a : Allocator) (id : ComponentId)
    (history : List Step) : Flagged a id history fresh := by
  rw [← h]
  refine ⟨fresh.valid_blank, ?_, ?_, ?_⟩
  · intro e he
    rw [fresh.contains_blank] at he
    cases he
  · intro e he
    rw [fresh.isMarked_blank] at he
    cases he
  · intro e he
    rw [fresh.contains_blank] at he
    cases he

end Flagged

theorem Step.at_some (id : ComponentId) (step : Step) (s : Storage) :
    step.at id (some s) = some ((step.call? id).elim s (·.apply s)) := by
  cases step with
  | make id' fresh =>
      rw [Step.at]
      split <;> rfl
  | call id' what =>
      rw [Step.at, call?]
      split <;> rfl
  | callAll what => rfl

/-- Only making a storage fills an empty slot. -/
theorem Step.eq_make_of_at_none {id : ComponentId} {step : Step} {s : Storage}
    (h : step.at id none = some s) : step = .make id s := by
  cases step with
  | make id' fresh =>
      rw [Step.at] at h
      split at h
      · next hid =>
        cases h
        rw [hid]
        rfl
      · cases h
  | call id' what =>
      rw [Step.at] at h
      split at h <;> cases h
  | callAll what => cases h

/-- What every call of a storage keeps is kept by steps, once there is a storage. -/
theorem replay_some {P : Storage → Prop} {id : ComponentId} {steps : List Step}
    (hcalls : ∀ step ∈ steps, ∀ c, step.call? id = some c → ∀ s, P s → P (c.apply s))
    {s : Storage} (h : P s) : ∃ s', replay id steps (some s) = some s' ∧ P s' := by
  induction steps generalizing s with
  | nil => exact ⟨s, rfl, h⟩
  | cons step rest ih =>
      have hrest := fun step' hstep' => hcalls step' (List.mem_cons_of_mem step hstep')
      show ∃ s', replay id rest (step.at id (some s)) = some s' ∧ P s'
      rw [Step.at_some]
      refine ih hrest ?_
      cases hcall : step.call? id with
      | none => exact h
      | some c => exact hcalls step List.mem_cons_self c hcall s h

/-- What new storages have and every call keeps, steps keep. -/
theorem replay_invariant {P : Storage → Prop} {id : ComponentId} {steps : List Step}
    (hmakes : ∀ step ∈ steps, ∀ fresh, step = .make id fresh → P fresh)
    (hcalls : ∀ step ∈ steps, ∀ c, step.call? id = some c → ∀ s, P s → P (c.apply s))
    {slot : Option Storage} (h : ∀ s, slot = some s → P s) {s' : Storage}
    (hreplay : replay id steps slot = some s') : P s' := by
  induction steps generalizing slot with
  | nil => exact h s' hreplay
  | cons step rest ih =>
      refine ih (fun step' hstep' => hmakes step' (List.mem_cons_of_mem step hstep'))
        (fun step' hstep' => hcalls step' (List.mem_cons_of_mem step hstep')) ?_ hreplay
      intro next hnext
      cases slot with
      | none => exact hmakes step List.mem_cons_self next (Step.eq_make_of_at_none hnext)
      | some s =>
          change step.at id (some s) = some next at hnext
          rw [Step.at_some, Option.some.injEq] at hnext
          subst hnext
          cases hcall : step.call? id with
          | none => exact h s rfl
          | some c => exact hcalls step List.mem_cons_self c hcall s (h s rfl)

/-- **One step keeps a storage flagged.** -/
theorem Flagged.step {a : Allocator} {id : ComponentId} {history : List Step}
    (h : ∀ s, replay id history none = some s → Flagged a id history s) {step : Step}
    (hnames : step.NamesLive a) {s' : Storage}
    (hreplay : replay id (history ++ [step]) none = some s') :
    Flagged a id (history ++ [step]) s' := by
  rw [replay_append] at hreplay
  change step.at id (replay id history none) = some s' at hreplay
  cases hslot : replay id history none with
  | none =>
      rw [hslot] at hreplay
      cases Step.eq_make_of_at_none hreplay
      exact .of_blank hnames a id _
  | some s =>
      rw [hslot, Step.at_some, Option.some.injEq] at hreplay
      rw [← hreplay]
      cases hcall : step.call? id with
      | none => exact (h s hslot).pass hcall
      | some what => exact (h s hslot).call hslot hnames hcall

/-- **Many steps keep a storage flagged.** -/
theorem Flagged.steps {a : Allocator} {id : ComponentId} {history steps : List Step}
    (h : ∀ s, replay id history none = some s → Flagged a id history s)
    (hnames : ∀ step ∈ steps, step.NamesLive a) {s' : Storage}
    (hreplay : replay id (history ++ steps) none = some s') :
    Flagged a id (history ++ steps) s' := by
  induction steps generalizing history with
  | nil =>
      rw [List.append_nil] at hreplay ⊢
      exact h s' hreplay
  | cons step rest ih =>
      rw [List.append_cons] at hreplay ⊢
      refine ih ?_ (fun step' hstep' => hnames step' (List.mem_cons_of_mem _ hstep')) hreplay
      intro s hs
      exact .step h (hnames step List.mem_cons_self) hs

end EntityStore
