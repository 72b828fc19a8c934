import EntityStore.Proofs.CleanSlots
import EntityStore.Proofs.Locality

/-!
# Reporting: no change is lost while changes are traced

A query with a `changed` term switches the tracing of its component on, if the storage is there.
From then on, until tracing is switched off, every value that is stored and every instance that is
found by a fetch for writing is reported: a new query for the changed ones selects the entity, as
long as nothing takes its flag back.  A storage that is made later does not trace, and a query
that was built before does not change that.

* `Call.Changes.marked`, `Call.Spares.marked`, `Call.unmarked_apply` — what one call does to flags;
* `Step.Changes`, `Step.Spares` — a step changes an entity, or leaves its flag alone;
* `replay_traced`, `replay_unmarked` — tracing and flags over many steps;
* `Operation.switches_off`, `Operation.makes_blank` — what operations can do to tracing;
* `Store.Reports`, `Store.Valid.reports_iff` — a new query for the changed ones selects the entity;
* `Operation.Watches`, `Operation.Watches.steps` — an operation builds a query that watches a
  component, and so switches tracing of it on first;
* `Store.marked_of_history` — who is held and flagged stays so while its flag is left alone;
* `Store.changes_are_reported` — all of it, for every run.
-/

namespace EntityStore

/-! ### Calls -/

namespace Call

/-- The call leaves the flag of the entity alone: it neither flushes nor clears, and drops nobody
from the slot of the entity. -/
def Spares (e : Entity) (c : Call) : Prop :=
  match c with
  | .use (.erase e') => e'.slot ≠ e.slot
  | .use .clear | .use .unmarkAll => False
  | _ => True

/-- The call changes the entity: it stores a value for it, or finds it by a fetch for writing. -/
def Changes (e : Entity) (c : Call) (s : Storage) : Prop :=
  c.event s = .stored e ∨ (c.event s = .fetched e ∧ s.contains e = true)

/-- A change flags its entity, if changes are traced. -/
theorem Changes.marked {c : Call} {s : Storage} {e : Entity} (h : c.Changes e s) (hs : s.Valid)
    (htracing : s.isTracing = true) :
    (c.apply s).contains e = true ∧ (c.apply s).isMarked e = true := by
  rw [c.contains_apply hs, c.isMarked_apply]
  rcases h with hstored | ⟨hfetched, hheld⟩
  · rw [hstored]
    simp [Event.holds, Event.flags, htracing]
  · rw [hfetched]
    simp [Event.holds, Event.flags, htracing, hheld]

/-- Who is held and flagged stays so while its flag is left alone. -/
theorem Spares.marked {c : Call} {e : Entity} (h : c.Spares e) {s : Storage} (hs : s.Valid)
    (hheld : s.contains e = true) (hmarked : s.isMarked e = true) :
    (c.apply s).contains e = true ∧ (c.apply s).isMarked e = true := by
  rw [c.contains_apply hs, c.isMarked_apply]
  have hstored : ∀ e' : Entity, (Event.stored e').holds s e = true ∧
      (Event.stored e').flags s e = true := by
    intro e'
    simp [Event.holds, Event.flags, hheld, hmarked]
  have hother : Event.other.holds s e = true ∧ Event.other.flags s e = true := ⟨hheld, hmarked⟩
  cases c with
  | insert e' record =>
      rw [event]
      split
      · exact hstored e'
      · exact hother
  | insertNamed e' values =>
      rw [event]
      split
      · exact hstored e'
      · exact hother
  | writeFirst e' f => exact hother
  | writeAll e' f => exact hother
  | use u =>
      cases u with
      | erase e' =>
          -- flags go by slot, so another entity in the slot would not do
          have hslot : e'.slot ≠ e.slot := h
          have hne : e' ≠ e := fun hsame => hslot (congrArg Entity.slot hsame)
          simp [event, Event.holds, Event.flags, hheld, hmarked, hslot, hne]
      | clear => cases h
      | unmarkAll => cases h
      | mark e' => simp [event, Event.holds, Event.flags, hheld, hmarked]
      | fetch mutable e' =>
          cases mutable with
          | true => simp [event, Event.holds, Event.flags, hheld, hmarked]
          | false => exact hother
      | _ => exact hother

/-- Without tracing nobody becomes flagged. -/
theorem unmarked_apply (c : Call) {s : Storage} (htracing : s.isTracing = false)
    (hunmarked : ∀ e, s.isMarked e = false) (e : Entity) : (c.apply s).isMarked e = false := by
  rw [c.isMarked_apply]
  cases c.event s <;> simp [Event.flags, htracing, hunmarked]

end Call

/-! ### Steps -/

namespace Step

/-- The step changes the entity in the storage of the component. -/
def Changes (id : ComponentId) (e : Entity) (step : Step) (slot : Option Storage) : Prop :=
  ∃ s c, slot = some s ∧ step.call? id = some c ∧ c.Changes e s

/-- The step leaves the flag of the entity in the storage of the component alone: it does not call
that storage, or it neither flushes nor clears it and drops nobody from the slot of the entity; and
the entity is not dropped from every storage. -/
def Spares (id : ComponentId) (e : Entity) (step : Step) : Prop :=
  match step with
  | .make .. => True
  | .call id' c => id' = id → c.Spares e
  | .callAll (.use (.erase e')) => e' ≠ e
  | .callAll c => c.Spares e

/-- The step switches tracing of the component on or off. -/
def Switches (id : ComponentId) (enabled : Bool) (step : Step) : Prop :=
  step.call? id = some (.use (.switchTracing enabled))

theorem call?_traceStep (id id' : ComponentId) :
    (traceStep id').call? id = if id' = id then some (.use (.switchTracing true)) else none :=
  rfl

/-- What is dropped from every storage was alive, and so is who is held: if they are not the same,
their slots are not. -/
theorem Spares.call {id : ComponentId} {e : Entity} {step : Step} (h : step.Spares id e)
    {a : Allocator} (he : a.contains e = true) (hproper : step.Proper a) {c : Call}
    (hcall : step.call? id = some c) : c.Spares e := by
  cases step with
  | make id' fresh => cases hcall
  | call id' what =>
      rw [Step.call?] at hcall
      split at hcall
      · next hid =>
        cases hcall
        exact h hid
      · cases hcall
  | callAll what =>
      cases hcall
      cases c with
      | use u =>
          cases u with
          | erase e' =>
              exact fun hslot => h (Allocator.eq_of_slot_eq hproper he hslot)
          | _ => exact h
      | _ => exact h

/-- Switching tracing on changes nobody. -/
theorem Traces.not_changes {step : Step} (h : step.Traces) {id : ComponentId} {e : Entity}
    {slot : Option Storage} : ¬step.Changes id e slot := by
  obtain ⟨id', rfl⟩ := h
  rintro ⟨s, c, -, hcall, hchanges⟩
  rw [call?_traceStep] at hcall
  split at hcall
  · cases hcall
    rcases hchanges with hstored | ⟨hfetched, -⟩
    · cases hstored
    · cases hfetched
  · cases hcall

end Step

/-- Tracing stays on until it is switched off. -/
theorem replay_traced {id : ComponentId} {steps : List Step}
    (hsteps : ∀ step ∈ steps, ¬step.Switches id false) {s : Storage} (hs : s.Valid)
    (htracing : s.isTracing = true) :
    ∃ s', replay id steps (some s) = some s' ∧ s'.Valid ∧ s'.isTracing = true := by
  refine replay_some (P := fun s => s.Valid ∧ s.isTracing = true) ?_ ⟨hs, htracing⟩
  rintro step hstep c hcall s ⟨hvalid, htraced⟩
  refine ⟨c.valid_apply hvalid, ?_⟩
  rw [c.isTracing_apply]
  split
  · next enabled =>
    cases enabled with
    | true => rfl
    | false => exact absurd hcall (hsteps step hstep)
  · exact htraced

/-- A storage that is made without tracing flags nobody until tracing is switched on. -/
theorem replay_unmarked {id : ComponentId} {steps : List Step}
    (hmakes : ∀ step ∈ steps, ∀ id fresh, step = .make id fresh → fresh.blank = fresh)
    (hsteps : ∀ step ∈ steps, ¬step.Switches id true) {s : Storage}
    (hreplay : replay id steps none = some s) (e : Entity) : s.isMarked e = false := by
  refine (replay_invariant
    (P := fun s => s.isTracing = false ∧ ∀ e, s.isMarked e = false) ?_ ?_
    (fun s hs => by cases hs) hreplay).2 e
  · intro step hstep fresh hmake
    rw [← hmakes step hstep id fresh hmake]
    exact ⟨by cases fresh <;> rfl, fresh.isMarked_blank⟩
  · rintro step hstep c hcall s ⟨htracing, hunmarked⟩
    refine ⟨?_, c.unmarked_apply htracing hunmarked⟩
    rw [c.isTracing_apply]
    split
    · next enabled =>
      cases enabled with
      | true => exact absurd hcall (hsteps step hstep)
      | false => rfl
    · exact htracing

/-- Only making a storage fills an empty slot. -/
theorem replay_none {id : ComponentId} {steps : List Step}
    (hsteps : ∀ step ∈ steps, ∀ fresh, step ≠ .make id fresh) : replay id steps none = none := by
  induction steps with
  | nil => rfl
  | cons step rest ih =>
      have hfirst : step.at id none = none := by
        cases hat : step.at id none with
        | none => rfl
        | some made =>
            exact absurd (Step.eq_make_of_at_none hat) (hsteps step List.mem_cons_self made)
      show replay id rest (step.at id none) = none
      rw [hfirst]
      exact ih fun step' hstep' => hsteps step' (List.mem_cons_of_mem step hstep')

theorem replay_blank (id : ComponentId) (steps : List Step) (s : Storage) :
    ∃ s', replay id steps (some s) = some s' ∧ s'.blank = s.blank :=
  replay_some (P := fun s' => s'.blank = s.blank)
    (fun _ _ c _ s' hs' => (c.blank_apply s').trans hs') rfl

/-! ### What operations do to tracing -/

theorem Step.Switches.eq {step : Step} {id : ComponentId} {enabled : Bool}
    (h : step.Switches id enabled) :
    step = .call id (.use (.switchTracing enabled)) ∨
      step = .callAll (.use (.switchTracing enabled)) := by
  cases step with
  | make id' fresh => cases h
  | callAll what =>
      cases h
      exact .inr rfl
  | call id' what =>
      rw [Step.Switches, Step.call?] at h
      split at h
      · next hid =>
        cases h
        exact .inl (by rw [hid])
      · cases h

namespace Operation

/-- Only asking the storage for it switches tracing off. -/
theorem switches_off {op : Operation} {s : Store} {step : Step} (h : step ∈ op.steps s)
    {id : ComponentId} (hoff : step.Switches id false) :
    op = .storage id (.switchTracing false) := by
  rcases hoff.eq with rfl | rfl
  · have hcause := causes_of_mem h
    cases op with
    | storage id' use =>
        cases hcause
        rfl
    | _ => simp [Causes, Step.Fills, Step.Quiet, Step.Traces, traceStep] at hcause
  · have hcause := causes_of_mem h
    cases op <;> simp [Causes, Step.Fills, Step.Quiet, Step.Traces, traceStep] at hcause

/-- Storages are made empty. -/
theorem makes_blank {op : Operation} {s : Store} {id : ComponentId} {fresh : Storage}
    (h : .make id fresh ∈ op.steps s) : fresh.blank = fresh := by
  have hcause := causes_of_mem h
  cases op <;> simp_all [Causes, Step.Fills, Step.Quiet, Step.Traces, traceStep]

end Operation

namespace Store

theorem mem_history {s : Store} {ops : List Operation} {step : Step} (h : step ∈ s.history ops) :
    ∃ op ∈ ops, ∃ s', step ∈ op.steps s' := by
  induction ops generalizing s with
  | nil => cases h
  | cons op rest ih =>
      rcases List.mem_append.1 h with hhere | hlater
      · exact ⟨op, List.mem_cons_self, s, hhere⟩
      · obtain ⟨op', hop', s', hstep⟩ := ih hlater
        exact ⟨op', List.mem_cons_of_mem op hop', s', hstep⟩

/-! ### Watching a component -/

/-- The query for the entities whose component was changed. -/
def changedOnes (t : ComponentType) : List (Term ComponentType) :=
  [.single (.changed (.component t false))]

/-- A new query for the changed ones can be prepared, and selects the entity. -/
def Reports (s : Store) (t : ComponentType) (e : Entity) : Prop :=
  ∃ q s', s.prepare (changedOnes t) = (.ok q, s') ∧ q.selects s'.world e = true

/-- Such a query can always be prepared. -/
theorem prepare_changedOnes {s : Store} {t : ComponentType} {id : ComponentId}
    (hposition : s.registry.position? t = some id) :
    s.prepare (changedOnes t) =
      (.ok
        { terms := [.single (.changed (.component ⟨t, id⟩ false))]
          served := ((s.world.traceAll [⟨t, id⟩]).typed? ⟨t, id⟩).isSome
          anchored := true },
        { s with world := s.world.traceAll [⟨t, id⟩] }) := by
  have hregister : s.registry.register t = (id, s.registry) :=
    Registry.register_of_position? hposition
  have hall : s.registry.registerAll (Term.allComponents (changedOnes t)) = s.registry := by
    show (s.registry.register t).2 = s.registry
    rw [hregister]
  have hterms : s.registry.resolve (changedOnes t) =
      [.single (.changed (.component ⟨t, id⟩ false))] := by
    show [Term.single (.changed (.component (⟨t, (s.registry.register t).1⟩ : Column) false))] = _
    rw [hregister]
  have haccepted : refuseAliasing
      (Term.patterns [.single (.changed (.component ⟨t, id⟩ false))]) = .ok () := rfl
  have hserved : ∀ w : World,
      [Term.single (.changed (.component (⟨t, id⟩ : Column) false))].all (Term.isServed w) =
        (w.typed? ⟨t, id⟩).isSome := fun w => Bool.and_true _
  simp only [prepare, hall, hterms, haccepted, hserved]
  rfl

/-- What a query sees through typed access after it was prepared. -/
theorem typed?_traced {w : World} {t : ComponentType} {id : ComponentId} {storage : Storage}
    (hstorage : w.storage? id = some storage) (hopens : storage.opens t = true) :
    (w.traceAll [⟨t, id⟩]).typed? ⟨t, id⟩ = some (storage.traceFor [⟨t, id⟩] id) := by
  rw [World.typed?, World.storage?_traceAll, hstorage, Option.map_some, Option.filter_some,
    Storage.opens_traceFor, hopens, if_pos rfl]

/-- What a query for the changed ones selects, once it was prepared. -/
theorem selects_changedOnes {s s' : Store} {t : ComponentType} {id : ComponentId} {q : Query}
    (hposition : s.registry.position? t = some id)
    (hprepare : s.prepare (changedOnes t) = (.ok q, s')) (e : Entity) :
    q.selects s'.world e = ((s.world.traceAll [⟨t, id⟩]).typed? ⟨t, id⟩).any fun storage =>
      storage.contains e && storage.isMarked e := by
  cases (prepare_changedOnes hposition).symm.trans hprepare
  show ((((s.world.traceAll [⟨t, id⟩]).typed? ⟨t, id⟩).isSome && true) &&
    (((s.world.traceAll [⟨t, id⟩]).holds ⟨t, id⟩ e &&
      (s.world.traceAll [⟨t, id⟩]).isMarked ⟨t, id⟩ e) && true)) = _
  rw [Bool.and_true, Bool.and_true, World.holds, World.isMarked]
  cases (s.world.traceAll [⟨t, id⟩]).typed? ⟨t, id⟩ <;> rfl

/-- A new query for the changed ones selects who is held and flagged. -/
theorem Valid.reports_iff {s : Store} (h : s.Valid) {t : ComponentType}
    (hvisible : t.storage.isHidden = false) {id : ComponentId}
    (hposition : s.registry.position? t = some id) (e : Entity) :
    s.Reports t e ↔ ∃ storage, s.world.storage? id = some storage ∧
      storage.contains e = true ∧ storage.isMarked e = true := by
  have hselects : ((s.world.traceAll [⟨t, id⟩]).typed? ⟨t, id⟩).any
      (fun storage => storage.contains e && storage.isMarked e) = true ↔
        ∃ storage, s.world.storage? id = some storage ∧
          storage.contains e = true ∧ storage.isMarked e = true := by
    cases hstorage : s.world.storage? id with
    | none =>
        rw [World.typed?, World.storage?_traceAll, hstorage]
        simp
    | some storage =>
        have hopens : storage.opens t = true := by
          rw [opens_of_blank (h.blank_eq (h.registry t id hposition) hstorage), hvisible,
            Bool.not_false]
        have hstill := storage.still_traceFor [⟨t, id⟩] id
        rw [typed?_traced hstorage hopens, Option.any_some, Bool.and_eq_true,
          ← Storage.contains_still, ← Storage.isMarked_still, hstill, Storage.contains_still,
          Storage.isMarked_still]
        simp
  constructor
  · rintro ⟨q, s', hprepare, hselected⟩
    rw [selects_changedOnes hposition hprepare] at hselected
    exact hselects.1 hselected
  · intro hflagged
    refine ⟨_, _, prepare_changedOnes hposition, ?_⟩
    rw [selects_changedOnes hposition (prepare_changedOnes hposition)]
    exact hselects.2 hflagged

end Store

/-! ### Watching a component -/

/-- The operation builds a query that watches the component of a column: one of its terms, at
whatever depth, asks for a change of it. -/
def Operation.Watches (op : Operation) (s : Store) (c : Column) : Prop :=
  match op with
  | .query ts _ => ∃ q s', s.prepare ts = (.ok q, s') ∧ c ∈ Term.allTraced q.terms
  | .untyped q _ =>
    (∃ started, s.startQuery q = .ok started) ∧
      ∃ t ∈ q.terms, t.requirement = .changed ∧ t.component = c.id
  | _ => False

/-- Where tracing is switched on among other components, it is on afterwards. -/
theorem replay_traceSteps {steps : List Step} (htraces : AllAre Step.Traces steps)
    {id : ComponentId} (hmem : traceStep id ∈ steps) {s : Storage} (hs : s.Valid) :
    ∃ s', replay id steps (some s) = some s' ∧ s'.Valid ∧ s'.isTracing = true := by
  obtain ⟨before, after, rfl⟩ := List.append_of_mem hmem
  obtain ⟨s₁, hbefore, hs₁⟩ : ∃ s', replay id before (some s) = some s' ∧ s'.Valid :=
    replay_some (fun _ _ c _ s' hs' => c.valid_apply hs') hs
  have hafter : ∀ step ∈ after, ¬step.Switches id false := by
    intro step hstep hoff
    obtain ⟨id', rfl⟩ := htraces step (List.mem_append_right _ (List.mem_cons_of_mem _ hstep))
    rw [Step.Switches, Step.call?_traceStep] at hoff
    split at hoff <;> cases hoff
  have hon : (s₁.switchTracing true).isTracing = true := by cases s₁ <;> rfl
  obtain ⟨s₂, hlast, hboth⟩ := replay_traced hafter ((s₁.within_mapFlags _).valid hs₁) hon
  refine ⟨s₂, ?_, hboth⟩
  rw [replay_append, hbefore]
  show replay id after ((traceStep id).at id (some s₁)) = some s₂
  rw [Step.at_some, Step.call?_traceStep, if_pos rfl]
  exact hlast

/-- A query that watches a component first switches tracing on, and then fetches and writes. -/
theorem Operation.Watches.steps {op : Operation} {s : Store} {c : Column} (h : op.Watches s c) :
    ∃ traced used, op.steps s = traced ++ used ∧ AllAre Step.Traces traced ∧
      AllAre Step.Quiet used ∧
      ∀ storage, s.world.storage? c.id = some storage → storage.Valid →
        storage.opens c.type = true →
        ∃ storage', replay c.id traced (some storage) = some storage' ∧ storage'.Valid ∧
          storage'.isTracing = true := by
  cases op with
  | query ts uses =>
      obtain ⟨q, s', hprepare, hmem⟩ := h
      refine ⟨s.world.traceSteps (Term.allTraced q.terms), q.steps uses s'.world, ?_,
        traces_traceSteps s.world _, q.quiet_steps uses s'.world, ?_⟩
      · rw [Operation.steps, Store.querySteps, hprepare]
      · intro storage hstorage hvalid hopens
        have hreplay := World.replays_traceAll (Term.allTraced q.terms) s.world c.id
        rw [World.storage?_traceAll, hstorage, Option.map_some] at hreplay
        have htraced : storage.isTracedBy (Term.allTraced q.terms) c.id = true := by
          rw [Storage.isTracedBy, List.any_eq_true]
          exact ⟨c, hmem, by rw [beq_self_eq_true, hopens]; rfl⟩
        refine ⟨_, hreplay.symm, ?_⟩
        rw [Storage.traceFor, htraced, if_pos rfl]
        exact ⟨(storage.within_mapFlags _).valid hvalid, by cases storage <;> rfl⟩
  | untyped q uses =>
      obtain ⟨⟨⟨cursor, st⟩, hstart⟩, t, ht, hchanged, hid⟩ := h
      refine ⟨q.traceSteps, FetchState.stepsTo { world := q.trace s.world } st cursor.current ++
        UntypedUse.runSteps uses cursor st, ?_, q.traces_traceSteps, ?_, ?_⟩
      · rw [Operation.steps, Store.untypedSteps, hstart]
      · exact (FetchState.quiet_stepsTo _ _ _).append (UntypedUse.quiet_runSteps uses cursor st)
      · intro storage _ hvalid _
        refine replay_traceSteps q.traces_traceSteps ?_ hvalid
        refine List.mem_flatMap.2 ⟨t, ht, ?_⟩
        rw [if_pos hchanged, hid]
        exact List.mem_singleton_self _
  | _ => cases h

/-- Two ways to cut a list, one of them behind an element that is not in the first part of the
other. -/
theorem cut_behind {α : Type} {first rest before after : List α} {x : α}
    (h : first ++ rest = before ++ x :: after) (hx : x ∉ first) :
    ∃ between, before = first ++ between ∧ rest = between ++ x :: after := by
  rcases List.append_eq_append_iff.1 h with ⟨between, hbefore, hrest⟩ | ⟨extra, hfirst, hafter⟩
  · exact ⟨between, hbefore, hrest⟩
  · cases extra with
    | nil =>
        rw [List.append_nil] at hfirst
        exact ⟨[], by rw [hfirst, List.append_nil], hafter.symm⟩
    | cons y extra =>
        obtain ⟨rfl, -⟩ := List.cons.inj hafter
        exact absurd (hfirst ▸ List.mem_append_right _ List.mem_cons_self) hx

namespace Store

variable {s : Store} {watch : Operation} {t : ComponentType} {id : ComponentId}

/-- From a query that watches the component on, only asking the storage for it switches tracing
off. -/
theorem not_switches_of_mem_history {c : Column} (hwatch : watch.Watches s c)
    {ops : List Operation} (hkept : .storage id (.switchTracing false) ∉ ops) {step : Step}
    (hstep : step ∈ s.history (watch :: ops)) : ¬step.Switches id false := by
  intro hoff
  obtain ⟨op, hop, s', hmem⟩ := mem_history hstep
  have hsame := Operation.switches_off hmem hoff
  rcases List.mem_cons.1 hop with rfl | hlater
  · rw [hsame] at hwatch
    exact hwatch
  · exact hkept (hsame ▸ hlater)

/-- Who is held and flagged at one moment of an operation stays so to its end, if its flag is left
alone. -/
theorem marked_of_steps (h : s.Valid) (htidy : s.world.Tidy) {op : Operation}
    {before after : List Step} (hsplit : op.steps s = before ++ after) {storage : Storage}
    (hstorage : replay id before (s.world.storage? id) = some storage) {e : Entity}
    (hheld : storage.contains e = true) (hmarked : storage.isMarked e = true)
    (hspares : ∀ step ∈ after, step.Spares id e) :
    ∃ last, (op.apply s).world.storage? id = some last ∧ last.contains e = true ∧
      last.isMarked e = true := by
  have hsteps := proper_steps htidy op
  rw [hsplit] at hsteps
  have hnow : storage.Tidy (op.during s) := by
    refine Storage.Tidy.replay ?_ ?_ hstorage
    · intro old hold
      exact (htidy.storage id old hold).grow fun e' he' => h.contains_during op he'
    · exact fun step hstep => (hsteps step (List.mem_append_left _ hstep)).stores
  have hkeeps : ∀ step ∈ after, ∀ c, step.call? id = some c → ∀ s' : Storage,
      s'.Tidy (op.during s) ∧ s'.contains e = true ∧ s'.isMarked e = true →
      (c.apply s').Tidy (op.during s) ∧ (c.apply s').contains e = true ∧
        (c.apply s').isMarked e = true := by
    rintro step hstep c hcall s' ⟨htidy', hheld', hmarked'⟩
    have hproper := hsteps step (List.mem_append_right _ hstep)
    have hspared := (hspares step hstep).call (htidy'.held e hheld') hproper hcall
    exact ⟨htidy'.call (hproper.stores.call hcall), hspared.marked htidy'.valid hheld' hmarked'⟩
  obtain ⟨last, hlast, -, hboth⟩ := replay_some hkeeps ⟨hnow, hheld, hmarked⟩
  refine ⟨last, ?_, hboth⟩
  rw [s.replays_apply op id, hsplit, replay_append, hstorage]
  exact hlast

/-- Who is held and flagged at one moment of a run stays so to its end, if its flag is left
alone. -/
theorem marked_of_history (h : s.Valid) (htidy : s.world.Tidy) {ops : List Operation}
    {before after : List Step} (hsplit : s.history ops = before ++ after) {storage : Storage}
    (hstorage : replay id before (s.world.storage? id) = some storage) {e : Entity}
    (hheld : storage.contains e = true) (hmarked : storage.isMarked e = true)
    (hspares : ∀ step ∈ after, step.Spares id e) :
    ∃ last, (s.run ops).world.storage? id = some last ∧ last.contains e = true ∧
      last.isMarked e = true := by
  induction ops generalizing s before after storage with
  | nil =>
      obtain ⟨rfl, rfl⟩ := List.append_eq_nil_iff.1 hsplit.symm
      exact ⟨storage, hstorage, hheld, hmarked⟩
  | cons op rest ih =>
      have hvalid := h.apply op
      have htidy' := tidy_apply htidy op
      rcases List.append_eq_append_iff.1 hsplit with ⟨earlier, rfl, hrest⟩ | ⟨later, hop, rfl⟩
      · -- the moment is after the first operation
        rw [replay_append, ← s.replays_apply op id] at hstorage
        exact ih hvalid htidy' hrest hstorage hheld hmarked hspares
      · -- the moment is within the first operation
        obtain ⟨next, hnext, hheld', hmarked'⟩ := marked_of_steps h htidy hop hstorage hheld hmarked
          fun step hstep => hspares step (List.mem_append_left _ hstep)
        exact ih hvalid htidy' (List.nil_append _).symm hnext hheld' hmarked'
          fun step hstep => hspares step (List.mem_append_right _ hstep)

/-- A storage that was there when the watching query was built reports every change up to which
tracing was kept. -/
theorem reports_of_changes (h : s.Valid) (htidy : s.world.Tidy) (hwatch : watch.Watches s ⟨t, id⟩)
    (hvisible : t.storage.isHidden = false) {ops : List Operation}
    (hposition : (s.run (watch :: ops)).registry.position? t = some id) {storage : Storage}
    (hstorage : s.world.storage? id = some storage) {e : Entity} {before after : List Step}
    {change : Step} (hsplit : s.history (watch :: ops) = before ++ change :: after)
    (hkept : ∀ step ∈ before, ¬step.Switches id false)
    (hchange : change.Changes id e (replay id before (some storage)))
    (hspares : ∀ step ∈ after, step.Spares id e) : (s.run (watch :: ops)).Reports t e := by
  have hlater : (s.run (watch :: ops)).Valid := h.run _
  have hvalid := h.world.storage id storage hstorage
  have hreplays := s.replays_history (watch :: ops) id
  rw [hstorage] at hreplays
  -- the make of a storage never changes, so the query found it by typed access
  have hopens : storage.opens t = true := by
    obtain ⟨last, hlast, hblank⟩ := replay_blank id (s.history (watch :: ops)) storage
    have hmake := hlater.blank_eq (hlater.registry t id hposition) (hreplays.trans hlast)
    rw [opens_of_blank (hblank.symm.trans hmake), hvisible, Bool.not_false]
  obtain ⟨traced, used, hsteps, htraces, -, htracing⟩ := hwatch.steps
  obtain ⟨s₁, hs₁, hvalid₁, htraced₁⟩ := htracing storage hstorage hvalid hopens
  have hnot : change ∉ traced := fun hmem => (htraces change hmem).not_changes hchange
  have hhistory : traced ++ (used ++ (watch.apply s).history ops) = before ++ change :: after := by
    rw [← List.append_assoc, ← hsteps]
    exact hsplit
  obtain ⟨between, rfl, -⟩ := cut_behind hhistory hnot
  rw [replay_append, hs₁] at hchange
  -- tracing stays on up to the change
  have hbetween : ∀ step ∈ between, ¬step.Switches id false :=
    fun step hstep => hkept step (List.mem_append_right _ hstep)
  obtain ⟨s₂, hs₂, hvalid₂, htraced₂⟩ := replay_traced hbetween hvalid₁ htraced₁
  obtain ⟨found, c, hfound, hcall, hchanges⟩ := hchange
  cases hs₂.symm.trans hfound
  obtain ⟨hheld, hmarked⟩ := hchanges.marked hvalid₂ htraced₂
  -- and the flag stays after it
  have hafter : s.history (watch :: ops) = (traced ++ between ++ [change]) ++ after := by
    rw [hsplit, List.append_cons]
  have hchanged : replay id (traced ++ between ++ [change]) (s.world.storage? id) =
      some (c.apply s₂) := by
    rw [hstorage, replay_append, replay_append, hs₁, hs₂]
    show change.at id (some s₂) = some (c.apply s₂)
    rw [Step.at_some, hcall, Option.elim_some]
  exact (hlater.reports_iff hvisible hposition e).2
    (marked_of_history h htidy hafter hchanged hheld hmarked hspares)

/-- A storage that is made after the watching query was built reports nothing until tracing is
switched on. -/
theorem not_reports_of_storage?_eq_none (h : s.Valid) (hwatch : watch.Watches s ⟨t, id⟩)
    (hvisible : t.storage.isHidden = false) {ops : List Operation}
    (hposition : (s.run (watch :: ops)).registry.position? t = some id)
    (hnone : s.world.storage? id = none)
    (huntraced : ∀ step ∈ (watch.apply s).history ops, ¬step.Switches id true) (e : Entity) :
    ¬(s.run (watch :: ops)).Reports t e := by
  have hlater : (s.run (watch :: ops)).Valid := h.run _
  intro hreports
  obtain ⟨storage, hstorage, -, hmarked⟩ := (hlater.reports_iff hvisible hposition e).1 hreports
  have hunmade : (watch.apply s).world.storage? id = none := by
    rw [s.replays_apply watch id, hnone]
    apply replay_none
    rintro step hstep fresh rfl
    obtain ⟨traced, used, hsteps, htraces, hquiet, -⟩ := hwatch.steps
    rw [hsteps] at hstep
    rcases List.mem_append.1 hstep with hmem | hmem
    · obtain ⟨id', htrace⟩ := htraces _ hmem
      cases htrace
    · exact hquiet _ hmem
  have hreplays := (watch.apply s).replays_history ops id
  rw [hunmade] at hreplays
  have hmakes : ∀ step ∈ (watch.apply s).history ops, ∀ id' fresh,
      step = .make id' fresh → fresh.blank = fresh := by
    rintro step hstep id' fresh rfl
    obtain ⟨op, -, s', hmem⟩ := mem_history hstep
    exact Operation.makes_blank hmem
  have hunmarked := replay_unmarked hmakes huntraced (hreplays.symm.trans hstorage) e
  rw [hmarked] at hunmarked
  cases hunmarked

/-- **No change is lost while changes are traced.**  Let a query that watches a component be built
in a reachable store.  If the storage of the component was there, then every later step that stores
a value of the component for an entity, or finds the entity by a fetch for writing, is reported if
tracing was not switched off before it: as long as every step after it leaves the flag alone, so
that it neither flushes nor clears the storage nor drops anybody from the slot of the entity, a new
query for the changed ones selects the entity.  If the storage was not there, a new query selects
nobody, whatever is stored or fetched, until tracing is switched on once more. -/
theorem changes_are_reported (hs : s.Reachable) (hwatch : watch.Watches s ⟨t, id⟩)
    (hvisible : t.storage.isHidden = false) (ops : List Operation)
    (hposition : (s.run (watch :: ops)).registry.position? t = some id) :
    ((s.world.storage? id).isSome = true →
      ∀ e before change after, s.history (watch :: ops) = before ++ change :: after →
        (∀ step ∈ before, ¬step.Switches id false) →
        change.Changes id e (replay id before (s.world.storage? id)) →
        (∀ step ∈ after, step.Spares id e) → (s.run (watch :: ops)).Reports t e) ∧
    (s.world.storage? id = none →
      (∀ step ∈ (watch.apply s).history ops, ¬step.Switches id true) →
      ∀ e, ¬(s.run (watch :: ops)).Reports t e) := by
  constructor
  · intro hthere e before change after hsplit hkept hchange hspares
    obtain ⟨storage, hstorage⟩ := Option.isSome_iff_exists.1 hthere
    rw [hstorage] at hchange
    exact reports_of_changes hs.valid hs.tidy hwatch hvisible hposition hstorage hsplit hkept
      hchange hspares
  · intro hnone huntraced e
    exact not_reports_of_storage?_eq_none hs.valid hwatch hvisible hposition hnone huntraced e

/-- An operation for examples: it builds a query for the changed levels. -/
def watchLevels : Operation :=
  .query (changedOnes Catalogue.level) []

theorem watches_watchLevels {s : Store}
    (hposition : s.registry.position? Catalogue.level = some ⟨0⟩) :
    watchLevels.Watches s ⟨Catalogue.level, ⟨0⟩⟩ :=
  ⟨_, _, prepare_changedOnes hposition, List.mem_singleton_self _⟩

/-- A level that is fetched for writing is reported if there were levels when they began to be
watched.  The first level of all is not reported if levels were watched before. -/
theorem watched_levels_reported :
    (run sample [watchLevels, .storage ⟨0⟩ (.fetch true ⟨1, 0⟩)]).Reports Catalogue.level ⟨1, 0⟩ ∧
    ((run {} [.register Catalogue.level, watchLevels,
        .spawn [.default Catalogue.level]]).world.storage? ⟨0⟩).any (·.contains ⟨1, 0⟩) = true ∧
    ¬(run {} [.register Catalogue.level, watchLevels,
        .spawn [.default Catalogue.level]]).Reports Catalogue.level ⟨1, 0⟩ := by
  have hvisible : Catalogue.level.storage.isHidden = false := rfl
  refine ⟨?_, by decide +kernel, ?_⟩
  · have hposition : sample.registry.position? Catalogue.level = some ⟨0⟩ := by decide +kernel
    have hlater : (run sample [watchLevels, .storage ⟨0⟩ (.fetch true ⟨1, 0⟩)]).registry.position?
        Catalogue.level = some ⟨0⟩ := by decide +kernel
    have hthere : (sample.world.storage? ⟨0⟩).isSome = true := by decide +kernel
    have hheld : ((watchLevels.apply sample).world.storage? ⟨0⟩).any
        (·.contains ⟨1, 0⟩) = true := by decide +kernel
    obtain ⟨hreported, -⟩ := changes_are_reported reachable_sample (watches_watchLevels hposition)
      hvisible [.storage ⟨0⟩ (.fetch true ⟨1, 0⟩)] hlater
    have hkept : ∀ step ∈ watchLevels.steps sample, ¬step.Switches ⟨0⟩ false := fun _ hstep =>
      not_switches_of_mem_history (watches_watchLevels hposition) List.not_mem_nil
        (List.mem_append_left _ hstep)
    refine hreported hthere ⟨1, 0⟩ (watchLevels.steps sample)
      (.call ⟨0⟩ (.use (.fetch true ⟨1, 0⟩))) [] rfl hkept ?_ (List.forall_mem_nil _)
    rw [← sample.replays_apply watchLevels ⟨0⟩]
    obtain ⟨storage, hstorage, hcontains⟩ := (Option.any_eq_true _ _).1 hheld
    exact ⟨storage, _, hstorage, rfl, .inr ⟨rfl, hcontains⟩⟩
  · have hposition : (run {} [.register Catalogue.level]).registry.position? Catalogue.level =
        some ⟨0⟩ := by decide +kernel
    have hlater : (run (run {} [.register Catalogue.level])
        [watchLevels, .spawn [.default Catalogue.level]]).registry.position? Catalogue.level =
        some ⟨0⟩ := by decide +kernel
    obtain ⟨-, hlost⟩ := changes_are_reported ⟨[.register Catalogue.level], rfl⟩
      (watches_watchLevels hposition) hvisible [.spawn [.default Catalogue.level]] hlater
    refine hlost rfl ?_ ⟨1, 0⟩
    -- making an entity switches nothing
    intro step hstep hon
    obtain ⟨op, hop, s', hmem⟩ := mem_history hstep
    cases List.mem_singleton.1 hop
    have hcause := Operation.causes_of_mem hmem
    rcases hon.eq with rfl | rfl <;> simp [Operation.Causes, Step.Fills] at hcause

end Store

end EntityStore
