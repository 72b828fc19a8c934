import EntityStore.Proofs.History

/-!
# Causes: which operation does what to the storages

Read backwards, the steps of an operation tell what can have caused a step.  A query only fetches
and writes, and switches tracing on; an entity is only filled by an operation that names it or
makes it; and nothing is dropped or flushed that no operation said.

* `AllAre` — every one of some steps is of a kind, with the ways in which steps are put together;
* `Step.Quiet`, `Step.Fills` — a fetch or a write; a new storage or a value for one entity;
* `Query.quiet_steps`, `UntypedUse.quiet_runSteps` — queries are quiet;
* `Store.fills_partsSteps` — attaching fills the entity;
* `Operation.Causes`, `Operation.causes_of_mem` — **what can be a step of which operation;**
* `Operation.Populates`, `Operation.entities_apply` — which operations make and remove entities.
-/

namespace EntityStore

/-! ### Steps of a kind -/

def AllAre (P : Step → Prop) (steps : List Step) : Prop :=
  ∀ step ∈ steps, P step

namespace AllAre

variable {P : Step → Prop}

theorem nil : AllAre P [] := List.forall_mem_nil P

theorem cons {step : Step} {steps : List Step} (h : P step) (h' : AllAre P steps) :
    AllAre P (step :: steps) :=
  List.forall_mem_cons.2 ⟨h, h'⟩

theorem singleton {step : Step} (h : P step) : AllAre P [step] := cons h nil

theorem append {steps steps' : List Step} (h : AllAre P steps) (h' : AllAre P steps') :
    AllAre P (steps ++ steps') :=
  List.forall_mem_append.2 ⟨h, h'⟩

theorem mono {Q : Step → Prop} {steps : List Step} (h : AllAre P steps)
    (hPQ : ∀ step, P step → Q step) : AllAre Q steps :=
  fun step hstep => hPQ step (h step hstep)

theorem ite {c : Prop} [Decidable c] {steps : List Step} (h : c → AllAre P steps) :
    AllAre P (if c then steps else []) := by
  split
  · next hc => exact h hc
  · exact nil

theorem elim {α : Type} {o : Option α} {steps : α → List Step} (h : ∀ x, AllAre P (steps x)) :
    AllAre P (o.elim [] steps) := by
  cases o with
  | none => exact nil
  | some x => exact h x

theorem flatMap {α : Type} {l : List α} {steps : α → List Step} (h : ∀ x, AllAre P (steps x)) :
    AllAre P (l.flatMap steps) := by
  intro step hstep
  obtain ⟨x, -, hx⟩ := List.mem_flatMap.1 hstep
  exact h x step hx

end AllAre

namespace Step

/-- The step fetches or writes. -/
def Quiet : Step → Prop
  | .call _ (.use (.fetch ..)) | .call _ (.use (.writeField ..)) => True
  | .call _ (.writeFirst ..) | .call _ (.writeAll ..) => True
  | _ => False

/-- The step makes an empty storage, or inserts for the entity. -/
def Fills (e : Entity) : Step → Prop
  | .make _ fresh => fresh.blank = fresh
  | .call _ (.insert e' _) | .call _ (.insertNamed e' _) => e' = e
  | _ => False

def Traces (step : Step) : Prop :=
  ∃ id, step = traceStep id

end Step

/-! ### Queries fetch and write -/

theorem FetchState.quiet_stepsTo (st st' : FetchState) (e : Entity) :
    AllAre Step.Quiet (st.stepsTo st' e) := by
  intro step hstep
  obtain ⟨f, -, rfl⟩ := List.mem_map.1 hstep
  trivial

theorem Slot.quiet_steps (f : Record → Record) (slot : Slot) :
    AllAre Step.Quiet (slot.steps f) := by
  fun_induction Slot.steps f slot with
  | case1 => exact .singleton trivial
  | case2 _ ih => exact ih
  | case3 => exact .singleton trivial
  | case4 => exact .singleton trivial
  | case5 => exact .singleton trivial
  | case6 => exact .nil

theorem quiet_writeSteps (f : Record → Record) (delivered : Option Row) :
    AllAre Step.Quiet (writeSteps f delivered) :=
  .flatMap (Slot.quiet_steps f)

theorem RowIterator.quiet_steps (it : RowIterator) (writes : List (Record → Record))
    (st : FetchState) : AllAre Step.Quiet (it.steps writes st) := by
  induction writes generalizing it st with
  | nil => exact .nil
  | cons f rest ih =>
      exact (AllAre.elim (st.quiet_stepsTo _)).append ((quiet_writeSteps f _).append (ih _ _))

theorem RowCursor.quiet_getSteps (c : RowCursor) (writes : List (Record → Record))
    (st : FetchState) : AllAre Step.Quiet (c.getSteps writes st) := by
  induction writes generalizing st with
  | nil => exact .nil
  | cons f rest ih =>
      exact (AllAre.elim (st.quiet_stepsTo _)).append ((quiet_writeSteps f _).append (ih _))

theorem RowCursor.quiet_walkSteps (c : RowCursor) (visits : List (List (Record → Record)))
    (st : FetchState) : AllAre Step.Quiet (c.walkSteps visits st) := by
  induction visits generalizing c st with
  | nil => exact .nil
  | cons writes rest ih => exact (c.quiet_getSteps writes st).append (ih _ _)

theorem QueryUse.quiet_steps (use : QueryUse) (q : Query) (w : World) :
    AllAre Step.Quiet (use.steps q w) := by
  cases use with
  | get e f => exact (FetchState.quiet_stepsTo _ _ e).append (quiet_writeSteps f _)
  | iterate writes => exact RowIterator.quiet_steps _ writes _
  | walk visits => exact RowCursor.quiet_walkSteps _ visits _

theorem Query.quiet_steps (q : Query) (uses : List QueryUse) (w : World) :
    AllAre Step.Quiet (q.steps uses w) := by
  induction uses generalizing w with
  | nil => exact .nil
  | cons use rest ih => exact (use.quiet_steps q w).append (ih _)

theorem UntypedUse.quiet_runSteps (uses : List UntypedUse) (c : UntypedCursor) (st : FetchState) :
    AllAre Step.Quiet (runSteps uses c st) := by
  induction uses generalizing c st with
  | nil => exact .nil
  | cons use rest ih =>
      refine .append ?_ (ih _ _)
      cases use with
      | next => exact FetchState.quiet_stepsTo _ _ _
      | visit e => exact FetchState.quiet_stepsTo _ _ e
      | drain => exact .nil
      | write index field v => exact .elim fun _ => .ite fun _ => .elim fun _ => .singleton trivial

/-! ### Building a query switches tracing on -/

theorem traces_traceSteps (w : World) (cs : List Column) :
    AllAre Step.Traces (w.traceSteps cs) := by
  induction cs generalizing w with
  | nil => exact .nil
  | cons c rest ih => exact (AllAre.ite fun _ => .singleton ⟨c.id, rfl⟩).append (ih _)

theorem UntypedQuery.traces_traceSteps (q : UntypedQuery) : AllAre Step.Traces q.traceSteps :=
  .flatMap fun t => .ite fun _ => .singleton ⟨t.component, rfl⟩

namespace Store

variable (s : Store)

theorem quiet_or_traces_querySteps (ts : List (Term ComponentType)) (uses : List QueryUse) :
    AllAre (fun step => step.Quiet ∨ step.Traces) (s.querySteps ts uses) := by
  rw [querySteps]
  split
  · next q s' _ =>
    exact ((traces_traceSteps s.world _).mono fun _ => .inr).append
      ((q.quiet_steps uses s'.world).mono fun _ => .inl)
  · exact .nil

theorem quiet_or_traces_untypedSteps (q : UntypedQuery) (uses : List UntypedUse) :
    AllAre (fun step => step.Quiet ∨ step.Traces) (s.untypedSteps q uses) := by
  rw [untypedSteps]
  split
  · next c st _ =>
    have hused := (FetchState.quiet_stepsTo { world := q.trace s.world } st c.current).append
      (UntypedUse.quiet_runSteps uses c st)
    exact (q.traces_traceSteps.mono fun _ => .inr).append (hused.mono fun _ => .inl)
  · exact .nil

/-! ### Attaching fills -/

theorem fills_attachSteps (e : Entity) (record : Record) :
    AllAre (Step.Fills e) (s.attachSteps e record) :=
  .ite fun _ => .cons (Storage.blank_empty record.type) (.ite fun _ => .singleton rfl)

theorem fills_attachNamedSteps (e : Entity) (id : ComponentId) (values : List (String × Value)) :
    AllAre (Step.Fills e) (s.attachNamedSteps e id values) := by
  refine .ite fun _ => ?_
  split
  · exact .singleton rfl
  · next entry _ _ => exact .cons entry.blank_emptyStorage (.singleton rfl)
  · exact .nil

theorem fills_partSteps (e : Entity) (part : Part) :
    AllAre (Step.Fills e) (s.partSteps e part) := by
  cases part with
  | native record => exact s.fills_attachSteps e record
  | named id values => exact s.fills_attachNamedSteps e id values

theorem fills_partsSteps (e : Entity) (parts : List Part) :
    AllAre (Step.Fills e) (s.partsSteps e parts) := by
  induction parts generalizing s with
  | nil => exact .nil
  | cons part rest ih =>
      refine (s.fills_partSteps e part).append ?_
      split
      · exact ih _
      · exact .nil

end Store

/-! ### Operations -/

/-- The step can be a step of the operation. -/
def Operation.Causes (op : Operation) (s : Store) (step : Step) : Prop :=
  match op with
  | .register _ | .registerSchema _ | .spawnBare => False
  | .spawn _ | .assemble .. =>
    step.Fills s.spawnBare.1 ∨ step = .callAll (.use (.erase s.spawnBare.1))
  | .despawn e => s.world.isAlive e = true ∧ step = .callAll (.use (.erase e))
  | .attach e _ | .attachNamed e _ _ => s.world.isAlive e = true ∧ step.Fills e
  | .detach t e => step = .call (s.column t).1.id (.use (.erase e))
  | .detachAt id e => step = .call id (.use (.erase e))
  | .read .. | .update .. => step.Quiet
  | .unmarkAll => step = .callAll (.use .unmarkAll)
  | .storage id use => step = .call id (.use use)
  | .query .. | .untyped .. => step.Quiet ∨ step.Traces

namespace Store

variable {s : Store} {step : Step}

theorem eq_erase_of_mem_despawnSteps {e : Entity} (h : step ∈ s.despawnSteps e) :
    s.world.isAlive e = true ∧ step = .callAll (.use (.erase e)) := by
  rw [despawnSteps] at h
  split at h
  · next halive => exact ⟨halive, List.mem_singleton.1 h⟩
  · cases h

theorem fills_or_erases_makeSteps (s : Store) (parts : List Part) :
    AllAre (fun step => step.Fills s.spawnBare.1 ∨ step = .callAll (.use (.erase s.spawnBare.1)))
      (s.makeSteps parts) := by
  refine ((s.spawnBare.2.fills_partsSteps s.spawnBare.1 parts).mono fun _ => .inl).append ?_
  split
  · exact .nil
  · exact fun _ hstep => .inr (eq_erase_of_mem_despawnSteps hstep).2

theorem alive_of_mem_attachSteps {e : Entity} {record : Record}
    (h : step ∈ s.attachSteps e record) : s.world.isAlive e = true := by
  by_contra halive
  rw [attachSteps, if_neg halive] at h
  cases h

theorem alive_of_mem_attachNamedSteps {e : Entity} {id : ComponentId}
    {values : List (String × Value)} (h : step ∈ s.attachNamedSteps e id values) :
    s.world.isAlive e = true := by
  by_contra halive
  rw [attachNamedSteps, if_neg halive] at h
  cases h

end Store

/-- **What can be a step of which operation.** -/
theorem Operation.causes_of_mem {op : Operation} {s : Store} {step : Step}
    (h : step ∈ op.steps s) : op.Causes s step := by
  cases op with
  | register t => cases h
  | registerSchema schema => cases h
  | spawnBare => cases h
  | spawn bundle => exact s.fills_or_erases_makeSteps _ step h
  | assemble parts complete =>
      cases complete with
      | true => exact s.fills_or_erases_makeSteps parts step h
      | false => exact .inl (s.spawnBare.2.fills_partsSteps _ parts step h)
  | despawn e => exact Store.eq_erase_of_mem_despawnSteps h
  | attach e record => exact ⟨Store.alive_of_mem_attachSteps h, s.fills_attachSteps e record step h⟩
  | attachNamed e id values =>
      exact ⟨Store.alive_of_mem_attachNamedSteps h, s.fills_attachNamedSteps e id values step h⟩
  | detach t e => exact List.mem_singleton.1 h
  | detachAt id e => exact List.mem_singleton.1 h
  | read t e =>
      refine AllAre.ite (P := Step.Quiet) (fun _ => ?_) step h
      exact .singleton trivial
  | update t e f =>
      refine AllAre.ite (P := Step.Quiet) (fun _ => ?_) step h
      exact .cons trivial (.singleton trivial)
  | unmarkAll => exact List.mem_singleton.1 h
  | storage id use => exact List.mem_singleton.1 h
  | query ts uses => exact s.quiet_or_traces_querySteps ts uses step h
  | untyped q uses => exact s.quiet_or_traces_untypedSteps q uses step h

/-! ### Making and removing entities -/

namespace Store

variable (s : Store)

theorem entities_attach (e : Entity) (record : Record) :
    (s.attach e record).2.world.entities = s.world.entities := by
  rcases s.snd_attach_cases e record with hsame | ⟨-, hmade | hinserted⟩
  · rw [hsame]
  · rw [hmade]
    rfl
  · rw [hinserted]
    exact World.entities_modifyStorage ..

theorem entities_attachNamed (e : Entity) (id : ComponentId) (values : List (String × Value)) :
    (s.attachNamed e id values).2.world.entities = s.world.entities := by
  rcases s.snd_attachNamed_cases e id values with hsame | ⟨-, hinserted | ⟨entry, -, hmade⟩⟩
  · rw [hsame]
  · rw [hinserted]
    exact World.entities_modifyStorage ..
  · rw [hmade]
    rfl

theorem entities_attachParts (e : Entity) (parts : List Part) :
    (s.attachParts e parts).2.world.entities = s.world.entities := by
  induction parts generalizing s with
  | nil => rfl
  | cons part rest ih =>
      have hpart : (s.attachPart e part).2.world.entities = s.world.entities := by
        cases part with
        | native record => exact s.entities_attach e record
        | named id values => exact s.entities_attachNamed e id values
      rw [attachParts]
      rcases houtcome : s.attachPart e part with ⟨_ | _, s'⟩
      · rw [houtcome] at hpart
        exact hpart
      · rw [houtcome] at hpart
        exact (ih s').trans hpart

theorem entities_useQuery (ts : List (Term ComponentType)) (uses : List QueryUse) :
    (s.useQuery ts uses).world.entities = s.world.entities := by
  have huses : ∀ (q : Query) (w : World),
      (uses.foldl (fun w use => use.apply q w) w).entities = w.entities := by
    intro q
    induction uses with
    | nil => exact fun w => rfl
    | cons use rest ih => exact fun w => (ih (use.apply q w)).trans (use.within_apply q w).entities
  rw [useQuery, prepare]
  simp only
  cases refuseAliasing (Term.patterns
    ((s.registry.registerAll (Term.allComponents ts)).resolve ts)) with
  | error err => rfl
  | ok _ => exact (huses _ _).trans (World.within_traceAll s.world _).entities

theorem entities_useUntyped (q : UntypedQuery) (uses : List UntypedUse) :
    (s.useUntyped q uses).world.entities = s.world.entities := by
  rw [useUntyped]
  split
  · next c st hstart =>
    exact (UntypedUse.within_run uses c st).entities.trans (within_startQuery hstart).entities
  · rfl

end Store

/-- The operation makes or removes entities. -/
def Operation.Populates (op : Operation) : Prop :=
  match op with
  | .spawnBare | .spawn _ | .assemble .. | .despawn _ => True
  | _ => False

/-- No other operation makes or removes entities. -/
theorem Operation.entities_apply {op : Operation} (h : ¬op.Populates) (s : Store) :
    (op.apply s).world.entities = s.world.entities := by
  cases op with
  | spawnBare => exact absurd trivial h
  | spawn bundle => exact absurd trivial h
  | assemble parts complete => exact absurd trivial h
  | despawn e => exact absurd trivial h
  | register t => rfl
  | registerSchema schema =>
      rw [apply, Store.addSchema]
      split <;> rfl
  | attach e record => exact s.entities_attach e record
  | attachNamed e id values => exact s.entities_attachNamed e id values
  | detach t e => rfl
  | detachAt id e => rfl
  | read t e =>
      rw [apply, Store.read_eq]
      split <;> rfl
  | update t e f =>
      rw [apply, Store.update_eq]
      split <;> rfl
  | unmarkAll => rfl
  | storage id use => rfl
  | query ts uses => exact s.entities_useQuery ts uses
  | untyped q uses => exact s.entities_useUntyped q uses

end EntityStore
