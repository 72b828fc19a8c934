import EntityStore.Proofs.FixedMatches
import EntityStore.Proofs.Serving

/-!
# Histories: what was done to the storages

Whatever an operation does, it does to the storages by a few calls.  A history lists them, and the
storages of a store are what its history makes of an empty slot table.

* `Call`, `Step`, `replay` — calls, and what they make of one slot;
* `Replays` — a world comes from another by steps;
* `Operation.steps`, `Store.history` — the steps of an operation, and of a run;
* `replays_fetchRow`, `replays_attach` and the like — the steps of each part of an operation;
* `Store.replays_history` — **replaying a history gives the storages.**

The steps of an operation are found by following it: which entity a query fetches for, and what,
depends on the storages at that moment.
-/

namespace EntityStore

/-- What can be done to one storage. -/
inductive Call where
  | insert (e : Entity) (record : Record)
  | insertNamed (e : Entity) (values : List (String × Value))
  | writeFirst (e : Entity) (f : Record → Record)
  | writeAll (e : Entity) (f : Record → Record)
  | use (u : StorageUse)

def Call.apply (call : Call) (s : Storage) : Storage :=
  match call with
  | .insert e record => s.insert e record
  | .insertNamed e values => (s.insertNamed e values).2
  | .writeFirst e f => s.writeFirst e f
  | .writeAll e f => s.writeAll e f
  | .use u => u.apply s

/-- What can be done to a slot table. -/
inductive Step where
  | make (id : ComponentId) (fresh : Storage)
  | call (id : ComponentId) (what : Call)
  | callAll (what : Call)

/-- What a step makes of the slot of a component. -/
def Step.at (id : ComponentId) (step : Step) (slot : Option Storage) : Option Storage :=
  match step with
  | .make id' fresh => if id' = id then some (slot.getD fresh) else slot
  | .call id' what => if id' = id then slot.map what.apply else slot
  | .callAll what => slot.map what.apply

/-- What steps make of the slot of a component. -/
def replay (id : ComponentId) (steps : List Step) (slot : Option Storage) : Option Storage :=
  steps.foldl (fun slot step => step.at id slot) slot

theorem replay_append (id : ComponentId) (steps steps' : List Step) (slot : Option Storage) :
    replay id (steps ++ steps') slot = replay id steps' (replay id steps slot) :=
  List.foldl_append

/-! ### Worlds that come from worlds -/

/-- The storages of a world come from those of another by steps. -/
def Replays (steps : List Step) (w w' : World) : Prop :=
  ∀ id, w'.storage? id = replay id steps (w.storage? id)

namespace Replays

theorem refl (w : World) : Replays [] w w := fun _ => rfl

theorem append {steps steps' : List Step} {w₁ w₂ w₃ : World} (h : Replays steps w₁ w₂)
    (h' : Replays steps' w₂ w₃) : Replays (steps ++ steps') w₁ w₃ := by
  intro id
  rw [h', h, replay_append]

theorem cons {step : Step} {steps : List Step} {w₁ w₂ w₃ : World} (h : Replays [step] w₁ w₂)
    (h' : Replays steps w₂ w₃) : Replays (step :: steps) w₁ w₃ :=
  h.append h'

/-- Whichever of two ways is gone. -/
theorem ite {steps : List Step} {w w' : World} {c : Prop} [Decidable c]
    (h : c → Replays steps w w') :
    Replays (if c then steps else []) w (if c then w' else w) := by
  split
  · next hc => exact h hc
  · exact refl w

theorem modifyStorage (w : World) (id : ComponentId) (call : Call) :
    Replays [.call id call] w (w.modifyStorage id call.apply) :=
  fun id' => w.storage?_modifyStorage id id' call.apply

theorem ensureSlot (w : World) (id : ComponentId) (fresh : Storage) :
    Replays [.make id fresh] w (w.ensureSlot id fresh) :=
  fun id' => w.storage?_ensureSlot id id' fresh

theorem mapStorages (w : World) (entities : Allocator) (call : Call) :
    Replays [.callAll call] w
      { entities, storages := w.storages.map (Option.map call.apply) } :=
  w.storage?_mapStorages entities call.apply

end Replays

/-! ### Fetches and writes -/

def Fetch.step (e : Entity) (f : Fetch) : Step :=
  .call f.component (.use (.fetch f.mutable e))

/-- The steps of the fetches that were made for an entity between two states. -/
def FetchState.stepsTo (st st' : FetchState) (e : Entity) : List Step :=
  (st'.made.drop st.made.length).map (Fetch.step e)

theorem FetchState.stepsTo_self (st : FetchState) (e : Entity) : st.stepsTo st e = [] := by
  rw [stepsTo, List.drop_length, List.map_nil]

theorem replays_perform (st : FetchState) (e : Entity) (fs : List Fetch) :
    Replays (st.stepsTo (st.perform e fs) e) st.world (st.perform e fs).world := by
  have hsteps : st.stepsTo (st.perform e fs) e = fs.map (Fetch.step e) := by
    rw [FetchState.stepsTo, FetchState.perform, List.drop_left]
  rw [hsteps]
  clear hsteps
  induction fs generalizing st with
  | nil =>
      rw [FetchState.perform_nil]
      exact .refl st.world
  | cons f rest ih =>
      rw [FetchState.perform_cons, List.map_cons]
      exact .cons (.modifyStorage st.world f.component _) (ih _)

theorem replays_fetchRow (e : Entity) (ts : List (Term Column)) (st : FetchState) :
    Replays (st.stepsTo (fetchRow e ts st).2 e) st.world (fetchRow e ts st).2.world := by
  obtain ⟨fs, hst, -⟩ := fetches_fetchRow e ts st
  rw [hst]
  exact replays_perform st e fs

theorem replays_pointAll (e : Entity) (ts : List UntypedTerm) (st : FetchState) :
    Replays (st.stepsTo (pointAll e ts st).2 e) st.world (pointAll e ts st).2.world := by
  obtain ⟨fs, hst, -⟩ := fetches_pointAll e ts st
  rw [hst]
  exact replays_perform st e fs

def Slot.steps (f : Record → Record) : Slot → List Step
  | .component c true e => [.call c.id (.writeFirst e f)]
  | .present slot => slot.steps f
  | .batch c true (some e) => [.call c.id (.writeAll e f)]
  | .erased (.one id _ true e) => [.call id (.writeFirst e f)]
  | .erased (.many id _ true e _) => [.call id (.writeAll e f)]
  | _ => []

theorem Slot.replays_update (f : Record → Record) (slot : Slot) (w : World) :
    Replays (slot.steps f) w (slot.update f w) := by
  fun_induction Slot.update f slot w with
  | case1 c e w => exact .modifyStorage w c.id _
  | case2 slot w ih => exact ih
  | case3 c e w => exact .modifyStorage w c.id _
  | case4 id _ e w => exact .modifyStorage w id _
  | case5 id _ e _ w => exact .modifyStorage w id _
  | case6 slot w h₁ h₂ h₃ h₄ h₅ =>
      have hnone : slot.steps f = [] := by
        fun_cases Slot.steps f slot with
        | case1 c e => exact absurd rfl (h₁ c e)
        | case2 slot => exact absurd rfl (h₂ slot)
        | case3 c e => exact absurd rfl (h₃ c e)
        | case4 id t e => exact absurd rfl (h₄ id t e)
        | case5 id t e n => exact absurd rfl (h₅ id t e n)
        | case6 => rfl
      rw [hnone]
      exact .refl w

/-- The steps of writing through a row, if one was delivered. -/
def writeSteps (f : Record → Record) (delivered : Option Row) : List Step :=
  (delivered.getD []).flatMap (Slot.steps f)

theorem replays_writeThrough (f : Record → Record) (delivered : Option Row) (st : FetchState) :
    Replays (writeSteps f delivered) st.world (writeThrough f delivered st).world := by
  cases delivered with
  | none => exact .refl st.world
  | some row =>
      show Replays (row.flatMap (Slot.steps f)) st.world (updateRow f row st.world)
      generalize st.world = w
      induction row generalizing w with
      | nil => exact .refl w
      | cons slot rest ih =>
          rw [List.flatMap_cons]
          exact (slot.replays_update f w).append (ih _)

/-! ### Queries -/

/-- The steps of calls of an iterator, each followed by a write. -/
def RowIterator.steps (it : RowIterator) : List (Record → Record) → FetchState → List Step
  | [], _ => []
  | f :: rest, st =>
    (it.upcoming? st.world).elim [] (st.stepsTo (it.next st).2.2) ++
      (writeSteps f (it.next st).1 ++
        (it.next st).2.1.steps rest (writeThrough f (it.next st).1 (it.next st).2.2))

theorem RowIterator.replays_next (it : RowIterator) (st : FetchState) :
    Replays ((it.upcoming? st.world).elim [] (st.stepsTo (it.next st).2.2)) st.world
      (it.next st).2.2.world := by
  have hhead := List.find?_eq_head?_dropWhile_not
    (Term.allHold st.world · it.query.terms) it.remaining
  rw [upcoming?, hhead, next_eq]
  cases it.remaining.dropWhile fun e => !Term.allHold st.world e it.query.terms with
  | nil => exact .refl st.world
  | cons e rest => exact replays_fetchRow e it.query.terms st

theorem RowIterator.replays_run (it : RowIterator) (writes : List (Record → Record))
    (st : FetchState) : Replays (it.steps writes st) st.world (it.run writes st).2.2.world := by
  induction writes generalizing it st with
  | nil => exact .refl st.world
  | cons f rest ih =>
      exact (it.replays_next st).append ((replays_writeThrough f _ _).append (ih _ _))

/-- The steps of fetching the row of a cursor, each time followed by a write. -/
def RowCursor.getSteps (c : RowCursor) : List (Record → Record) → FetchState → List Step
  | [], _ => []
  | f :: rest, st =>
    c.current?.elim [] (st.stepsTo (c.row st).2) ++
      (writeSteps f (c.row st).1 ++ c.getSteps rest (writeThrough f (c.row st).1 (c.row st).2))

theorem RowCursor.replays_row (c : RowCursor) (st : FetchState) :
    Replays (c.current?.elim [] (st.stepsTo (c.row st).2)) st.world (c.row st).2.world := by
  rw [row, current?]
  cases c.remaining with
  | nil => exact .refl st.world
  | cons e rest => exact replays_fetchRow e c.query.terms st

theorem RowCursor.replays_getAll (c : RowCursor) (writes : List (Record → Record))
    (st : FetchState) : Replays (c.getSteps writes st) st.world (c.getAll writes st).world := by
  induction writes generalizing st with
  | nil => exact .refl st.world
  | cons f rest ih =>
      exact (c.replays_row st).append ((replays_writeThrough f _ _).append (ih _))

def RowCursor.walkSteps (c : RowCursor) : List (List (Record → Record)) → FetchState → List Step
  | [], _ => []
  | writes :: rest, st =>
    c.getSteps writes st ++
      (c.step (c.getAll writes st).world).walkSteps rest (c.getAll writes st)

theorem RowCursor.replays_walk (c : RowCursor) (visits : List (List (Record → Record)))
    (st : FetchState) : Replays (c.walkSteps visits st) st.world (c.walk visits st).2.world := by
  induction visits generalizing c st with
  | nil => exact .refl st.world
  | cons writes rest ih => exact (c.replays_getAll writes st).append (ih _ _)

def QueryUse.steps (use : QueryUse) (q : Query) (w : World) : List Step :=
  match use with
  | .get e f =>
    FetchState.stepsTo { world := w } (q.rowOf e { world := w }).2 e ++
      writeSteps f (q.rowOf e { world := w }).1
  | .iterate writes => (q.rows w).steps writes { world := w }
  | .walk visits => (q.cursor w).walkSteps visits { world := w }

theorem QueryUse.replays_apply (use : QueryUse) (q : Query) (w : World) :
    Replays (use.steps q w) w (use.apply q w) := by
  cases use with
  | get e f =>
      refine .append ?_ (replays_writeThrough f _ _)
      rw [Query.rowOf]
      split
      · exact replays_fetchRow e q.terms { world := w }
      · exact .refl w
  | iterate writes => exact (q.rows w).replays_run writes { world := w }
  | walk visits => exact (q.cursor w).replays_walk visits { world := w }

/-- The steps of the uses of a query, one after the other. -/
def Query.steps (q : Query) : List QueryUse → World → List Step
  | [], _ => []
  | use :: rest, w => use.steps q w ++ q.steps rest (use.apply q w)

theorem Query.replays_uses (q : Query) (uses : List QueryUse) (w : World) :
    Replays (q.steps uses w) w (uses.foldl (fun w use => use.apply q w) w) := by
  induction uses generalizing w with
  | nil => exact .refl w
  | cons use rest ih => exact (use.replays_apply q w).append (ih _)

/-- The step that switches change tracing of a component on. -/
def traceStep (id : ComponentId) : Step :=
  .call id (.use (.switchTracing true))

/-- The steps of switching change tracing on for a typed query. -/
def World.traceSteps : List Column → World → List Step
  | [], _ => []
  | c :: rest, w =>
    (if (w.typed? c).isSome then [traceStep c.id] else []) ++
      traceSteps rest (if (w.typed? c).isSome then w.trace c.id else w)

theorem World.replays_traceAll (cs : List Column) (w : World) :
    Replays (traceSteps cs w) w (w.traceAll cs) := by
  induction cs generalizing w with
  | nil => exact .refl w
  | cons c rest ih =>
      exact (Replays.ite fun _ => .modifyStorage w c.id _).append (ih _)

/-! ### Untyped queries -/

/-- The steps of switching change tracing on for an untyped query. -/
def UntypedQuery.traceSteps (q : UntypedQuery) : List Step :=
  q.terms.flatMap fun t => if t.requirement = .changed then [traceStep t.component] else []

theorem UntypedQuery.replays_trace (q : UntypedQuery) (w : World) :
    Replays q.traceSteps w (q.trace w) := by
  obtain ⟨ts⟩ := q
  show Replays (ts.flatMap _) w (ts.foldl _ w)
  induction ts generalizing w with
  | nil => exact .refl w
  | cons t rest ih =>
      rw [List.flatMap_cons, List.foldl_cons]
      exact (Replays.ite fun _ => .modifyStorage w t.component _).append (ih _)

theorem UntypedCursor.replays_seek (c : UntypedCursor) (st : FetchState) :
    Replays (st.stepsTo (c.seek st).2 (c.seek st).1.current) st.world (c.seek st).2.world := by
  rw [seek]
  split
  · rw [FetchState.stepsTo_self]
    exact .refl st.world
  · next e rest _ => exact replays_pointAll e c.terms st

def UntypedUse.steps (use : UntypedUse) (c : UntypedCursor) (st : FetchState) : List Step :=
  match use with
  | .next => st.stepsTo (c.next st).2 (c.next st).1.current
  | .visit e => st.stepsTo (c.visit e st).2.2 e
  | .drain => []
  | .write index field v =>
    (c.accessor? index).elim [] fun a =>
      if a.mutable then
        a.target.elim [] fun e => [.call a.component (.use (.writeField e field v))]
      else []

theorem UntypedUse.replays_apply (use : UntypedUse) (c : UntypedCursor) (st : FetchState) :
    Replays (use.steps c st) st.world (use.apply c st).2.world := by
  cases use with
  | next =>
      show Replays (st.stepsTo (c.next st).2 (c.next st).1.current) st.world (c.next st).2.world
      rw [UntypedCursor.next]
      split
      · rw [FetchState.stepsTo_self]
        exact .refl st.world
      · exact UntypedCursor.replays_seek _ st
      · exact UntypedCursor.replays_seek _ st
  | visit e =>
      show Replays (st.stepsTo (c.visit e st).2.2 e) st.world (c.visit e st).2.2.world
      rw [UntypedCursor.visit]
      split
      · exact replays_pointAll e c.terms st
      · rw [FetchState.stepsTo_self]
        exact .refl st.world
  | drain => exact .refl st.world
  | write index field v =>
      rw [steps, apply]
      cases c.accessor? index with
      | none => exact .refl st.world
      | some a =>
          show Replays (if a.mutable then _ else []) st.world (a.write st.world field v).2
          rw [Accessor.snd_write]
          refine .ite fun _ => ?_
          cases a.target with
          | none => exact .refl st.world
          | some e => exact .modifyStorage st.world a.component (.use (.writeField e field v))

/-- The steps of several calls of an untyped cursor. -/
def UntypedUse.runSteps : List UntypedUse → UntypedCursor → FetchState → List Step
  | [], _, _ => []
  | use :: rest, c, st => use.steps c st ++ runSteps rest (use.apply c st).1 (use.apply c st).2

theorem UntypedUse.replays_run (uses : List UntypedUse) (c : UntypedCursor) (st : FetchState) :
    Replays (runSteps uses c st) st.world (run uses c st).2.world := by
  induction uses generalizing c st with
  | nil => exact .refl st.world
  | cons use rest ih => exact (use.replays_apply c st).append (ih _ _)

namespace Store

/-- The steps of preparing a typed query and using it. -/
def querySteps (s : Store) (ts : List (Term ComponentType)) (uses : List QueryUse) : List Step :=
  match s.prepare ts with
  | (.ok q, s') => s.world.traceSteps (Term.allTraced q.terms) ++ q.steps uses s'.world
  | (.error _, _) => []

theorem replays_useQuery (s : Store) (ts : List (Term ComponentType)) (uses : List QueryUse) :
    Replays (s.querySteps ts uses) s.world (s.useQuery ts uses).world := by
  rw [querySteps, useQuery, prepare]
  cases refuseAliasing (Term.patterns
    ((s.registry.registerAll (Term.allComponents ts)).resolve ts)) with
  | error err => exact .refl s.world
  | ok _ => exact (World.replays_traceAll _ s.world).append (Query.replays_uses _ uses _)

/-- The steps of starting an untyped query and using its cursor. -/
def untypedSteps (s : Store) (q : UntypedQuery) (uses : List UntypedUse) : List Step :=
  match s.startQuery q with
  | .ok (c, st) =>
    q.traceSteps ++
      (FetchState.stepsTo { world := q.trace s.world } st c.current ++
        UntypedUse.runSteps uses c st)
  | .error _ => []

theorem replays_useUntyped (s : Store) (q : UntypedQuery) (uses : List UntypedUse) :
    Replays (s.untypedSteps q uses) s.world (s.useUntyped q uses).world := by
  rw [untypedSteps, useUntyped]
  cases hcheck : q.check s.registry with
  | error err =>
      rw [startQuery, hcheck]
      exact .refl s.world
  | ok _ =>
      rw [startQuery_of_check hcheck]
      refine (q.replays_trace s.world).append ?_
      exact (UntypedCursor.replays_seek _ { world := q.trace s.world }).append
        (UntypedUse.replays_run uses _ _)

/-! ### Entities and components -/

def attachSteps (s : Store) (e : Entity) (record : Record) : List Step :=
  if s.world.isAlive e then
    .make (s.column record.type).1.id (.empty record.type) ::
      if ((s.ensureColumn record.type).world.typed? (s.column record.type).1).isSome then
        [.call (s.column record.type).1.id (.insert e record)]
      else []
  else []

theorem replays_attach (s : Store) (e : Entity) (record : Record) :
    Replays (s.attachSteps e record) s.world (s.attach e record).2.world := by
  by_cases halive : s.world.isAlive e = true
  · rw [attachSteps, if_pos halive, attach_of_alive halive]
    refine .cons (.ensureSlot s.world _ _) ?_
    cases (s.ensureColumn record.type).world.typed? (s.column record.type).1 with
    | none => exact .refl _
    | some storage => exact .modifyStorage _ _ _
  · rw [attachSteps, if_neg halive, attach, if_neg halive]
    exact .refl s.world

/-- The steps of attaching a component by its position. -/
def attachNamedSteps (s : Store) (e : Entity) (id : ComponentId) (values : List (String × Value)) :
    List Step :=
  if s.world.isAlive e then
    match s.world.storage? id, s.registry.entry? id with
    | some _, _ => [.call id (.insertNamed e values)]
    | none, some entry => [.make id entry.emptyStorage, .call id (.insertNamed e values)]
    | none, none => []
  else []

/-- A storage that is called before it is put into an empty slot might as well be called there. -/
theorem replays_ensureSlot_call {w : World} {id : ComponentId} (hnone : w.storage? id = none)
    (fresh : Storage) (c : Call) :
    Replays [.make id fresh, .call id c] w (w.ensureSlot id (c.apply fresh)) := by
  intro id'
  rw [World.storage?_ensureSlot]
  show _ = Step.at id' (.call id c) (Step.at id' (.make id fresh) (w.storage? id'))
  rw [Step.at, Step.at]
  by_cases hid : id = id'
  · subst hid
    rw [if_pos rfl, if_pos rfl, if_pos rfl, hnone]
    rfl
  · rw [if_neg hid, if_neg hid, if_neg hid]

theorem replays_attachNamed (s : Store) (e : Entity) (id : ComponentId)
    (values : List (String × Value)) :
    Replays (s.attachNamedSteps e id values) s.world (s.attachNamed e id values).2.world := by
  rw [attachNamedSteps, attachNamed]
  split
  · cases hstorage : s.world.storage? id with
    | some storage =>
        have hsame : s.world.modifyStorage id (fun _ => (storage.insertNamed e values).2) =
            s.world.modifyStorage id (Call.insertNamed e values).apply :=
          World.modifyStorage_const hstorage (Call.insertNamed e values).apply
        show Replays _ s.world (s.world.modifyStorage id _)
        rw [hsame]
        exact .modifyStorage s.world id _
    | none =>
        cases s.registry.entry? id with
        | none => exact .refl s.world
        | some entry => exact replays_ensureSlot_call hstorage entry.emptyStorage _
  · exact .refl s.world

def partSteps (s : Store) (e : Entity) : Part → List Step
  | .native record => s.attachSteps e record
  | .named id values => s.attachNamedSteps e id values

/-- The steps of attaching parts in order, up to the first that fails. -/
def partsSteps (s : Store) (e : Entity) : List Part → List Step
  | [] => []
  | part :: rest =>
    s.partSteps e part ++
      match s.attachPart e part with
      | (.ok (), s) => partsSteps s e rest
      | (.error _, _) => []

theorem replays_attachParts (s : Store) (e : Entity) (parts : List Part) :
    Replays (s.partsSteps e parts) s.world (s.attachParts e parts).2.world := by
  induction parts generalizing s with
  | nil => exact .refl s.world
  | cons part rest ih =>
      have hpart : Replays (s.partSteps e part) s.world (s.attachPart e part).2.world := by
        cases part with
        | native record => exact s.replays_attach e record
        | named id values => exact s.replays_attachNamed e id values
      rw [partsSteps, attachParts]
      rcases houtcome : s.attachPart e part with ⟨_ | _, s'⟩
      · rw [houtcome] at hpart
        exact hpart.append (.refl s'.world)
      · rw [houtcome] at hpart
        exact hpart.append (ih s')

def despawnSteps (s : Store) (e : Entity) : List Step :=
  if s.world.isAlive e then [.callAll (.use (.erase e))] else []

theorem replays_despawn (s : Store) (e : Entity) :
    Replays (s.despawnSteps e) s.world (s.despawn e).2.world := by
  have halive : s.world.isAlive e = (s.world.entities.release e).isSome :=
    (s.world.entities.release_isSome e).symm
  rw [despawnSteps, halive, despawn, World.despawn]
  cases s.world.entities.release e with
  | none => exact .refl s.world
  | some entities => exact .mapStorages s.world entities (.use (.erase e))

theorem snd_giveUp (s : Store) (e : Entity) (err : StoreError) :
    (s.giveUp e err).2 = (s.despawn e).2 := by
  rw [giveUp]
  rcases s.despawn e with ⟨_ | _, s'⟩ <;> rfl

/-- The steps of making an entity with parts, all or none. -/
def makeSteps (s : Store) (parts : List Part) : List Step :=
  s.spawnBare.2.partsSteps s.spawnBare.1 parts ++
    match s.spawnBare.2.attachParts s.spawnBare.1 parts with
    | (.ok (), _) => []
    | (.error _, s') => s'.despawnSteps s.spawnBare.1

theorem replays_make (s : Store) (parts : List Part) :
    Replays (s.makeSteps parts) s.world (s.make parts).2.world := by
  have hparts := s.spawnBare.2.replays_attachParts s.spawnBare.1 parts
  rw [makeSteps, make]
  rcases houtcome : s.spawnBare.2.attachParts s.spawnBare.1 parts with ⟨err | _, s'⟩
  · rw [houtcome] at hparts
    show Replays _ s.world (s'.giveUp s.spawnBare.1 err).2.world
    rw [snd_giveUp]
    exact hparts.append (s'.replays_despawn s.spawnBare.1)
  · rw [houtcome] at hparts
    exact hparts.append (.refl s'.world)

/-- The steps of fetching a native component and, for writing, writing it. -/
def fetchSteps (s : Store) (t : ComponentType) (calls : List Call) : List Step :=
  if (s.world.typed? (s.column t).1).isSome then calls.map (.call (s.column t).1.id) else []

theorem replays_read (s : Store) (t : ComponentType) (e : Entity) :
    Replays (s.fetchSteps t [.use (.fetch false e)]) s.world (s.read t e).2.world := by
  rw [fetchSteps, read_eq]
  cases s.world.typed? (s.column t).1 with
  | none => exact .refl s.world
  | some storage => exact .modifyStorage s.world (s.column t).1.id _

theorem replays_update (s : Store) (t : ComponentType) (e : Entity) (f : Record → Record) :
    Replays (s.fetchSteps t [.use (.fetch true e), .writeFirst e f]) s.world
      (s.update t e f).2.world := by
  rw [fetchSteps, update_eq]
  cases s.world.typed? (s.column t).1 with
  | none => exact .refl s.world
  | some storage =>
      exact .cons (.modifyStorage s.world (s.column t).1.id _) (.modifyStorage _ _ _)

end Store

/-! ### Operations and runs -/

/-- What an operation does to the storages. -/
def Operation.steps (op : Operation) (s : Store) : List Step :=
  match op with
  | .register _ | .registerSchema _ | .spawnBare => []
  | .spawn bundle => s.makeSteps (bundle.map .native)
  | .assemble parts true => s.makeSteps parts
  | .assemble parts false => s.spawnBare.2.partsSteps s.spawnBare.1 parts
  | .despawn e => s.despawnSteps e
  | .attach e record => s.attachSteps e record
  | .attachNamed e id values => s.attachNamedSteps e id values
  | .detach t e => [.call (s.column t).1.id (.use (.erase e))]
  | .detachAt id e => [.call id (.use (.erase e))]
  | .read t e => s.fetchSteps t [.use (.fetch false e)]
  | .update t e f => s.fetchSteps t [.use (.fetch true e), .writeFirst e f]
  | .unmarkAll => [.callAll (.use .unmarkAll)]
  | .storage id use => [.call id (.use use)]
  | .query ts uses => s.querySteps ts uses
  | .untyped q uses => s.untypedSteps q uses

namespace Store

/-- **An operation does to the storages what its steps say.** -/
theorem replays_apply (s : Store) (op : Operation) :
    Replays (op.steps s) s.world (op.apply s).world := by
  cases op with
  | register t => exact .refl s.world
  | registerSchema schema =>
      show Replays [] s.world (s.addSchema schema).world
      rw [addSchema]
      split <;> exact .refl s.world
  | spawnBare => exact .refl s.world
  | spawn bundle =>
      show Replays _ s.world (s.spawn bundle).2.world
      rw [spawn_eq_make]
      exact s.replays_make _
  | assemble parts complete =>
      cases complete with
      | true =>
          have hmake := s.replays_make parts
          rw [← completeEntity_eq_make] at hmake
          exact hmake
      | false =>
          have hparts := s.spawnBare.2.replays_attachParts s.spawnBare.1 parts
          have hserve :=
            congrArg (fun outcome : Answer × Store => outcome.2) (s.serve_assemble parts)
          show Replays _ s.world ((Request.assemble parts false).serve s).2.world
          rw [show ((Request.assemble parts false).serve s).2 = _ from hserve]
          exact hparts
  | despawn e => exact s.replays_despawn e
  | attach e record => exact s.replays_attach e record
  | attachNamed e id values => exact s.replays_attachNamed e id values
  | detach t e => exact .modifyStorage s.world _ _
  | detachAt id e => exact .modifyStorage s.world id _
  | read t e => exact s.replays_read t e
  | update t e f => exact s.replays_update t e f
  | unmarkAll => exact .mapStorages s.world s.world.entities _
  | storage id use => exact .modifyStorage s.world id _
  | query ts uses => exact s.replays_useQuery ts uses
  | untyped q uses => exact s.replays_useUntyped q uses

/-- What operations do to the storages, one after the other. -/
def history : Store → List Operation → List Step
  | _, [] => []
  | s, op :: rest => op.steps s ++ history (op.apply s) rest

/-- **Replaying a history gives the storages.** -/
theorem replays_history (s : Store) (ops : List Operation) :
    Replays (s.history ops) s.world (s.run ops).world := by
  induction ops generalizing s with
  | nil => exact .refl s.world
  | cons op rest ih => exact (s.replays_apply op).append (ih _)

end Store

end EntityStore
