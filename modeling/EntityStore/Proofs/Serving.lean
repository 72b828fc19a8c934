import EntityStore.Proofs.Refinement

/-!
# Serving requests

A store that serves requests gives the answers of its ledger and moves as its ledger does, however
many requests it has served before.

* `Request.serve`, `Store.serveAll` — a request to a store, and a run of them;
* `Request.operation` — a request is an operation, so runs of requests keep what operations keep;
* `Sound.ledger_serve` — a request to the store is the same request to its ledger;
* `Store.AnswersLike`, `Sound.answersLike` — what is read from the store is what the ledger says;
* `Store.refines_ledger` — all of it, for every run from the empty store.
-/

namespace EntityStore

/-- What a store answers to a request and what is left of it. -/
def Request.serve (r : Request) (s : Store) : Answer × Store :=
  match r with
  | .register t => (.done, (s.column t).2)
  | .registerSchema schema =>
    (Answer.ofUnit ((s.registry.registerSchema schema).map fun _ => ()), s.addSchema schema)
  | .spawnBare => Prod.map Answer.made id s.spawnBare
  | .spawn bundle => Prod.map Answer.ofEntity id (s.spawn bundle)
  | .assemble parts complete =>
    let (b, s) := s.startEntity.2.addParts s.startEntity.1 parts
    if complete then Prod.map Answer.ofEntity id (s.completeEntity b) else (.made b.entity, s)
  | .attach e record => Prod.map Answer.ofUnit id (s.attach e record)
  | .attachNamed e i values => Prod.map Answer.ofUnit id (s.attachNamed e i values)
  | .detach t e => Prod.map Answer.detached id (s.detach t e)
  | .detachAt i e =>
    (.detached (s.world.detach e i).1, { s with world := (s.world.detach e i).2 })
  | .despawn e => Prod.map Answer.ofUnit id (s.despawn e)
  | .holds t e => Prod.map Answer.held id (s.holds t e)
  | .read t e => Prod.map Answer.given id (s.read t e)
  | .update t e f => Prod.map Answer.written id (s.update t e f)

/-- The operation that a request asks for. -/
def Request.operation : Request → Operation
  | .register t => .register t
  | .registerSchema schema => .registerSchema schema
  | .spawnBare => .spawnBare
  | .spawn bundle => .spawn bundle
  | .assemble parts complete => .assemble parts complete
  | .attach e record => .attach e record
  | .attachNamed e id values => .attachNamed e id values
  | .detach t e => .detach t e
  | .detachAt id e => .detachAt id e
  | .despawn e => .despawn e
  | .holds t _ => .register t
  | .read t e => .read t e
  | .update t e f => .update t e f

theorem Request.snd_serve (r : Request) (s : Store) : (r.serve s).2 = r.operation.apply s := by
  cases r with
  | assemble parts complete => cases complete <;> rfl
  | _ => rfl

namespace Store

/-- The answers to requests, one after the other, and the store that is left. -/
def serveAll : List Request → Store → List Answer × Store
  | [], s => ([], s)
  | r :: rest, s =>
    ((r.serve s).1 :: (serveAll rest (r.serve s).2).1, (serveAll rest (r.serve s).2).2)

variable {s : Store}

/-! ### Questions -/

/-- The store gives the answers of a ledger: who is alive and how many are, and of each component
whether an entity has it, its first record, all its records, and its first instance by position. -/
structure AnswersLike (s : Store) (l : Ledger) : Prop where
  isAlive : ∀ e, s.world.isAlive e = decide (e ∈ l.live)
  population : s.world.population = l.live.card
  holds : ∀ t e, (s.holds t e).1 = l.holds t e
  read : ∀ t e, (s.read t e).1 = (l.records t e).head?
  values : ∀ t e, s.world.values (s.column t).1 e = l.records t e
  first? : ∀ id e, (s.world.storage? id).bind (·.first? e) = l.instance? id e

theorem Sound.holds_eq (h : s.Sound) (t : ComponentType) (e : Entity) :
    (s.holds t e).1 = s.ledger.holds t e := by
  show s.world.holds (s.column t).1 e = (s.ledger.entry? t e).isSome
  rw [World.holds]
  rcases h.typed? t with ⟨storage, htyped, -, hvalid, -, hentry⟩ | ⟨htyped, hentry⟩
  · rw [htyped, ← hentry, ← hvalid.contains_eq]
    rfl
  · rw [htyped, hentry]
    rfl

theorem Sound.values_eq (h : s.Sound) (t : ComponentType) (e : Entity) :
    s.world.values (s.column t).1 e = s.ledger.records t e := by
  rw [World.values, Ledger.records]
  rcases h.typed? t with ⟨storage, htyped, -, -, -, hentry⟩ | ⟨htyped, hentry⟩
  · rw [htyped, ← hentry, ← storage.records_eq]
    rfl
  · rw [htyped, hentry]
    rfl

theorem read_eq (s : Store) (t : ComponentType) (e : Entity) :
    s.read t e =
      match s.world.typed? (s.column t).1 with
      | some storage =>
        ((storage.records e).head?,
          { (s.column t).2 with world := s.world.fetch (s.column t).1.id false e })
      | none => (none, (s.column t).2) := rfl

theorem fst_read (s : Store) (t : ComponentType) (e : Entity) :
    (s.read t e).1 = s.world.value? (s.column t).1 e := by
  rw [read_eq, World.value?, World.values]
  cases s.world.typed? (s.column t).1 <;> rfl

/-- **What is read from a store is what its ledger says.** -/
theorem Sound.answersLike (h : s.Sound) : s.AnswersLike s.ledger where
  isAlive e := by
    rw [Bool.eq_iff_iff, decide_eq_true_iff]
    exact (s.mem_live_ledger e).symm
  population := s.world.entities.card_live.symm
  holds := h.holds_eq
  read t e := by rw [fst_read, World.value?, h.values_eq]
  values := h.values_eq
  first? id e := by
    show _ = (s.world.holding? id e).bind Holding.first?
    rw [World.holding?]
    cases s.world.storage? id with
    | none => rfl
    | some storage => exact storage.first?_eq e

/-! ### Requests -/

/-- Answering does not change what is observed. -/
theorem observe_map {α β : Type} (answer : α → β) (outcome : α × Store) :
    observe (Prod.map answer id outcome) = Prod.map answer id (observe outcome) := rfl

theorem observe_registerSchema (s : Store) (schema : Schema) :
    observe ((s.registry.registerSchema schema).map fun _ => (), s.addSchema schema) =
      s.ledger.registerSchema schema := by
  have hregistry : s.ledger.registry = s.registry := rfl
  rw [addSchema, Ledger.registerSchema, hregistry]
  rcases s.registry.registerSchema schema with err | ⟨id, registry⟩ <;> rfl

theorem ledger_read (s : Store) (t : ComponentType) (e : Entity) :
    (s.read t e).2.ledger = (s.ledger.column t).2 := by
  rw [read_eq]
  cases s.world.typed? (s.column t).1 with
  | none => rfl
  | some storage =>
      refine Ledger.ext rfl rfl ?_
      funext e' id
      exact s.world.holding?_fetch _ false e id e'

theorem serve_assemble (s : Store) (parts : List Part) :
    (Request.assemble parts false).serve s =
      (.made s.spawnBare.1, (s.spawnBare.2.attachParts s.spawnBare.1 parts).2) := by
  have hparts := addParts_eq_attachParts s.spawnBare.2 s.spawnBare.1 parts
  show (Answer.made (s.spawnBare.2.addParts { entity := s.spawnBare.1 } parts).1.entity,
    (s.spawnBare.2.addParts { entity := s.spawnBare.1 } parts).2) = _
  rw [hparts]
  rcases s.spawnBare.2.attachParts s.spawnBare.1 parts with ⟨_ | _, s'⟩ <;> rfl

/-- **A request to a store is the same request to its ledger.** -/
theorem Sound.ledger_serve (h : s.Sound) (r : Request) :
    observe (r.serve s) = r.interpret s.spawnBare.1 s.ledger := by
  cases r with
  | register t => rfl
  | registerSchema schema =>
      exact congrArg (Prod.map Answer.ofUnit id) (s.observe_registerSchema schema)
  | spawnBare => exact Prod.ext rfl h.ledger_spawnBare
  | spawn bundle =>
      rw [Request.serve, observe_map, spawn_eq_make, h.ledger_make]
      rfl
  | assemble parts complete =>
      cases complete with
      | true =>
          have hmake := h.ledger_make parts
          rw [← completeEntity_eq_make] at hmake
          exact congrArg (Prod.map Answer.ofEntity id) hmake
      | false =>
          -- an entity that is left as it is keeps the parts before the first error
          have hparts := h.spawnBare.ledger_attachParts s.spawnBare.1 parts
          rw [h.ledger_spawnBare] at hparts
          rw [serve_assemble]
          exact congrArg (fun outcome : _ × Ledger => (Answer.made s.spawnBare.1, outcome.2)) hparts
  | attach e record => exact congrArg (Prod.map Answer.ofUnit id) (h.ledger_attach e record)
  | attachNamed e i values =>
      exact congrArg (Prod.map Answer.ofUnit id) (h.ledger_attachNamed e i values)
  | detach t e => exact congrArg (Prod.map Answer.detached id) (h.ledger_detach t e)
  | detachAt i e => exact congrArg (Prod.map Answer.detached id) (h.ledger_detachAt e i)
  | despawn e => exact congrArg (Prod.map Answer.ofUnit id) (h.ledger_despawn e)
  | holds t e => exact Prod.ext (congrArg Answer.held (h.holds_eq t e)) rfl
  | read t e =>
      exact Prod.ext (congrArg Answer.given (h.answersLike.read t e)) (s.ledger_read t e)
  | update t e f => exact congrArg (Prod.map Answer.written id) (h.ledger_update t e f)

theorem Sound.serve (h : s.Sound) (r : Request) : (r.serve s).2.Sound := by
  refine h.of_observe ?_ (h.ledger_serve r) fun hlawful => hlawful.interpret r _
  rw [r.snd_serve]
  exact h.valid.apply r.operation

/-- A request to a store is a step of its ledger. -/
theorem Sound.step_serve (h : s.Sound) (r : Request) :
    s.ledger.Step r (r.serve s).1 (r.serve s).2.ledger :=
  ⟨s.spawnBare.1, h.spawnBare_fresh.1, h.spawnBare_fresh.2, (h.ledger_serve r).symm⟩

/-! ### Runs -/

theorem Sound.serveAll (h : s.Sound) (requests : List Request) :
    (serveAll requests s).2.Sound := by
  induction requests generalizing s with
  | nil => exact h
  | cons r rest ih => exact ih (h.serve r)

/-- Requests to a store are a run of its ledger. -/
theorem Sound.run_serveAll (h : s.Sound) (requests : List Request) :
    Ledger.Run s.ledger requests (Store.serveAll requests s).1
      (Store.serveAll requests s).2.ledger := by
  induction requests generalizing s with
  | nil => exact .nil s.ledger
  | cons r rest ih => exact .cons (h.step_serve r) (ih (h.serve r))

/-- **A store is a ledger.**  Whatever was requested of the empty store, its answers are those of a
run of the empty ledger; what that ledger says is what is read from the store, and what it holds
fits the components.  Each further request is a step of the ledger, leaves all that it is not about
and, if it fails, leaves everything. -/
theorem refines_ledger (requests : List Request) :
    let s := (serveAll requests {}).2
    Ledger.Run {} requests (serveAll requests {}).1 s.ledger ∧
      s.AnswersLike s.ledger ∧
      s.ledger.Lawful ∧
      ∀ r : Request,
        s.ledger.Step r (r.serve s).1 (r.serve s).2.ledger ∧
        (∀ e id, ¬r.Concerns (r.serve s).2.registry (r.serve s).1 e id →
          (r.serve s).2.ledger.entries e id = s.ledger.entries e id) ∧
        ((r.serve s).1.isRefusal = true →
          (r.serve s).2.ledger.live = s.ledger.live ∧
            (r.serve s).2.ledger.entries = s.ledger.entries) := by
  intro s
  have hsound : s.Sound := sound_initial.serveAll requests
  have hrun := sound_initial.run_serveAll requests
  rw [ledger_initial] at hrun
  refine ⟨hrun, hsound.answersLike, hsound.lawful, ?_⟩
  intro r
  have hserve := hsound.ledger_serve r
  have hanswer : (r.interpret s.spawnBare.1 s.ledger).1 = (r.serve s).1 :=
    (congrArg Prod.fst hserve).symm
  have hledger : (r.interpret s.spawnBare.1 s.ledger).2 = (r.serve s).2.ledger :=
    (congrArg Prod.snd hserve).symm
  refine ⟨hsound.step_serve r, ?_, ?_⟩
  · intro e id hconcerns
    rw [← hledger]
    apply Ledger.entries_interpret_of_not_concerns
    rw [hanswer, hledger]
    exact hconcerns
  · intro hrefused
    rw [← hledger]
    apply Ledger.interpret_of_isRefusal
    rw [hanswer]
    exact hrefused

end Store

end EntityStore
