import EntityStore.Proofs.Registration
import EntityStore.Proofs.Rollback

/-!
# Slot tables follow the registry

A process has one registry and any number of worlds.  A storage is made when its component is
first needed, by typed access or by position, and in both ways the entry of the component decides
what is made.  The entry never changes, so whatever happens to whichever world, a slot holds the
storage that its entry prescribes, and there is no slot beyond the registry.  Storages may also be
called directly and for whatever entity, which the validity of a store does not allow; so the
invariant here says nothing about who is alive, and is kept on its own.

* `Store.Slotted` — the invariant of one world with the registry;
* `Store.Follows` — what every operation does: the registry only grows, and the invariant stays;
* `follows_attachPart`, `follows_despawn` and the like — one operation, `follows_apply` — any;
* `Worlds`, `Deed`, `Worlds.run` — several worlds, and what can be done to them;
* `Slotted.fst_attach`, `Slotted.attachNamed_of_unregistered` — what follows for inserting;
* `Worlds.slots_are_prescribed` — **any run over any number of worlds.**
-/

namespace EntityStore

theorem Registry.Extends.size_le {r r' : Registry} (h : r.Extends r') : r.size ≤ r'.size := by
  by_cases hempty : r.size = 0
  · rw [hempty]
    exact Nat.zero_le r'.size
  · have hlast : r.size - 1 < r.entries.size := by
      show r.size - 1 < r.size
      omega
    have hentry := h.entry ⟨r.size - 1⟩ _ (Array.getElem?_eq_getElem hlast)
    have hbelow := lt_size_of_some hentry
    show r.size ≤ r'.size
    simp only at hbelow
    omega

theorem World.size_ensureSlot (w : World) (id : ComponentId) (fresh : Storage) :
    (w.ensureSlot id fresh).storages.size = max w.storages.size (id.raw + 1) := by
  rw [ensureSlot, Array.size_modify, Array.size_append, Array.size_replicate]
  omega

namespace Store

/-! ### The invariant -/

/-- Every slot belongs to an entry, and its storage is of the make that the entry prescribes. -/
structure Slotted (s : Store) : Prop where
  registry : s.registry.Valid
  size : s.world.storages.size ≤ s.registry.size
  prescribed : s.Prescribed

/-- The store came from another one: the registry only grew, and slots still belong to entries if
they did before. -/
structure Follows (s' s : Store) : Prop where
  registry : s.registry.Extends s'.registry
  slotted : s.Slotted → s'.Slotted

theorem Follows.refl (s : Store) : s.Follows s := ⟨.refl s.registry, id⟩

theorem Follows.trans {s₁ s₂ s₃ : Store} (h : s₃.Follows s₂) (h' : s₂.Follows s₁) :
    s₃.Follows s₁ where
  registry := h'.registry.trans h.registry
  slotted hs := h.slotted (h'.slotted hs)

/-- The store that a call leaves, once its result is taken apart. -/
theorem Follows.of_eq {α : Type} {r : α × Store} {s : Store} (h : r.2.Follows s) {a : α}
    {s' : Store} (hr : r = (a, s')) : s'.Follows s := by
  rw [hr] at h
  exact h

variable {s : Store}

theorem slotted_initial {registry : Registry} (h : registry.Valid) :
    Slotted { registry, world := {} } where
  registry := h
  size := Nat.zero_le registry.size
  prescribed id storage hstorage := by simp [World.storage?] at hstorage

/-- Without an insertion no slot is added, and every storage stays of its make. -/
theorem Slotted.within (h : s.Slotted) {registry : Registry} {world : World}
    (hvalid : registry.Valid) (hextends : s.registry.Extends registry)
    (hwithin : world.Within s.world) : Slotted { registry, world } where
  registry := hvalid
  size := by
    show world.storages.size ≤ registry.size
    rw [hwithin.slots]
    exact h.size.trans hextends.size_le
  prescribed := h.prescribed.within hextends hwithin

theorem follows_withWorld {world : World} (hwithin : world.Within s.world) :
    Follows { s with world } s :=
  ⟨.refl s.registry, fun h => h.within h.registry (.refl s.registry) hwithin⟩

theorem follows_withRegistry {registry : Registry}
    (hvalid : s.registry.Valid → registry.Valid) (hextends : s.registry.Extends registry) :
    Follows { s with registry } s :=
  ⟨hextends, fun h => h.within (hvalid h.registry) hextends (.refl s.world)⟩

/-- Only a component with an entry gets a slot, and what is made there is what the entry
prescribes. -/
theorem Slotted.ensureSlot (h : s.Slotted) {id : ComponentId} {entry : Entry}
    (hentry : s.registry.entry? id = some entry) {fresh : Storage}
    (hblank : fresh.blank = entry.emptyStorage) :
    Slotted { s with world := s.world.ensureSlot id fresh } where
  registry := h.registry
  size := by
    show (s.world.ensureSlot id fresh).storages.size ≤ s.registry.size
    rw [World.size_ensureSlot]
    exact Nat.max_le.2 ⟨h.size, Registry.lt_size_of_some hentry⟩
  prescribed := h.prescribed.ensureSlot hentry hblank

/-- What is done to a storage does not change its make. -/
theorem Slotted.modifyStorage (h : s.Slotted) (id : ComponentId) {f : Storage → Storage}
    (hblank : ∀ storage : Storage, (f storage).blank = storage.blank) :
    Slotted { s with world := s.world.modifyStorage id f } where
  registry := h.registry
  size := by
    show (s.world.storages.modify id.raw (Option.map f)).size ≤ s.registry.size
    rw [Array.size_modify]
    exact h.size
  prescribed := h.prescribed.modifyStorage id hblank

theorem follows_call (s : Store) (id : ComponentId) (c : Call) :
    Follows { s with world := s.world.modifyStorage id c.apply } s :=
  ⟨.refl s.registry, fun h => h.modifyStorage id c.blank_apply⟩

/-! ### Inserting -/

theorem follows_column (s : Store) (t : ComponentType) : (s.column t).2.Follows s :=
  follows_withRegistry (fun h => Registry.valid_register h t)
    (Registry.extends_register s.registry t)

theorem Slotted.ensureColumn (h : s.Slotted) (t : ComponentType) : (s.ensureColumn t).Slotted :=
  ((follows_column s t).slotted h).ensureSlot (Registry.entry?_register h.registry t)
    (Storage.blank_empty t)

theorem Slotted.attach (h : s.Slotted) (e : Entity) (record : Record) :
    (s.attach e record).2.Slotted := by
  have hready := h.ensureColumn record.type
  rcases s.snd_attach_cases e record with hsame | ⟨-, hmade | hinserted⟩
  · rw [hsame]
    exact h
  · rw [hmade]
    exact hready
  · rw [hinserted]
    exact hready.modifyStorage _ fun storage => storage.blank_insert e record

theorem Slotted.attachNamed (h : s.Slotted) (e : Entity) (id : ComponentId)
    (values : List (String × Value)) : (s.attachNamed e id values).2.Slotted := by
  rcases s.snd_attachNamed_cases e id values with hsame | ⟨-, hinserted | ⟨entry, hentry, hmade⟩⟩
  · rw [hsame]
    exact h
  · rw [hinserted]
    exact h.modifyStorage id fun storage => storage.blank_insertNamed e values
  · rw [hmade]
    exact h.ensureSlot hentry
      ((Storage.blank_insertNamed _ e values).trans entry.blank_emptyStorage)

theorem follows_attachPart (s : Store) (e : Entity) (part : Part) :
    (s.attachPart e part).2.Follows s where
  registry := s.extends_attachPart e part
  slotted h := by
    cases part with
    | native record => exact h.attach e record
    | named id values => exact h.attachNamed e id values

theorem follows_attachParts (s : Store) (e : Entity) (parts : List Part) :
    (s.attachParts e parts).2.Follows s := by
  induction parts generalizing s with
  | nil => exact .refl s
  | cons part rest ih =>
      have hpart := s.follows_attachPart e part
      rw [attachParts]
      rcases houtcome : s.attachPart e part with ⟨_ | _, s'⟩
      · exact hpart.of_eq houtcome
      · exact (ih s').trans (hpart.of_eq houtcome)

/-! ### Making and removing entities -/

theorem follows_spawnBare (s : Store) : s.spawnBare.2.Follows s :=
  ⟨.refl s.registry, fun h => ⟨h.registry, h.size, h.prescribed⟩⟩

/-- Removing an entity adds no slot. -/
theorem follows_despawn (s : Store) (e : Entity) : (s.despawn e).2.Follows s := by
  rw [despawn]
  split
  · next world hdespawn =>
    refine ⟨.refl s.registry, fun h => ⟨h.registry, ?_, h.prescribed.despawn hdespawn⟩⟩
    rw [World.despawn] at hdespawn
    split at hdespawn
    · cases hdespawn
    · cases hdespawn
      show (s.world.storages.map _).size ≤ s.registry.size
      rw [Array.size_map]
      exact h.size
  · exact .refl s

theorem follows_make (s : Store) (parts : List Part) : (s.make parts).2.Follows s := by
  have hparts := (s.spawnBare.2.follows_attachParts s.spawnBare.1 parts).trans s.follows_spawnBare
  rw [make]
  rcases houtcome : s.spawnBare.2.attachParts s.spawnBare.1 parts with ⟨err | _, s'⟩
  · show (s'.giveUp s.spawnBare.1 err).2.Follows s
    rw [snd_giveUp]
    exact (s'.follows_despawn s.spawnBare.1).trans (hparts.of_eq houtcome)
  · exact hparts.of_eq houtcome

theorem follows_assemble (s : Store) (parts : List Part) (complete : Bool) :
    (s.assemble parts complete).Follows s := by
  cases complete with
  | true =>
      have hmake := s.follows_make parts
      rw [← completeEntity_eq_make] at hmake
      exact hmake
  | false =>
      have hserve := congrArg (fun outcome : Answer × Store => outcome.2) (s.serve_assemble parts)
      show ((Request.assemble parts false).serve s).2.Follows s
      rw [show ((Request.assemble parts false).serve s).2 = _ from hserve]
      exact (s.spawnBare.2.follows_attachParts s.spawnBare.1 parts).trans s.follows_spawnBare

/-! ### Queries and everything else -/

theorem follows_addSchema (s : Store) (schema : Schema) : (s.addSchema schema).Follows s := by
  rw [addSchema]
  split
  · next id registry hregister =>
    rw [Registry.registerSchema_eq_append hregister]
    exact follows_withRegistry (fun h => Registry.valid_append h _ _)
      (Registry.extends_append _ _ _)
  · exact .refl s

theorem follows_prepare (s : Store) (ts : List (Term ComponentType)) :
    (s.prepare ts).2.Follows s := by
  have hvalid := fun h : s.registry.Valid =>
    Registry.valid_registerAll h (Term.allComponents ts)
  have hextends := Registry.extends_registerAll s.registry (Term.allComponents ts)
  rw [prepare]
  simp only
  split
  · exact follows_withRegistry hvalid hextends
  · exact ⟨hextends, fun h =>
      h.within (hvalid h.registry) hextends (World.within_traceAll s.world _)⟩

theorem follows_useQuery (s : Store) (ts : List (Term ComponentType)) (uses : List QueryUse) :
    (s.useQuery ts uses).Follows s := by
  have hprepare := s.follows_prepare ts
  rw [useQuery]
  split
  · next q s' hs' =>
    exact (follows_withWorld (QueryUse.within_applyAll uses q s'.world)).trans
      (hprepare.of_eq hs')
  · next err s' hs' => exact hprepare.of_eq hs'

theorem follows_useUntyped (s : Store) (q : UntypedQuery) (uses : List UntypedUse) :
    (s.useUntyped q uses).Follows s := by
  rw [useUntyped]
  split
  · next c st hstart =>
    exact follows_withWorld ((UntypedUse.within_run uses c st).trans (within_startQuery hstart))
  · exact .refl s

theorem follows_read (s : Store) (t : ComponentType) (e : Entity) :
    (s.read t e).2.Follows s := by
  have hcolumn := s.follows_column t
  rw [read]
  simp only
  split
  · exact (follows_withWorld (World.within_fetch _ _ false e)).trans hcolumn
  · exact hcolumn

theorem follows_update (s : Store) (t : ComponentType) (e : Entity) (f : Record → Record) :
    (s.update t e f).2.Follows s := by
  have hcolumn := s.follows_column t
  rw [update]
  simp only
  split
  · exact (follows_withWorld
      ((World.within_writeFirst _ _ e f).trans (World.within_fetch _ _ true e))).trans hcolumn
  · exact hcolumn

/-- **Every operation lets the registry grow and keeps the slots in order.** -/
theorem follows_apply (s : Store) (op : Operation) : (op.apply s).Follows s := by
  cases op with
  | register t => exact s.follows_column t
  | registerSchema schema => exact s.follows_addSchema schema
  | spawnBare => exact s.follows_spawnBare
  | spawn bundle =>
      show (s.spawn bundle).2.Follows s
      rw [spawn_eq_make]
      exact s.follows_make _
  | assemble parts complete => exact s.follows_assemble parts complete
  | despawn e => exact s.follows_despawn e
  | attach e record => exact s.follows_attachPart e (.native record)
  | attachNamed e id values => exact s.follows_attachPart e (.named id values)
  | detach t e => exact (follows_withWorld (World.within_detach _ e _)).trans (s.follows_column t)
  | detachAt id e => exact follows_withWorld (World.within_detach s.world e id)
  | read t e => exact s.follows_read t e
  | update t e f => exact s.follows_update t e f
  | unmarkAll => exact follows_withWorld (World.within_unmarkAll s.world)
  | storage id use => exact s.follows_call id (.use use)
  | query ts uses => exact s.follows_useQuery ts uses
  | untyped q uses => exact s.follows_useUntyped q uses

theorem follows_action (s : Store) (action : Action) : (action.apply s).Follows s := by
  cases action with
  | operation op => exact s.follows_apply op
  | notify id e =>
      exact ⟨.refl s.registry, fun h =>
        h.modifyStorage id fun storage => (storage.within_mapFlags _).blank⟩

/-! ### What follows for inserting -/

/-- **A record of a type that typed access finds can be attached exactly to who is alive**, for
the storage in its slot is the one that the access expects. -/
theorem Slotted.fst_attach (h : s.Slotted) (e : Entity) {record : Record}
    (hvisible : record.type.storage.isHidden = false) :
    (s.attach e record).1 =
      if s.world.isAlive e then .ok () else .error .entityNotFound := by
  by_cases halive : s.world.isAlive e = true
  · obtain ⟨storage, hstorage⟩ :
        ∃ storage, (s.ensureColumn record.type).world.storage? (s.column record.type).1.id =
          some storage := by
      refine ⟨_, (World.storage?_ensureSlot _ _ _ _).trans (if_pos rfl)⟩
    obtain ⟨entry, hentry, hblank⟩ :=
      (h.ensureColumn record.type).prescribed _ storage hstorage
    have hregistered : Registry.entry? (s.registry.register record.type).2
        (s.registry.register record.type).1 = some entry := hentry
    rw [Registry.entry?_register h.registry, Option.some.injEq] at hregistered
    rw [← hregistered] at hblank
    have htyped : (s.ensureColumn record.type).world.typed? (s.column record.type).1 =
        some storage := by
      rw [typed?_of_blank hstorage hblank]
      exact if_neg (Bool.eq_false_iff.1 hvisible)
    rw [if_pos halive, attach_of_alive halive, htyped]
  · rw [if_neg halive, Store.attach, if_neg halive]

/-- **An unregistered position is refused, and nothing happens.** -/
theorem Slotted.attachNamed_of_unregistered (h : s.Slotted) {id : ComponentId}
    (hentry : s.registry.entry? id = none) (e : Entity) (values : List (String × Value)) :
    s.attachNamed e id values =
      (.error (if s.world.isAlive e then .componentNotRegistered id else .entityNotFound), s) := by
  have hstorage : s.world.storage? id = none := by
    cases hslot : s.world.storage? id with
    | none => rfl
    | some storage =>
        obtain ⟨entry, hfound, _⟩ := h.prescribed id storage hslot
        rw [hentry] at hfound
        cases hfound
  rw [Store.attachNamed, hstorage, hentry]
  by_cases halive : s.world.isAlive e = true
  · rw [if_pos halive, if_pos halive]
  · rw [if_neg halive, if_neg halive]

end Store

/-! ### Several worlds -/

/-- Any number of worlds that share a registry. -/
structure Worlds where
  registry : Registry := {}
  world : Nat → World := fun _ => {}

/-- What can be done where there are several worlds. -/
inductive Deed where
  /-- An action in one of the worlds.  A registration concerns all of them. -/
  | act (i : Nat) (action : Action)
  | call (i : Nat) (id : ComponentId) (c : Call)
  | renew (i : Nat)

namespace Worlds

def store (ws : Worlds) (i : Nat) : Store :=
  { registry := ws.registry, world := ws.world i }

/-- The worlds with one of them and the registry replaced. -/
def put (ws : Worlds) (i : Nat) (s : Store) : Worlds :=
  { registry := s.registry, world := Function.update ws.world i s.world }

def apply (ws : Worlds) (deed : Deed) : Worlds :=
  match deed with
  | .act i action => ws.put i (action.apply (ws.store i))
  | .call i id c => ws.put i { ws.store i with world := (ws.world i).modifyStorage id c.apply }
  | .renew i => ws.put i { registry := ws.registry }

def run (ws : Worlds) (deeds : List Deed) : Worlds :=
  deeds.foldl apply ws

/-- In every world the slots are in order. -/
def Slotted (ws : Worlds) : Prop :=
  ∀ i, (ws.store i).Slotted

theorem slotted_initial : Slotted {} :=
  fun _ => Store.slotted_initial Registry.valid_initial

/-- What happens in one world concerns the others only through the registry, which grows. -/
theorem Slotted.put {ws : Worlds} (h : ws.Slotted) {i : Nat} {s' : Store}
    (hfollows : s'.Follows (ws.store i)) : (ws.put i s').Slotted := by
  have hslotted := hfollows.slotted (h i)
  intro j
  show Store.Slotted { registry := s'.registry, world := Function.update ws.world i s'.world j }
  by_cases hj : j = i
  · rw [hj, Function.update_self]
    exact hslotted
  · rw [Function.update_of_ne hj]
    exact (h j).within hslotted.registry hfollows.registry (.refl (ws.world j))

theorem Slotted.apply {ws : Worlds} (h : ws.Slotted) (deed : Deed) :
    (ws.apply deed).Slotted := by
  cases deed with
  | act i action => exact h.put ((ws.store i).follows_action action)
  | call i id c => exact h.put ((ws.store i).follows_call id c)
  | renew i =>
      refine h.put ⟨.refl ws.registry, ?_⟩
      intro hs
      exact Store.slotted_initial hs.registry

theorem Slotted.run {ws : Worlds} (h : ws.Slotted) (deeds : List Deed) :
    (ws.run deeds).Slotted := by
  induction deeds generalizing ws with
  | nil => exact h
  | cons deed rest ih => exact ih (h.apply deed)

/-- **Every slot holds the storage that its entry prescribes.**  After any deeds in any number of
worlds that share a registry: in each world there are no more slots than entries, and the storage
in a slot is of the make that the entry of its component prescribes, whatever made it; a record of
a type that typed access finds is attached exactly if the entity is alive, and no storage of
another type stands in the way; and a position that is not registered is refused, with the slot
table and everything else as before. -/
theorem slots_are_prescribed (deeds : List Deed) :
    (∀ i, ((run {} deeds).world i).storages.size ≤ (run {} deeds).registry.size) ∧
    (∀ i id storage, ((run {} deeds).world i).storage? id = some storage →
      ∃ entry, Registry.entry? (run {} deeds).registry id = some entry ∧
        storage.blank = entry.emptyStorage) ∧
    (∀ i e record, record.type.storage.isHidden = false →
      ((((run {} deeds).store i).attach e record).1 = .ok () ↔
        ((run {} deeds).world i).isAlive e = true) ∧
      ∀ name, (((run {} deeds).store i).attach e record).1 ≠
        .error (.storageTypeMismatch name)) ∧
    ∀ i e id values, Registry.entry? (run {} deeds).registry id = none →
      (∃ err, (((run {} deeds).store i).attachNamed e id values).1 = .error err) ∧
        (((run {} deeds).store i).attachNamed e id values).2 = (run {} deeds).store i := by
  have hslotted := slotted_initial.run deeds
  generalize run {} deeds = ws at hslotted
  refine ⟨fun i => (hslotted i).size, fun i => (hslotted i).prescribed, ?_, ?_⟩
  · intro i e record hvisible
    rw [(hslotted i).fst_attach e hvisible]
    show ((if (ws.world i).isAlive e then _ else _) = _ ↔ _) ∧
      ∀ name, (if (ws.world i).isAlive e then _ else _) ≠ _
    cases (ws.world i).isAlive e <;> simp
  · intro i e id values hentry
    rw [(hslotted i).attachNamed_of_unregistered hentry e values]
    exact ⟨⟨_, rfl⟩, rfl⟩

end Worlds

end EntityStore
