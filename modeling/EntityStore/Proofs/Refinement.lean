import EntityStore.Proofs.Lawful

/-!
# A store is a ledger

What an operation does to a store is what it does to its ledger: rows, index, flags, slots and
storages that are made on the way do not show.

* `Store.ledger`, `observe` — the ledger of a store, and of an outcome;
* `Store.Sound` — what every request keeps;
* `ledger_modifyStorage`, `ledger_ensureSlot` — storages, seen in the ledger;
* `Sound.ledger_attach`, `Sound.ledger_make`, `Sound.ledger_despawn` and the like — each operation,
  seen in the ledger;
* `Sound.typed?` — what typed access finds, as the ledger says it.
-/

namespace EntityStore

namespace Store

/-! ### The ledger of a store -/

/-- Components, live entities, and what they have. -/
def ledger (s : Store) : Ledger where
  registry := s.registry
  live := s.world.entities.live
  entries e id := s.world.holding? id e

theorem mem_live_ledger (s : Store) (e : Entity) :
    e ∈ s.ledger.live ↔ s.world.isAlive e = true :=
  s.world.entities.mem_live e

/-- An outcome, seen in the ledger. -/
def observe {α : Type} (outcome : α × Store) : α × Ledger :=
  (outcome.1, outcome.2.ledger)

/-- What every request keeps. -/
structure Sound (s : Store) : Prop where
  valid : s.Valid
  lawful : s.ledger.Lawful

theorem ledger_initial : Store.ledger {} = {} := by
  ext1
  · rfl
  · rfl
  · funext e id
    simp [ledger, World.holding?, World.storage?]

theorem sound_initial : Sound {} where
  valid := valid_initial
  lawful := by
    rw [ledger_initial]
    exact Ledger.lawful_initial

/-! ### Storages, seen in the ledger -/

variable {s : Store}

/-- The storage of a component is of the make that its entry prescribes. -/
theorem Valid.blank_eq (h : s.Valid) {id : ComponentId} {entry : Entry} {storage : Storage}
    (hentry : s.registry.entry? id = some entry) (hstorage : s.world.storage? id = some storage) :
    storage.blank = entry.emptyStorage := by
  obtain ⟨entry', hentry', hblank⟩ := h.prescribed id storage hstorage
  rw [hentry, Option.some.injEq] at hentry'
  rw [hblank, hentry']

theorem Valid.entry?_column (h : s.Valid) (t : ComponentType) :
    (s.column t).2.registry.entry? (s.column t).1.id =
      some ⟨(s.column t).1.id, t.name, .native t⟩ :=
  Registry.entry?_register h.registry t

theorem opens_of_blank {storage : Storage} {t : ComponentType} (h : storage.blank = .empty t) :
    storage.opens t = !t.storage.isHidden := by
  rw [← storage.opens_blank, h, Storage.empty]
  cases t.storage <;> simp [Storage.opens, StorageKind.isHidden]

/-- An operation that only concerns one entity in one storage replaces one entry. -/
theorem ledger_modifyStorage {id : ComponentId} {f : Storage → Storage} {e : Entity}
    {storage : Storage} (hstorage : s.world.storage? id = some storage) {new : Option Holding}
    (hf : ∀ e', (f storage).holding? e' = if e = e' then new else storage.holding? e') :
    ledger { s with world := s.world.modifyStorage id f } = s.ledger.put e id new := by
  ext1
  · rfl
  · rfl
  · funext e' id'
    exact World.holding?_modifyStorage_of hstorage hf id' e'

/-- A storage that is made empty does not show. -/
theorem ledger_ensureSlot (id : ComponentId) {fresh : Storage} (hfresh : fresh.blank = fresh) :
    ledger { s with world := s.world.ensureSlot id fresh } = s.ledger := by
  ext1
  · rfl
  · rfl
  · funext e id'
    exact s.world.holding?_ensureSlot id hfresh id' e

/-! ### Attaching -/

/-- Typed access finds the storage of its component, unless it is a hidden one. -/
theorem typed?_of_blank {w : World} {c : Column} {storage : Storage}
    (hstorage : w.storage? c.id = some storage) (hblank : storage.blank = .empty c.type) :
    w.typed? c = if c.type.storage.isHidden then none else some storage := by
  rw [World.typed?, hstorage, Option.filter_some, opens_of_blank hblank]
  cases c.type.storage.isHidden <;> rfl

theorem attach_of_alive {e : Entity} (halive : s.world.isAlive e = true) (record : Record) :
    s.attach e record =
      match (s.ensureColumn record.type).world.typed? (s.column record.type).1 with
      | some _ =>
        (.ok (),
          { s.ensureColumn record.type with
            world := (s.ensureColumn record.type).world.modifyStorage
              (s.column record.type).1.id (·.insert e record) })
      | none => (.error (.storageTypeMismatch record.type.name), s.ensureColumn record.type) := by
  rw [attach, if_pos halive]
  rfl

theorem Sound.ledger_attach (h : s.Sound) (e : Entity) (record : Record) :
    observe (s.attach e record) = s.ledger.attach e record := by
  by_cases halive : s.world.isAlive e = true
  · have hmem := (s.mem_live_ledger e).2 halive
    have hready := h.valid.ensureColumn record.type
    have hledger : (s.ensureColumn record.type).ledger = (s.ledger.column record.type).2 :=
      ledger_ensureSlot (s.column record.type).1.id (Storage.blank_empty record.type)
    obtain ⟨storage, hstorage⟩ : ∃ storage, (s.ensureColumn record.type).world.storage?
        (s.column record.type).1.id = some storage := by
      refine ⟨_, (s.world.storage?_ensureSlot _ _ _).trans (if_pos rfl)⟩
    have hblank := hready.blank_eq (h.valid.entry?_column record.type) hstorage
    have hvalid := hready.world.storage _ storage hstorage
    have hholding : storage.holding? e = s.ledger.entry? record.type e := by
      rw [← World.holding?_of_storage? hstorage]
      exact congrFun (congrFun (congrArg Ledger.entries hledger) e) _
    have htyped : (s.ensureColumn record.type).world.typed? (s.column record.type).1 =
        if record.type.storage.isHidden then none else some storage :=
      typed?_of_blank hstorage hblank
    rw [attach_of_alive halive, htyped, Ledger.attach_of_mem hmem]
    cases hhidden : record.type.storage.isHidden with
    | true =>
        exact Prod.ext rfl hledger
    | false =>
        have hinsert : ∀ e', (storage.insert e record).holding? e' =
            if e = e' then record.type.storage.add record (s.ledger.entry? record.type e)
            else storage.holding? e' := by
          intro e'
          rw [hvalid.holding?_insert hblank, ← hholding]
          by_cases he : e = e'
          · rw [if_pos he, if_pos he, he]
          · rw [if_neg he, if_neg he]
        rw [← hledger]
        exact Prod.ext rfl (ledger_modifyStorage hstorage hinsert)
  · have hmem : e ∉ s.ledger.live := fun hmem => halive ((s.mem_live_ledger e).1 hmem)
    rw [Store.attach, Ledger.attach, if_neg halive, if_neg hmem]
    rfl

/-- A new storage that holds one entity at most adds one entry at most. -/
theorem ledger_ensureSlot_of_none {id : ComponentId} (hnone : s.world.storage? id = none)
    {fresh : Storage} {e : Entity} {new : Option Holding}
    (hfresh : ∀ e', fresh.holding? e' = if e = e' then new else none) :
    ledger { s with world := s.world.ensureSlot id fresh } = s.ledger.put e id new := by
  ext1
  · rfl
  · rfl
  · funext e' id'
    show (s.world.ensureSlot id fresh).holding? id' e' =
      if e = e' ∧ id = id' then new else s.world.holding? id' e'
    rw [World.holding?, World.storage?_ensureSlot, World.holding?]
    by_cases hid : id = id'
    · subst hid
      rw [if_pos rfl, hnone]
      show fresh.holding? e' = _
      rw [hfresh]
      simp only [and_true]
      rfl
    · rw [if_neg hid, if_neg fun h => hid h.2]

/-- A storage that is put back as it was does not show. -/
theorem ledger_put_back {id : ComponentId} {storage : Storage}
    (hstorage : s.world.storage? id = some storage) :
    ledger { s with world := s.world.modifyStorage id fun _ => storage } = s.ledger := by
  rw [World.modifyStorage_const_self hstorage]

theorem Sound.ledger_attachNamed (h : s.Sound) (e : Entity) (id : ComponentId)
    (values : List (String × Value)) :
    observe (s.attachNamed e id values) = s.ledger.attachNamed e id values := by
  by_cases halive : s.world.isAlive e = true
  · have hmem := (s.mem_live_ledger e).2 halive
    rw [Store.attachNamed, Ledger.attachNamed, if_pos halive, if_pos hmem]
    cases hstorage : s.world.storage? id with
    | some storage =>
        obtain ⟨entry, hentry, hblank⟩ := h.valid.prescribed id storage hstorage
        have hfields := h.lawful.hasDistinctFields hentry
        have hvalid := h.valid.world.storage id storage hstorage
        rw [show s.ledger.registry.entry? id = some entry from hentry]
        simp only
        cases hinst : entry.instantiate values with
        | error err =>
            rw [Storage.insertNamed_of_error hblank hfields hinst]
            exact Prod.ext rfl (ledger_put_back hstorage)
        | ok inst =>
            obtain ⟨hok, hholding⟩ := hvalid.insertNamed_of_ok hblank hfields hinst e
            exact Prod.ext hok (ledger_modifyStorage hstorage hholding)
    | none =>
        cases hentry : s.registry.entry? id with
        | none =>
            rw [show s.ledger.registry.entry? id = none from hentry]
            rfl
        | some entry =>
            rw [show s.ledger.registry.entry? id = some entry from hentry]
            simp only
            -- the storage is made in any case; it stays empty if the values are refused
            have hblank := entry.blank_emptyStorage
            have hfields := h.lawful.hasDistinctFields hentry
            cases hinst : entry.instantiate values with
            | error err =>
                rw [Storage.insertNamed_of_error hblank hfields hinst]
                exact Prod.ext rfl (ledger_ensureSlot id hblank)
            | ok inst =>
                obtain ⟨hok, hholding⟩ :=
                  entry.valid_emptyStorage.insertNamed_of_ok hblank hfields hinst e
                refine Prod.ext hok (ledger_ensureSlot_of_none hstorage ?_)
                intro e'
                rw [hholding, ← hblank, Storage.holding?_blank]
  · have hmem : e ∉ s.ledger.live := fun hmem => halive ((s.mem_live_ledger e).1 hmem)
    rw [Store.attachNamed, Ledger.attachNamed, if_neg halive, if_neg hmem]
    rfl

theorem Sound.of_observe (h : s.Sound) {α : Type} {outcome : α × Store} {expected : α × Ledger}
    (hvalid : outcome.2.Valid) (hobserve : observe outcome = expected)
    (hlawful : s.ledger.Lawful → expected.2.Lawful) : outcome.2.Sound where
  valid := hvalid
  lawful := by
    rw [← hobserve] at hlawful
    exact hlawful h.lawful

theorem Sound.ledger_attachPart (h : s.Sound) (e : Entity) (part : Part) :
    observe (s.attachPart e part) = s.ledger.attachPart e part := by
  cases part with
  | native record => exact h.ledger_attach e record
  | named id values => exact h.ledger_attachNamed e id values

theorem Sound.attachPart (h : s.Sound) (e : Entity) (part : Part) :
    (s.attachPart e part).2.Sound :=
  h.of_observe (h.valid.attachPart e part) (h.ledger_attachPart e part)
    (s.ledger.edited_attachPart e part).lawful

/-- Attaches parts in order, up to the first that fails. -/
def attachParts (s : Store) (e : Entity) : List Part → Except StoreError Unit × Store
  | [] => (.ok (), s)
  | part :: rest =>
    match s.attachPart e part with
    | (.ok (), s) => attachParts s e rest
    | (.error err, s) => (.error err, s)

theorem attachAll_eq_attachParts (s : Store) (e : Entity) (bundle : List Record) :
    s.attachAll e bundle = s.attachParts e (bundle.map .native) := by
  induction bundle generalizing s with
  | nil => rfl
  | cons record rest ih =>
      rw [attachAll, List.map_cons, attachParts, attachPart]
      rcases s.attach e record with ⟨_ | _, s'⟩
      · rfl
      · exact ih s'

theorem Sound.ledger_attachParts (h : s.Sound) (e : Entity) (parts : List Part) :
    observe (s.attachParts e parts) = s.ledger.attachParts e parts := by
  induction parts generalizing s with
  | nil => rfl
  | cons part rest ih =>
      have hsound := h.attachPart e part
      rw [attachParts, Ledger.attachParts_cons, ← h.ledger_attachPart e part]
      rcases hpart : s.attachPart e part with ⟨_ | _, s'⟩
      · rfl
      · rw [hpart] at hsound
        exact ih hsound

theorem Sound.attachParts (h : s.Sound) (e : Entity) (parts : List Part) :
    (s.attachParts e parts).2.Sound := by
  induction parts generalizing s with
  | nil => exact h
  | cons part rest ih =>
      have hsound := h.attachPart e part
      rw [Store.attachParts]
      rcases hpart : s.attachPart e part with ⟨_ | _, s'⟩
      · rw [hpart] at hsound
        exact hsound
      · rw [hpart] at hsound
        exact ih hsound

/-! ### Making and removing entities -/

theorem Sound.ledger_spawnBare (h : s.Sound) :
    s.spawnBare.2.ledger = s.ledger.enter s.spawnBare.1 := by
  ext1
  · rfl
  · ext e
    show e ∈ s.world.entities.allocate.2.live ↔ e ∈ insert s.spawnBare.1 s.world.entities.live
    rw [Finset.mem_insert, Allocator.mem_live, Allocator.mem_live,
      h.valid.world.entities.contains_allocate, Bool.or_eq_true, decide_eq_true_iff, eq_comm]
    rfl
  · rfl

theorem Sound.spawnBare (h : s.Sound) : s.spawnBare.2.Sound where
  valid := h.valid.spawnBare
  lawful := by
    rw [h.ledger_spawnBare]
    exact h.lawful.enter s.spawnBare.1

/-- The entity that is made next is not alive. -/
theorem Sound.spawnBare_fresh (h : s.Sound) :
    s.spawnBare.1 ∉ s.ledger.live ∧ ∀ e ∈ s.ledger.live, e.slot ≠ s.spawnBare.1.slot := by
  have hslots : ∀ e ∈ s.ledger.live, e.slot ≠ s.spawnBare.1.slot := by
    intro e he
    exact h.valid.world.entities.slot_ne_allocate ((s.mem_live_ledger e).1 he)
  exact ⟨fun hmem => hslots _ hmem rfl, hslots⟩

theorem Sound.ledger_despawn (h : s.Sound) (e : Entity) :
    observe (s.despawn e) = s.ledger.despawn e := by
  have hsome := s.world.entities.release_isSome e
  rw [Store.despawn, Ledger.despawn]
  by_cases halive : s.world.isAlive e = true
  · have hmem := (s.mem_live_ledger e).2 halive
    rw [show s.world.entities.contains e = true from halive] at hsome
    obtain ⟨entities, hrelease⟩ := Option.isSome_iff_exists.1 hsome
    have hdespawn : s.world.despawn e =
        .ok { entities, storages := s.world.storages.map (Option.map (·.erase e)) } := by
      rw [World.despawn, hrelease]
    rw [hdespawn, if_pos hmem]
    refine Prod.ext rfl (Ledger.ext rfl ?_ ?_)
    · ext e'
      show e' ∈ entities.live ↔ e' ∈ s.world.entities.live.erase e
      rw [Finset.mem_erase, Allocator.mem_live, Allocator.mem_live,
        Allocator.contains_release hrelease, Bool.and_eq_true, Bool.not_eq_true',
        decide_eq_false_iff_not, and_comm]
      exact and_congr_left fun _ => ne_comm
    · funext e' id
      exact h.valid.world.holding?_despawn hdespawn id e'
  · have hmem : e ∉ s.ledger.live := fun hmem => halive ((s.mem_live_ledger e).1 hmem)
    rw [show s.world.entities.contains e = false from Bool.eq_false_iff.2 halive,
      Option.isSome_eq_false_iff, Option.isNone_iff_eq_none] at hsome
    have hdespawn : s.world.despawn e = .error .entityNotFound := by
      rw [World.despawn, hsome]
    rw [hdespawn, if_neg hmem]
    rfl

/-- Makes an entity with parts, all or none. -/
def make (s : Store) (parts : List Part) : Except StoreError Entity × Store :=
  match s.spawnBare.2.attachParts s.spawnBare.1 parts with
  | (.ok (), s') => (.ok s.spawnBare.1, s')
  | (.error err, s') => s'.giveUp s.spawnBare.1 err

theorem spawn_eq_make (s : Store) (bundle : List Record) :
    s.spawn bundle = s.make (bundle.map .native) := by
  rw [make, ← attachAll_eq_attachParts]
  rfl

/-- After an error a builder takes no more parts. -/
theorem addParts_of_error (s : Store) {b : Builder} {err : StoreError} (h : b.error = some err)
    (parts : List Part) : s.addParts b parts = (b, s) := by
  induction parts with
  | nil => rfl
  | cons part rest ih =>
      show (s.addPart b part).2.addParts (s.addPart b part).1 rest = (b, s)
      rw [addPart_of_error h]
      exact ih

/-- A builder takes parts up to the first that fails. -/
theorem addParts_eq_attachParts (s : Store) (e : Entity) (parts : List Part) :
    s.addParts { entity := e } parts =
      match s.attachParts e parts with
      | (.ok (), s') => ({ entity := e }, s')
      | (.error err, s') => ({ entity := e, error := some err }, s') := by
  induction parts generalizing s with
  | nil => rfl
  | cons part rest ih =>
      show (s.addPart { entity := e } part).2.addParts (s.addPart { entity := e } part).1 rest = _
      rw [addPart, attachParts]
      rcases s.attachPart e part with ⟨err | _, s'⟩
      · exact addParts_of_error s' rfl rest
      · exact ih s'

theorem completeEntity_eq_make (s : Store) (parts : List Part) :
    (s.startEntity.2.addParts s.startEntity.1 parts).2.completeEntity
        (s.startEntity.2.addParts s.startEntity.1 parts).1 = s.make parts := by
  have hparts := addParts_eq_attachParts s.spawnBare.2 s.spawnBare.1 parts
  show (s.spawnBare.2.addParts { entity := s.spawnBare.1 } parts).2.completeEntity
    (s.spawnBare.2.addParts { entity := s.spawnBare.1 } parts).1 = _
  rw [hparts, make]
  rcases s.spawnBare.2.attachParts s.spawnBare.1 parts with ⟨_ | _, s'⟩ <;> rfl

/-- An entity that is given up leaves the ledger. -/
theorem Sound.ledger_giveUp (h : s.Sound) {e : Entity} (halive : e ∈ s.ledger.live)
    (err : StoreError) : observe (s.giveUp e err) = (.error err, s.ledger.leave e) := by
  have hdespawn := h.ledger_despawn e
  rw [Ledger.despawn, if_pos halive] at hdespawn
  rcases houtcome : s.despawn e with ⟨result, s'⟩
  rw [houtcome] at hdespawn
  have hresult : result = .ok () := congrArg Prod.fst hdespawn
  have hledger : s'.ledger = s.ledger.leave e := congrArg Prod.snd hdespawn
  rw [giveUp, houtcome, hresult]
  exact Prod.ext rfl hledger

theorem Sound.ledger_make (h : s.Sound) (parts : List Part) :
    observe (s.make parts) = s.ledger.make s.spawnBare.1 parts := by
  have hspawned := h.ledger_spawnBare
  have hparts := h.spawnBare.ledger_attachParts s.spawnBare.1 parts
  have hsound := h.spawnBare.attachParts s.spawnBare.1 parts
  have hedited := (s.ledger.enter s.spawnBare.1).edited_attachParts s.spawnBare.1 parts
  rw [hspawned] at hparts
  rw [make, Ledger.make, ← hparts]
  rw [← hparts] at hedited
  rcases hattach : s.spawnBare.2.attachParts s.spawnBare.1 parts with ⟨err | _, s'⟩
  · rw [hattach] at hsound hedited
    have halive : s.spawnBare.1 ∈ s'.ledger.live := by
      rw [show s'.ledger.live = (s.ledger.enter s.spawnBare.1).live from hedited.live]
      exact Finset.mem_insert_self _ _
    have hleave := Ledger.leave_of_edited h.lawful h.spawnBare_fresh.1 hedited
    show observe (s'.giveUp s.spawnBare.1 err) = _
    rw [hsound.ledger_giveUp halive]
    exact Prod.ext rfl hleave
  · rfl

/-! ### Detaching -/

theorem Sound.ledger_detachAt (h : s.Sound) (e : Entity) (id : ComponentId) :
    observe ((s.world.detach e id).1, { s with world := (s.world.detach e id).2 }) =
      s.ledger.detachAt id e := by
  rw [World.detach]
  cases hstorage : s.world.storage? id with
  | none =>
      have hnone : s.ledger.entries e id = none := by
        show s.world.holding? id e = none
        rw [World.holding?, hstorage]
        rfl
      rw [World.modifyStorage_of_eq_none hstorage, Ledger.detachAt, hnone,
        Ledger.put_eq_self hnone.symm]
      rfl
  | some storage =>
      have hvalid := h.valid.world.storage id storage hstorage
      refine Prod.ext ?_ (ledger_modifyStorage hstorage (hvalid.holding?_erase e))
      show storage.contains e = (s.world.holding? id e).isSome
      rw [hvalid.contains_eq, World.holding?_of_storage? hstorage]

theorem Sound.column (h : s.Sound) (t : ComponentType) : (s.column t).2.Sound where
  valid := h.valid.column t
  lawful := h.lawful.column t

theorem Sound.ledger_detach (h : s.Sound) (t : ComponentType) (e : Entity) :
    observe (s.detach t e) = s.ledger.detach t e :=
  (h.column t).ledger_detachAt e (s.column t).1.id

/-! ### Typed access -/

/-- Typed access finds what the ledger says, or nothing where the ledger says nothing. -/
theorem Sound.typed? (h : s.Sound) (t : ComponentType) :
    (∃ storage, s.world.typed? (s.column t).1 = some storage ∧
      s.world.storage? (s.column t).1.id = some storage ∧ storage.Valid ∧
      storage.opens t = true ∧ ∀ e, storage.holding? e = s.ledger.entry? t e) ∨
    (s.world.typed? (s.column t).1 = none ∧ ∀ e, s.ledger.entry? t e = none) := by
  cases hstorage : s.world.storage? (s.column t).1.id with
  | none =>
      refine .inr ⟨by rw [World.typed?, hstorage, Option.filter_none], ?_⟩
      intro e
      show s.world.holding? (s.column t).1.id e = none
      rw [World.holding?, hstorage]
      rfl
  | some storage =>
      have hblank := (h.valid.column t).blank_eq (h.valid.entry?_column t) hstorage
      have htyped : s.world.typed? (s.column t).1 =
          if t.storage.isHidden then none else some storage := typed?_of_blank hstorage hblank
      cases hhidden : t.storage.isHidden with
      | true =>
          rw [hhidden] at htyped
          exact .inr ⟨htyped, h.lawful.entry?_of_isHidden hhidden⟩
      | false =>
          rw [hhidden] at htyped
          refine .inl ⟨storage, htyped, rfl, h.valid.world.storage _ storage hstorage, ?_, ?_⟩
          · rw [opens_of_blank hblank, hhidden]
            rfl
          · intro e
            exact (World.holding?_of_storage? hstorage e).symm

/-- The storage after a write through a fetch for writing, seen from every entity. -/
theorem holding?_fetch_writeFirst {storage : Storage} (hvalid : storage.Valid) (e : Entity)
    (f : Record → Record) (e' : Entity) :
    ((storage.fetch true e).writeFirst e f).holding? e' =
      if e = e' then (storage.holding? e).map (Holding.writeFirst f)
      else (storage.fetch true e).holding? e' := by
  have hfetched := (storage.within_fetch true e).valid hvalid
  rw [hfetched.holding?_writeFirst, storage.holding?_fetch]
  by_cases he : e = e'
  · rw [if_pos he, if_pos he, he]
  · rw [if_neg he, if_neg he]

theorem update_eq (s : Store) (t : ComponentType) (e : Entity) (f : Record → Record) :
    s.update t e f =
      match s.world.typed? (s.column t).1 with
      | some _ =>
        (((s.world.fetch (s.column t).1.id true e).writeFirst (s.column t).1.id e f).value?
            (s.column t).1 e,
          { (s.column t).2 with
            world := (s.world.fetch (s.column t).1.id true e).writeFirst (s.column t).1.id e f })
      | none => (none, (s.column t).2) := rfl

/-- What typed access reads first is the head of what the ledger says. -/
theorem value?_of_holding? {w : World} {c : Column} {storage : Storage} {e : Entity}
    {holding : Option Holding} (hstorage : w.storage? c.id = some storage)
    (hopens : storage.opens c.type = true) (hholding : storage.holding? e = holding) :
    w.value? c e = holding.bind fun h => h.records.head? := by
  have htyped : w.typed? c = some storage := by
    rw [World.typed?, hstorage, Option.filter_some, if_pos hopens]
  rw [World.value?, World.values, htyped]
  show (storage.records e).head? = _
  rw [storage.records_eq, hholding]
  cases holding <;> rfl

theorem Sound.ledger_update (h : s.Sound) (t : ComponentType) (e : Entity)
    (f : Record → Record) : observe (s.update t e f) = s.ledger.update t e f := by
  rw [update_eq, Ledger.update]
  rcases h.typed? t with ⟨storage, htyped, hstorage, hvalid, hopens, hentry⟩ | ⟨htyped, hentry⟩
  · have hfetched : (s.world.fetch (s.column t).1.id true e).storage? (s.column t).1.id =
        some (storage.fetch true e) := by
      rw [World.fetch, World.storage?_modifyStorage, if_pos rfl, hstorage]
      rfl
    have hwritten : ((s.world.fetch (s.column t).1.id true e).writeFirst
        (s.column t).1.id e f).storage? (s.column t).1.id =
          some ((storage.fetch true e).writeFirst e f) := by
      rw [World.writeFirst, World.storage?_modifyStorage, if_pos rfl, hfetched]
      rfl
    have hholding := holding?_fetch_writeFirst hvalid e f
    have hopens' : ((storage.fetch true e).writeFirst e f).opens t = true := by
      rw [← Storage.opens_blank, (Storage.within_writeFirst _ e f).blank,
        (Storage.within_fetch storage true e).blank, Storage.opens_blank, hopens]
    have hfirst : ledger { (s.column t).2 with
        world := s.world.fetch (s.column t).1.id true e } = (s.ledger.column t).2 := by
      refine Ledger.ext rfl rfl ?_
      funext e' id
      exact s.world.holding?_fetch _ true e id e'
    have hsecond : ledger { (s.column t).2 with
        world := (s.world.fetch (s.column t).1.id true e).writeFirst (s.column t).1.id e f } =
          (ledger { (s.column t).2 with
            world := s.world.fetch (s.column t).1.id true e }).put e (s.column t).1.id
              ((storage.holding? e).map (Holding.writeFirst f)) :=
      ledger_modifyStorage (s := { (s.column t).2 with
        world := s.world.fetch (s.column t).1.id true e }) hfetched hholding
    have hvalue := value?_of_holding? hwritten hopens' ((hholding e).trans (if_pos rfl))
    rw [hfirst, hentry e] at hsecond
    rw [hentry e] at hvalue
    rw [htyped]
    exact Prod.ext hvalue hsecond
  · have hnone : s.ledger.entries e (s.ledger.column t).1 = none := hentry e
    rw [htyped, hnone]
    show (none, (s.ledger.column t).2) =
      (none, (s.ledger.column t).2.put e (s.ledger.column t).1 none)
    rw [Ledger.put_eq_self (l := (s.ledger.column t).2) hnone.symm]

end Store

end EntityStore
