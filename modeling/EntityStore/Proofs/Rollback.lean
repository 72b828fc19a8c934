import EntityStore.Proofs.CleanSlots
import EntityStore.Proofs.OrderedMap

/-!
# Rolling back: a failed creation leaves the components alone

An entity is made with its components or not at all.  What was attached before the failure came
last in its storage, so that dropping it again leaves the order as it was; and the flag that is
dropped with it is in a slot that nobody else has.

* `Storage.SameBut` — two storages that differ at most in what they keep of one entity;
* `Valid.sameBut_insert`, `Valid.sameBut_insertNamed` — inserting is of that kind;
* `SlotSameBut`, `SlotSameBut.replay` — so are the steps that fill an entity;
* `Storage.LooksLike`, `SameBut.looksLike_erase` — after the entity is dropped nothing is left;
* `attachParts_eq_error` — the error is that of the first part that fails;
* `RolledBack`, `creation_rolls_back` — **a failed creation is rolled back, in either way.**
-/

namespace EntityStore

/-! ### Storages that differ in one entity -/

theorem Table.vacate_entities_insert {α : Type} {t : Table α} (h : t.set.Valid) (e : Entity)
    (a : α) : vacate (t.insert e a).entities e = vacate t.entities e := by
  have hkeys : (t.insert e a).entities =
      if e ∈ t.entities then t.entities else t.entities ++ [e] :=
    congrArg OrderedMap.keys (h.toMap_insert e a)
  rw [hkeys]
  split
  · rfl
  · next hnew => rw [vacate_concat hnew, vacate_of_notMem hnew]

theorem Table.get?_insert_of_ne {α : Type} {t : Table α} (h : t.set.Valid) {e e' : Entity}
    (hne : e ≠ e') (a : α) : (t.insert e a).get? e' = t.get? e' := by
  rw [get?, insert]
  rw [h.get?_insert, if_neg hne]
  rfl

namespace Storage

/-- The storages differ at most in what they keep of one entity: its instances, its position and
the flag of its slot. -/
structure SameBut (e : Entity) (s s' : Storage) : Prop where
  valid : s.Valid → s'.Valid
  make : s'.blank = s.blank
  order : vacate s'.entities e = vacate s.entities e
  holding : ∀ e', e ≠ e' → s'.holding? e' = s.holding? e'
  marked : ∀ e', e.slot ≠ e'.slot → s'.isMarked e' = s.isMarked e'
  tracing : s'.isTracing = s.isTracing

namespace SameBut

variable {e : Entity}

theorem refl (e : Entity) (s : Storage) : SameBut e s s :=
  ⟨id, rfl, rfl, fun _ _ => rfl, fun _ _ => rfl, rfl⟩

theorem trans {s₁ s₂ s₃ : Storage} (h : SameBut e s₁ s₂) (h' : SameBut e s₂ s₃) :
    SameBut e s₁ s₃ where
  valid hs := h'.valid (h.valid hs)
  make := h'.make.trans h.make
  order := h'.order.trans h.order
  holding e' hne := (h'.holding e' hne).trans (h.holding e' hne)
  marked e' hslot := (h'.marked e' hslot).trans (h.marked e' hslot)
  tracing := h'.tracing.trans h.tracing

end SameBut

/-- Inserting a record changes only what is kept of its entity. -/
theorem Valid.sameBut_insert {s : Storage} (h : s.Valid) (e : Entity) (record : Record) :
    SameBut e s (s.insert e record) where
  valid hs := valid_insert hs e record
  make := blank_insert s e record
  order := by
    cases s with
    | script schema table => rfl
    | batch t rows =>
        show vacate (rows.insert e record).table.entities e = vacate rows.table.entities e
        rw [BatchTable.insert]
        split
        · rfl
        · exact Table.vacate_entities_insert h.set e _
    | dense t table => exact Table.vacate_entities_insert h e record
    | counting t table counts => exact Table.vacate_entities_insert h e record
    | hidden t table => exact Table.vacate_entities_insert h e record
  holding e' hne := by
    cases s with
    | script schema table => rfl
    | batch t rows =>
        show ((rows.insert e record).table.get? e').map Holding.many = _
        rw [BatchTable.insert]
        split
        · rfl
        · exact congrArg (Option.map Holding.many) (Table.get?_insert_of_ne h.set hne _)
    | dense t table => exact congrArg (Option.map Holding.one) (Table.get?_insert_of_ne h hne _)
    | counting t table counts =>
        exact congrArg (Option.map Holding.one) (Table.get?_insert_of_ne h hne _)
    | hidden t table => exact congrArg (Option.map Holding.one) (Table.get?_insert_of_ne h hne _)
  marked e' hslot := by
    rw [s.isMarked_insert, decide_eq_false hslot, Bool.and_false, Bool.or_false]
  tracing := (Call.insert e record).isTracing_apply s

/-- So does inserting an instance described by named values. -/
theorem Valid.sameBut_insertNamed {s : Storage} (h : s.Valid) (e : Entity)
    (values : List (String × Value)) : SameBut e s (s.insertNamed e values).2 := by
  cases s with
  | script schema table =>
      rw [insertNamed]
      cases (ScriptRecord.fresh schema).writeAll values with
      | error err => exact .refl e _
      | ok inst =>
          refine ⟨fun hs => SparseSet.Valid.insert hs e inst, rfl, ?_, ?_, ?_, ?_⟩
          · exact Table.vacate_entities_insert h e inst
          · intro e' hne
            exact congrArg (Option.map Holding.script) (Table.get?_insert_of_ne h hne inst)
          · intro e' hslot
            show (table.flags.mark e).isMarked e' = table.flags.isMarked e'
            rw [ChangeFlags.isMarked_mark, decide_eq_false hslot, Bool.and_false, Bool.or_false]
          · exact ChangeFlags.enabled_mark table.flags e
  | _ => exact .refl e _

/-! ### Dropping the entity again -/

/-- The storages show the same. -/
structure LooksLike (s s' : Storage) : Prop where
  make : s'.blank = s.blank
  entities : s'.entities = s.entities
  holding : ∀ e, s'.holding? e = s.holding? e
  marked : ∀ e, s'.isMarked e = s.isMarked e
  tracing : s'.isTracing = s.isTracing

theorem Valid.entities_erase {s : Storage} (h : s.Valid) (e : Entity) :
    (s.erase e).entities = vacate s.entities e := by
  cases s with
  | batch t rows => exact congrArg OrderedMap.keys (h.set.toMap_erase e)
  | _ => exact congrArg OrderedMap.keys (SparseSet.Valid.toMap_erase h e)

/-- **Dropping an entity takes back all that was done for it,** if the storage did not hold it
before and its slot was not flagged. -/
theorem SameBut.looksLike_erase {e : Entity} {s s' : Storage} (h : SameBut e s s') (hs : s.Valid)
    (hnew : s.contains e = false) (hclean : ∀ e', e.slot = e'.slot → s.isMarked e' = false) :
    s.LooksLike (s'.erase e) where
  make := (s'.within_erase e).blank.trans h.make
  entities := by
    have hmem : e ∉ s.entities := by
      rw [← hs.contains_iff_mem, hnew]
      exact Bool.false_ne_true
    rw [(h.valid hs).entities_erase, h.order, vacate_of_notMem hmem]
  holding e' := by
    rw [(h.valid hs).holding?_erase]
    by_cases he : e = e'
    · subst he
      have hnone : (s.holding? e).isSome = false := by rw [← hs.contains_eq, hnew]
      rw [if_pos rfl, Option.not_isSome_iff_eq_none.1 (Bool.eq_false_iff.1 hnone)]
    · rw [if_neg he, h.holding e' he]
  marked e' := by
    rw [s'.isMarked_erase]
    by_cases hslot : e.slot = e'.slot
    · rw [hclean e' hslot, decide_eq_true hslot, Bool.not_true, Bool.and_false]
    · rw [h.marked e' hslot, decide_eq_false hslot, Bool.not_false, Bool.and_true]
  tracing := by
    rw [← h.tracing]
    cases s' <;> rfl

end Storage

/-! ### Slots that differ in one entity -/

/-- The storages in two slots differ at most in what they keep of one entity.  Where the one slot
is empty, the storage in the other one keeps nothing else. -/
def SlotSameBut (e : Entity) (slot slot' : Option Storage) : Prop :=
  match slot, slot' with
  | some s, some s' => s.SameBut e s'
  | some _, none => False
  | none, some s' => s'.blank.SameBut e s'
  | none, none => True

namespace SlotSameBut

variable {e : Entity}

theorem refl (e : Entity) (slot : Option Storage) : SlotSameBut e slot slot := by
  cases slot with
  | none => trivial
  | some s => exact Storage.SameBut.refl e s

theorem trans {slot₁ slot₂ slot₃ : Option Storage} (h : SlotSameBut e slot₁ slot₂)
    (h' : SlotSameBut e slot₂ slot₃) : SlotSameBut e slot₁ slot₃ := by
  cases slot₁ with
  | none =>
      cases slot₂ with
      | none => exact h'
      | some s₂ =>
          cases slot₃ with
          | none => cases h'
          | some s₃ =>
              -- both storages are of the make of the one that was put into the empty slot
              show s₃.blank.SameBut e s₃
              rw [Storage.SameBut.make h']
              exact Storage.SameBut.trans h h'
  | some s₁ =>
      cases slot₂ with
      | none => cases h
      | some s₂ =>
          cases slot₃ with
          | none => cases h'
          | some s₃ => exact Storage.SameBut.trans h h'

theorem valid {slot slot' : Option Storage} (h : SlotSameBut e slot slot')
    (hvalid : ∀ s, slot = some s → s.Valid) : ∀ s', slot' = some s' → s'.Valid := by
  rintro s' rfl
  cases slot with
  | none => exact Storage.SameBut.valid h s'.valid_blank
  | some s => exact Storage.SameBut.valid h (hvalid s rfl)

/-- A step that fills an entity changes only what is kept of it. -/
theorem step {slot : Option Storage} (hvalid : ∀ s, slot = some s → s.Valid) {step : Step}
    (hfills : step.Fills e) (id : ComponentId) : SlotSameBut e slot (step.at id slot) := by
  cases step with
  | callAll what => cases hfills
  | make id' fresh =>
      rw [Step.at]
      split
      · cases slot with
        | none =>
            show fresh.blank.SameBut e fresh
            rw [show fresh.blank = fresh from hfills]
            exact Storage.SameBut.refl e fresh
        | some s => exact Storage.SameBut.refl e s
      · exact refl e slot
  | call id' what =>
      rw [Step.at]
      split
      · cases slot with
        | none => trivial
        | some s =>
            cases what with
            | insert e' record =>
                cases hfills
                exact (hvalid s rfl).sameBut_insert e record
            | insertNamed e' values =>
                cases hfills
                exact (hvalid s rfl).sameBut_insertNamed e values
            | _ => cases hfills
      · exact refl e slot

/-- **Steps that fill an entity change only what is kept of it.** -/
theorem replay {slot : Option Storage} (hvalid : ∀ s, slot = some s → s.Valid)
    {steps : List Step} (hfills : AllAre (Step.Fills e) steps) (id : ComponentId) :
    SlotSameBut e slot (replay id steps slot) := by
  induction steps generalizing slot with
  | nil => exact refl e slot
  | cons step rest ih =>
      have hfirst := SlotSameBut.step hvalid (hfills step List.mem_cons_self) id
      have hrest : AllAre (Step.Fills e) rest :=
        fun step' hstep' => hfills step' (List.mem_cons_of_mem step hstep')
      exact hfirst.trans (ih (hfirst.valid hvalid) hrest)

end SlotSameBut

/-! ### Making an entity -/

namespace Store

variable {s : Store}

theorem extends_attachPart (s : Store) (e : Entity) (part : Part) :
    s.registry.Extends (s.attachPart e part).2.registry := by
  cases part with
  | native record =>
      show s.registry.Extends (s.attach e record).2.registry
      rw [attach]
      split
      · have hextends := Registry.extends_register s.registry record.type
        simp only
        split <;> exact hextends
      · exact .refl s.registry
  | named id values =>
      show s.registry.Extends (s.attachNamed e id values).2.registry
      rw [attachNamed]
      split
      · split
        · exact .refl s.registry
        · split <;> exact .refl s.registry
      · exact .refl s.registry

theorem extends_attachParts (s : Store) (e : Entity) (parts : List Part) :
    s.registry.Extends (s.attachParts e parts).2.registry := by
  induction parts generalizing s with
  | nil => exact .refl s.registry
  | cons part rest ih =>
      have hpart := s.extends_attachPart e part
      rw [attachParts]
      rcases houtcome : s.attachPart e part with ⟨_ | _, s'⟩
      · rw [houtcome] at hpart
        exact hpart
      · rw [houtcome] at hpart
        exact hpart.trans (ih s')

theorem Valid.attachParts (h : s.Valid) (e : Entity) (parts : List Part) :
    (s.attachParts e parts).2.Valid := by
  induction parts generalizing s with
  | nil => exact h
  | cons part rest ih =>
      have hpart := h.attachPart e part
      rw [Store.attachParts]
      rcases houtcome : s.attachPart e part with ⟨_ | _, s'⟩
      · exact hpart.of_eq houtcome
      · exact ih (hpart.of_eq houtcome)

/-- The error is that of the first part that fails. -/
theorem attachParts_eq_error {e : Entity} {parts : List Part} {err : StoreError} {s' : Store}
    (h : s.attachParts e parts = (.error err, s')) :
    ∃ before part after mid, parts = before ++ part :: after ∧
      s.attachParts e before = (.ok (), mid) ∧ (mid.attachPart e part).1 = .error err := by
  induction parts generalizing s with
  | nil => cases h
  | cons part rest ih =>
      rw [attachParts] at h
      rcases houtcome : s.attachPart e part with ⟨lost | _, mid⟩
      · rw [houtcome] at h
        cases h
        exact ⟨[], part, rest, s, rfl, rfl, by rw [houtcome]⟩
      · rw [houtcome] at h
        obtain ⟨before, failing, after, last, rfl, hbefore, herr⟩ := ih h
        refine ⟨part :: before, failing, after, last, rfl, ?_, herr⟩
        rw [attachParts, houtcome]
        exact hbefore

/-- Giving up an entity that is alive gives the error and removes it. -/
theorem giveUp_of_alive {e : Entity} (halive : s.world.isAlive e = true) (err : StoreError) :
    ∃ entities, s.world.entities.release e = some entities ∧
      s.giveUp e err = (.error err,
        { s with
          world := { entities, storages := s.world.storages.map (Option.map (·.erase e)) } }) := by
  have hsome : (s.world.entities.release e).isSome = true :=
    (s.world.entities.release_isSome e).trans halive
  obtain ⟨entities, hrelease⟩ := Option.isSome_iff_exists.1 hsome
  refine ⟨entities, hrelease, ?_⟩
  rw [giveUp, despawn, World.despawn, hrelease]

/-- Makes an entity part by part and completes it. -/
def build (s : Store) (parts : List Part) : Except StoreError Entity × Store :=
  let (b, building) := s.startEntity.2.addParts s.startEntity.1 parts
  building.completeEntity b

theorem build_eq_make (s : Store) (parts : List Part) : s.build parts = s.make parts :=
  s.completeEntity_eq_make parts

/-- What a failed creation leaves: the components are as they were, and so is who is alive.  Only
registrations, empty storages and the entity that was used up remain. -/
structure RolledBack (s s' : Store) : Prop where
  registry : s.registry.Extends s'.registry
  alive : ∀ e, s'.world.isAlive e = s.world.isAlive e
  population : s'.world.population = s.world.population
  entities : s.world.entities.allocate.2.release s.world.entities.allocate.1 =
    some s'.world.entities
  kept : ∀ id storage, s.world.storage? id = some storage →
    ∃ storage', s'.world.storage? id = some storage' ∧ storage.LooksLike storage'
  made : ∀ id storage', s.world.storage? id = none → s'.world.storage? id = some storage' →
    ∃ entry, s'.registry.entry? id = some entry ∧ entry.emptyStorage.LooksLike storage'

/-- What is attached to an entity changes only what is kept of it. -/
theorem Valid.sameBut_attachParts (h : s.Valid) (e : Entity) (parts : List Part)
    (id : ComponentId) :
    SlotSameBut e (s.world.storage? id) ((s.attachParts e parts).2.world.storage? id) := by
  rw [s.replays_attachParts e parts id]
  exact .replay (h.world.storage id) (s.fills_partsSteps e parts) id

/-- A failed creation gives the error of a part, and what was attached before it is dropped. -/
theorem Valid.make_eq_error (h : s.Valid) {parts : List Part} {err : StoreError} {s' : Store}
    (hmake : s.make parts = (.error err, s')) :
    ∃ building entities,
      s.spawnBare.2.attachParts s.spawnBare.1 parts = (.error err, building) ∧
      s.world.entities.allocate.2.release s.spawnBare.1 = some entities ∧
      s' = { building with
        world :=
          { entities
            storages := building.world.storages.map (Option.map (·.erase s.spawnBare.1)) } } := by
  have hentities := s.spawnBare.2.entities_attachParts s.spawnBare.1 parts
  rw [make] at hmake
  rcases houtcome : s.spawnBare.2.attachParts s.spawnBare.1 parts with ⟨lost | _, building⟩
  · rw [houtcome] at hmake hentities
    have hborn : building.world.entities = s.world.entities.allocate.2 := hentities
    have halive : building.world.isAlive s.spawnBare.1 = true := by
      show building.world.entities.contains s.spawnBare.1 = true
      rw [hborn]
      exact h.world.entities.contains_allocate_self
    obtain ⟨entities, hrelease, hgiven⟩ := giveUp_of_alive halive lost
    rw [hborn] at hrelease
    cases hmake.symm.trans hgiven
    exact ⟨building, entities, rfl, hrelease, rfl⟩
  · rw [houtcome] at hmake
    cases hmake

/-- After the new entity is dropped, a storage that was there shows what it showed: nobody alive
has the slot of the entity, so neither an instance nor a flag was there for it. -/
theorem looksLike_of_tidy {w : World} (h : w.Tidy) {e : Entity}
    (hfresh : ∀ e', w.isAlive e' = true → e'.slot ≠ e.slot) {id : ComponentId}
    {storage : Storage} (hstorage : w.storage? id = some storage) {slot : Option Storage}
    (hslot : SlotSameBut e (some storage) slot) :
    ∃ storage', slot.map (·.erase e) = some storage' ∧ storage.LooksLike storage' := by
  have hold := h.storage id storage hstorage
  cases slot with
  | none => cases hslot
  | some s =>
      refine ⟨s.erase e, rfl, Storage.SameBut.looksLike_erase hslot hold.valid ?_ ?_⟩
      · rw [Bool.eq_false_iff]
        intro hheld
        exact hfresh e (hold.held e hheld) rfl
      · intro e' hsame
        rw [Bool.eq_false_iff]
        intro hmarked
        obtain ⟨owner, howner, howned⟩ := hold.flagged e' hmarked
        exact hfresh owner howner (howned.trans hsame.symm)

/-- Attaching parts to a new entity and giving it up leaves everything as it was. -/
theorem rolledBack_make (h : s.Valid) (htidy : s.world.Tidy) {parts : List Part}
    {err : StoreError} {s' : Store} (hmake : s.make parts = (.error err, s')) :
    s.RolledBack s' := by
  have hsame := h.spawnBare.sameBut_attachParts s.spawnBare.1 parts
  have hextends := s.spawnBare.2.extends_attachParts s.spawnBare.1 parts
  have hbuilt := h.spawnBare.attachParts s.spawnBare.1 parts
  obtain ⟨building, entities, houtcome, hused, rfl⟩ := h.make_eq_error hmake
  rw [houtcome] at hsame hextends hbuilt
  have halive := h.world.entities.contains_release_allocate hused
  constructor
  · exact hextends
  · exact halive
  · exact Allocator.size_eq_of_contains halive
  · exact hused
  · intro id storage hstorage
    have hslot : SlotSameBut s.spawnBare.1 (s.world.storage? id) _ := hsame id
    rw [hstorage] at hslot
    rw [World.storage?_mapStorages]
    exact looksLike_of_tidy htidy (fun e he => h.world.entities.slot_ne_allocate he) hstorage hslot
  · intro id storage' hnone hsome
    have hslot : SlotSameBut s.spawnBare.1 (s.world.storage? id) _ := hsame id
    rw [World.storage?_mapStorages] at hsome
    obtain ⟨storage, hstorage, rfl⟩ := Option.map_eq_some_iff.1 hsome
    -- it was made for a part of the new entity, which is taken out of it again
    rw [hnone, hstorage] at hslot
    obtain ⟨entry, hentry, hblank⟩ := hbuilt.prescribed id storage hstorage
    refine ⟨entry, hentry, ?_⟩
    rw [← hblank]
    exact Storage.SameBut.looksLike_erase hslot storage.valid_blank (storage.contains_blank _)
      fun e _ => storage.isMarked_blank e

/-- **A failed creation is rolled back.**  An entity with records is made at once exactly as it is
made one by one.  Whenever that fails, the error is that of the first part which could not be
attached, and who is alive, the order of every storage, what everybody has and who is flagged are
as before: only registrations, empty storages and the entity that was used up remain. -/
theorem creation_rolls_back {s : Store} (hs : s.Reachable) :
    (∀ bundle : List Record, s.spawn bundle = s.build (bundle.map .native)) ∧
    ∀ parts err s', s.build parts = (.error err, s') →
      (∃ before part after mid, parts = before ++ part :: after ∧
        s.spawnBare.2.attachParts s.spawnBare.1 before = (.ok (), mid) ∧
        (mid.attachPart s.spawnBare.1 part).1 = .error err) ∧
      s.RolledBack s' := by
  refine ⟨?_, ?_⟩
  · intro bundle
    rw [spawn_eq_make, build_eq_make]
  · intro parts err s' h
    rw [build_eq_make] at h
    obtain ⟨building, entities, hfailed, -, -⟩ := hs.valid.make_eq_error h
    exact ⟨attachParts_eq_error hfailed, rolledBack_make hs.valid hs.tidy h⟩

/-- Making an entity with a level and a component that is not registered fails for the latter, and
the level leaves no trace. -/
theorem unregistered_part_rolls_back :
    (sample.build [.native (.default Catalogue.level), .named ⟨9⟩ []]).1 =
        .error (.componentNotRegistered ⟨9⟩) ∧
      ∃ s', sample.RolledBack s' ∧
        sample.build [.native (.default Catalogue.level), .named ⟨9⟩ []] =
          (.error (.componentNotRegistered ⟨9⟩), s') := by
  have hfails : (sample.build [.native (.default Catalogue.level), .named ⟨9⟩ []]).1 =
      .error (.componentNotRegistered ⟨9⟩) := by decide +kernel
  obtain ⟨-, hback⟩ := creation_rolls_back reachable_sample
  exact ⟨hfails, _, (hback _ _ _ (Prod.ext hfails rfl)).2, Prod.ext hfails rfl⟩

end Store

end EntityStore
