import EntityStore.Proofs.Ledger
import EntityStore.Proofs.Registration

/-!
# What a ledger keeps

Attaching, detaching, making and removing entities are about one entity each, and all that a
ledger holds fits its components.

* `Entry.Admits` — what fits a component: one record or instance, or a list that is neither empty
  nor beyond its limit;
* `Ledger.Lawful`, `Lawful.interpret` — only live entities have something, and what they have fits;
* `Ledger.attach_cases`, `Ledger.make_cases` and the like — how an operation can end;
* `Ledger.Edited` — what attaching to an entity leaves alone;
* `Ledger.interpret_of_isRefusal` — a request that fails leaves everything;
* `Ledger.entries_interpret_of_not_concerns` — a request leaves all that it is not about.
-/

namespace EntityStore

/-! ### What a ledger holds -/

/-- What fits a component: one record or instance, or a list that is neither empty nor beyond its
limit. -/
def Entry.Admits (entry : Entry) : Holding → Prop
  | .one _ => ∃ t, entry.source = .native t ∧
      (t.storage = .dense ∨ ∃ name, t.storage = .counting name)
  | .many records => ∃ t limit, entry.source = .native t ∧ t.storage = .batch limit ∧
      records ≠ [] ∧ ∀ bound, limit = some bound → records.length ≤ bound
  | .script inst => ∃ schema, entry.source = .script schema ∧ inst.schema = schema

/-- What is there after an insertion fits if it did before. -/
theorem Entry.admits_add {entry : Entry} {t : ComponentType} (hsource : entry.source = .native t)
    (hvisible : t.storage.isHidden = false) (record : Record) {old : Option Holding}
    (hold : ∀ h, old = some h → entry.Admits h) {h : Holding}
    (hadd : t.storage.add record old = some h) : entry.Admits h := by
  cases hkind : t.storage with
  | hidden name =>
      rw [hkind] at hvisible
      cases hvisible
  | dense =>
      rw [hkind] at hadd
      cases hadd
      exact ⟨t, hsource, .inl hkind⟩
  | counting name =>
      rw [hkind] at hadd
      cases hadd
      exact ⟨t, hsource, .inr ⟨name, hkind⟩⟩
  | batch limit =>
      rw [hkind] at hadd
      cases limit with
      | none =>
          cases hadd
          exact ⟨t, none, hsource, hkind, by simp, nofun⟩
      | some bound =>
          rw [StorageKind.add] at hadd
          split at hadd
          · exact hold h hadd
          · next hroom =>
            cases hadd
            refine ⟨t, some bound, hsource, hkind, by simp, ?_⟩
            intro limit hlimit
            cases hlimit
            rw [List.length_append, List.length_singleton]
            omega

theorem Entry.admits_instantiate (entry : Entry) {values : List (String × Value)}
    {inst : ScriptRecord} (h : entry.instantiate values = .ok inst) :
    entry.Admits (.script inst) := by
  rw [instantiate] at h
  split at h
  · cases h
  · next schema hsource =>
    rw [Schema.instantiate] at h
    split at h
    · cases h
      exact ⟨schema, hsource, rfl⟩
    · cases h

theorem Entry.admits_writeFirst {entry : Entry} {h : Holding} (hadmits : entry.Admits h)
    (f : Record → Record) : entry.Admits (h.writeFirst f) := by
  cases h with
  | one record => exact hadmits
  | script inst => exact hadmits
  | many records =>
      obtain ⟨t, limit, hsource, hkind, hne, hlength⟩ := hadmits
      refine ⟨t, limit, hsource, hkind, ?_, ?_⟩
      · rw [← List.length_pos_iff] at hne ⊢
        rwa [List.length_modifyHead]
      · rwa [List.length_modifyHead]

namespace Ledger

variable {l : Ledger}

/-- The registry is consistent, only live entities have something, and what they have fits. -/
structure Lawful (l : Ledger) : Prop where
  registry : l.registry.Consistent
  alive : ∀ e id h, l.entries e id = some h → e ∈ l.live
  admitted : ∀ e id h, l.entries e id = some h →
    ∃ entry, l.registry.entry? id = some entry ∧ entry.Admits h

theorem lawful_initial : Lawful {} where
  registry := Registry.Consistent.initial
  alive _ _ _ h := by cases h
  admitted _ _ _ h := by cases h

namespace Lawful

theorem withRegistry (h : l.Lawful) {registry : Registry} (hconsistent : registry.Consistent)
    (hextends : l.registry.Extends registry) : Lawful { l with registry } where
  registry := hconsistent
  alive := h.alive
  admitted e id holding hholding := by
    obtain ⟨entry, hentry, hadmits⟩ := h.admitted e id holding hholding
    exact ⟨entry, hextends.entry id entry hentry, hadmits⟩

theorem column (h : l.Lawful) (t : ComponentType) : (l.column t).2.Lawful :=
  h.withRegistry (h.registry.register t) (Registry.extends_register l.registry t)

/-- Whatever fits may be put in. -/
theorem put (h : l.Lawful) {e : Entity} {id : ComponentId} {new : Option Holding}
    (halive : ∀ holding, new = some holding → e ∈ l.live)
    (hadmits : ∀ holding, new = some holding →
      ∃ entry, l.registry.entry? id = some entry ∧ entry.Admits holding) :
    (l.put e id new).Lawful where
  registry := h.registry
  alive e' id' holding hholding := by
    rw [Ledger.put] at hholding
    simp only at hholding
    split at hholding
    · next hsame =>
      obtain ⟨rfl, -⟩ := hsame
      exact halive holding hholding
    · exact h.alive e' id' holding hholding
  admitted e' id' holding hholding := by
    rw [Ledger.put] at hholding
    simp only at hholding
    split at hholding
    · next hsame =>
      obtain ⟨-, rfl⟩ := hsame
      exact hadmits holding hholding
    · exact h.admitted e' id' holding hholding

theorem enter (h : l.Lawful) (e : Entity) : (l.enter e).Lawful where
  registry := h.registry
  alive e' id holding hholding := Finset.mem_insert_of_mem (h.alive e' id holding hholding)
  admitted := h.admitted

theorem leave (h : l.Lawful) (e : Entity) : (l.leave e).Lawful where
  registry := h.registry
  alive e' id holding hholding := by
    rw [Ledger.leave] at hholding ⊢
    simp only at hholding
    split at hholding
    · cases hholding
    · next hne =>
      exact Finset.mem_erase.2 ⟨fun heq => hne heq.symm, h.alive e' id holding hholding⟩
  admitted e' id holding hholding := by
    rw [Ledger.leave] at hholding
    simp only at hholding
    split at hholding
    · cases hholding
    · exact h.admitted e' id holding hholding

end Lawful

theorem Lawful.hasDistinctFields (h : l.Lawful) {id : ComponentId} {entry : Entry}
    (hentry : l.registry.entry? id = some entry) : entry.HasDistinctFields := by
  intro schema hsource
  obtain ⟨-, -, hfields, -⟩ := h.registry.script id entry schema hentry hsource
  exact hfields

theorem Lawful.entry?_column (h : l.Lawful) (t : ComponentType) :
    (l.column t).2.registry.entry? (l.column t).1 = some ⟨(l.column t).1, t.name, .native t⟩ :=
  Registry.entry?_register h.registry.valid t

/-- Nobody has a component that typed access passes by. -/
theorem Lawful.entry?_of_isHidden (h : l.Lawful) {t : ComponentType}
    (hhidden : t.storage.isHidden = true) (e : Entity) : l.entry? t e = none := by
  rw [Option.eq_none_iff_forall_not_mem]
  intro holding hholding
  obtain ⟨entry, hentry, hadmits⟩ := (h.column t).admitted e _ holding hholding
  rw [h.entry?_column t, Option.some.injEq] at hentry
  subst hentry
  cases holding with
  | one record =>
      obtain ⟨u, hsource, hkind⟩ := hadmits
      cases hsource
      rcases hkind with hkind | ⟨name, hkind⟩ <;> rw [hkind] at hhidden <;> cases hhidden
  | many records =>
      obtain ⟨u, limit, hsource, hkind, -⟩ := hadmits
      cases hsource
      rw [hkind] at hhidden
      cases hhidden
  | script inst =>
      obtain ⟨schema, hsource, -⟩ := hadmits
      cases hsource

/-! ### Attaching -/

theorem attach_of_mem {e : Entity} (h : e ∈ l.live) (record : Record) :
    l.attach e record =
      if record.type.storage.isHidden then
        (.error (.storageTypeMismatch record.type.name), (l.column record.type).2)
      else
        (.ok (), (l.column record.type).2.put e (l.column record.type).1
          (record.type.storage.add record (l.entry? record.type e))) := by
  rw [attach, if_pos h]
  rfl

/-- Attaching a record fails and at most registers its type, or it puts the record in. -/
theorem attach_cases (l : Ledger) (e : Entity) (record : Record) :
    (∃ err, l.attach e record = (.error err, l)) ∨
    (∃ err, l.attach e record = (.error err, (l.column record.type).2)) ∨
    (e ∈ l.live ∧ record.type.storage.isHidden = false ∧
      l.attach e record =
        (.ok (), (l.column record.type).2.put e (l.column record.type).1
          (record.type.storage.add record (l.entry? record.type e)))) := by
  by_cases halive : e ∈ l.live
  · rw [attach_of_mem halive]
    split
    · exact .inr (.inl ⟨_, rfl⟩)
    · next hvisible => exact .inr (.inr ⟨halive, Bool.eq_false_iff.2 hvisible, rfl⟩)
  · exact .inl ⟨.entityNotFound, if_neg halive⟩

/-- Attaching by position fails and changes nothing, or it puts a script instance in. -/
theorem attachNamed_cases (l : Ledger) (e : Entity) (id : ComponentId)
    (values : List (String × Value)) :
    (∃ err, l.attachNamed e id values = (.error err, l)) ∨
    ∃ entry inst, e ∈ l.live ∧ l.registry.entry? id = some entry ∧
      entry.instantiate values = .ok inst ∧
      l.attachNamed e id values = (.ok (), l.put e id (some (.script inst))) := by
  rw [attachNamed]
  split
  · next halive =>
    split
    · exact .inl ⟨_, rfl⟩
    · next entry hentry =>
      split
      · next inst hok => exact .inr ⟨entry, inst, halive, hentry, hok, rfl⟩
      · exact .inl ⟨_, rfl⟩
  · exact .inl ⟨_, rfl⟩

/-- The ledger came from another one by attaching to the given entity. -/
structure Edited (e : Entity) (l l' : Ledger) : Prop where
  registry : l.registry.Extends l'.registry
  live : l'.live = l.live
  entries : ∀ e', e ≠ e' → l'.entries e' = l.entries e'
  lawful : l.Lawful → l'.Lawful

theorem Edited.refl (e : Entity) (l : Ledger) : Edited e l l :=
  ⟨.refl l.registry, rfl, fun _ _ => rfl, id⟩

theorem Edited.trans {e : Entity} {l₁ l₂ l₃ : Ledger} (h : Edited e l₁ l₂)
    (h' : Edited e l₂ l₃) : Edited e l₁ l₃ where
  registry := h.registry.trans h'.registry
  live := h'.live.trans h.live
  entries e' he' := (h'.entries e' he').trans (h.entries e' he')
  lawful hl := h'.lawful (h.lawful hl)

theorem entries_put_of_ne {e e' : Entity} (h : e ≠ e') (id : ComponentId)
    (new : Option Holding) : (l.put e id new).entries e' = l.entries e' := by
  funext id'
  exact if_neg fun hsame => h hsame.1

theorem edited_attach (l : Ledger) (e : Entity) (record : Record) :
    Edited e l (l.attach e record).2 := by
  have hextends := Registry.extends_register l.registry record.type
  rcases l.attach_cases e record with ⟨err, h⟩ | ⟨err, h⟩ | ⟨halive, hvisible, h⟩
  · rw [h]
    exact .refl e l
  · rw [h]
    exact ⟨hextends, rfl, fun _ _ => rfl, fun hl => hl.column record.type⟩
  · rw [h]
    refine ⟨hextends, rfl, fun e' he' => entries_put_of_ne he' _ _, ?_⟩
    intro hl
    have hcolumn := hl.column record.type
    have hentry := hl.entry?_column record.type
    refine hcolumn.put (fun _ _ => halive) ?_
    intro holding hholding
    refine ⟨_, hentry, Entry.admits_add rfl hvisible record ?_ hholding⟩
    intro old hold
    obtain ⟨entry, hentry', hadmits⟩ := hcolumn.admitted e _ old hold
    rw [hentry, Option.some.injEq] at hentry'
    rw [hentry']
    exact hadmits

theorem edited_attachNamed (l : Ledger) (e : Entity) (id : ComponentId)
    (values : List (String × Value)) : Edited e l (l.attachNamed e id values).2 := by
  rcases l.attachNamed_cases e id values with
    ⟨err, h⟩ | ⟨entry, inst, halive, hentry, hok, h⟩
  · rw [h]
    exact .refl e l
  · rw [h]
    refine ⟨.refl l.registry, rfl, fun e' he' => entries_put_of_ne he' _ _, ?_⟩
    intro hl
    refine hl.put (fun _ _ => halive) ?_
    intro holding hholding
    cases hholding
    exact ⟨entry, hentry, entry.admits_instantiate hok⟩

theorem edited_attachPart (l : Ledger) (e : Entity) (part : Store.Part) :
    Edited e l (l.attachPart e part).2 := by
  cases part with
  | native record => exact l.edited_attach e record
  | named id values => exact l.edited_attachNamed e id values

theorem attachParts_cons (l : Ledger) (e : Entity) (part : Store.Part)
    (rest : List Store.Part) :
    l.attachParts e (part :: rest) =
      match (l.attachPart e part).1 with
      | .ok () => (l.attachPart e part).2.attachParts e rest
      | .error err => (.error err, (l.attachPart e part).2) := by
  rw [attachParts]
  rcases l.attachPart e part with ⟨_ | _, l'⟩ <;> rfl

theorem edited_attachParts (l : Ledger) (e : Entity) (parts : List Store.Part) :
    Edited e l (l.attachParts e parts).2 := by
  induction parts generalizing l with
  | nil => exact .refl e l
  | cons part rest ih =>
      have hpart := l.edited_attachPart e part
      rw [attachParts_cons]
      split
      · exact hpart.trans (ih _)
      · exact hpart

/-! ### Making entities -/

theorem make_cases (l : Ledger) (new : Entity) (parts : List Store.Part) :
    l.make new parts = (.ok new, ((l.enter new).attachParts new parts).2) ∨
    ∃ err, l.make new parts =
      (.error err, { l with registry := ((l.enter new).attachParts new parts).2.registry }) := by
  rw [make]
  rcases (l.enter new).attachParts new parts with ⟨err | _, l'⟩
  · exact .inr ⟨err, rfl⟩
  · exact .inl rfl

/-- Taking back an entity that was just made leaves at most new components. -/
theorem leave_of_edited {l' : Ledger} {new : Entity} (h : l.Lawful) (hnew : new ∉ l.live)
    (hedited : Edited new (l.enter new) l') :
    l'.leave new = { l with registry := l'.registry } := by
  ext1
  · rfl
  · show l'.live.erase new = l.live
    rw [hedited.live]
    exact Finset.erase_insert hnew
  · funext e id
    show (if new = e then none else l'.entries e id) = l.entries e id
    by_cases he : new = e
    · subst he
      rw [if_pos rfl, eq_comm, Option.eq_none_iff_forall_not_mem]
      intro holding hholding
      exact hnew (h.alive new id holding hholding)
    · rw [if_neg he, hedited.entries e he]
      rfl

theorem Lawful.make (h : l.Lawful) (new : Entity) (parts : List Store.Part) :
    (l.make new parts).2.Lawful := by
  have hedited := (l.enter new).edited_attachParts new parts
  have hlawful := hedited.lawful (h.enter new)
  rcases l.make_cases new parts with hmake | ⟨err, hmake⟩
  · rw [hmake]
    exact hlawful
  · rw [hmake]
    exact h.withRegistry hlawful.registry hedited.registry

/-! ### Detaching and writing -/

theorem Lawful.detachAt (h : l.Lawful) (id : ComponentId) (e : Entity) :
    (l.detachAt id e).2.Lawful :=
  h.put nofun nofun

theorem Lawful.update (h : l.Lawful) (t : ComponentType) (e : Entity) (f : Record → Record) :
    (l.update t e f).2.Lawful := by
  have hcolumn := h.column t
  refine hcolumn.put ?_ ?_
  · intro holding hholding
    obtain ⟨old, hold, -⟩ := Option.map_eq_some_iff.1 hholding
    exact hcolumn.alive e _ old hold
  · intro holding hholding
    obtain ⟨old, hold, rfl⟩ := Option.map_eq_some_iff.1 hholding
    obtain ⟨entry, hentry, hadmits⟩ := hcolumn.admitted e _ old hold
    exact ⟨entry, hentry, entry.admits_writeFirst hadmits f⟩

theorem Lawful.despawn (h : l.Lawful) (e : Entity) : (l.despawn e).2.Lawful := by
  rw [Ledger.despawn]
  split
  · exact h.leave e
  · exact h

theorem Lawful.registerSchema (h : l.Lawful) (schema : Schema) :
    (l.registerSchema schema).2.Lawful := by
  rw [Ledger.registerSchema]
  split
  · next id registry hregister =>
    refine h.withRegistry (h.registry.registerSchema hregister) ?_
    rw [Registry.registerSchema_eq_append hregister]
    exact Registry.extends_append _ _ _
  · exact h

/-- Putting in what is there changes nothing. -/
theorem put_eq_self {e : Entity} {id : ComponentId} {new : Option Holding}
    (h : new = l.entries e id) : l.put e id new = l := by
  ext1
  · rfl
  · rfl
  · funext e' id'
    show (if e = e' ∧ id = id' then new else l.entries e' id') = l.entries e' id'
    split
    · next hsame =>
      obtain ⟨rfl, rfl⟩ := hsame
      exact h
    · rfl

/-! ### Requests -/

/-- **What somebody has fits, whatever is requested.** -/
theorem Lawful.interpret (h : l.Lawful) (r : Request) (new : Entity) :
    (r.interpret new l).2.Lawful := by
  cases r with
  | register t => exact h.column t
  | registerSchema schema => exact h.registerSchema schema
  | spawnBare => exact h.enter new
  | spawn bundle => exact h.make new _
  | assemble parts complete =>
      cases complete with
      | true => exact h.make new parts
      | false => exact ((l.enter new).edited_attachParts new parts).lawful (h.enter new)
  | attach e record => exact (l.edited_attach e record).lawful h
  | attachNamed e id values => exact (l.edited_attachNamed e id values).lawful h
  | detach t e => exact (h.column t).detachAt _ e
  | detachAt id e => exact h.detachAt id e
  | despawn e => exact h.despawn e
  | holds t e => exact h.column t
  | read t e => exact h.column t
  | update t e f => exact h.update t e f

/-- Making fails only as a whole. -/
theorem make_of_isRefusal (new : Entity) (parts : List Store.Part)
    (hrefused : (Answer.ofEntity (l.make new parts).1).isRefusal = true) :
    (l.make new parts).2.live = l.live ∧ (l.make new parts).2.entries = l.entries := by
  rcases l.make_cases new parts with hmake | ⟨err, hmake⟩
  · rw [hmake] at hrefused
    cases hrefused
  · rw [hmake]
    exact ⟨rfl, rfl⟩

theorem detachAt_of_isRefusal (id : ComponentId) (e : Entity)
    (hrefused : (Answer.detached (l.detachAt id e).1).isRefusal = true) :
    (l.detachAt id e).2 = l := by
  apply put_eq_self
  cases hholding : l.entries e id with
  | none => rfl
  | some holding =>
      rw [detachAt, hholding] at hrefused
      cases hrefused

/-- A write that gives nothing has changed nothing: what is there has no record. -/
theorem update_of_isRefusal (t : ComponentType) (e : Entity) (f : Record → Record)
    (hrefused : (Answer.written (l.update t e f).1).isRefusal = true) :
    (l.update t e f).2 = (l.column t).2 := by
  apply put_eq_self
  show (l.entries e (l.column t).1).map (Holding.writeFirst f) = l.entries e (l.column t).1
  cases hholding : l.entries e (l.column t).1 with
  | none => rfl
  | some holding =>
      have hgiven : (l.update t e f).1 = (holding.writeFirst f).records.head? := by
        show ((l.entries e (l.column t).1).map _).bind _ = _
        rw [hholding]
        rfl
      rw [hgiven, Holding.head?_records_writeFirst] at hrefused
      rw [Option.map_some]
      congr 1
      cases holding with
      | one record => cases hrefused
      | script inst => rfl
      | many records =>
          cases records with
          | nil => rfl
          | cons first rest => cases hrefused

/-- **A request that fails leaves everything.** -/
theorem interpret_of_isRefusal (r : Request) (new : Entity)
    (hrefused : (r.interpret new l).1.isRefusal = true) :
    (r.interpret new l).2.live = l.live ∧ (r.interpret new l).2.entries = l.entries := by
  cases r with
  | register t => cases hrefused
  | registerSchema schema =>
      show (l.registerSchema schema).2.live = _ ∧ (l.registerSchema schema).2.entries = _
      rw [registerSchema]
      split <;> exact ⟨rfl, rfl⟩
  | spawnBare => cases hrefused
  | spawn bundle => exact make_of_isRefusal new _ hrefused
  | assemble parts complete =>
      cases complete with
      | true => exact make_of_isRefusal new parts hrefused
      -- an entity that is left as it is is an answer, also after an error
      | false => cases hrefused
  | attach e record =>
      rcases l.attach_cases e record with ⟨err, h⟩ | ⟨err, h⟩ | ⟨-, -, h⟩
      · rw [Request.interpret, h]
        exact ⟨rfl, rfl⟩
      · rw [Request.interpret, h]
        exact ⟨rfl, rfl⟩
      · rw [Request.interpret, h] at hrefused
        cases hrefused
  | attachNamed e id values =>
      rcases l.attachNamed_cases e id values with ⟨err, h⟩ | ⟨_, _, -, -, -, h⟩
      · rw [Request.interpret, h]
        exact ⟨rfl, rfl⟩
      · rw [Request.interpret, h] at hrefused
        cases hrefused
  | detach t e =>
      have hsame := detachAt_of_isRefusal (l.column t).1 e hrefused
      show (l.detach t e).2.live = _ ∧ (l.detach t e).2.entries = _
      rw [detach, hsame]
      exact ⟨rfl, rfl⟩
  | detachAt id e =>
      have hsame := detachAt_of_isRefusal id e hrefused
      show (l.detachAt id e).2.live = _ ∧ (l.detachAt id e).2.entries = _
      rw [hsame]
      exact ⟨rfl, rfl⟩
  | despawn e =>
      show (l.despawn e).2.live = _ ∧ (l.despawn e).2.entries = _
      rw [Request.interpret, despawn] at hrefused
      rw [despawn]
      split
      · next halive =>
        rw [if_pos halive] at hrefused
        cases hrefused
      · exact ⟨rfl, rfl⟩
  | holds t e => exact ⟨rfl, rfl⟩
  | read t e => exact ⟨rfl, rfl⟩
  | update t e f =>
      have hsame := update_of_isRefusal t e f hrefused
      show (l.update t e f).2.live = _ ∧ (l.update t e f).2.entries = _
      rw [hsame]
      exact ⟨rfl, rfl⟩

theorem entries_put_of_not {e e' : Entity} {id id' : ComponentId} (h : ¬(e = e' ∧ id = id'))
    (new : Option Holding) : (l.put e id new).entries e' id' = l.entries e' id' :=
  if_neg h

/-- What an entity has of a native component is what it has at the position of its type. -/
theorem position?_column (l : Ledger) (t : ComponentType) :
    (l.column t).2.registry.position? t = some (l.column t).1 :=
  Registry.position?_register l.registry t

theorem entries_make_of_ne {new e : Entity} {parts : List Store.Part}
    (hne : Answer.ofEntity (l.make new parts).1 ≠ .made e) :
    (l.make new parts).2.entries e = l.entries e := by
  rcases l.make_cases new parts with hmake | ⟨err, hmake⟩
  · rw [hmake] at hne ⊢
    have hnew : new ≠ e := fun heq => hne (congrArg Answer.made heq)
    exact ((l.enter new).edited_attachParts new parts).entries e hnew
  · rw [hmake]

/-- **A request leaves all that it is not about.** -/
theorem entries_interpret_of_not_concerns (r : Request) (new : Entity) {e : Entity}
    {id : ComponentId}
    (h : ¬r.Concerns (r.interpret new l).2.registry (r.interpret new l).1 e id) :
    (r.interpret new l).2.entries e id = l.entries e id := by
  cases r with
  | register t => rfl
  | registerSchema schema =>
      show (l.registerSchema schema).2.entries e id = l.entries e id
      rw [registerSchema]
      split <;> rfl
  | spawnBare => rfl
  | spawn bundle => exact congrFun (entries_make_of_ne h) id
  | assemble parts complete =>
      cases complete with
      | true => exact congrFun (entries_make_of_ne h) id
      | false =>
          have hnew : new ≠ e := fun heq => h (congrArg Answer.made heq)
          exact congrFun (((l.enter new).edited_attachParts new parts).entries e hnew) id
  | attach e' record =>
      show (l.attach e' record).2.entries e id = l.entries e id
      rcases l.attach_cases e' record with ⟨err, hresult⟩ | ⟨err, hresult⟩ | ⟨-, -, hresult⟩
      · rw [hresult]
      · rw [hresult]
        rfl
      · rw [Request.interpret, hresult] at h
        rw [hresult]
        refine entries_put_of_not ?_ _
        rintro ⟨he, rfl⟩
        exact h ⟨he, l.position?_column record.type⟩
  | attachNamed e' id' values =>
      show (l.attachNamed e' id' values).2.entries e id = l.entries e id
      rcases l.attachNamed_cases e' id' values with
        ⟨err, hresult⟩ | ⟨_, _, -, -, -, hresult⟩
      · rw [hresult]
      · rw [hresult]
        exact entries_put_of_not h _
  | detach t e' =>
      refine entries_put_of_not ?_ _
      rintro ⟨he, rfl⟩
      exact h ⟨he, l.position?_column t⟩
  | detachAt id' e' => exact entries_put_of_not h _
  | despawn e' =>
      show (l.despawn e').2.entries e id = l.entries e id
      rw [despawn]
      split
      · exact if_neg h
      · rfl
  | holds t e' => rfl
  | read t e' => rfl
  | update t e' f =>
      refine entries_put_of_not ?_ _
      rintro ⟨he, rfl⟩
      exact h ⟨he, l.position?_column t⟩

end Ledger

end EntityStore
