import EntityStore.Component.Catalogue
import EntityStore.Proofs.Passes
import EntityStore.Proofs.Registry

/-!
# Reachable stores

The stores that come out of the empty one by operations on it: registration, entities with their
components, queries, and whatever a storage can be asked to do apart from inserting into it and
setting its flags behind its back.  All of them are valid.

* `Store.Prescribed` — each storage is of the make that the registry prescribes;
* `Store.Valid` — the invariant: registry and world are valid, and storages are as prescribed;
* `snd_attach_cases`, `snd_attachNamed_cases` — what attaching does to the slots of a world;
* `StorageUse`, `QueryUse`, `Operation` — the operations;
* `Valid.apply` — one operation keeps the invariant, a lemma for each group of them;
* `Store.Reachable`, `Reachable.valid` — runs of operations, and what they keep.
-/

namespace EntityStore

/-! ### Making empty storages -/

namespace Entry

theorem blank_emptyStorage (entry : Entry) : entry.emptyStorage.blank = entry.emptyStorage := by
  rw [emptyStorage]
  cases entry.source with
  | native t => exact Storage.blank_empty t
  | script schema => rfl

theorem valid_emptyStorage (entry : Entry) : entry.emptyStorage.Valid := by
  rw [← blank_emptyStorage]
  exact Storage.valid_blank _

theorem contains_emptyStorage (entry : Entry) (e : Entity) :
    entry.emptyStorage.contains e = false := by
  rw [← blank_emptyStorage]
  exact Storage.contains_blank _ e

end Entry

namespace Store

/-! ### The invariant -/

/-- Every storage is of the make that the entry of its component prescribes. -/
def Prescribed (s : Store) : Prop :=
  ∀ id storage, s.world.storage? id = some storage →
    ∃ entry, s.registry.entry? id = some entry ∧ storage.blank = entry.emptyStorage

/-- What every operation keeps. -/
structure Valid (s : Store) : Prop where
  registry : s.registry.Valid
  world : s.world.Valid
  prescribed : s.Prescribed

theorem valid_initial : Valid ({} : Store) where
  registry := Registry.valid_initial
  world := World.valid_initial
  prescribed id storage h := by simp [World.storage?] at h

namespace Prescribed

variable {s : Store}

theorem within (h : s.Prescribed) {registry : Registry} {world : World}
    (hextends : s.registry.Extends registry) (hwithin : world.Within s.world) :
    Prescribed { registry, world } := by
  intro id storage hstorage
  obtain ⟨old, hold, hfrom⟩ := hwithin.storage id storage hstorage
  obtain ⟨entry, hentry, hblank⟩ := h id old hold
  exact ⟨entry, hextends.entry id entry hentry, hfrom.blank.trans hblank⟩

/-- What is put into an empty slot has to be of the prescribed make. -/
theorem ensureSlot (h : s.Prescribed) {id : ComponentId} {entry : Entry}
    (hentry : s.registry.entry? id = some entry) {fresh : Storage}
    (hblank : fresh.blank = entry.emptyStorage) :
    Prescribed { s with world := s.world.ensureSlot id fresh } := by
  intro id' storage hstorage
  rw [World.storage?_ensureSlot] at hstorage
  split at hstorage
  · next hid =>
    subst hid
    cases hold : s.world.storage? id with
    | none =>
        rw [hold] at hstorage
        cases hstorage
        exact ⟨entry, hentry, hblank⟩
    | some old =>
        rw [hold] at hstorage
        cases hstorage
        exact h id old hold
  · exact h id' storage hstorage

/-- What is done to a storage must not change its make. -/
theorem modifyStorage (h : s.Prescribed) (id : ComponentId) {f : Storage → Storage}
    (hblank : ∀ storage : Storage, (f storage).blank = storage.blank) :
    Prescribed { s with world := s.world.modifyStorage id f } := by
  intro id' storage hstorage
  rw [World.storage?_modifyStorage] at hstorage
  split at hstorage
  · obtain ⟨old, hold, rfl⟩ := Option.map_eq_some_iff.1 hstorage
    obtain ⟨entry, hentry, hmake⟩ := h id' old hold
    exact ⟨entry, hentry, (hblank old).trans hmake⟩
  · exact h id' storage hstorage

/-- Removing an entity empties no slot. -/
theorem despawn (h : s.Prescribed) {e : Entity} {world : World}
    (hdespawn : s.world.despawn e = .ok world) : Prescribed { s with world } := by
  intro id storage hstorage
  rw [World.despawn] at hdespawn
  split at hdespawn
  · cases hdespawn
  · cases hdespawn
    obtain ⟨old, hold, rfl⟩ := Option.map_eq_some_iff.1
      ((s.world.storage?_mapStorages _ (·.erase e) id).symm.trans hstorage)
    obtain ⟨entry, hentry, hblank⟩ := h id old hold
    exact ⟨entry, hentry, (old.within_erase e).blank.trans hblank⟩

end Prescribed

/-- A registry that only grew and a world without an insertion keep the invariant. -/
theorem Valid.within {s : Store} (h : s.Valid) {registry : Registry} {world : World}
    (hvalid : registry.Valid) (hextends : s.registry.Extends registry)
    (hwithin : world.Within s.world) : Valid { registry, world } where
  registry := hvalid
  world := hwithin.valid h.world
  prescribed := h.prescribed.within hextends hwithin

theorem Valid.withWorld {s : Store} (h : s.Valid) {world : World}
    (hwithin : world.Within s.world) : Valid { s with world } :=
  h.within h.registry (.refl s.registry) hwithin

theorem Valid.withRegistry {s : Store} (h : s.Valid) {registry : Registry}
    (hvalid : registry.Valid) (hextends : s.registry.Extends registry) :
    Valid { s with registry } :=
  h.within hvalid hextends (.refl s.world)

/-- The store that a call leaves, once its result is taken apart. -/
theorem Valid.of_eq {α : Type} {r : α × Store} (h : r.2.Valid) {a : α} {s : Store}
    (hr : r = (a, s)) : s.Valid := by
  rw [hr] at h
  exact h

theorem Valid.column {s : Store} (h : s.Valid) (t : ComponentType) : (s.column t).2.Valid :=
  h.withRegistry (Registry.valid_register h.registry t) (Registry.extends_register s.registry t)

/-! ### Entities and components -/

theorem Valid.spawnBare {s : Store} (h : s.Valid) : s.spawnBare.2.Valid where
  registry := h.registry
  world := h.world.spawnBare
  prescribed := h.prescribed

theorem Valid.despawn {s : Store} (h : s.Valid) (e : Entity) : (s.despawn e).2.Valid := by
  rw [Store.despawn]
  split
  · next world hdespawn =>
    exact ⟨h.registry, h.world.despawn hdespawn, h.prescribed.despawn hdespawn⟩
  · exact h

/-- Putting a storage of the prescribed make into an empty slot keeps the invariant. -/
theorem Valid.ensureSlot {s : Store} (h : s.Valid) {id : ComponentId} {entry : Entry}
    (hentry : s.registry.entry? id = some entry) {fresh : Storage}
    (hblank : fresh.blank = entry.emptyStorage) (hvalid : fresh.Valid)
    (halive : ∀ e, fresh.contains e = true → s.world.isAlive e = true) :
    Valid { s with world := s.world.ensureSlot id fresh } where
  registry := h.registry
  world := h.world.ensureSlot id hvalid halive
  prescribed := h.prescribed.ensureSlot hentry hblank

/-- Inserting for a live entity into a storage keeps the invariant. -/
theorem Valid.modifyStorage {s : Store} (h : s.Valid) {e : Entity}
    (halive : s.world.isAlive e = true) (id : ComponentId) {f : Storage → Storage}
    (hvalid : ∀ storage : Storage, storage.Valid → (f storage).Valid)
    (hcontains : ∀ (storage : Storage) (e' : Entity),
      (f storage).contains e' = true → e = e' ∨ storage.contains e' = true)
    (hblank : ∀ storage : Storage, (f storage).blank = storage.blank) :
    Valid { s with world := s.world.modifyStorage id f } where
  registry := h.registry
  world := h.world.modifyStorage halive id hvalid hcontains
  prescribed := h.prescribed.modifyStorage id hblank

/-- The store with an empty storage for a native component, if it had none. -/
def ensureColumn (s : Store) (t : ComponentType) : Store :=
  { (s.column t).2 with world := s.world.ensureSlot (s.column t).1.id (.empty t) }

theorem Valid.ensureColumn {s : Store} (h : s.Valid) (t : ComponentType) :
    (s.ensureColumn t).Valid := by
  have hentry := Registry.entry?_register h.registry t
  refine (h.column t).ensureSlot hentry (Storage.blank_empty t) ?_ ?_
  · exact Entry.valid_emptyStorage ⟨(s.column t).1.id, t.name, .native t⟩
  · intro e he
    have hempty := Entry.contains_emptyStorage ⟨(s.column t).1.id, t.name, .native t⟩ e
    exact absurd he (Bool.eq_false_iff.1 hempty)

/-- What attaching a record leaves: the store itself if the entity is not alive, and else the store
with a storage for the type, into which the record is inserted if typed access finds it. -/
theorem snd_attach_cases (s : Store) (e : Entity) (record : Record) :
    (s.attach e record).2 = s ∨
      s.world.isAlive e = true ∧
        ((s.attach e record).2 = s.ensureColumn record.type ∨
          (s.attach e record).2 =
            { s.ensureColumn record.type with
              world := (s.ensureColumn record.type).world.modifyStorage
                (s.column record.type).1.id (·.insert e record) }) := by
  rw [Store.attach]
  split
  · next halive =>
    refine .inr ⟨halive, ?_⟩
    simp only
    split
    · exact .inr rfl
    · exact .inl rfl
  · exact .inl rfl

/-- What attaching by position leaves: the store itself if the entity is not alive or the position
has no entry, and else the store with an insertion into the storage that is there, or into the empty
one that the entry prescribes. -/
theorem snd_attachNamed_cases (s : Store) (e : Entity) (id : ComponentId)
    (values : List (String × Value)) :
    (s.attachNamed e id values).2 = s ∨
      s.world.isAlive e = true ∧
        ((s.attachNamed e id values).2 =
            { s with world := s.world.modifyStorage id fun old => (old.insertNamed e values).2 } ∨
          ∃ entry, s.registry.entry? id = some entry ∧
            (s.attachNamed e id values).2 =
              { s with
                world := s.world.ensureSlot id (entry.emptyStorage.insertNamed e values).2 }) := by
  rw [Store.attachNamed]
  split
  · next halive =>
    split
    · next storage hstorage =>
      -- the storage that is put back is the one in the slot after an insertion
      have hsame : s.world.modifyStorage id (fun _ => (storage.insertNamed e values).2) =
          s.world.modifyStorage id (fun old => (old.insertNamed e values).2) :=
        World.modifyStorage_const hstorage fun old => (old.insertNamed e values).2
      exact .inr ⟨halive, .inl (congrArg (Store.mk s.registry) hsame)⟩
    · split
      · exact .inl rfl
      · next entry hentry => exact .inr ⟨halive, .inr ⟨entry, hentry, rfl⟩⟩
  · exact .inl rfl

theorem Valid.attach {s : Store} (h : s.Valid) (e : Entity) (record : Record) :
    (s.attach e record).2.Valid := by
  have hready := h.ensureColumn record.type
  rcases s.snd_attach_cases e record with hsame | ⟨halive, hmade | hinserted⟩
  · rw [hsame]
    exact h
  · rw [hmade]
    exact hready
  · rw [hinserted]
    exact hready.modifyStorage halive _ (fun storage hs => Storage.valid_insert hs e record)
      (fun storage e' => Storage.contains_of_contains_insert)
      (fun storage => Storage.blank_insert storage e record)

theorem Valid.attachNamed {s : Store} (h : s.Valid) (e : Entity) (id : ComponentId)
    (values : List (String × Value)) : (s.attachNamed e id values).2.Valid := by
  rcases s.snd_attachNamed_cases e id values with
    hsame | ⟨halive, hinserted | ⟨entry, hentry, hmade⟩⟩
  · rw [hsame]
    exact h
  · rw [hinserted]
    exact h.modifyStorage halive id (fun storage hs => Storage.valid_insertNamed hs e values)
      (fun storage e' => Storage.contains_of_contains_insertNamed)
      (fun storage => Storage.blank_insertNamed storage e values)
  · rw [hmade]
    refine h.ensureSlot hentry ?_ ?_ ?_
    · exact (Storage.blank_insertNamed _ e values).trans entry.blank_emptyStorage
    · exact Storage.valid_insertNamed entry.valid_emptyStorage e values
    · intro e' he'
      rcases Storage.contains_of_contains_insertNamed he' with rfl | hold
      · exact halive
      · exact absurd hold (Bool.eq_false_iff.1 (entry.contains_emptyStorage e'))

theorem Valid.detach {s : Store} (h : s.Valid) (t : ComponentType) (e : Entity) :
    (s.detach t e).2.Valid :=
  (h.column t).withWorld (World.within_detach s.world e _)

theorem Valid.read {s : Store} (h : s.Valid) (t : ComponentType) (e : Entity) :
    (s.read t e).2.Valid := by
  have hcolumn := h.column t
  rw [Store.read]
  simp only
  split
  · exact hcolumn.withWorld (World.within_fetch _ _ false e)
  · exact hcolumn

theorem Valid.update {s : Store} (h : s.Valid) (t : ComponentType) (e : Entity)
    (f : Record → Record) : (s.update t e f).2.Valid := by
  have hcolumn := h.column t
  rw [Store.update]
  simp only
  split
  · exact hcolumn.withWorld
      ((World.within_writeFirst _ _ e f).trans (World.within_fetch _ _ true e))
  · exact hcolumn

theorem Valid.attachPart {s : Store} (h : s.Valid) (e : Entity) (part : Part) :
    (s.attachPart e part).2.Valid := by
  cases part with
  | native record => exact h.attach e record
  | named id values => exact h.attachNamed e id values

theorem Valid.attachAll {s : Store} (h : s.Valid) (e : Entity) (bundle : List Record) :
    (s.attachAll e bundle).2.Valid := by
  induction bundle generalizing s with
  | nil => exact h
  | cons record rest ih =>
      have hattach := h.attach e record
      rw [Store.attachAll]
      split
      · next s' hs' => exact ih (hattach.of_eq hs')
      · next err s' hs' => exact hattach.of_eq hs'

theorem Valid.giveUp {s : Store} (h : s.Valid) (e : Entity) (err : StoreError) :
    (s.giveUp e err).2.Valid := by
  have hdespawn := h.despawn e
  rw [Store.giveUp]
  split
  · next s' hs' => exact hdespawn.of_eq hs'
  · next lost s' hs' => exact hdespawn.of_eq hs'

theorem Valid.spawn {s : Store} (h : s.Valid) (bundle : List Record) :
    (s.spawn bundle).2.Valid := by
  have hall := h.spawnBare.attachAll s.spawnBare.1 bundle
  rw [Store.spawn]
  simp only
  split
  · next s' hs' => exact hall.of_eq hs'
  · next err s' hs' => exact (hall.of_eq hs').giveUp _ err

/-- Attaches parts to an entity under construction. -/
def addParts (s : Store) (b : Builder) (parts : List Part) : Builder × Store :=
  parts.foldl (fun (b, s) part => s.addPart b part) (b, s)

theorem Valid.addPart {s : Store} (h : s.Valid) (b : Builder) (part : Part) :
    (s.addPart b part).2.Valid := by
  have hpart := h.attachPart b.entity part
  rw [Store.addPart]
  split
  · exact h
  · split
    · next s' hs' => exact hpart.of_eq hs'
    · next err s' hs' => exact hpart.of_eq hs'

theorem Valid.addParts {s : Store} (h : s.Valid) (b : Builder) (parts : List Part) :
    (s.addParts b parts).2.Valid := by
  induction parts generalizing b s with
  | nil => exact h
  | cons part rest ih => exact ih (h.addPart b part) (s.addPart b part).1

theorem Valid.completeEntity {s : Store} (h : s.Valid) (b : Builder) :
    (s.completeEntity b).2.Valid := by
  rw [Store.completeEntity]
  split
  · exact h
  · next err _ => exact h.giveUp b.entity err

/-- An entity with parts, completed or left as it is. -/
def assemble (s : Store) (parts : List Part) (complete : Bool) : Store :=
  let (b, s) := s.startEntity.2.addParts s.startEntity.1 parts
  if complete then (s.completeEntity b).2 else s

theorem Valid.assemble {s : Store} (h : s.Valid) (parts : List Part) (complete : Bool) :
    (s.assemble parts complete).Valid := by
  have hparts := h.spawnBare.addParts s.startEntity.1 parts
  rw [Store.assemble]
  simp only
  split
  · exact hparts.completeEntity _
  · exact hparts

/-- The store with a script component registered, if its schema is accepted. -/
def addSchema (s : Store) (schema : Schema) : Store :=
  match s.registry.registerSchema schema with
  | .ok (_, registry) => { s with registry }
  | .error _ => s

theorem Valid.addSchema {s : Store} (h : s.Valid) (schema : Schema) :
    (s.addSchema schema).Valid := by
  rw [Store.addSchema]
  split
  · next id registry hregister =>
    rw [Registry.registerSchema_eq_append hregister]
    exact h.withRegistry (Registry.valid_append h.registry _ _) (Registry.extends_append _ _ _)
  · exact h

/-! ### Queries -/

theorem Valid.prepare {s : Store} (h : s.Valid) (ts : List (Term ComponentType)) :
    (s.prepare ts).2.Valid := by
  have hregistry := Registry.valid_registerAll h.registry (Term.allComponents ts)
  have hextends := Registry.extends_registerAll s.registry (Term.allComponents ts)
  rw [Store.prepare]
  simp only
  split
  · exact h.withRegistry hregistry hextends
  · exact h.within hregistry hextends (World.within_traceAll s.world _)

end Store

/-- One use of a query. -/
inductive QueryUse where
  | get (e : Entity) (f : Record → Record)
  | iterate (writes : List (Record → Record))
  | walk (visits : List (List (Record → Record)))

/-- What a use of a query leaves of the world. -/
def QueryUse.apply (use : QueryUse) (q : Query) (w : World) : World :=
  match use with
  | .get e f => (writeThrough f (q.rowOf e { world := w }).1 (q.rowOf e { world := w }).2).world
  | .iterate writes => ((q.rows w).run writes { world := w }).2.2.world
  | .walk visits => ((q.cursor w).walk visits { world := w }).2.world

theorem QueryUse.within_apply (use : QueryUse) (q : Query) (w : World) :
    (use.apply q w).Within w := by
  cases use with
  | get e f =>
      refine (within_writeThrough f _ _).trans ?_
      rw [Query.rowOf]
      split
      · exact World.within_fetchRow e q.terms _
      · exact .refl w
  | iterate writes => exact RowIterator.within_run _ writes _
  | walk visits => exact RowCursor.within_walk _ visits _

theorem QueryUse.within_applyAll (uses : List QueryUse) (q : Query) (w : World) :
    (uses.foldl (fun w use => use.apply q w) w).Within w := by
  induction uses generalizing w with
  | nil => exact .refl w
  | cons use rest ih => exact (ih _).trans (use.within_apply q w)

namespace Store

/-- What the uses of a query leave, if it can be prepared. -/
def useQuery (s : Store) (ts : List (Term ComponentType)) (uses : List QueryUse) : Store :=
  match s.prepare ts with
  | (.ok q, s) => { s with world := uses.foldl (fun w use => use.apply q w) s.world }
  | (.error _, s) => s

/-- What the uses of an untyped query leave, if it can be started. -/
def useUntyped (s : Store) (q : UntypedQuery) (uses : List UntypedUse) : Store :=
  match s.startQuery q with
  | .ok (c, st) => { s with world := (UntypedUse.run uses c st).2.world }
  | .error _ => s

theorem Valid.useQuery {s : Store} (h : s.Valid) (ts : List (Term ComponentType))
    (uses : List QueryUse) : (s.useQuery ts uses).Valid := by
  have hprepare := h.prepare ts
  rw [Store.useQuery]
  split
  · next q s' hs' =>
    exact (hprepare.of_eq hs').withWorld (QueryUse.within_applyAll uses q s'.world)
  · next err s' hs' => exact hprepare.of_eq hs'

theorem within_traceTerms (q : UntypedQuery) (w : World) : (q.trace w).Within w := by
  obtain ⟨ts⟩ := q
  show (ts.foldl _ w).Within w
  induction ts generalizing w with
  | nil => exact .refl w
  | cons t rest ih =>
      rw [List.foldl_cons]
      refine (ih _).trans ?_
      split
      · exact World.within_trace w t.component
      · exact .refl w

theorem within_startQuery {s : Store} {q : UntypedQuery} {c : UntypedCursor} {st : FetchState}
    (h : s.startQuery q = .ok (c, st)) : st.world.Within s.world := by
  rw [Store.startQuery] at h
  split at h
  · cases h
  · simp only [Except.ok.injEq] at h
    have hst := congrArg (fun p => p.2.world) h
    rw [← show _ = st.world from hst]
    exact (UntypedCursor.within_seek _ _).trans (within_traceTerms q s.world)

theorem Valid.useUntyped {s : Store} (h : s.Valid) (q : UntypedQuery)
    (uses : List UntypedUse) : (s.useUntyped q uses).Valid := by
  rw [Store.useUntyped]
  split
  · next c st hstart =>
    exact h.withWorld ((UntypedUse.within_run uses c st).trans (within_startQuery hstart))
  · exact h

end Store

/-! ### Storages -/

namespace Storage

/-- Changes the record at a position among those of an entity, through an earlier fetch for
writing. -/
def writeAt (s : Storage) (e : Entity) (i : Nat) (f : Record → Record) : Storage :=
  match s with
  | .batch t rows => .batch t { rows with table := rows.table.write e (·.modify i f) }
  | other => if i = 0 then other.writeAll e f else other

theorem within_writeAt (s : Storage) (e : Entity) (i : Nat) (f : Record → Record) :
    (s.writeAt e i f).Within s := by
  cases s with
  | batch t rows =>
      refine ⟨?_, ?_, rfl⟩
      · intro h
        exact BatchTable.Valid.write h e (fun l => List.length_modify f l i)
      · intro _ e' he'
        simpa [contains, view, writeAt, Table.contains, Table.write] using he'
  | _ =>
      unfold writeAt
      split
      · next heq => cases heq
      · split
        · exact within_writeAll _ e f
        · exact .refl _

end Storage

/-- What a storage can be asked to do, apart from inserting and from setting single flags of
entities that it does not hold. -/
inductive StorageUse where
  | erase (e : Entity)
  | clear
  | mark (e : Entity)
  | unmarkAll
  | switchTracing (enabled : Bool)
  | fetch (mutable : Bool) (e : Entity)
  | writeAt (e : Entity) (i : Nat) (f : Record → Record)
  | writeField (e : Entity) (field : String) (v : Value)

namespace StorageUse

def apply (use : StorageUse) (s : Storage) : Storage :=
  match use with
  | .erase e => s.erase e
  | .clear => s.clear
  | .mark e => s.mark e
  | .unmarkAll => s.unmarkAll
  | .switchTracing enabled => s.switchTracing enabled
  | .fetch mutable e => s.fetch mutable e
  | .writeAt e i f => s.writeAt e i f
  | .writeField e field v => (s.writeField e field v).2

theorem within_apply (use : StorageUse) (s : Storage) : (use.apply s).Within s := by
  cases use with
  | erase e => exact s.within_erase e
  | clear => exact s.within_clear
  | mark e => exact s.within_mark e
  | unmarkAll => exact s.within_mapFlags _
  | switchTracing enabled => exact s.within_mapFlags _
  | fetch mutable e => exact s.within_fetch mutable e
  | writeAt e i f => exact s.within_writeAt e i f
  | writeField e field v => exact s.within_writeField e field v

end StorageUse

/-! ### Operations -/

/-- One operation on a store. -/
inductive Operation where
  | register (t : ComponentType)
  | registerSchema (schema : Schema)
  | spawnBare
  | spawn (bundle : List Record)
  /-- Makes an entity with parts, one at a time, and completes it or leaves it as it is. -/
  | assemble (parts : List Store.Part) (complete : Bool)
  | despawn (e : Entity)
  | attach (e : Entity) (record : Record)
  | attachNamed (e : Entity) (id : ComponentId) (values : List (String × Value))
  | detach (t : ComponentType) (e : Entity)
  | detachAt (id : ComponentId) (e : Entity)
  | read (t : ComponentType) (e : Entity)
  | update (t : ComponentType) (e : Entity) (f : Record → Record)
  | unmarkAll
  | storage (id : ComponentId) (use : StorageUse)
  | query (ts : List (Term ComponentType)) (uses : List QueryUse)
  | untyped (q : UntypedQuery) (uses : List UntypedUse)

def Operation.apply (op : Operation) (s : Store) : Store :=
  match op with
  | .register t => (s.column t).2
  | .registerSchema schema => s.addSchema schema
  | .spawnBare => s.spawnBare.2
  | .spawn bundle => (s.spawn bundle).2
  | .assemble parts complete => s.assemble parts complete
  | .despawn e => (s.despawn e).2
  | .attach e record => (s.attach e record).2
  | .attachNamed e id values => (s.attachNamed e id values).2
  | .detach t e => (s.detach t e).2
  | .detachAt id e => { s with world := (s.world.detach e id).2 }
  | .read t e => (s.read t e).2
  | .update t e f => (s.update t e f).2
  | .unmarkAll => { s with world := s.world.unmarkAll }
  | .storage id use => { s with world := s.world.modifyStorage id use.apply }
  | .query ts uses => s.useQuery ts uses
  | .untyped q uses => s.useUntyped q uses

namespace Store

theorem Valid.apply {s : Store} (h : s.Valid) (op : Operation) : (op.apply s).Valid := by
  cases op with
  | register t => exact h.column t
  | registerSchema schema => exact h.addSchema schema
  | spawnBare => exact h.spawnBare
  | spawn bundle => exact h.spawn bundle
  | assemble parts complete => exact h.assemble parts complete
  | despawn e => exact h.despawn e
  | attach e record => exact h.attach e record
  | attachNamed e id values => exact h.attachNamed e id values
  | detach t e => exact h.detach t e
  | detachAt id e => exact h.withWorld (World.within_detach s.world e id)
  | read t e => exact h.read t e
  | update t e f => exact h.update t e f
  | unmarkAll => exact h.withWorld (World.within_unmarkAll s.world)
  | storage id use =>
      exact h.withWorld (World.within_modifyStorage s.world id fun old _ => use.within_apply old)
  | query ts uses => exact h.useQuery ts uses
  | untyped q uses => exact h.useUntyped q uses

/-- What operations leave, one after the other. -/
def run (s : Store) (ops : List Operation) : Store :=
  ops.foldl (fun s op => op.apply s) s

theorem Valid.run {s : Store} (h : s.Valid) (ops : List Operation) : (s.run ops).Valid := by
  induction ops generalizing s with
  | nil => exact h
  | cons op rest ih => exact ih (h.apply op)

/-- The store comes out of the empty one by operations. -/
def Reachable (s : Store) : Prop :=
  ∃ ops : List Operation, s = run {} ops

/-- **Every reachable store is valid.** -/
theorem Reachable.valid {s : Store} (h : s.Reachable) : s.Valid := by
  obtain ⟨ops, rfl⟩ := h
  exact valid_initial.run ops

/-- A store for examples: two entities with levels, the second also with a hit, and one more
registered type. -/
def sample : Store :=
  run {}
    [.spawn [.default Catalogue.level],
      .spawn [.default Catalogue.level, .default Catalogue.hit],
      .register Catalogue.pos]

theorem reachable_sample : sample.Reachable := ⟨_, rfl⟩

end Store

end EntityStore
