import EntityStore.Proofs.ScriptValues
import EntityStore.Proofs.World

/-!
# Holdings: what an entity has of a component

A storage keeps rows, an index and flags; of all this an entity has one record, a list of records
or one script instance.  Each operation on a storage changes what the named entity has, in the
way its name says, and leaves alone what everyone else has.

* `Holding` — what an entity can have of a component;
* `Storage.holding?`, `World.holding?` — what it has in a storage, and in a world;
* `StorageKind.add`, `Entry.instantiate`, `Holding.writeFirst`, `Holding.writeScript` — inserting
  and writing, seen from the entity: a list has at most as many records as its limit says, and an
  instance has the last value that is listed for each field;
* `Valid.holding?_insert`, `Valid.holding?_erase` and the like — a storage operation, seen from
  every entity;
* `Storage.records_eq`, `Storage.first?_eq` — what is read is what the entity has.
-/

namespace EntityStore

/-- What an entity has of one component. -/
inductive Holding where
  | one (record : Record)
  | many (records : List Record)
  | script (inst : ScriptRecord)
deriving Repr, Inhabited

namespace Holding

def records : Holding → List Record
  | .one record => [record]
  | .many records => records
  | .script _ => []

def first? : Holding → Option Instance
  | .one record => some (.native record)
  | .many records => records.head?.map .native
  | .script inst => some (.script inst)

def writeFirst (f : Record → Record) : Holding → Holding
  | .one record => .one (f record)
  | .many records => .many (records.modifyHead f)
  | .script inst => .script inst

def writeScript (f : ScriptRecord → ScriptRecord) : Holding → Holding
  | .script inst => .script (f inst)
  | other => other

theorem head?_records_writeFirst (f : Record → Record) (h : Holding) :
    (h.writeFirst f).records.head? = h.records.head?.map f := by
  cases h with
  | one record => rfl
  | many records => cases records <;> rfl
  | script inst => rfl

end Holding

/-- What an entity has after a record is inserted: the record overwrites what is there, or is
added to it as long as there is room. -/
def StorageKind.add (kind : StorageKind) (record : Record) (old : Option Holding) :
    Option Holding :=
  let records := old.elim [] Holding.records
  match kind with
  | .dense | .counting _ | .hidden _ => some (.one record)
  | .batch none => some (.many (records ++ [record]))
  | .batch (some limit) =>
    if limit ≤ records.length then old else some (.many (records ++ [record]))

/-- The instance that named values describe.  Native components are not described like that. -/
def Entry.instantiate (entry : Entry) (values : List (String × Value)) :
    Except StoreError ScriptRecord :=
  match entry.source with
  | .native t =>
    .error (.unsupportedOperation s!"{t.storageName} does not accept dynamic values")
  | .script schema => schema.instantiate values

/-- The fields of a script component have different names. -/
def Entry.HasDistinctFields (entry : Entry) : Prop :=
  ∀ schema, entry.source = .script schema → (schema.fields.map (·.name)).Nodup

/-! ### Holdings in a storage -/

namespace Storage

/-- What an entity has in the storage. -/
def holding? (s : Storage) (e : Entity) : Option Holding :=
  match s with
  | .dense _ table | .counting _ table _ | .hidden _ table => (table.get? e).map .one
  | .batch _ rows => (rows.table.get? e).map .many
  | .script _ table => (table.get? e).map .script

theorem holding?_blank (s : Storage) (e : Entity) : s.blank.holding? e = none := by
  cases s <;> simp [blank, holding?, Table.get?, SparseSet.get?, SparseSet.row?]

/-- Who is held has something. -/
theorem Valid.contains_eq {s : Storage} (h : s.Valid) (e : Entity) :
    s.contains e = (s.holding? e).isSome := by
  cases s with
  | batch t rows =>
      rw [holding?, Option.isSome_map]
      exact (h.set.isSome_get? e).symm
  | _ =>
      rw [holding?, Option.isSome_map]
      exact (SparseSet.Valid.isSome_get? h e).symm

theorem toList_eq_records (o : Option Record) :
    o.toList = (o.map Holding.one).elim [] Holding.records := by
  cases o <;> rfl

/-- What is read is what the entity has. -/
theorem records_eq (s : Storage) (e : Entity) :
    s.records e = (s.holding? e).elim [] Holding.records := by
  cases s with
  | batch t rows =>
      rw [records, holding?, BatchTable.instances]
      cases rows.table.get? e <;> rfl
  | script schema table =>
      rw [holding?]
      cases table.get? e <;> rfl
  | dense t table => exact toList_eq_records (table.get? e)
  | counting t table counts => exact toList_eq_records (table.get? e)
  | hidden t table => exact toList_eq_records (table.get? e)

theorem first?_eq (s : Storage) (e : Entity) : s.first? e = (s.holding? e).bind Holding.first? := by
  have hone : ∀ o : Option Record,
      o.toList.head?.map Instance.native = (o.map Holding.one).bind Holding.first? := by
    intro o
    cases o <;> rfl
  cases s with
  | script schema table =>
      rw [first?, holding?]
      cases table.get? e <;> rfl
  | batch t rows =>
      show (rows.instances e).head?.map Instance.native = _
      rw [holding?, BatchTable.instances]
      cases rows.table.get? e <;> rfl
  | dense t table => exact hone (table.get? e)
  | counting t table counts => exact hone (table.get? e)
  | hidden t table => exact hone (table.get? e)

/-! ### Holdings after an operation -/

/-- A list takes one more record unless it has reached its limit. -/
theorem add_batch (limit : Option Nat) (record : Record) (old : Option Holding) :
    StorageKind.add (.batch limit) record old =
      if BatchTable.full limit (old.elim [] Holding.records).length then old
      else some (.many (old.elim [] Holding.records ++ [record])) := by
  cases limit with
  | none => rfl
  | some bound => simp only [StorageKind.add, BatchTable.full, decide_eq_true_iff]

theorem holding?_insert_batch {rows : BatchTable Record} (h : rows.Valid) (t : ComponentType)
    (e : Entity) (record : Record) (e' : Entity) :
    holding? (.batch t (rows.insert e record)) e' =
      if e = e' then
        StorageKind.add (.batch rows.limit) record (holding? (.batch t rows) e')
      else holding? (.batch t rows) e' := by
  have hinstances : (holding? (.batch t rows) e).elim [] Holding.records = rows.instances e := by
    rw [← records_eq]
    rfl
  rw [holding?, BatchTable.insert, BatchTable.count]
  by_cases he : e = e'
  · subst he
    rw [if_pos rfl, add_batch, hinstances]
    split
    · rfl
    · show ((rows.table.set.insert e _).get? e).map Holding.many = _
      rw [h.set.get?_insert, if_pos rfl]
      rfl
  · rw [if_neg he]
    split
    · rfl
    · show ((rows.table.set.insert e _).get? e').map Holding.many = _
      rw [h.set.get?_insert, if_neg he]
      rfl

/-- Inserting changes what the named entity has, as the make of the storage says. -/
theorem Valid.holding?_insert {s : Storage} (h : s.Valid) {t : ComponentType}
    (hmake : s.blank = .empty t) (e : Entity) (record : Record) (e' : Entity) :
    (s.insert e record).holding? e' =
      if e = e' then t.storage.add record (s.holding? e') else s.holding? e' := by
  have hone : ∀ {table : Table Record}, table.set.Valid →
      ((table.insert e record).get? e').map Holding.one =
        if e = e' then some (.one record) else (table.get? e').map .one := by
    intro table hvalid
    rw [Table.get?, Table.insert]
    rw [hvalid.get?_insert]
    split <;> rfl
  rw [empty] at hmake
  split at hmake
  · next hkind =>
    cases s with
    | dense u table =>
        rw [hkind]
        exact hone h
    | _ => cases hmake
  · next limit hkind =>
    cases s with
    | batch u rows =>
        cases hmake
        rw [hkind]
        exact holding?_insert_batch h t e record e'
    | _ => cases hmake
  · next name hkind =>
    cases s with
    | counting u table counts =>
        rw [hkind]
        exact hone h
    | _ => cases hmake
  · next name hkind =>
    cases s with
    | hidden u table =>
        rw [hkind]
        exact hone h
    | _ => cases hmake

/-- A script storage keeps the instance that named values describe, if there is one. -/
theorem insertNamed_script {schema : Schema} (hnames : (schema.fields.map (·.name)).Nodup)
    (table : Table ScriptRecord) (e : Entity) (values : List (String × Value)) :
    (script schema table).insertNamed e values =
      match schema.instantiate values with
      | .ok inst => (.ok (), .script schema (table.insert e inst))
      | .error err => (.error err, .script schema table) := by
  cases hinst : schema.instantiate values <;>
    rw [insertNamed, ScriptRecord.writeAll_fresh hnames, hinst]

/-- Values that make no instance change nothing. -/
theorem insertNamed_of_error {s : Storage} {entry : Entry} (hmake : s.blank = entry.emptyStorage)
    (hfields : entry.HasDistinctFields) {values : List (String × Value)} {err : StoreError}
    (herr : entry.instantiate values = .error err) (e : Entity) :
    s.insertNamed e values = (.error err, s) := by
  rw [Entry.emptyStorage] at hmake
  rw [Entry.instantiate] at herr
  split at hmake
  · next t hsource =>
    rw [hsource] at herr
    cases herr
    rw [empty] at hmake
    cases s with
    | script schema table => split at hmake <;> cases hmake
    | _ =>
        split at hmake <;> cases hmake
        rfl
  · next schema hsource =>
    rw [hsource] at herr
    change schema.instantiate values = .error err at herr
    cases s with
    | script schema' table =>
        cases hmake
        rw [insertNamed_script (hfields schema hsource), herr]
    | _ => cases hmake

/-- Values that make an instance give it to their entity. -/
theorem Valid.insertNamed_of_ok {s : Storage} (h : s.Valid) {entry : Entry}
    (hmake : s.blank = entry.emptyStorage) (hfields : entry.HasDistinctFields)
    {values : List (String × Value)} {inst : ScriptRecord}
    (hok : entry.instantiate values = .ok inst) (e : Entity) :
    (s.insertNamed e values).1 = .ok () ∧
      ∀ e', (s.insertNamed e values).2.holding? e' =
        if e = e' then some (.script inst) else s.holding? e' := by
  rw [Entry.emptyStorage] at hmake
  rw [Entry.instantiate] at hok
  split at hmake
  · next t hsource =>
    rw [hsource] at hok
    cases hok
  · next schema hsource =>
    rw [hsource] at hok
    change schema.instantiate values = .ok inst at hok
    cases s with
    | script schema' table =>
        cases hmake
        rw [insertNamed_script (hfields schema hsource), hok]
        refine ⟨rfl, ?_⟩
        intro e'
        show ((table.set.insert e inst).get? e').map Holding.script = _
        rw [SparseSet.Valid.get?_insert h]
        split <;> rfl
    | _ => cases hmake

theorem Valid.holding?_erase {s : Storage} (h : s.Valid) (e e' : Entity) :
    (s.erase e).holding? e' = if e = e' then none else s.holding? e' := by
  have herase : ∀ {α : Type} {table : Table α} (make : α → Holding), table.set.Valid →
      ((table.erase e).get? e').map make =
        if e = e' then none else (table.get? e').map make := by
    intro α table make hvalid
    show ((table.set.erase e).get? e').map make = _
    rw [hvalid.get?_erase]
    split <;> rfl
  cases s with
  | batch t rows => exact herase Holding.many h.set
  | script schema table => exact herase Holding.script h
  | dense t table => exact herase Holding.one h
  | counting t table counts => exact herase Holding.one h
  | hidden t table => exact herase Holding.one h

/-- Flags are not part of what is held. -/
theorem holding?_mapFlags (s : Storage) (f : ChangeFlags → ChangeFlags) (e : Entity) :
    (s.mapFlags f).holding? e = s.holding? e := by
  cases s <;> rfl

/-- Fetching changes no instance. -/
theorem holding?_fetch (s : Storage) (mutable : Bool) (e e' : Entity) :
    (s.fetch mutable e).holding? e' = s.holding? e' := by
  have hcount : (s.count mutable).holding? e' = s.holding? e' := by cases s <;> rfl
  have htouch : ∀ s : Storage, (s.mapTable (·.touch e)).holding? e' = s.holding? e' := by
    intro s
    cases s <;> simp [mapTable, holding?, Table.get?]
  rw [fetch_eq]
  split
  · rw [htouch, hcount]
  · exact hcount

/-- Writing changes what the named entity has, and nobody else. -/
theorem Valid.holding?_writeFirst {s : Storage} (h : s.Valid) (e : Entity)
    (f : Record → Record) (e' : Entity) :
    (s.writeFirst e f).holding? e' =
      if e = e' then (s.holding? e').map (Holding.writeFirst f) else s.holding? e' := by
  have hone : ∀ {table : Table Record}, table.set.Valid →
      ((table.write e f).get? e').map Holding.one =
        if e = e' then ((table.get? e').map .one).map (Holding.writeFirst f)
        else (table.get? e').map .one := by
    intro table hvalid
    show ((table.set.modify e f).get? e').map Holding.one = _
    rw [hvalid.get?_modify, Table.get?]
    split
    · rw [Option.map_map, Option.map_map]
      rfl
    · rfl
  cases s with
  | batch t rows =>
      show ((rows.table.set.modify e (List.modifyHead f)).get? e').map Holding.many = _
      rw [h.set.get?_modify, holding?, Table.get?]
      split
      · rw [Option.map_map, Option.map_map]
        rfl
      · rfl
  | script schema table =>
      rw [holding?]
      split
      · rw [Option.map_map]
        rfl
      · rfl
  | dense t table => exact hone h
  | counting t table counts => exact hone h
  | hidden t table => exact hone h

/-- Writing a script instance changes what the named entity has, and nobody else. -/
theorem Valid.holding?_writeScript {s : Storage} (h : s.Valid) (e : Entity)
    (f : ScriptRecord → ScriptRecord) (e' : Entity) :
    (s.writeScript e f).holding? e' =
      if e = e' then (s.holding? e').map (Holding.writeScript f) else s.holding? e' := by
  cases s with
  | script schema table =>
      show ((table.set.modify e f).get? e').map Holding.script = _
      rw [SparseSet.Valid.get?_modify h, holding?, Table.get?]
      split
      · rw [Option.map_map, Option.map_map]
        rfl
      · rfl
  | _ =>
      rw [holding?]
      split
      · rw [Option.map_map]
        rfl
      · rfl

end Storage

/-! ### Holdings in a world -/

namespace World

/-- What an entity has of a component. -/
def holding? (w : World) (id : ComponentId) (e : Entity) : Option Holding :=
  (w.storage? id).bind (·.holding? e)

theorem holding?_of_storage? {w : World} {id : ComponentId} {s : Storage}
    (h : w.storage? id = some s) (e : Entity) : w.holding? id e = s.holding? e := by
  rw [holding?]
  rw [h]
  rfl

theorem holding?_modifyStorage (w : World) (id id' : ComponentId) (f : Storage → Storage)
    (e : Entity) :
    (w.modifyStorage id f).holding? id' e =
      if id = id' then (w.storage? id').bind fun s => (f s).holding? e
      else w.holding? id' e := by
  rw [holding?, storage?_modifyStorage]
  split
  · rw [Option.bind_map]
    rfl
  · rfl

/-- An operation that only concerns one entity in one storage leaves all other holdings. -/
theorem holding?_modifyStorage_of {w : World} {id : ComponentId} {f : Storage → Storage}
    {e : Entity} {s : Storage} (hs : w.storage? id = some s) {new : Option Holding}
    (hf : ∀ e', (f s).holding? e' = if e = e' then new else s.holding? e')
    (id' : ComponentId) (e' : Entity) :
    (w.modifyStorage id f).holding? id' e' =
      if e = e' ∧ id = id' then new else w.holding? id' e' := by
  rw [holding?_modifyStorage]
  by_cases hid : id = id'
  · subst hid
    rw [if_pos rfl, hs, Option.bind_some, hf e', holding?_of_storage? hs]
    simp only [and_true]
  · rw [if_neg hid, if_neg (fun h => hid h.2)]

/-- A new storage that is empty changes no holding. -/
theorem holding?_ensureSlot (w : World) (id : ComponentId) {fresh : Storage}
    (hfresh : fresh.blank = fresh) (id' : ComponentId) (e : Entity) :
    (w.ensureSlot id fresh).holding? id' e = w.holding? id' e := by
  rw [holding?, storage?_ensureSlot]
  split
  · rw [holding?]
    cases w.storage? id' with
    | some s => rfl
    | none =>
        show fresh.holding? e = none
        rw [← hfresh]
        exact fresh.holding?_blank e
  · rfl

theorem holding?_fetch (w : World) (id : ComponentId) (mutable : Bool) (e : Entity)
    (id' : ComponentId) (e' : Entity) :
    (w.fetch id mutable e).holding? id' e' = w.holding? id' e' := by
  rw [World.fetch, holding?_modifyStorage]
  split
  · simp only [Storage.holding?_fetch]
    rfl
  · rfl

/-- A removed entity has nothing, and everybody else has what they had. -/
theorem Valid.holding?_despawn {w w' : World} {e : Entity} (h : w.Valid)
    (hd : w.despawn e = .ok w') (id : ComponentId) (e' : Entity) :
    w'.holding? id e' = if e = e' then none else w.holding? id e' := by
  rw [World.despawn] at hd
  split at hd
  · cases hd
  · cases hd
    rw [holding?, storage?_mapStorages, Option.bind_map, holding?]
    cases hs : w.storage? id with
    | none => simp
    | some s => exact (h.storage id s hs).holding?_erase e e'

end World

end EntityStore
