import EntityStore.Proofs.SparseSet
import EntityStore.Storage

/-!
# Storages: what every operation keeps

A storage is valid when its sparse set is, and a batch storage keeps between one and `limit`
instances of each entity.  Apart from insertion no operation adds an entity, and no operation
at all turns a storage into one of another make.

* `Storage.Valid`, `Storage.blank` — validity; the empty storage of the same make;
* `Storage.Within` — what all operations but insertion have in common;
* `mapTable_congr`, `touch_of_held`, `touch_of_not_held` — when two table operations do the same;
* `within_fetch`, `within_erase`, `within_writeAll` and the like — the operations are of that kind;
* `valid_insert`, `valid_insertNamed` — insertion keeps a storage valid;
* `Valid.contains_iff_mem`, `Valid.contains_erase` — who is held, and who is after a removal.
-/

namespace EntityStore

/-- The sparse set is valid, and no list is empty or longer than the limit. -/
structure BatchTable.Valid {α : Type} (b : BatchTable α) : Prop where
  set : b.table.set.Valid
  ne_nil : ∀ l ∈ b.table.set.rows, l ≠ []
  length_le : ∀ l ∈ b.table.set.rows, ∀ bound, b.limit = some bound → l.length ≤ bound

namespace BatchTable

variable {α : Type} {b : BatchTable α}

/-- Writing keeps a batch table valid if the lists stay as long as they were. -/
theorem Valid.write (h : b.Valid) (e : Entity) {f : List α → List α}
    (hf : ∀ l, (f l).length = l.length) :
    Valid { b with table := b.table.write e f } := by
  have hlength : ∀ l ∈ (b.table.set.modify e f).rows,
      ∃ l₀ ∈ b.table.set.rows, l.length = l₀.length := by
    intro l hl
    rcases SparseSet.mem_rows_modify hl with hl | ⟨l₀, hl₀, rfl⟩
    · exact ⟨l, hl, rfl⟩
    · exact ⟨l₀, hl₀, hf l₀⟩
  refine ⟨h.set.modify e f, ?_, ?_⟩
  · intro l hl hnil
    obtain ⟨l₀, hl₀, hlen⟩ := hlength l hl
    rw [hnil] at hlen
    exact h.ne_nil l₀ hl₀ (List.length_eq_zero_iff.1 hlen.symm)
  · intro l hl bound hbound
    obtain ⟨l₀, hl₀, hlen⟩ := hlength l hl
    rw [hlen]
    exact h.length_le l₀ hl₀ bound hbound

theorem Valid.insert (h : b.Valid) (e : Entity) (a : α) : (b.insert e a).Valid := by
  rw [BatchTable.insert]
  split
  · exact h
  · next hfull =>
    refine ⟨h.set.insert e _, ?_, ?_⟩
    · intro l hl
      rcases SparseSet.mem_rows_insert hl with rfl | hl
      · simp
      · exact h.ne_nil l hl
    · intro l hl bound hbound
      rcases SparseSet.mem_rows_insert hl with rfl | hl
      · have hlimit : b.limit = some bound := hbound
        have hroom : b.count e < bound := by simpa [full, hlimit] using hfull
        rw [List.length_append, List.length_singleton]
        exact hroom
      · exact h.length_le l hl bound hbound

theorem contains_of_contains_insert {e e' : Entity} {a : α}
    (h : (b.insert e a).table.contains e' = true) : e = e' ∨ b.table.contains e' = true := by
  rw [BatchTable.insert] at h
  split at h
  · exact .inr h
  · simpa [Table.contains, Table.insert, SparseSet.contains_insert] using h

end BatchTable

namespace Storage

/-- The sparse set of the storage, of whatever sort, is valid. -/
def Valid : Storage → Prop
  | .dense _ table | .counting _ table _ | .hidden _ table => table.set.Valid
  | .batch _ rows => rows.Valid
  | .script _ table => table.set.Valid

/-- The empty storage of the same make. -/
def blank : Storage → Storage
  | .dense t _ => .dense t {}
  | .batch t rows => .batch t { limit := rows.limit }
  | .counting t _ _ => .counting t {} {}
  | .hidden t _ => .hidden t {}
  | .script schema _ => .script schema {}

theorem valid_blank (s : Storage) : s.blank.Valid := by
  cases s with
  | batch t rows => exact ⟨SparseSet.valid_empty, by simp, by simp⟩
  | _ => exact SparseSet.valid_empty

theorem contains_blank (s : Storage) (e : Entity) : s.blank.contains e = false := by
  cases s <;> simp [blank, contains, view, Table.contains, SparseSet.contains]

theorem blank_empty (t : ComponentType) : (empty t).blank = empty t := by
  rw [empty]
  split <;> rfl

theorem opens_blank (s : Storage) (t : ComponentType) : s.blank.opens t = s.opens t := by
  cases s <;> rfl

/-! ### Table operations that do the same -/

/-- Table operations that agree on the table of a storage agree on the storage. -/
theorem mapTable_congr {s : Storage} {b : Bool} {f g : ∀ {α : Type}, Table α → Table α}
    (p : ∀ {α : Type}, Table α → Bool) (h : ∀ {α : Type} (t : Table α), p t = b → f t = g t)
    (hs : s.view p = b) : s.mapTable f = s.mapTable g := by
  cases s with
  | dense t table => exact congrArg (Storage.dense t) (h table hs)
  | counting t table counts => exact congrArg (Storage.counting t · counts) (h table hs)
  | hidden t table => exact congrArg (Storage.hidden t) (h table hs)
  | script schema table => exact congrArg (Storage.script schema) (h table hs)
  | batch t rows =>
      obtain ⟨limit, table⟩ := rows
      exact congrArg (fun table => Storage.batch t ⟨limit, table⟩) (h table hs)

theorem mapTable_id (s : Storage) : s.mapTable id = s := by
  cases s <;> rfl

/-- Touching an entity that is not held does nothing. -/
theorem touch_of_not_held {s : Storage} {e : Entity} (h : s.contains e = false) :
    s.mapTable (·.touch e) = s := by
  refine (mapTable_congr (·.contains e) ?_ h).trans s.mapTable_id
  intro α t ht
  rw [Table.contains] at ht
  rw [SparseSet.contains_eq_isSome_row?] at ht
  rw [Table.touch]
  rw [ht, if_neg Bool.false_ne_true]
  rfl

/-- Touching an entity that is held is marking. -/
theorem touch_of_held {s : Storage} {e : Entity} (h : s.contains e = true) :
    s.mapTable (·.touch e) = s.mapFlags (·.mark e) := by
  refine mapTable_congr (·.contains e) ?_ h
  intro α t ht
  rw [Table.contains, SparseSet.contains_eq_isSome_row?] at ht
  rw [Table.touch, if_pos ht]

theorem mark_mark (s : Storage) (e : Entity) :
    (s.mapFlags (·.mark e)).mapFlags (·.mark e) = s.mapFlags (·.mark e) := by
  cases s <;> simp only [mapFlags, mapTable, Table.mapFlags, ChangeFlags.mark_mark]

/-- Marking does nothing where changes are not traced. -/
theorem mark_of_not_tracing {s : Storage} (h : s.isTracing = false) (e : Entity) :
    s.mapFlags (·.mark e) = s := by
  have htracing : s.view (·.flags.enabled) = false := by
    cases s <;> exact h
  refine (mapTable_congr (·.flags.enabled) ?_ htracing).trans s.mapTable_id
  intro α t ht
  rw [Table.mapFlags, ChangeFlags.mark_of_disabled ht]
  rfl

/-! ### Operations that do not insert -/

/-- The storage came from another one without an insertion: it is valid if the other one is, it
is of the same make, and it holds no further entity. -/
structure Within (s' s : Storage) : Prop where
  valid : s.Valid → s'.Valid
  contains : s.Valid → ∀ e, s'.contains e = true → s.contains e = true
  blank : s'.blank = s.blank

theorem Within.refl (s : Storage) : s.Within s := ⟨id, fun _ _ => id, rfl⟩

theorem Within.trans {s₁ s₂ s₃ : Storage} (h : s₃.Within s₂) (h' : s₂.Within s₁) :
    s₃.Within s₁ where
  valid hv := h.valid (h'.valid hv)
  contains hv e he := h'.contains hv e (h.contains (h'.valid hv) e he)
  blank := h.blank.trans h'.blank

/-- A table operation that keeps sets valid and adds neither entities nor values, whatever the
instances are. -/
theorem within_mapTable (s : Storage) (f : ∀ {α : Type}, Table α → Table α)
    (hvalid : ∀ {α : Type} (t : Table α), t.set.Valid → (f t).set.Valid)
    (hrows : ∀ {α : Type} (t : Table α) (a : α), a ∈ (f t).set.rows → a ∈ t.set.rows)
    (hcontains : ∀ {α : Type} (t : Table α), t.set.Valid → ∀ e,
      (f t).set.contains e = true → t.set.contains e = true) :
    (s.mapTable f).Within s := by
  cases s with
  | dense t table => exact ⟨hvalid table, hcontains table, rfl⟩
  | counting t table counts => exact ⟨hvalid table, hcontains table, rfl⟩
  | hidden t table => exact ⟨hvalid table, hcontains table, rfl⟩
  | script schema table => exact ⟨hvalid table, hcontains table, rfl⟩
  | batch t rows =>
      refine ⟨?_, ?_, rfl⟩
      · intro h
        exact
          { set := hvalid _ h.set
            ne_nil := fun l hl => h.ne_nil l (hrows _ l hl)
            length_le := fun l hl => h.length_le l (hrows _ l hl) }
      · intro h
        exact hcontains rows.table h.set

theorem within_mapFlags (s : Storage) (f : ChangeFlags → ChangeFlags) :
    (s.mapFlags f).Within s :=
  within_mapTable s _ (fun _ => id) (fun _ _ => id) (fun _ _ _ => id)

theorem within_erase (s : Storage) (e : Entity) : (s.erase e).Within s := by
  apply within_mapTable s
  · intro α t h
    exact h.erase e
  · intro α t a
    exact SparseSet.mem_rows_erase
  · intro α t h e' he'
    have hboth : (t.set.contains e' && !decide (e = e')) = true := by
      rw [← h.contains_erase]
      exact he'
    exact (Bool.and_eq_true_iff.1 hboth).1

theorem within_clear (s : Storage) : s.clear.Within s := by
  apply within_mapTable s
  · intro α t _
    exact SparseSet.valid_empty
  · intro α t a h
    simp [Table.clear] at h
  · intro α t _ e h
    simp [Table.clear, SparseSet.contains] at h

theorem within_mark (s : Storage) (e : Entity) : (s.mark e).Within s :=
  within_mapTable s _ (fun t => by simp) (fun t a => by simp) (fun t _ e => by simp)

theorem within_touch (s : Storage) (e : Entity) : (s.mapTable (·.touch e)).Within s :=
  within_mapTable s _ (fun t => by simp) (fun t a => by simp) (fun t _ e => by simp)

/-- The storage with one more fetch counted, if it counts them. -/
def count (s : Storage) (mutable : Bool) : Storage :=
  match s with
  | .counting t table counts => .counting t table (counts.fetch mutable)
  | other => other

theorem fetch_eq (s : Storage) (mutable : Bool) (e : Entity) :
    s.fetch mutable e =
      if mutable then (s.count mutable).mapTable (·.touch e) else s.count mutable := by
  cases s <;> rfl

theorem within_count (s : Storage) (mutable : Bool) : (s.count mutable).Within s := by
  cases s <;> exact ⟨id, fun _ _ => id, rfl⟩

theorem within_fetch (s : Storage) (mutable : Bool) (e : Entity) :
    (s.fetch mutable e).Within s := by
  rw [fetch_eq]
  split
  · exact (within_touch _ e).trans (within_count s mutable)
  · exact within_count s mutable

/-! ### Writing to instances -/

theorem within_writeAll (s : Storage) (e : Entity) (f : Record → Record) :
    (s.writeAll e f).Within s := by
  cases s with
  | script schema table => exact .refl _
  | batch t rows =>
      refine ⟨?_, ?_, rfl⟩
      · intro h
        exact BatchTable.Valid.write h e (fun l => List.length_map f)
      · intro _ e' he'
        simpa [contains, view, writeAll, Table.contains, Table.write] using he'
  | _ =>
      refine ⟨?_, ?_, rfl⟩
      · intro h
        exact h.modify e f
      · intro _ e' he'
        simpa [contains, view, writeAll, Table.contains, Table.write] using he'

theorem within_writeFirst (s : Storage) (e : Entity) (f : Record → Record) :
    (s.writeFirst e f).Within s := by
  cases s with
  | batch t rows =>
      refine ⟨?_, ?_, rfl⟩
      · intro h
        exact BatchTable.Valid.write h e (fun l => List.length_modifyHead)
      · intro _ e' he'
        simpa [contains, view, writeFirst, Table.contains, Table.write] using he'
  | dense t table => exact within_writeAll (.dense t table) e f
  | counting t table counts => exact within_writeAll (.counting t table counts) e f
  | hidden t table => exact within_writeAll (.hidden t table) e f
  | script schema table => exact .refl _

theorem within_writeScript (s : Storage) (e : Entity) (f : ScriptRecord → ScriptRecord) :
    (s.writeScript e f).Within s := by
  cases s with
  | script schema table =>
      refine ⟨?_, ?_, rfl⟩
      · intro h
        exact h.modify e f
      · intro _ e' he'
        simpa [contains, view, writeScript, Table.contains, Table.write] using he'
  | _ => exact .refl _

theorem within_writeField (s : Storage) (e : Entity) (name : String) (v : Value) :
    (s.writeField e name v).2.Within s := by
  rw [writeField]
  split
  · exact within_writeFirst s e _
  · exact within_writeScript s e _
  · exact .refl s

/-! ### Inserting -/

theorem valid_insert {s : Storage} (h : s.Valid) (e : Entity) (record : Record) :
    (s.insert e record).Valid := by
  cases s with
  | batch t rows => exact BatchTable.Valid.insert h e record
  | script schema table => exact h
  | dense t table => exact SparseSet.Valid.insert h e record
  | counting t table counts => exact SparseSet.Valid.insert h e record
  | hidden t table => exact SparseSet.Valid.insert h e record

/-- Only the named entity can be new. -/
theorem contains_of_contains_insert {s : Storage} {e e' : Entity} {record : Record}
    (h : (s.insert e record).contains e' = true) : e = e' ∨ s.contains e' = true := by
  cases s with
  | script schema table => exact .inr h
  | batch t rows => exact BatchTable.contains_of_contains_insert h
  | _ => simpa [insert, contains, view, Table.contains, Table.insert,
      SparseSet.contains_insert] using h

theorem blank_insert (s : Storage) (e : Entity) (record : Record) :
    (s.insert e record).blank = s.blank := by
  cases s with
  | batch t rows => simp only [insert, blank, BatchTable.limit_insert]
  | _ => rfl

theorem valid_insertNamed {s : Storage} (h : s.Valid) (e : Entity)
    (values : List (String × Value)) : (s.insertNamed e values).2.Valid := by
  cases s with
  | script schema table =>
      simp only [insertNamed]
      split
      · exact SparseSet.Valid.insert h e _
      · exact h
  | _ => exact h

theorem contains_of_contains_insertNamed {s : Storage} {e e' : Entity}
    {values : List (String × Value)} (h : (s.insertNamed e values).2.contains e' = true) :
    e = e' ∨ s.contains e' = true := by
  cases s with
  | script schema table =>
      simp only [insertNamed] at h
      split at h
      · simpa [contains, view, Table.contains, Table.insert, SparseSet.contains_insert] using h
      · exact .inr h
  | _ => exact .inr h

theorem blank_insertNamed (s : Storage) (e : Entity) (values : List (String × Value)) :
    (s.insertNamed e values).2.blank = s.blank := by
  cases s with
  | script schema table =>
      simp only [insertNamed]
      split <;> rfl
  | _ => rfl

/-! ### Reading a valid storage -/

theorem Valid.contains_iff_mem {s : Storage} (h : s.Valid) (e : Entity) :
    s.contains e = true ↔ e ∈ s.entities := by
  cases s with
  | batch t rows => exact h.set.contains_iff_mem e
  | _ => exact SparseSet.Valid.contains_iff_mem h e

/-- Only the erased entity leaves the storage. -/
theorem Valid.contains_erase {s : Storage} (h : s.Valid) (e e' : Entity) :
    (s.erase e).contains e' = (s.contains e' && !decide (e = e')) := by
  cases s with
  | batch t rows => exact h.set.contains_erase e e'
  | _ => exact SparseSet.Valid.contains_erase h e e'

theorem Valid.nodup_entities {s : Storage} (h : s.Valid) : s.entities.Nodup := by
  cases s with
  | batch t rows => exact h.set.nodup
  | _ => exact SparseSet.Valid.nodup h

end Storage

end EntityStore
