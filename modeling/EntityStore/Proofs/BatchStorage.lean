import EntityStore.Proofs.DenseStorage

/-!
# Batch storages are ordered maps to bounded lists

Whatever a batch storage is called for, in whatever order and for whatever entities, it answers
like an ordered map to lists that went through the same calls, and no list is empty or longer than
the limit.  The list of an entity is the beginning of its journal, in which nothing is cut off.

* `BatchTable.within` — the beginning of a list, as far as a limit goes;
* `ListEffect`, `Call.listEffect` — what a call means for lists;
* `ListEffect.interpret` — the effect on an ordered map to lists;
* `ListEffect.journal` — the effect on everything that came in for an entity since it was last
  dropped;
* `ListEffect.value_interpret` — one effect on the map, `Call.apply_batch` — one call;
* `batch_keeps_first_inserted` — any sequence of calls.
-/

namespace EntityStore

/-! ### Lists within a limit -/

namespace BatchTable

variable {α : Type}

/-- The beginning of a list, as far as the limit goes. -/
def within (limit : Option Nat) (l : List α) : List α :=
  match limit with
  | some bound => l.take bound
  | none => l

theorem within_nil (limit : Option Nat) : within limit ([] : List α) = [] := by
  cases limit with
  | none => rfl
  | some bound => exact List.take_nil

theorem within_map (limit : Option Nat) (f : α → α) (l : List α) :
    within limit (l.map f) = (within limit l).map f := by
  cases limit with
  | none => rfl
  | some bound => exact List.map_take.symm

theorem within_modify (limit : Option Nat) (i : Nat) (f : α → α) (l : List α) :
    within limit (l.modify i f) = (within limit l).modify i f := by
  cases limit with
  | none => rfl
  | some bound =>
      apply List.ext_getElem?
      intro j
      show ((l.modify i f).take bound)[j]? = ((l.take bound).modify i f)[j]?
      simp only [List.getElem?_take, List.getElem?_modify]
      split <;> rfl

/-- A list with no room for another value is cut off where it was. -/
theorem within_append_of_full {limit : Option Nat} {l : List α}
    (h : full limit (within limit l).length = true) (a : α) :
    within limit (l ++ [a]) = within limit l := by
  cases limit with
  | none => cases h
  | some bound =>
      have hfull : bound ≤ (l.take bound).length := by simpa [full, within] using h
      rw [List.length_take] at hfull
      exact List.take_append_of_le_length (by omega)

/-- A list with room takes the value. -/
theorem within_append_of_not_full {limit : Option Nat} {l : List α}
    (h : full limit (within limit l).length = false) (a : α) :
    within limit (l ++ [a]) = within limit l ++ [a] := by
  cases limit with
  | none => rfl
  | some bound =>
      have hroom : (l.take bound).length < bound := by simpa [full, within] using h
      rw [List.length_take] at hroom
      show (l ++ [a]).take bound = l.take bound ++ [a]
      rw [List.take_of_length_le (by simp; omega), List.take_of_length_le (by omega)]

/-- Cutting before a value is added makes no difference to cutting afterwards. -/
theorem within_within_append (limit : Option Nat) (l : List α) (a : α) :
    within limit (within limit l ++ [a]) = within limit (l ++ [a]) := by
  cases limit with
  | none => rfl
  | some bound =>
      show (l.take bound ++ [a]).take bound = (l ++ [a]).take bound
      by_cases hlong : bound ≤ l.length
      · have hcut : (l.take bound).length = bound := List.length_take_of_le hlong
        rw [List.take_append_of_le_length (by omega), List.take_append_of_le_length hlong,
          List.take_take, Nat.min_self]
      · rw [List.take_of_length_le (show l.length ≤ bound by omega)]

/-- A list that keeps to the limit is not cut. -/
theorem within_of_length_le {limit : Option Nat} {l : List α}
    (h : ∀ bound, limit = some bound → l.length ≤ bound) : within limit l = l := by
  cases limit with
  | none => rfl
  | some bound => exact List.take_of_length_le (h bound rfl)

end BatchTable

/-- A list as the value of a key: the empty list belongs to no key. -/
def listed {α : Type} (l : List α) : Option (List α) :=
  if l = [] then none else some l

theorem listed_nil {α : Type} : listed ([] : List α) = none := rfl

theorem getD_listed {α : Type} (l : List α) : (listed l).getD [] = l := by
  cases l <;> rfl

theorem isSome_listed {α : Type} (l : List α) : (listed l).isSome = !l.isEmpty := by
  cases l <;> rfl

/-! ### What a call means for lists -/

/-- A change of values in place: the list stays as long as it was, and what stands at its
beginning is changed in the same way wherever the list is cut off. -/
structure ListEdit where
  apply : List Record → List Record
  length_apply : ∀ l, (apply l).length = l.length
  within_apply : ∀ limit l,
    BatchTable.within limit (apply l) = apply (BatchTable.within limit l)

namespace ListEdit

def one (i : Nat) (f : Record → Record) : ListEdit where
  apply l := l.modify i f
  length_apply l := List.length_modify f l i
  within_apply limit l := BatchTable.within_modify limit i f l

def all (f : Record → Record) : ListEdit where
  apply l := l.map f
  length_apply _ := List.length_map f
  within_apply limit l := BatchTable.within_map limit f l

/-- A change in place makes no list empty, and none out of nothing. -/
theorem map_listed (change : ListEdit) (l : List Record) :
    (listed l).map change.apply = listed (change.apply l) := by
  have hempty : change.apply l = [] ↔ l = [] := by
    rw [← List.length_eq_zero_iff, change.length_apply, List.length_eq_zero_iff]
  by_cases hl : l = []
  · rw [listed, if_pos hl, listed, if_pos (hempty.2 hl)]
    rfl
  · rw [listed, if_neg hl, listed, if_neg (mt hempty.1 hl)]
    rfl

end ListEdit

/-- What a call means for the lists of a batch storage. -/
inductive ListEffect where
  | append (e : Entity) (record : Record)
  | edit (e : Entity) (change : ListEdit)
  | drop (e : Entity)
  | dropAll
  | other

/-- What a call means for lists.  Fetches and flags mean nothing to them, and a written field that
the record does not have, or whose kind does not fit, leaves the record. -/
def Call.listEffect (c : Call) : ListEffect :=
  match c with
  | .insert e record => .append e record
  | .insertNamed .. => .other
  | .writeFirst e f => .edit e (.one 0 f)
  | .writeAll e f => .edit e (.all f)
  | .use (.erase e) => .drop e
  | .use .clear => .dropAll
  | .use (.writeAt e i f) => .edit e (.one i f)
  | .use (.writeField e field v) =>
    .edit e (.one 0 fun record => (record.write? field v).getD record)
  | .use (.mark _) | .use .unmarkAll | .use (.switchTracing _) | .use (.fetch ..) => .other

/-- Adds a value to the list of a key, within the limit.  A key that gets its first value goes to
the end. -/
def OrderedMap.append {α : Type} (limit : Option Nat) (m : OrderedMap (List α)) (e : Entity)
    (a : α) : OrderedMap (List α) :=
  let l := BatchTable.within limit ((m.value e).getD [] ++ [a])
  { keys := if e ∈ m.keys ∨ l = [] then m.keys else m.keys ++ [e]
    value := Function.update m.value e (listed l) }

namespace ListEffect

/-- What an effect makes of an ordered map to lists. -/
def interpret (limit : Option Nat) (x : ListEffect) (m : OrderedMap (List Record)) :
    OrderedMap (List Record) :=
  match x with
  | .append e record => m.append limit e record
  | .edit e change => m.modify e change.apply
  | .drop e => m.erase e
  | .dropAll => {}
  | .other => m

/-- What an effect makes of the journal of an entity: everything that came in for it since it was
last dropped, as it was changed since. -/
def journal (e : Entity) (x : ListEffect) (l : List Record) : List Record :=
  match x with
  | .append e' record => if e' = e then l ++ [record] else l
  | .edit e' change => if e' = e then change.apply l else l
  | .drop e' => if e' = e then [] else l
  | .dropAll => []
  | .other => l

/-- Whether the effect can change the values of an entity. -/
def Concerns (x : ListEffect) (e : Entity) : Prop :=
  match x with
  | .append e' _ | .edit e' _ | .drop e' => e' = e
  | .dropAll => True
  | .other => False

/-- Whether the effect drops the values of an entity. -/
def Drops (x : ListEffect) (e : Entity) : Prop :=
  match x with
  | .drop e' => e' = e
  | .dropAll => True
  | .append .. | .edit .. | .other => False

/-- Whether the effect changes values of an entity in place. -/
def Edits (x : ListEffect) (e : Entity) : Prop :=
  match x with
  | .edit e' _ => e' = e
  | .append .. | .drop _ | .dropAll | .other => False

/-- The value that comes in for an entity. -/
def appended? (e : Entity) (x : ListEffect) : Option Record :=
  match x with
  | .append e' record => if e' = e then some record else none
  | .edit .. | .drop _ | .dropAll | .other => none

theorem journal_of_not_concerns {x : ListEffect} {e : Entity} (h : ¬x.Concerns e)
    (l : List Record) : x.journal e l = l := by
  cases x with
  | append e' record => exact if_neg (c := e' = e) h
  | edit e' change => exact if_neg (c := e' = e) h
  | drop e' => exact if_neg (c := e' = e) h
  | dropAll => exact absurd trivial h
  | other => rfl

theorem journal_of_drops {x : ListEffect} {e : Entity} (h : x.Drops e) (l : List Record) :
    x.journal e l = [] := by
  cases x with
  | drop e' => exact if_pos (c := e' = e) h
  | dropAll => rfl
  | append e' record => exact h.elim
  | edit e' change => exact h.elim
  | other => exact h.elim

/-- An effect that neither drops nor changes what is there adds what comes in. -/
theorem journal_of_adds {x : ListEffect} {e : Entity} (hdrops : ¬x.Drops e) (hedits : ¬x.Edits e)
    (l : List Record) : x.journal e l = l ++ (x.appended? e).toList := by
  cases x with
  | append e' record =>
      show (if e' = e then l ++ [record] else l) = l ++ (if e' = e then _ else none).toList
      split
      · rfl
      · exact (List.append_nil l).symm
  | edit e' change => exact (if_neg (c := e' = e) hedits).trans (List.append_nil l).symm
  | drop e' => exact (if_neg (c := e' = e) hdrops).trans (List.append_nil l).symm
  | dropAll => exact absurd trivial hdrops
  | other => exact (List.append_nil l).symm

/-- **One effect on the map** changes the list of an entity as it changes the journal. -/
theorem value_interpret {limit : Option Nat} {m : OrderedMap (List Record)} {e : Entity}
    {l : List Record} (h : m.value e = listed (BatchTable.within limit l)) (x : ListEffect) :
    (x.interpret limit m).value e = listed (BatchTable.within limit (x.journal e l)) := by
  have hupdate : ∀ {e' : Entity} {new : Option (List Record)} {l' : List Record},
      (e' = e → new = listed (BatchTable.within limit l')) →
      Function.update m.value e' new e =
        listed (BatchTable.within limit (if e' = e then l' else l)) := by
    intro e' new l' hnew
    by_cases he : e' = e
    · rw [if_pos he, ← hnew he, he, Function.update_self]
    · rw [if_neg he, ← h, Function.update_of_ne (Ne.symm he)]
  cases x with
  | append e' record =>
      refine hupdate ?_
      intro he
      rw [he, h, getD_listed]
      exact congrArg listed (BatchTable.within_within_append limit l record)
  | edit e' change =>
      refine hupdate ?_
      intro he
      rw [he, h, change.map_listed, change.within_apply]
  | drop e' =>
      refine hupdate ?_
      intro _
      rw [BatchTable.within_nil, listed_nil]
  | dropAll =>
      show none = listed (BatchTable.within limit [])
      rw [BatchTable.within_nil, listed_nil]
  | other => exact h

end ListEffect

/-! ### One call -/

namespace BatchTable.Valid

variable {rows : BatchTable Record}

/-- A list that is kept is not empty. -/
theorem get?_eq_listed (h : rows.Valid) (e : Entity) :
    rows.table.get? e = listed (rows.instances e) := by
  rw [BatchTable.instances]
  cases hget : rows.table.get? e with
  | none => rfl
  | some l => exact (if_neg (h.ne_nil l (SparseSet.mem_rows_of_get? hget))).symm

/-- A list that is kept is within the limit. -/
theorem within_instances (h : rows.Valid) (e : Entity) :
    within rows.limit (rows.instances e) = rows.instances e := by
  rw [BatchTable.instances]
  cases hget : rows.table.get? e with
  | none => exact within_nil rows.limit
  | some l => exact within_of_length_le (h.length_le l (SparseSet.mem_rows_of_get? hget))

theorem toMap_insert (h : rows.Valid) (e : Entity) (record : Record) :
    (rows.insert e record).table.set.toMap =
      rows.table.set.toMap.append rows.limit e record := by
  have hwithin := h.within_instances e
  have hvalue : rows.table.set.toMap.value e = listed (rows.instances e) := h.get?_eq_listed e
  have hkeys : e ∈ rows.table.set.toMap.keys ↔ rows.instances e ≠ [] := by
    rw [← decide_eq_true_iff (p := e ∈ _), ← h.set.contains_eq_decide, ← h.set.isSome_get?]
    show (rows.table.get? e).isSome = true ↔ _
    rw [h.get?_eq_listed, isSome_listed]
    simp
  rw [BatchTable.insert, OrderedMap.append, hvalue, getD_listed]
  cases hfull : full rows.limit (rows.count e) with
  | true =>
      -- no room: the list stays, and its key with it
      have hcut : within rows.limit (rows.instances e ++ [record]) = rows.instances e := by
        rw [within_append_of_full (by rw [hwithin]; exact hfull), hwithin]
      have hstays : e ∈ rows.table.set.toMap.keys ∨ rows.instances e = [] := by
        rw [hkeys]
        exact (em _).symm
      rw [if_pos rfl, hcut, if_pos hstays, ← hvalue, Function.update_eq_self]
  | false =>
      have htakes : within rows.limit (rows.instances e ++ [record]) =
          rows.instances e ++ [record] := by
        rw [within_append_of_not_full (by rw [hwithin]; exact hfull), hwithin]
      have hnonempty : rows.instances e ++ [record] ≠ [] := by simp
      rw [if_neg Bool.false_ne_true, htakes, listed, if_neg hnonempty]
      simp only [hnonempty, or_false]
      exact h.set.toMap_insert e _

end BatchTable.Valid

theorem OrderedMap.modify_congr {α : Type} {m : OrderedMap α} {e : Entity} {f g : α → α}
    (h : (m.value e).map f = (m.value e).map g) : m.modify e f = m.modify e g := by
  rw [OrderedMap.modify, OrderedMap.modify]
  rw [h]

/-- Writing a field by name is writing the first record, where the field can be written. -/
theorem BatchTable.Valid.writeField {rows : BatchTable Record} (h : rows.Valid)
    (t : ComponentType) (e : Entity) (field : String) (v : Value) :
    ∃ rows', ((Storage.batch t rows).writeField e field v).2 = .batch t rows' ∧
      rows'.table.set.toMap =
        rows.table.set.toMap.modify e
          (·.modify 0 fun record => (record.write? field v).getD record) := by
  have hfirst : (Storage.batch t rows).first? e =
      ((rows.table.get? e).getD []).head?.map .native := rfl
  have hvalue : rows.table.set.toMap.value e = rows.table.get? e := rfl
  rw [Storage.writeField, hfirst]
  cases hget : rows.table.get? e with
  | none =>
      refine ⟨rows, rfl, ?_⟩
      rw [OrderedMap.modify_of_value]
      rw [hvalue, hget, Option.map_none]
  | some l =>
      cases l with
      | nil => exact absurd rfl (h.ne_nil [] (SparseSet.mem_rows_of_get? hget))
      | cons record rest =>
          have hwrite : (((some (record :: rest)).getD []).head?.map Instance.native).bind
              (·.write? field v) = (record.write? field v).map .native := rfl
          rw [hwrite]
          cases hnew : record.write? field v with
          | none =>
              refine ⟨rows, rfl, ?_⟩
              rw [OrderedMap.modify_of_value]
              rw [hvalue, hget, Option.map_some, List.modify_zero_cons, hnew, Option.getD_none]
          | some written =>
              refine ⟨_, rfl, ?_⟩
              refine (h.set.toMap_modify e _).trans (OrderedMap.modify_congr ?_)
              rw [hvalue, hget, Option.map_some, Option.map_some, List.modify_zero_cons, hnew,
                Option.getD_some]
              rfl

namespace Call

/-- **One call of a batch storage is its effect on the map that the storage stands for.** -/
theorem apply_batch (c : Call) (t : ComponentType) {rows : BatchTable Record} (h : rows.Valid) :
    ∃ rows', c.apply (.batch t rows) = .batch t rows' ∧
      rows'.table.set.toMap = c.listEffect.interpret rows.limit rows.table.set.toMap := by
  cases c with
  | insert e record => exact ⟨_, rfl, h.toMap_insert e record⟩
  | insertNamed e values => exact ⟨_, rfl, rfl⟩
  | writeFirst e f => exact ⟨_, rfl, h.set.toMap_modify e _⟩
  | writeAll e f => exact ⟨_, rfl, h.set.toMap_modify e _⟩
  | use u =>
      cases u with
      | erase e => exact ⟨_, rfl, h.set.toMap_erase e⟩
      | clear => exact ⟨_, rfl, SparseSet.toMap_empty⟩
      | mark e =>
          refine ⟨{ rows with table := rows.table.mark e }, rfl, ?_⟩
          rw [Table.set_mark]
          rfl
      | unmarkAll => exact ⟨_, rfl, rfl⟩
      | switchTracing enabled => exact ⟨_, rfl, rfl⟩
      | fetch mutable e =>
          cases mutable with
          | true =>
              refine ⟨{ rows with table := rows.table.touch e }, rfl, ?_⟩
              rw [Table.set_touch]
              rfl
          | false => exact ⟨_, rfl, rfl⟩
      | writeAt e i f => exact ⟨_, rfl, h.set.toMap_modify e _⟩
      | writeField e field v => exact h.writeField t e field v

end Call

/-! ### Any sequence of calls -/

/-- The journal of an entity after calls: everything that was inserted for it since it was last
dropped, in order, as it was written since. -/
def journalOf (calls : List Call) (e : Entity) : List Record :=
  calls.foldl (fun l c => c.listEffect.journal e l) []

/-- Calls that do not concern an entity leave its journal alone. -/
theorem journalOf_append_of_not_concerns {e : Entity} (before : List Call) {after : List Call}
    (h : ∀ c ∈ after, ¬c.listEffect.Concerns e) :
    journalOf (before ++ after) e = journalOf before e := by
  induction after using List.reverseRecOn with
  | nil => rw [List.append_nil]
  | append_singleton after c ih =>
      have hlast := h c (List.mem_append_right after List.mem_cons_self)
      have hrest := ih fun c' hc' => h c' (List.mem_append_left [c] hc')
      rw [← hrest, ← List.append_assoc, journalOf, List.foldl_append]
      exact ListEffect.journal_of_not_concerns hlast _

/-- **The journal lists what was inserted:** since the entity was dropped, and as long as nothing
is written in place. -/
theorem journalOf_of_adds {e : Entity} {before after : List Call}
    (hdropped : before = [] ∨ ∃ c ∈ before.getLast?, c.listEffect.Drops e)
    (hadds : ∀ c ∈ after, ¬c.listEffect.Drops e ∧ ¬c.listEffect.Edits e) :
    journalOf (before ++ after) e = after.filterMap fun c => c.listEffect.appended? e := by
  induction after using List.reverseRecOn with
  | nil =>
      rw [List.append_nil]
      rcases hdropped with rfl | ⟨c, hc, hdrops⟩
      · rfl
      · obtain ⟨first, rfl⟩ := List.getLast?_eq_some_iff.1 hc
        rw [journalOf, List.foldl_append]
        exact ListEffect.journal_of_drops hdrops _
  | append_singleton after c ih =>
      have hlast := hadds c (List.mem_append_right after List.mem_cons_self)
      have hrest := ih fun c' hc' => hadds c' (List.mem_append_left [c] hc')
      rw [← List.append_assoc, journalOf, List.foldl_append, List.filterMap_append]
      show c.listEffect.journal e (journalOf (before ++ after) e) = _
      rw [hrest, ListEffect.journal_of_adds hlast.1 hlast.2]
      cases hin : c.listEffect.appended? e with
      | none => simp [hin]
      | some record => simp [hin]

/-- After any calls a batch storage stands for the map that went through their effects. -/
theorem Call.foldl_apply_batch (calls : List Call) (t : ComponentType) {rows : BatchTable Record}
    (h : rows.Valid) :
    ∃ rows', calls.foldl (fun s c => c.apply s) (.batch t rows) = .batch t rows' ∧
      rows'.Valid ∧ rows'.limit = rows.limit ∧
      rows'.table.set.toMap =
        calls.foldl (fun m c => c.listEffect.interpret rows.limit m) rows.table.set.toMap := by
  induction calls generalizing rows with
  | nil => exact ⟨rows, rfl, h, rfl, rfl⟩
  | cons c rest ih =>
      obtain ⟨next, happly, hmap⟩ := c.apply_batch t h
      have hvalid : next.Valid := by
        have hkept : (c.apply (.batch t rows)).Valid := c.valid_apply h
        rw [happly] at hkept
        exact hkept
      have hlimit : next.limit = rows.limit := by
        have hblank := c.blank_apply (.batch t rows)
        rw [happly, Storage.blank, Storage.blank] at hblank
        injection hblank with _ hrows
        injection hrows
      obtain ⟨last, hlast, hvalid', hlimit', hmap'⟩ := ih hvalid
      refine ⟨last, ?_, hvalid', hlimit'.trans hlimit, ?_⟩
      · rw [List.foldl_cons, happly, hlast]
      · rw [List.foldl_cons, hmap', hlimit, hmap]

/-- In the map that went through the effects of calls, the list of an entity is the beginning of
its journal. -/
theorem ListEffect.value_foldl_interpret (limit : Option Nat) (calls : List Call) (e : Entity) :
    (calls.foldl (fun m (c : Call) => c.listEffect.interpret limit m) {}).value e =
      listed (BatchTable.within limit (journalOf calls e)) := by
  induction calls using List.reverseRecOn with
  | nil =>
      show none = listed (BatchTable.within limit [])
      rw [BatchTable.within_nil, listed_nil]
  | append_singleton calls c ih =>
      rw [List.foldl_append, journalOf, List.foldl_append]
      exact ListEffect.value_interpret ih c.listEffect

/-- **A batch storage keeps the first instances inserted.**  After any calls, for whatever
entities and whatever limit: rows, entities and index are in step and answer like the ordered map
to lists that went through the same calls; every list has at least one instance and at most
`limit`; the instances of an entity are as many of those inserted since it was last dropped as the
limit lets in, the first ones in order, as they were written since, and the number of instances,
presence and the first instance are read off them; calls that do not concern an entity leave its
instances alone; and without writes in place the instances are the records that were inserted. -/
theorem batch_keeps_first_inserted (t : ComponentType) (limit : Option Nat) (calls : List Call) :
    ∃ rows, calls.foldl (fun s c => c.apply s) (.batch t { limit }) = .batch t rows ∧
      rows.limit = limit ∧
      rows.table.Represents
        (calls.foldl (fun m c => c.listEffect.interpret limit m) {}) ∧
      (∀ l ∈ rows.table.set.rows, 1 ≤ l.length ∧ ∀ bound, limit = some bound → l.length ≤ bound) ∧
      (∀ e, rows.instances e = BatchTable.within limit (journalOf calls e) ∧
        rows.count e = (rows.instances e).length ∧
        rows.table.contains e = !(rows.instances e).isEmpty ∧
        (Storage.batch t rows).first? e = (rows.instances e).head?.map .native) ∧
      ∀ e before after, calls = before ++ after →
        ((∀ c ∈ after, ¬c.listEffect.Concerns e) →
          rows.instances e = BatchTable.within limit (journalOf before e)) ∧
        ((before = [] ∨ ∃ c ∈ before.getLast?, c.listEffect.Drops e) →
          (∀ c ∈ after, ¬c.listEffect.Drops e ∧ ¬c.listEffect.Edits e) →
          rows.instances e =
            BatchTable.within limit (after.filterMap fun c => c.listEffect.appended? e)) := by
  have hempty : BatchTable.Valid ({ limit } : BatchTable Record) :=
    Storage.valid_blank (.batch t { limit })
  obtain ⟨rows, hrun, hvalid, hlimit, hmap⟩ := Call.foldl_apply_batch calls t hempty
  rw [show ({} : Table (List Record)).set.toMap = {} from SparseSet.toMap_empty] at hmap
  have hrepresents := hvalid.set.represents
  rw [hmap] at hrepresents
  -- each list follows its own journal, whatever happened to the others
  have hinstances : ∀ e, rows.instances e = BatchTable.within limit (journalOf calls e) := by
    intro e
    rw [BatchTable.instances, hrepresents.get, ListEffect.value_foldl_interpret, getD_listed]
  refine ⟨rows, hrun, hlimit, hrepresents, ?_, ?_, ?_⟩
  · intro l hl
    refine ⟨List.length_pos_iff.2 (hvalid.ne_nil l hl), ?_⟩
    intro bound hbound
    exact hvalid.length_le l hl bound (hlimit.trans hbound)
  · intro e
    refine ⟨hinstances e, rfl, ?_, rfl⟩
    rw [hrepresents.contains_value, ← hrepresents.get, hvalid.get?_eq_listed, isSome_listed]
  · rintro e before after rfl
    constructor
    · intro hafter
      rw [hinstances, journalOf_append_of_not_concerns before hafter]
    · intro hdropped hadds
      rw [hinstances, journalOf_of_adds hdropped hadds]

end EntityStore
