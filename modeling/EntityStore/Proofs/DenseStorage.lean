import EntityStore.Proofs.Events
import EntityStore.Proofs.OrderedMap

/-!
# Dense storages are ordered maps

Whatever a dense storage is called for, in whatever order and for whatever entities, it answers
like an ordered map that went through the same calls, and its rows, its entities and its index
stay in step.

* `Call.interpret` — what a call means for an ordered map of records;
* `Call.Concerns` — whether a call can change the value of an entity;
* `Table.Represents` — rows, entities and index are in step and answer like the map;
* `Call.apply_dense` — one call, and `dense_represents_map` — any sequence of calls.
-/

namespace EntityStore

/-! ### Calls of an ordered map -/

namespace Call

/-- What a call means for an ordered map of records.  Fetches and flags mean nothing to it, and a
written field that the record does not have, or whose kind does not fit, leaves the record. -/
def interpret (c : Call) (m : OrderedMap Record) : OrderedMap Record :=
  match c with
  | .insert e record => m.insert e record
  | .insertNamed .. => m
  | .writeFirst e f | .writeAll e f => m.modify e f
  | .use (.erase e) => m.erase e
  | .use .clear => {}
  | .use (.writeAt e i f) => if i = 0 then m.modify e f else m
  | .use (.writeField e field v) => m.modify e fun record => (record.write? field v).getD record
  | .use (.mark _) | .use .unmarkAll | .use (.switchTracing _) | .use (.fetch ..) => m

/-- Whether the call can change the value of an entity. -/
def Concerns (c : Call) (e : Entity) : Prop :=
  match c with
  | .insert e' _ | .writeFirst e' _ | .writeAll e' _ => e' = e
  | .use (.erase e') | .use (.writeAt e' _ _) | .use (.writeField e' _ _) => e' = e
  | .use .clear => True
  | .insertNamed .. => False
  | .use (.mark _) | .use .unmarkAll | .use (.switchTracing _) | .use (.fetch ..) => False

theorem value_interpret {c : Call} {e : Entity} (h : ¬c.Concerns e) (m : OrderedMap Record) :
    (c.interpret m).value e = m.value e := by
  have hother : ∀ {e' : Entity} (new : Option Record), ¬e' = e →
      Function.update m.value e' new e = m.value e :=
    fun new hne => Function.update_of_ne (Ne.symm hne) new m.value
  cases c with
  | insert e' record => exact hother _ h
  | insertNamed e' values => rfl
  | writeFirst e' f => exact hother _ h
  | writeAll e' f => exact hother _ h
  | use u =>
      cases u with
      | erase e' => exact hother _ h
      | clear => exact absurd trivial h
      | writeField e' field v => exact hother _ h
      | writeAt e' i f =>
          show (if i = 0 then m.modify e' f else m).value e = m.value e
          split
          · exact hother _ h
          · rfl
      | _ => rfl

/-- Calls that do not concern an entity leave its value alone. -/
theorem value_foldl_interpret {e : Entity} {calls : List Call} (h : ∀ c ∈ calls, ¬c.Concerns e)
    (m : OrderedMap Record) :
    (calls.foldl (fun m c => c.interpret m) m).value e = m.value e := by
  induction calls generalizing m with
  | nil => rfl
  | cons c rest ih =>
      rw [List.foldl_cons, ih fun c' hc' => h c' (List.mem_cons_of_mem c hc')]
      exact value_interpret (h c List.mem_cons_self) m

end Call

theorem OrderedMap.modify_of_value {α : Type} {m : OrderedMap α} {e : Entity} {f : α → α}
    (h : (m.value e).map f = m.value e) : m.modify e f = m := by
  rw [OrderedMap.modify]
  rw [h]
  rw [Function.update_eq_self]

/-! ### One call -/

/-- Rows, entities and index of a table are in step, and the table answers like the map. -/
structure Table.Represents {α : Type} (table : Table α) (m : OrderedMap α) : Prop where
  size_rows : table.set.rows.size = table.set.entities.size
  nodup : table.entities.Nodup
  index : ∀ e i, table.set.row? e = some i ↔ table.set.entities[i]? = some e
  bound : ∀ e i, table.set.row? e = some i →
    i < table.set.rows.size ∧ i < table.set.entities.size
  entities : table.entities = m.keys
  contains : ∀ e, table.contains e = decide (e ∈ m.keys)
  contains_value : ∀ e, table.contains e = (m.value e).isSome
  get : ∀ e, table.get? e = m.value e
  toList : table.toList = m.toList
  size : table.set.size = m.keys.length

theorem SparseSet.Valid.represents {α : Type} {table : Table α} (h : table.set.Valid) :
    table.Represents table.set.toMap where
  size_rows := h.size_rows
  nodup := h.nodup
  index := h.row?_eq_some_iff
  bound e i hi := by
    have hlt := h.row_lt hi
    exact ⟨hlt, h.size_rows ▸ hlt⟩
  entities := rfl
  contains := h.contains_eq_decide
  contains_value e := (h.isSome_get? e).symm
  get _ := rfl
  toList := h.toList_eq
  size := table.set.size_eq

/-- The table after a field of an entity is written by name. -/
def Table.writeField (table : Table Record) (e : Entity) (field : String) (v : Value) :
    Table Record :=
  match (table.get? e).bind (·.write? field v) with
  | some record => table.write e fun _ => record
  | none => table

theorem Storage.snd_writeField_dense (t : ComponentType) (table : Table Record) (e : Entity)
    (field : String) (v : Value) :
    ((Storage.dense t table).writeField e field v).2 = .dense t (table.writeField e field v) := by
  have hfirst : (Storage.dense t table).first? e = (table.get? e).map .native := by
    show (table.get? e).toList.head?.map Instance.native = _
    cases table.get? e <;> rfl
  rw [writeField, Table.writeField, hfirst]
  cases table.get? e with
  | none => rfl
  | some record =>
      rw [Option.map_some, Option.bind_some, Option.bind_some, Instance.write?]
      cases record.write? field v <;> rfl

theorem SparseSet.Valid.writeField {table : Table Record} (h : table.set.Valid) (e : Entity)
    (field : String) (v : Value) : (table.writeField e field v).set.Valid := by
  rw [Table.writeField]
  split
  · exact h.modify e _
  · exact h

/-- Writing a field by name is writing the record, where the field can be written. -/
theorem SparseSet.Valid.toMap_writeField {table : Table Record} (h : table.set.Valid)
    (e : Entity) (field : String) (v : Value) :
    (table.writeField e field v).set.toMap =
      table.set.toMap.modify e fun record => (record.write? field v).getD record := by
  have hvalue : table.set.toMap.value e = table.get? e := rfl
  rw [Table.writeField]
  cases hget : table.get? e with
  | none =>
      rw [OrderedMap.modify_of_value]
      · rfl
      · rw [hvalue, hget, Option.map_none]
  | some record =>
      rw [Option.bind_some]
      cases hwrite : record.write? field v with
      | none =>
          rw [OrderedMap.modify_of_value]
          rw [hvalue, hget, Option.map_some, hwrite, Option.getD_none]
      | some written =>
          refine (h.toMap_modify e _).trans ?_
          rw [OrderedMap.modify, OrderedMap.modify]
          rw [hvalue, hget, Option.map_some, Option.map_some, hwrite, Option.getD_some]

namespace Call

/-- **One call of a dense storage is the call of the map that it stands for.** -/
theorem apply_dense (c : Call) (t : ComponentType) {table : Table Record} (h : table.set.Valid) :
    ∃ table', c.apply (.dense t table) = .dense t table' ∧ table'.set.Valid ∧
      table'.set.toMap = c.interpret table.set.toMap := by
  cases c with
  | insert e record => exact ⟨_, rfl, h.insert e record, h.toMap_insert e record⟩
  | insertNamed e values => exact ⟨_, rfl, h, rfl⟩
  | writeFirst e f => exact ⟨_, rfl, h.modify e f, h.toMap_modify e f⟩
  | writeAll e f => exact ⟨_, rfl, h.modify e f, h.toMap_modify e f⟩
  | use u =>
      cases u with
      | erase e => exact ⟨_, rfl, h.erase e, h.toMap_erase e⟩
      | clear => exact ⟨_, rfl, SparseSet.valid_empty, SparseSet.toMap_empty⟩
      | mark e => exact ⟨table.mark e, rfl, by simpa using h, by rw [Table.set_mark]; rfl⟩
      | unmarkAll => exact ⟨_, rfl, h, rfl⟩
      | switchTracing enabled => exact ⟨_, rfl, h, rfl⟩
      | fetch mutable e =>
          cases mutable with
          | true => exact ⟨table.touch e, rfl, by simpa using h, by rw [Table.set_touch]; rfl⟩
          | false => exact ⟨_, rfl, h, rfl⟩
      | writeAt e i f =>
          by_cases hi : i = 0
          · subst hi
            exact ⟨_, rfl, h.modify e f, h.toMap_modify e f⟩
          · refine ⟨table, ?_, h, ?_⟩
            · show (if i = 0 then _ else Storage.dense t table) = _
              rw [if_neg hi]
            · show _ = if i = 0 then _ else table.set.toMap
              rw [if_neg hi]
      | writeField e field v =>
          exact ⟨_, Storage.snd_writeField_dense t table e field v, h.writeField e field v,
            h.toMap_writeField e field v⟩

/-! ### Any sequence of calls -/

theorem foldl_apply_dense (calls : List Call) (t : ComponentType) {table : Table Record}
    (h : table.set.Valid) :
    ∃ table', calls.foldl (fun s c => c.apply s) (.dense t table) = .dense t table' ∧
      table'.set.Valid ∧
      table'.set.toMap = calls.foldl (fun m c => c.interpret m) table.set.toMap := by
  induction calls generalizing table with
  | nil => exact ⟨table, rfl, h, rfl⟩
  | cons c rest ih =>
      obtain ⟨next, happly, hnext, hmap⟩ := c.apply_dense t h
      obtain ⟨last, hlast, hvalid, hmap'⟩ := ih hnext
      refine ⟨last, ?_, hvalid, ?_⟩
      · rw [List.foldl_cons, happly, hlast]
      · rw [List.foldl_cons, hmap', hmap]

end Call

/-- **A dense storage is an ordered map.**  After any calls, for whatever entities, its rows, its
entities and its index are in step, and it answers like the map that went through the same calls.
What it gives for an entity is what the calls up to the latest one that concerns the entity make
of it. -/
theorem dense_represents_map (t : ComponentType) (calls : List Call) :
    ∃ table, calls.foldl (fun s c => c.apply s) (.dense t {}) = .dense t table ∧
      table.Represents (calls.foldl (fun m (c : Call) => c.interpret m) {}) ∧
      ∀ e before after, calls = before ++ after → (∀ c ∈ after, ¬c.Concerns e) →
        table.get? e = (before.foldl (fun m (c : Call) => c.interpret m) {}).value e := by
  have hempty : (({} : Table Record).set).Valid := SparseSet.valid_empty
  obtain ⟨table, hrun, hvalid, hmap⟩ := Call.foldl_apply_dense calls t hempty
  rw [show ({} : Table Record).set.toMap = {} from SparseSet.toMap_empty] at hmap
  have hrepresents := hvalid.represents
  rw [hmap] at hrepresents
  refine ⟨table, hrun, hrepresents, ?_⟩
  rintro e before after rfl hafter
  rw [hrepresents.get, List.foldl_append]
  exact Call.value_foldl_interpret hafter _

end EntityStore
