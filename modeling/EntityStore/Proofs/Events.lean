import EntityStore.Proofs.History

/-!
# Events: what a call means for presence and flags

To who is held and who is flagged a call is one of a few events: a value is stored or dropped, an
entity is fetched for writing or reported as changed, everything is cleared or flushed, or nothing
of this.

* `Storage.accepts` — whether a storage stores a record that is inserted;
* `Event`, `Call.event` — the events, and the event of a call;
* `Event.holds`, `Event.flags` — who is held and who is flagged after an event;
* `Call.contains_apply`, `Call.isMarked_apply` — a call is its event;
* `Call.isTracing_apply`, `Call.blank_apply` — what a call does to tracing, and to the make.
-/

namespace EntityStore

/-! ### Flags of a table -/

theorem Table.isMarked_mark {α : Type} (t : Table α) (e e' : Entity) :
    (t.mark e).flags.isMarked e' =
      (t.flags.isMarked e' || (t.contains e && t.flags.enabled && decide (e.slot = e'.slot))) := by
  rw [mark]
  cases t.contains e with
  | true =>
      rw [if_pos rfl, Bool.true_and]
      exact t.flags.isMarked_mark e e'
  | false => rw [if_neg Bool.false_ne_true, Bool.false_and, Bool.false_and, Bool.or_false]

/-! ### Events -/

/-- Whether a record that is inserted for the entity is stored.  A full list drops it, and a script
storage takes no records. -/
def Storage.accepts (s : Storage) (e : Entity) : Bool :=
  match s with
  | .batch _ rows => !BatchTable.full rows.limit (rows.count e)
  | .script .. => false
  | .dense .. | .counting .. | .hidden .. => true

/-- What a call means for presence and flags. -/
inductive Event where
  | stored (e : Entity)
  | dropped (e : Entity)
  | fetched (e : Entity)
  | reported (e : Entity)
  | cleared
  | flushed
  | other
deriving DecidableEq, Repr

/-- The event that a call is for a storage. -/
def Call.event (c : Call) (s : Storage) : Event :=
  match c with
  | .insert e _ => if s.accepts e then .stored e else .other
  | .insertNamed e values => if (s.insertNamed e values).1.isOk then .stored e else .other
  | .use (.erase e) => .dropped e
  | .use (.fetch true e) => .fetched e
  | .use (.mark e) => .reported e
  | .use .clear => .cleared
  | .use .unmarkAll => .flushed
  | _ => .other

namespace Event

/-- Who is held after the event. -/
def holds (event : Event) (s : Storage) (e : Entity) : Bool :=
  match event with
  | .stored e' => decide (e' = e) || s.contains e
  | .dropped e' => s.contains e && !decide (e' = e)
  | .cleared => false
  | .fetched _ | .reported _ | .flushed | .other => s.contains e

/-- Who is flagged after the event. -/
def flags (event : Event) (s : Storage) (e : Entity) : Bool :=
  match event with
  | .stored e' => s.isMarked e || (s.isTracing && decide (e'.slot = e.slot))
  | .dropped e' => s.isMarked e && !decide (e'.slot = e.slot)
  | .fetched e' | .reported e' =>
    s.isMarked e || (s.contains e' && s.isTracing && decide (e'.slot = e.slot))
  | .cleared | .flushed => false
  | .other => s.isMarked e

end Event

/-! ### A call is its event -/

namespace Storage

theorem contains_insert (s : Storage) (e : Entity) (record : Record) (e' : Entity) :
    (s.insert e record).contains e' = ((s.accepts e && decide (e = e')) || s.contains e') := by
  cases s with
  | script schema table => rfl
  | batch t rows =>
      show (rows.insert e record).table.contains e' = _
      rw [BatchTable.insert, accepts]
      cases BatchTable.full rows.limit (rows.count e) with
      | true => rfl
      | false => exact rows.table.set.contains_insert e _ e'
  | dense t table => exact table.set.contains_insert e record e'
  | counting t table counts => exact table.set.contains_insert e record e'
  | hidden t table => exact table.set.contains_insert e record e'

theorem isMarked_insert (s : Storage) (e : Entity) (record : Record) (e' : Entity) :
    (s.insert e record).isMarked e' =
      (s.isMarked e' || (s.accepts e && s.isTracing && decide (e.slot = e'.slot))) := by
  have htable : ∀ {α : Type} (t : Table α) (a : α), (t.insert e a).flags.isMarked e' =
      (t.flags.isMarked e' || (true && t.flags.enabled && decide (e.slot = e'.slot))) := by
    intro α t a
    exact t.flags.isMarked_mark e e'
  cases s with
  | script schema table => exact (Bool.or_false _).symm
  | batch t rows =>
      show (rows.insert e record).table.flags.isMarked e' = _
      rw [BatchTable.insert, accepts]
      cases BatchTable.full rows.limit (rows.count e) with
      | true => exact (Bool.or_false _).symm
      | false => exact htable rows.table _
  | dense t table => exact htable table record
  | counting t table counts => exact htable table record
  | hidden t table => exact htable table record

/-- Named values that are refused change nothing, and others are stored. -/
theorem insertNamed_cases (s : Storage) (e : Entity) (values : List (String × Value)) :
    ((s.insertNamed e values).1.isOk = false ∧ (s.insertNamed e values).2 = s) ∨
    ((s.insertNamed e values).1.isOk = true ∧ ∀ e',
      (s.insertNamed e values).2.contains e' = (decide (e = e') || s.contains e') ∧
      (s.insertNamed e values).2.isMarked e' =
        (s.isMarked e' || (s.isTracing && decide (e.slot = e'.slot)))) := by
  cases s with
  | script schema table =>
      rw [insertNamed]
      cases (ScriptRecord.fresh schema).writeAll values with
      | error err => exact .inl ⟨rfl, rfl⟩
      | ok inst =>
          refine .inr ⟨rfl, ?_⟩
          intro e'
          exact ⟨table.set.contains_insert e inst e', table.flags.isMarked_mark e e'⟩
  | _ => exact .inl ⟨rfl, rfl⟩

theorem isMarked_erase (s : Storage) (e e' : Entity) :
    (s.erase e).isMarked e' = (s.isMarked e' && !decide (e.slot = e'.slot)) := by
  cases s <;> exact ChangeFlags.isMarked_unmark _ e e'

theorem isMarked_markStorage (s : Storage) (e e' : Entity) :
    (s.mark e).isMarked e' =
      (s.isMarked e' || (s.contains e && s.isTracing && decide (e.slot = e'.slot))) := by
  cases s <;> exact Table.isMarked_mark _ e e'

theorem contains_mark (s : Storage) (e e' : Entity) : (s.mark e).contains e' = s.contains e' := by
  cases s <;> simp [mark, mapTable, contains, view, Table.contains]

theorem facet_writeAt (s : Storage) (e : Entity) (i : Nat) (f : Record → Record) (e' : Entity) :
    (s.writeAt e i f).facet e' = s.facet e' := by
  cases s with
  | batch t rows =>
      have hheld := contains_write rows.table e (List.modify · i f) e'
      have hrecords := length_instances_write rows e (fun l => List.length_modify f l i) e'
      rw [facet, (within_writeAt (.batch t rows) e i f).blank, Facet.mk.injEq]
      exact ⟨rfl, hheld, hrecords, rfl, rfl⟩
  | _ =>
      unfold writeAt
      split
      · next heq => cases heq
      · split
        · exact facet_writeAll _ e f e'
        · rfl

end Storage

namespace StorageUse

/-- Reading, writing and switching concern neither presence nor flags. -/
theorem apply_of_other (u : StorageUse) (s : Storage) (h : (Call.use u).event s = .other)
    (e : Entity) :
    (u.apply s).contains e = s.contains e ∧ (u.apply s).isMarked e = s.isMarked e := by
  have hfacet : ∀ {s' : Storage}, s'.facet e = s.facet e →
      s'.contains e = s.contains e ∧ s'.isMarked e = s.isMarked e :=
    fun hsame => ⟨congrArg Facet.held hsame, congrArg Facet.marked hsame⟩
  cases u with
  | erase e' => cases h
  | clear => cases h
  | mark e' => cases h
  | unmarkAll => cases h
  | switchTracing enabled => cases s <;> exact ⟨rfl, rfl⟩
  | fetch mutable e' =>
      cases mutable with
      | true => cases h
      | false =>
          refine hfacet ((s.facet_fetch false e' e).trans ?_)
          rw [Bool.false_and, Bool.or_false]
          rfl
  | writeAt e' i f => exact hfacet (s.facet_writeAt e' i f e)
  | writeField e' field v => exact hfacet (s.facet_writeField e' field v e)

end StorageUse

namespace Call

/-- **A call is its event:** presence. -/
theorem contains_apply (c : Call) {s : Storage} (h : s.Valid) (e : Entity) :
    (c.apply s).contains e = (c.event s).holds s e := by
  cases c with
  | insert e' record =>
      rw [apply, event, s.contains_insert]
      cases s.accepts e' <;> rfl
  | insertNamed e' values =>
      rw [apply, event]
      rcases s.insertNamed_cases e' values with ⟨hok, hsame⟩ | ⟨hok, hstored⟩
      · rw [hok, hsame]
        rfl
      · rw [hok, (hstored e).1]
        rfl
  | writeFirst e' f => exact congrArg Facet.held (s.facet_writeFirst e' f e)
  | writeAll e' f => exact congrArg Facet.held (s.facet_writeAll e' f e)
  | use u =>
      cases u with
      | erase e' => exact h.contains_erase e' e
      | clear => cases s <;> simp [apply, StorageUse.apply, event, Event.holds, Storage.clear,
          Storage.mapTable, Storage.contains, Storage.view, Table.contains, Table.clear,
          SparseSet.contains]
      | mark e' => exact s.contains_mark e' e
      | unmarkAll => exact s.contains_mapFlags _ e
      | fetch mutable e' =>
          cases mutable with
          | true => exact congrArg Facet.held (s.facet_fetch true e' e)
          | false => exact (StorageUse.apply_of_other (.fetch false e') s rfl e).1
      | switchTracing enabled =>
          exact (StorageUse.apply_of_other (.switchTracing enabled) s rfl e).1
      | writeAt e' i f => exact (StorageUse.apply_of_other (.writeAt e' i f) s rfl e).1
      | writeField e' field v =>
          exact (StorageUse.apply_of_other (.writeField e' field v) s rfl e).1

/-- **A call is its event:** flags. -/
theorem isMarked_apply (c : Call) (s : Storage) (e : Entity) :
    (c.apply s).isMarked e = (c.event s).flags s e := by
  cases c with
  | insert e' record =>
      rw [apply, event, s.isMarked_insert]
      cases s.accepts e' with
      | true => rfl
      | false => exact Bool.or_false _
  | insertNamed e' values =>
      rw [apply, event]
      rcases s.insertNamed_cases e' values with ⟨hok, hsame⟩ | ⟨hok, hstored⟩
      · rw [hok, hsame]
        rfl
      · rw [hok, (hstored e).2]
        rfl
  | writeFirst e' f => exact congrArg Facet.marked (s.facet_writeFirst e' f e)
  | writeAll e' f => exact congrArg Facet.marked (s.facet_writeAll e' f e)
  | use u =>
      cases u with
      | erase e' => exact s.isMarked_erase e' e
      | clear => cases s <;> exact ChangeFlags.isMarked_unmarkAll _ e
      | mark e' => exact s.isMarked_markStorage e' e
      | unmarkAll => cases s <;> exact ChangeFlags.isMarked_unmarkAll _ e
      | fetch mutable e' =>
          cases mutable with
          | true =>
              refine (congrArg Facet.marked (s.facet_fetch true e' e)).trans ?_
              rw [Bool.true_and]
              rfl
          | false => exact (StorageUse.apply_of_other (.fetch false e') s rfl e).2
      | switchTracing enabled =>
          exact (StorageUse.apply_of_other (.switchTracing enabled) s rfl e).2
      | writeAt e' i f => exact (StorageUse.apply_of_other (.writeAt e' i f) s rfl e).2
      | writeField e' field v =>
          exact (StorageUse.apply_of_other (.writeField e' field v) s rfl e).2

/-- Only switching switches tracing. -/
theorem isTracing_apply (c : Call) (s : Storage) :
    (c.apply s).isTracing =
      match c with
      | .use (.switchTracing enabled) => enabled
      | _ => s.isTracing := by
  have hfacet : ∀ {s' : Storage} {e : Entity}, s'.facet e = s.facet e →
      s'.isTracing = s.isTracing := congrArg Facet.tracing
  cases c with
  | insert e record =>
      cases s with
      | script schema table => rfl
      | batch t rows =>
          show (rows.insert e record).table.flags.enabled = rows.table.flags.enabled
          rw [BatchTable.insert]
          split
          · rfl
          · exact ChangeFlags.enabled_mark _ e
      | _ => exact ChangeFlags.enabled_mark _ e
  | insertNamed e values =>
      cases s with
      | script schema table =>
          show ((Storage.script schema table).insertNamed e values).2.isTracing = _
          rw [Storage.insertNamed]
          cases (ScriptRecord.fresh schema).writeAll values with
          | error err => rfl
          | ok inst => exact ChangeFlags.enabled_mark table.flags e
      | _ => rfl
  | writeFirst e f => exact hfacet (s.facet_writeFirst e f e)
  | writeAll e f => exact hfacet (s.facet_writeAll e f e)
  | use u =>
      cases u with
      | erase e => cases s <;> rfl
      | clear => cases s <;> rfl
      | unmarkAll => cases s <;> rfl
      | switchTracing enabled => cases s <;> rfl
      | writeAt e i f => exact hfacet (s.facet_writeAt e i f e)
      | writeField e field v => exact hfacet (s.facet_writeField e field v e)
      | fetch mutable e => exact congrArg Facet.tracing (s.facet_fetch mutable e e)
      | mark e =>
          have htable : ∀ {α : Type} (t : Table α), (t.mark e).flags.enabled = t.flags.enabled := by
            intro α t
            rw [Table.mark]
            split
            · exact ChangeFlags.enabled_mark t.flags e
            · rfl
          cases s <;> exact htable _

/-- The make stays. -/
theorem blank_apply (c : Call) (s : Storage) : (c.apply s).blank = s.blank := by
  cases c with
  | insert e record => exact s.blank_insert e record
  | insertNamed e values => exact s.blank_insertNamed e values
  | writeFirst e f => exact (s.within_writeFirst e f).blank
  | writeAll e f => exact (s.within_writeAll e f).blank
  | use u => exact (u.within_apply s).blank

/-- A call keeps a storage valid. -/
theorem valid_apply (c : Call) {s : Storage} (h : s.Valid) : (c.apply s).Valid := by
  cases c with
  | insert e record => exact Storage.valid_insert h e record
  | insertNamed e values => exact Storage.valid_insertNamed h e values
  | writeFirst e f => exact (s.within_writeFirst e f).valid h
  | writeAll e f => exact (s.within_writeAll e f).valid h
  | use u => exact (u.within_apply s).valid h

end Call

end EntityStore
