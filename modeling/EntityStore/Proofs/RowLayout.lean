import EntityStore.Proofs.Holding
import EntityStore.Proofs.Reachable
import EntityStore.Proofs.Traversal

/-!
# Rows conform to the layout of their query

The layout of a query is read off its patterns, and a row is fetched by its terms.  Both follow
the same syntax, so they agree slot by slot: a slot carries what its shape says, for the component
it names and in the mode it names, and is empty only where the shape allows that.

* `World.instances`, `World.Shows` — what an entity holds, and what typed access shows of it;
* `SlotShape.Admits`, `Slot.Conforms`, `Query.RowConforms` — what the layout promises;
* `FetchState.Reads` — what all states on the way to a row read for the entity;
* `BoundTerm.conforms_fetch`, `Term.conforms_fetch` — one case for each former of a term;
* `forall₂_conforms_fetchRow` — a row, term by term;
* `Store.rows_conform` — the rows that a query gives, an iterator and a cursor.
-/

namespace EntityStore

/-! ### What a layout promises -/

namespace World

/-- All instances that an entity holds of a component, in order. -/
def instances (w : World) (id : ComponentId) (e : Entity) : List Record :=
  (w.holding? id e).elim [] Holding.records

/-- Typed access to the column shows everything that the entity holds of the component, and the
entity holds something. -/
structure Shows (w : World) (c : Column) (e : Entity) : Prop where
  values : w.values c e = w.instances c.id e
  ne_nil : w.instances c.id e ≠ []

/-- The instances in a view; the empty view belongs to no entity. -/
def viewed (w : World) (c : Column) (holder : Option Entity) : List Record :=
  holder.elim [] (w.values c)

end World

def Slot.inside? : Slot → Option Slot
  | .absent => none
  | .present slot => slot.inside?
  | slot => some slot

/-- The payload is null, or it carries one instance or all instances that the entity holds of one
of the components that occur, for writing only if the term is. -/
def EntityPayload.Conforms (w : World) (e : Entity) (occurring : List ComponentId)
    (mutable : Bool) : EntityPayload → Prop
  | .null => True
  | .one id t m target =>
    target = e ∧ id ∈ occurring ∧ (m = true → mutable = true) ∧ w.Shows ⟨t, id⟩ e
  | .many id t m target length =>
    target = e ∧ id ∈ occurring ∧ (m = true → mutable = true) ∧ w.Shows ⟨t, id⟩ e ∧
      length = (w.instances id e).length

/-- What a slot of the shape can carry for an entity, where the term has the given components. -/
def SlotShape.Admits (shape : SlotShape) (w : World) (e : Entity) (occurring : List ComponentId)
    (slot : Slot) : Prop :=
  match shape.content with
  | .entity => slot = .entity e
  | .component =>
    ∃ c, shape.component = some c.id ∧ slot = .component c shape.mutable e ∧ w.Shows c e
  | .batch =>
    ∃ c holder, shape.component = some c.id ∧ slot = .batch c shape.mutable holder ∧
      (∀ e' ∈ holder, e' = e) ∧
      (w.viewed c holder = w.instances c.id e ∨ w.viewed c holder = [])
  | .erased =>
    ∃ p, slot = .erased p ∧ EntityPayload.Conforms w e occurring shape.mutable p
  | .empty => False

/-- The slot keeps to its shape. -/
structure Slot.Conforms (w : World) (e : Entity) (shape : SlotShape)
    (occurring : List ComponentId) (slot : Slot) : Prop where
  admits : ∀ inside, slot.inside? = some inside → shape.Admits w e occurring inside
  present : shape.optional = false → ∃ inside, slot.inside? = some inside
  viewed : shape.optional = false → ∀ c m holder, slot.inside? = some (.batch c m holder) →
    w.viewed c holder ≠ []

/-- The row has one slot for each slot of the layout, and each keeps to its shape. -/
structure Query.RowConforms (q : Query) (w : World) (e : Entity) (row : Row) : Prop where
  length : row.length = q.slots.length
  slot : ∀ (i : Nat) (shape : SlotShape) (p : Pattern) (slot : Slot), q.slots[i]? = some shape →
    q.patterns[i]? = some p → row[i]? = some slot → slot.Conforms w e shape p.components

/-! ### What formers of terms do to slots -/

namespace Slot

variable {w : World} {e : Entity} {shape : SlotShape} {occurring : List ComponentId} {slot : Slot}

theorem conforms_absent (h : shape.optional = true) : absent.Conforms w e shape occurring where
  admits inside hinside := by cases hinside
  present hoptional := by
    rw [h] at hoptional
    cases hoptional
  viewed _ c m holder hinside := by cases hinside

/-- What carries something other than a view conforms if its shape admits it. -/
theorem conforms_of_admits (hadmits : shape.Admits w e occurring slot)
    (hinside : slot.inside? = some slot) (hbatch : ∀ c m holder, slot ≠ .batch c m holder) :
    slot.Conforms w e shape occurring where
  admits inside h := by
    rw [hinside] at h
    cases h
    exact hadmits
  present _ := ⟨slot, hinside⟩
  viewed _ c m holder h := by
    rw [hinside] at h
    exact absurd (Option.some.inj h) (hbatch c m holder)

theorem Conforms.present_slot (h : slot.Conforms w e shape occurring) :
    (Slot.present slot).Conforms w e shape occurring :=
  ⟨h.admits, h.present, h.viewed⟩

/-- An optional slot may do what one that is not may do. -/
theorem Conforms.relax (h : slot.Conforms w e shape occurring) :
    slot.Conforms w e { shape with optional := true } occurring where
  admits := h.admits
  present hoptional := by cases hoptional
  viewed hoptional := by cases hoptional

/-- The empty view conforms where a view is optional. -/
theorem conforms_empty_view {c : Column} (hcontent : shape.content = .batch)
    (hcomponent : shape.component = some c.id) (hoptional : shape.optional = true) :
    (Slot.batch c shape.mutable none).Conforms w e shape occurring where
  admits inside h := by
    cases h
    rw [SlotShape.Admits, hcontent]
    exact ⟨c, none, hcomponent, rfl, by simp, .inr rfl⟩
  present _ := ⟨_, rfl⟩
  viewed h := by
    rw [hoptional] at h
    cases h

/-- A view of what an entity holds conforms. -/
theorem conforms_view {c : Column} (hcontent : shape.content = .batch)
    (hcomponent : shape.component = some c.id) (hshows : w.Shows c e) :
    (Slot.batch c shape.mutable (some e)).Conforms w e shape occurring where
  admits inside h := by
    cases h
    rw [SlotShape.Admits, hcontent]
    exact ⟨c, some e, hcomponent, rfl, by simp, .inl hshows.values⟩
  present _ := ⟨_, rfl⟩
  viewed _ c' m holder h := by
    cases h
    show w.values c e ≠ []
    rw [hshows.values]
    exact hshows.ne_nil

end Slot

/-- A payload of one of several children is a payload of their term. -/
theorem EntityPayload.Conforms.mono {w : World} {e : Entity}
    {occurring occurring' : List ComponentId} {mutable mutable' : Bool} {p : EntityPayload}
    (h : Conforms w e occurring mutable p)
    (hsub : occurring ⊆ occurring') (hmutable : mutable = true → mutable' = true) :
    Conforms w e occurring' mutable' p := by
  cases p with
  | null => trivial
  | one id t m target =>
      obtain ⟨htarget, hid, hm, hshows⟩ := h
      exact ⟨htarget, hsub hid, fun hwrites => hmutable (hm hwrites), hshows⟩
  | many id t m target length =>
      obtain ⟨htarget, hid, hm, hshows, hlength⟩ := h
      exact ⟨htarget, hsub hid, fun hwrites => hmutable (hm hwrites), hshows, hlength⟩

/-! ### What fetches read -/

theorem Storage.opens_fetch (s : Storage) (mutable : Bool) (e : Entity) (t : ComponentType) :
    (s.fetch mutable e).opens t = s.opens t := by
  rw [← opens_blank, (s.within_fetch mutable e).blank, opens_blank]

theorem Storage.records_fetch (s : Storage) (mutable : Bool) (e e' : Entity) :
    (s.fetch mutable e).records e' = s.records e' := by
  rw [records_eq, records_eq, holding?_fetch]

namespace World

/-- A fetch changes nothing that can be read. -/
theorem values_fetch (w : World) (id : ComponentId) (mutable : Bool) (e : Entity) (c : Column)
    (e' : Entity) : (w.fetch id mutable e).values c e' = w.values c e' := by
  rw [values, typed?, fetch, storage?_modifyStorage, values, typed?]
  split
  · cases w.storage? c.id with
    | none => rfl
    | some s =>
        rw [Option.map_some, Option.filter_some, Option.filter_some, s.opens_fetch]
        split
        · exact s.records_fetch mutable e e'
        · rfl
  · rfl

theorem values_perform (st : FetchState) (e : Entity) (fs : List Fetch) (c : Column)
    (e' : Entity) : (st.perform e fs).world.values c e' = st.world.values c e' := by
  induction fs generalizing st with
  | nil => rw [FetchState.perform_nil]
  | cons f rest ih =>
      rw [FetchState.perform_cons, ih]
      exact values_fetch st.world f.component f.mutable e c e'

/-- Where typed access shows something, it shows everything that is held. -/
theorem shows_of_values_ne_nil {w : World} {c : Column} {e : Entity} (h : w.values c e ≠ []) :
    w.Shows c e := by
  have hvalues : w.values c e = w.instances c.id e := by
    rw [values] at h ⊢
    cases htyped : w.typed? c with
    | none =>
        rw [htyped] at h
        exact absurd rfl h
    | some s =>
        obtain ⟨hstorage, _⟩ := Option.filter_eq_some_iff.1 htyped
        rw [instances, holding?_of_storage? hstorage]
        exact s.records_eq e
  refine ⟨hvalues, ?_⟩
  rw [← hvalues]
  exact h

end World

/-- What a state reads for an entity is what a world shows, and who matches has something to
read. -/
structure FetchState.Reads (st : FetchState) (w : World) (e : Entity) : Prop where
  values : ∀ c, st.world.values c e = w.values c e
  holds : ∀ c, st.world.holds c e = true → w.Shows c e

namespace FetchState

variable {st : FetchState} {w : World} {e : Entity}

theorem Reads.perform (h : st.Reads w e) (fs : List Fetch) : (st.perform e fs).Reads w e where
  values c := (World.values_perform st e fs c e).trans (h.values c)
  holds c hholds := by
    rw [World.holds_perform] at hholds
    exact h.holds c hholds

/-- What a valid state reads is what is shown after any fetches. -/
theorem reads_perform (h : st.world.Valid) (e : Entity) (fs : List Fetch) :
    st.Reads (st.perform e fs).world e where
  values c := (World.values_perform st e fs c e).symm
  holds c hholds := by
    apply World.shows_of_values_ne_nil
    rw [World.values_perform, ← List.length_pos_iff]
    rw [h.holds_eq_found, decide_eq_true_eq] at hholds
    exact hholds

theorem Reads.fetchTerm (h : st.Reads w e) (t : Term Column) : (t.fetch e st).2.Reads w e := by
  obtain ⟨fs, hst, _⟩ := t.fetchesOnce_fetch e st
  rw [hst]
  exact h.perform fs

/-- A fetch that finds an instance finds one of those that are shown. -/
theorem Reads.shows_of_found (h : st.Reads w e) {c : Column} {m : Bool}
    (hfound : (st.fetch c m e).1 = true) : w.Shows c e := by
  apply World.shows_of_values_ne_nil
  rw [← h.values, ← List.length_pos_iff]
  rw [fst_fetch, decide_eq_true_eq] at hfound
  exact hfound

/-- The instances that are counted after a fetch are all that are shown. -/
theorem Reads.count_fetch (h : st.Reads w e) {c : Column} (hshows : w.Shows c e) (m : Bool) :
    (st.fetch c m e).2.count c e = (w.instances c.id e).length := by
  have hread : (st.fetch c m e).2.world.values c e = w.values c e := by
    obtain ⟨fs, hst, _⟩ := fetchesOnce_fetch st c m e
    rw [hst]
    exact (h.perform fs).values c
  rw [count, hread, hshows.values]

end FetchState

/-! ### Bound terms -/

namespace BoundTerm

variable {w : World} {e : Entity} {st : FetchState}

/-- **A slot of a bound term conforms.**  An optional term changes the shape of the inner term in
that the slot may be empty, and a tracing one does not change it. -/
theorem conforms_fetch (h : st.Reads w e) (q : BoundTerm Column) (i : Nat)
    (occurring : List ComponentId) {slot : Slot} (hslot : (q.fetch e st).1 = some slot) :
    slot.Conforms w e (.ofPattern i q.pattern) occurring := by
  induction q generalizing slot with
  | component c m =>
      rw [fetch_component] at hslot
      cases hfound : (st.fetch c m e).1 with
      | false =>
          rw [hfound] at hslot
          cases hslot
      | true =>
          rw [hfound] at hslot
          cases hslot
          exact Slot.conforms_of_admits ⟨c, rfl, rfl, h.shows_of_found hfound⟩ rfl (by simp)
  | maybe inner ih =>
      rw [fetch_maybe] at hslot
      split at hslot
      · cases hinner : (inner.fetch e st).1 with
        | none =>
            rw [hinner] at hslot
            cases hslot
            exact Slot.conforms_absent rfl
        | some slot' =>
            rw [hinner] at hslot
            cases hslot
            exact (ih hinner).present_slot.relax
      · cases hslot
        exact Slot.conforms_absent rfl
  | changed inner ih =>
      rw [fetch_changed] at hslot
      split at hslot
      · exact ih hslot
      · cases hslot

theorem conforms_fetchPayload (h : st.Reads w e) (q : BoundTerm Column) :
    EntityPayload.Conforms w e q.pattern.components q.pattern.isWritable
      (q.fetchPayload e st).1 := by
  induction q with
  | component c m =>
      rw [fetchPayload_component]
      cases hfound : (st.fetch c m e).1 with
      | false => trivial
      | true => exact ⟨rfl, List.mem_singleton_self c.id, id, h.shows_of_found hfound⟩
  | maybe inner ih =>
      rw [fetchPayload_maybe]
      split
      · exact ih
      · trivial
  | changed inner ih =>
      rw [fetchPayload_changed]
      split
      · exact ih
      · trivial

/-- **A view of a bound term conforms.** -/
theorem conforms_fetchAll (h : st.Reads w e) (q : BoundTerm Column) (i : Nat)
    (occurring : List ComponentId) {slot : Slot} (hslot : (q.fetchAll e st).1 = some slot) :
    slot.Conforms w e (.ofPattern i (.batch q.pattern)) occurring := by
  induction q generalizing slot with
  | component c m =>
      rw [fetchAll_component] at hslot
      split at hslot
      · next hholds =>
        cases hslot
        let shape : SlotShape := .ofPattern i (.batch (.component c.id m))
        have hcontent : shape.content = .batch := rfl
        exact Slot.conforms_view hcontent rfl (h.holds c hholds)
      · cases hslot
  | maybe inner ih =>
      -- the view of an optional term that misses is there, and empty
      let shape : SlotShape := .ofPattern i (.batch inner.maybe.pattern)
      have hempty : (Slot.batch inner.column inner.mutable none).Conforms w e shape occurring := by
        have hcontent : shape.content = .batch := rfl
        rw [← isWritable_pattern]
        exact Slot.conforms_empty_view hcontent inner.component?_pattern rfl
      rw [fetchAll_maybe] at hslot
      split at hslot
      · cases hinner : (inner.fetchAll e st).1 with
        | none =>
            rw [hinner] at hslot
            cases hslot
            exact hempty
        | some slot' =>
            rw [hinner] at hslot
            cases hslot
            exact (ih hinner).relax
      · cases hslot
        exact hempty
  | changed inner ih =>
      rw [fetchAll_changed] at hslot
      split at hslot
      · exact ih hslot
      · cases hslot

theorem conforms_fetchAllPayload (h : st.Reads w e) (q : BoundTerm Column) :
    EntityPayload.Conforms w e q.pattern.components q.pattern.isWritable
      (q.fetchAllPayload e st).1 := by
  induction q with
  | component c m =>
      rw [fetchAllPayload_component]
      split
      · next hholds =>
        have hshows := h.holds c hholds
        exact ⟨rfl, List.mem_singleton_self c.id, id, hshows, h.count_fetch hshows m⟩
      · trivial
  | maybe inner ih =>
      rw [fetchAllPayload_maybe]
      split
      · exact ih
      · trivial
  | changed inner ih =>
      rw [fetchAllPayload_changed]
      split
      · exact ih
      · trivial

end BoundTerm

/-! ### Terms -/

namespace Term

variable {w : World} {e : Entity} {st : FetchState}

mutual

theorem conforms_fetchPayload (h : st.Reads w e) (t : Term Column) :
    EntityPayload.Conforms w e t.pattern.components t.pattern.isWritable
      (t.fetchPayload e st).1 := by
  cases t with
  | entity => trivial
  | single q => exact q.conforms_fetchPayload h
  | batch q => exact q.conforms_fetchAllPayload h
  | without inner => trivial
  | maybe inner =>
      rw [fetchPayload_maybe]
      split
      · exact conforms_fetchPayload h inner
      · trivial
  | any children => exact conforms_fetchFirstPayload h children
  | join children =>
      rw [fetchPayload_join]
      split
      · exact conforms_fetchFirstPayload h children
      · trivial

/-- The payload of the first child that matches is one of the whole list. -/
theorem conforms_fetchFirstPayload (h : st.Reads w e) (ts : List (Term Column)) :
    EntityPayload.Conforms w e (Pattern.allComponents (patterns ts))
      (Pattern.anyWritable (patterns ts)) (fetchFirstPayload e ts st).1 := by
  cases ts with
  | nil => trivial
  | cons t rest =>
      rw [fetchFirstPayload_cons]
      split
      · refine (conforms_fetchPayload h t).mono (List.subset_append_left _ _) ?_
        intro hwrites
        exact Bool.or_eq_true_iff.2 (.inl hwrites)
      · refine (conforms_fetchFirstPayload h rest).mono (List.subset_append_right _ _) ?_
        intro hwrites
        exact Bool.or_eq_true_iff.2 (.inr hwrites)

end

/-- **A slot conforms to the shape of its term.** -/
theorem conforms_fetch (h : st.Reads w e) (t : Term Column) (i : Nat) {slot : Slot}
    (hslot : (t.fetch e st).1 = some slot) :
    slot.Conforms w e (.ofPattern i t.pattern) t.pattern.components := by
  cases t with
  | entity =>
      cases hslot
      exact Slot.conforms_of_admits rfl rfl (by simp)
  | single q => exact q.conforms_fetch h i _ hslot
  | batch q => exact q.conforms_fetchAll h i _ hslot
  | without inner =>
      change (if inner.holds st.world e then none else some Slot.absent) = some slot at hslot
      split at hslot
      · cases hslot
      · cases hslot
        exact Slot.conforms_absent rfl
  | maybe inner =>
      rw [fetch_maybe] at hslot
      split at hslot
      · cases hinner : (inner.fetch e st).1 with
        | none =>
            -- the inner term matched, and still its fetch found nothing
            rw [hinner] at hslot
            cases hslot
            exact Slot.conforms_absent rfl
        | some slot' =>
            rw [hinner] at hslot
            cases hslot
            exact (conforms_fetch h inner i hinner).present_slot.relax
      · cases hslot
        exact Slot.conforms_absent rfl
  | any children =>
      rw [fetch_any] at hslot
      split at hslot
      · cases hslot
        exact Slot.conforms_of_admits ⟨_, rfl, conforms_fetchFirstPayload h children⟩ rfl
          (by simp)
      · cases hslot
  | join children =>
      rw [fetch_join] at hslot
      split at hslot
      · cases hslot
        exact Slot.conforms_of_admits ⟨_, rfl, conforms_fetchFirstPayload h children⟩ rfl
          (by simp)
      · cases hslot

end Term

/-! ### Rows -/

/-- The slots of a row conform to the shapes of their terms, one by one. -/
theorem forall₂_conforms_fetchRow {w : World} {e : Entity} {ts : List (Term Column)}
    {st : FetchState} {row : Row} (h : st.Reads w e) (hrow : (fetchRow e ts st).1 = some row) :
    List.Forall₂ (fun (t : Term Column) (slot : Slot) =>
      ∀ i, slot.Conforms w e (.ofPattern i t.pattern) t.pattern.components) ts row := by
  induction ts generalizing st row with
  | nil =>
      cases hrow
      exact .nil
  | cons t rest ih =>
      rcases hfetch : t.fetch e st with ⟨delivered, st₁⟩
      cases delivered with
      | none =>
          rw [fetchRow_cons_of_none hfetch] at hrow
          cases hrow
      | some slot =>
          rw [fetchRow_cons_of_some hfetch] at hrow
          obtain ⟨rest', hrest, rfl⟩ := Option.map_eq_some_iff.1 hrow
          have hlater := h.fetchTerm t
          rw [hfetch] at hlater
          refine .cons ?_ (ih hlater hrest)
          intro i
          exact t.conforms_fetch h i (congrArg Prod.fst hfetch)

/-- **A row conforms to the layout of its query**, in the world that fetching it leaves. -/
theorem Query.rowConforms_fetchRow {q : Query} {e : Entity} {st : FetchState}
    (hvalid : st.world.Valid) {row : Row} (hrow : (fetchRow e q.terms st).1 = some row) :
    q.RowConforms (fetchRow e q.terms st).2.world e row := by
  have hreads : st.Reads (fetchRow e q.terms st).2.world e := by
    obtain ⟨fs, hst, _⟩ := fetches_fetchRow e q.terms st
    rw [hst]
    exact FetchState.reads_perform hvalid e fs
  have hall := forall₂_conforms_fetchRow hreads hrow
  constructor
  · rw [← hall.length_eq, q.length_slots, Query.size]
  · intro i shape p slot hshape hp hslot
    rw [Query.slots, rowLayout, List.getElem?_mapIdx, hp] at hshape
    cases hshape
    rw [Query.patterns, Term.patterns_eq, List.getElem?_map] at hp
    obtain ⟨t, ht, rfl⟩ := Option.map_eq_some_iff.1 hp
    obtain ⟨hi, rfl⟩ := List.getElem?_eq_some_iff.1 ht
    obtain ⟨hi', rfl⟩ := List.getElem?_eq_some_iff.1 hslot
    exact (List.forall₂_iff_get.1 hall).2 i hi hi' i

/-! ### Iterators and cursors -/

theorem RowIterator.query_run (it : RowIterator) (writes : List (Record → Record))
    (st : FetchState) : (it.run writes st).2.1.query = it.query := by
  induction writes generalizing it st with
  | nil => rfl
  | cons f rest ih => exact ih (it.next st).2.1 _

/-- An iterator gives the row of the entity that it comes to. -/
theorem RowIterator.rowConforms_next {it it' : RowIterator} {st st' : FetchState}
    (hvalid : st.world.Valid) {row : Row} (hnext : it.next st = (some row, it', st')) :
    ∃ e, it.upcoming? st.world = some e ∧ it.query.RowConforms st'.world e row := by
  rw [next_eq] at hnext
  have hupcoming : it.upcoming? st.world =
      (it.remaining.dropWhile fun e => !Term.allHold st.world e it.query.terms).head? :=
    List.find?_eq_head?_dropWhile_not _ _
  cases hrest : it.remaining.dropWhile fun e => !Term.allHold st.world e it.query.terms with
  | nil =>
      rw [hrest] at hnext
      cases hnext
  | cons e rest =>
      rw [hrest] at hnext hupcoming
      refine ⟨e, hupcoming, ?_⟩
      have hrow := congrArg (fun p => p.1) hnext
      have hst := congrArg (fun p => p.2.2) hnext
      rw [← show _ = st' from hst]
      exact Query.rowConforms_fetchRow hvalid hrow

/-- A cursor gives the row of the entity that it stands on. -/
theorem RowCursor.rowConforms_row {c : RowCursor} {st st' : FetchState}
    (hvalid : st.world.Valid) {row : Row} (hrow : c.row st = (some row, st')) :
    ∃ e, c.current? = some e ∧ c.query.RowConforms st'.world e row := by
  rw [RowCursor.row] at hrow
  rw [current?]
  cases hremaining : c.remaining with
  | nil =>
      rw [hremaining] at hrow
      cases hrow
  | cons e rest =>
      rw [hremaining] at hrow
      refine ⟨e, rfl, ?_⟩
      have hfetched : (fetchRow e c.query.terms st).1 = some row := congrArg Prod.fst hrow
      have hst : (fetchRow e c.query.terms st).2 = st' := congrArg Prod.snd hrow
      rw [← hst]
      exact Query.rowConforms_fetchRow hvalid hfetched

/-! ### Queries on reachable stores -/

/-- **Rows conform to the layout.**  The layout of an accepted query is that of its resolved terms,
and however the query was used before, each row that it gives has the slots of the layout: the row
of an entity that is asked for, the row that any call of an iterator gives for the entity that it
comes to, with writes in between, and the row that a cursor gives for the entity that it stands
on, however often it was fetched and written there. -/
theorem Store.rows_conform {s s' : Store} {ts : List (Term ComponentType)} {q : Query}
    (hs : s.Reachable) (h : s.prepare ts = (.ok q, s')) (uses : List QueryUse) :
    q.slots = rowLayout (Term.patterns (s'.registry.resolve ts)) ∧
    (∀ e row st, q.rowOf e { world := (s.useQuery ts uses).world } = (some row, st) →
      q.RowConforms st.world e row) ∧
    (∀ writes rows it st row it' st',
      (q.rows (s.useQuery ts uses).world).run writes { world := (s.useQuery ts uses).world } =
          (rows, it, st) →
        it.next st = (some row, it', st') →
          ∃ e, it.upcoming? st.world = some e ∧ q.RowConforms st'.world e row) ∧
    ∀ visits c st writes row st',
      (q.cursor (s.useQuery ts uses).world).walk visits
          { world := (s.useQuery ts uses).world } = (c, st) →
        c.row (c.getAll writes st) = (some row, st') →
          ∃ e, c.current? = some e ∧ q.RowConforms st'.world e row := by
  have hvalid := (hs.valid.useQuery ts uses).world
  have hslots : q.slots = rowLayout (Term.patterns (s'.registry.resolve ts)) :=
    congrArg (fun terms => rowLayout (Term.patterns terms)) (Store.prepared_of_prepare h).terms
  generalize (s.useQuery ts uses).world = w at hvalid ⊢
  refine ⟨hslots, ?_, ?_, ?_⟩
  · intro e row st hrow
    rw [Query.rowOf] at hrow
    split at hrow
    · have hfetched : (fetchRow e q.terms { world := w }).1 = some row := congrArg Prod.fst hrow
      have hst : (fetchRow e q.terms { world := w }).2 = st := congrArg Prod.snd hrow
      rw [← hst]
      exact Query.rowConforms_fetchRow hvalid hfetched
    · cases hrow
  · intro writes rows it st row it' st' hrun hnext
    have hquery := RowIterator.query_run (q.rows w) writes { world := w }
    have hwithin := RowIterator.within_run (q.rows w) writes { world := w }
    rw [hrun] at hquery hwithin
    rw [← show it.query = q from hquery]
    exact RowIterator.rowConforms_next (hwithin.valid hvalid) hnext
  · intro visits c st writes row st' hwalk hrow
    have hquery := RowCursor.query_walk (q.cursor w) visits { world := w }
    have hwithin := RowCursor.within_walk (q.cursor w) visits { world := w }
    rw [hwalk] at hquery hwithin
    rw [← show c.query = q from hquery]
    have hfetched := (c.within_getAll writes st).trans hwithin
    exact RowCursor.rowConforms_row (hfetched.valid hvalid) hrow

/-- In the sample store the row of an entity with a level and a hit has the level, to write, and a
view of its hits. -/
theorem Store.sample_row_conforms :
    Store.sample.Reachable ∧ ∃ q s' row st,
      Store.sample.prepare
          [.single (.component Catalogue.level true), .batch (.component Catalogue.hit false)] =
        (.ok q, s') ∧
      q.rowOf ⟨2, 0⟩ { world := s'.world } = (some row, st) ∧
      row = [.component ⟨Catalogue.level, ⟨0⟩⟩ true ⟨2, 0⟩,
        .batch ⟨Catalogue.hit, ⟨1⟩⟩ false (some ⟨2, 0⟩)] ∧
      q.RowConforms st.world ⟨2, 0⟩ row := by
  let ts : List (Term ComponentType) :=
    [.single (.component Catalogue.level true), .batch (.component Catalogue.hit false)]
  let q : Query :=
    { terms := [.single (.component ⟨Catalogue.level, ⟨0⟩⟩ true),
        .batch (.component ⟨Catalogue.hit, ⟨1⟩⟩ false)]
      served := true, anchored := true }
  have hprepared : Store.sample.prepare ts = (.ok q, (Store.sample.prepare ts).2) := rfl
  have hunused : Store.sample.useQuery ts [] = (Store.sample.prepare ts).2 := by
    rw [Store.useQuery]
    rw [hprepared]
    rfl
  have hrows := Store.rows_conform Store.reachable_sample hprepared []
  rw [hunused] at hrows
  let st : FetchState := { world := (Store.sample.prepare ts).2.world }
  let row : Row := [.component ⟨Catalogue.level, ⟨0⟩⟩ true ⟨2, 0⟩,
    .batch ⟨Catalogue.hit, ⟨1⟩⟩ false (some ⟨2, 0⟩)]
  have hdelivered : (q.rowOf ⟨2, 0⟩ st).1 = some row := by decide +kernel
  have hrow : q.rowOf ⟨2, 0⟩ st = (some row, (q.rowOf ⟨2, 0⟩ st).2) := by rw [← hdelivered]
  exact ⟨Store.reachable_sample, q, _, row, _, hprepared, hrow, rfl,
    hrows.2.1 ⟨2, 0⟩ row _ hrow⟩

end EntityStore
