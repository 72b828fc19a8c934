import EntityStore.Proofs.RowLayout

/-!
# The payload of the child that wins

An `any` or `join` term delivers the erased payload of one child.  Which child that is, and what is
at the bottom of it, is said here without fetching: the first child that matches is followed down
through its wrappers, to a component or to something that carries nothing.

* `Delivery` — one instance or all instances of a column, in a mode;
* `BoundTerm.Yields`, `Term.Yields` — what a term resolves to for an entity, one rule for each way
  to match;
* `Term.Yields.unique`, `Term.exists_yields` — a term that matches resolves to exactly one thing;
* `EntityPayload.ofDelivery`, `Term.Yields.fst_fetchPayload` — fetching erases just that;
* `EntityPayload.Carries` — what can be asked of the payload, and what it answers;
* `Store.winner_is_delivered` — the payload of `any` and `join` in a reachable store.
-/

namespace EntityStore

/-! ### What terms resolve to -/

/-- What a term delivers of a component. -/
structure Delivery where
  column : Column
  mutable : Bool
  /-- Whether all instances are delivered, and not only the first one. -/
  all : Bool
deriving DecidableEq, Repr

/-- The bound term matches the entity and resolves to a component at its bottom, or to nothing. -/
inductive BoundTerm.Yields (w : World) (e : Entity) (all : Bool) :
    BoundTerm Column → Option Delivery → Prop where
  | component {c : Column} {m : Bool} (hholds : w.holds c e = true) :
      Yields w e all (.component c m) (some ⟨c, m, all⟩)
  | missed {inner : BoundTerm Column} (hmisses : inner.holds w e = false) :
      Yields w e all (.maybe inner) none
  | maybe {inner : BoundTerm Column} {d : Option Delivery} (hholds : inner.holds w e = true)
      (hinner : Yields w e all inner d) : Yields w e all (.maybe inner) d
  | changed {inner : BoundTerm Column} {d : Option Delivery}
      (hholds : (BoundTerm.changed inner).holds w e = true) (hinner : Yields w e all inner d) :
      Yields w e all (.changed inner) d

/-- The term matches the entity and resolves to a component at its bottom, or to nothing. -/
inductive Term.Yields (w : World) (e : Entity) : Term Column → Option Delivery → Prop where
  | entity : Yields w e .entity none
  | without {inner : Term Column} (hmisses : inner.holds w e = false) :
      Yields w e (.without inner) none
  | single {q : BoundTerm Column} {d : Option Delivery} (hq : q.Yields w e false d) :
      Yields w e (.single q) d
  | batch {q : BoundTerm Column} {d : Option Delivery} (hq : q.Yields w e true d) :
      Yields w e (.batch q) d
  | missed {inner : Term Column} (hmisses : inner.holds w e = false) :
      Yields w e (.maybe inner) none
  | maybe {inner : Term Column} {d : Option Delivery} (hholds : inner.holds w e = true)
      (hinner : Yields w e inner d) : Yields w e (.maybe inner) d
  | any {children : List (Term Column)} {winner : Term Column} {d : Option Delivery}
      (hfirst : children.find? (Term.holds w e) = some winner) (hwinner : Yields w e winner d) :
      Yields w e (.any children) d
  | join {children : List (Term Column)} {winner : Term Column} {d : Option Delivery}
      (honly : children.filter (Term.holds w e) = [winner]) (hwinner : Yields w e winner d) :
      Yields w e (.join children) d

namespace BoundTerm

variable {w : World} {e : Entity} {all : Bool} {q : BoundTerm Column} {d d' : Option Delivery}

theorem Yields.unique (h : q.Yields w e all d) (h' : q.Yields w e all d') : d = d' := by
  induction h with
  | component hholds =>
      cases h' with
      | component _ => rfl
  | missed hmisses =>
      cases h' with
      | missed _ => rfl
      | maybe hholds _ => exact absurd hholds (Bool.eq_false_iff.1 hmisses)
  | maybe hholds _ ih =>
      cases h' with
      | missed hmisses => exact absurd hholds (Bool.eq_false_iff.1 hmisses)
      | maybe _ hinner => exact ih hinner
  | changed _ _ ih =>
      cases h' with
      | changed _ hinner => exact ih hinner

theorem exists_yields (all : Bool) (h : q.holds w e = true) : ∃ d, q.Yields w e all d := by
  induction q with
  | component c m => exact ⟨_, .component h⟩
  | maybe inner ih =>
      cases hinner : inner.holds w e with
      | false => exact ⟨none, .missed hinner⟩
      | true =>
          obtain ⟨d, hd⟩ := ih hinner
          exact ⟨d, .maybe hinner hd⟩
  | changed inner ih =>
      obtain ⟨d, hd⟩ := ih (holds_changed_iff.1 h).1
      exact ⟨d, .changed h hd⟩

/-- What is at the bottom is held. -/
theorem Yields.holds_column {x : Delivery} (h : q.Yields w e all (some x)) :
    w.holds x.column e = true := by
  generalize hd : some x = d at h
  induction h with
  | component hholds =>
      cases hd
      exact hholds
  | missed _ => cases hd
  | maybe _ _ ih => exact ih hd
  | changed _ _ ih => exact ih hd

end BoundTerm

namespace Term

variable {w : World} {e : Entity} {t : Term Column} {d d' : Option Delivery}

/-- **A term resolves to one thing only.** -/
theorem Yields.unique (h : t.Yields w e d) (h' : t.Yields w e d') : d = d' := by
  induction h with
  | entity =>
      cases h' with
      | entity => rfl
  | without _ =>
      cases h' with
      | without _ => rfl
  | single hq =>
      cases h' with
      | single hq' => exact hq.unique hq'
  | batch hq =>
      cases h' with
      | batch hq' => exact hq.unique hq'
  | missed hmisses =>
      cases h' with
      | missed _ => rfl
      | maybe hholds _ => exact absurd hholds (Bool.eq_false_iff.1 hmisses)
  | maybe hholds _ ih =>
      cases h' with
      | missed hmisses => exact absurd hholds (Bool.eq_false_iff.1 hmisses)
      | maybe _ hinner => exact ih hinner
  | any hfirst _ ih =>
      cases h' with
      | any hfirst' hwinner =>
          rw [hfirst, Option.some_inj] at hfirst'
          subst hfirst'
          exact ih hwinner
  | join honly _ ih =>
      cases h' with
      | join honly' hwinner =>
          rw [honly, List.singleton_inj] at honly'
          subst honly'
          exact ih hwinner

/-! ### Winners -/

/-- The first child that matches an `any` term. -/
theorem exists_find?_of_holds_any {children : List (Term Column)}
    (h : (Term.any children).holds w e = true) :
    ∃ winner, children.find? (holds w e) = some winner := by
  rw [holds, decide_eq_true_eq, countHolds_eq, List.countP_pos_iff] at h
  exact Option.isSome_iff_exists.1 (List.find?_isSome.2 h)

/-- The only child that matches a `join` term. -/
theorem exists_filter_of_holds_join {children : List (Term Column)}
    (h : (Term.join children).holds w e = true) :
    ∃ winner, children.filter (holds w e) = [winner] := by
  rw [holds, beq_iff_eq, countHolds_eq, List.countP_eq_length_filter] at h
  exact List.length_eq_one_iff.1 h

theorem holds_join_of_filter {children : List (Term Column)} {winner : Term Column}
    (h : children.filter (holds w e) = [winner]) : (Term.join children).holds w e = true := by
  rw [holds, beq_iff_eq, countHolds_eq, List.countP_eq_length_filter, h, List.length_singleton]

/-- The only child that matches is the first one. -/
theorem find?_of_filter {children : List (Term Column)} {winner : Term Column}
    (h : children.filter (holds w e) = [winner]) :
    children.find? (holds w e) = some winner := by
  rw [← List.head?_filter, h, List.head?_cons]

mutual

/-- **A term that matches resolves to something.** -/
theorem exists_yields (t : Term Column) (h : t.holds w e = true) : ∃ d, t.Yields w e d := by
  cases t with
  | entity => exact ⟨none, .entity⟩
  | single q =>
      obtain ⟨d, hd⟩ := BoundTerm.exists_yields false (q := q) h
      exact ⟨d, .single hd⟩
  | batch q =>
      obtain ⟨d, hd⟩ := BoundTerm.exists_yields true (q := q) h
      exact ⟨d, .batch hd⟩
  | without inner =>
      rw [holds, Bool.not_eq_true'] at h
      exact ⟨none, .without h⟩
  | maybe inner =>
      cases hinner : inner.holds w e with
      | false => exact ⟨none, .missed hinner⟩
      | true =>
          obtain ⟨d, hd⟩ := exists_yields inner hinner
          exact ⟨d, .maybe hinner hd⟩
  | any children =>
      obtain ⟨winner, hfirst⟩ := exists_find?_of_holds_any h
      obtain ⟨d, hd⟩ := exists_yields_of_find? children hfirst
      exact ⟨d, .any hfirst hd⟩
  | join children =>
      obtain ⟨winner, honly⟩ := exists_filter_of_holds_join h
      obtain ⟨d, hd⟩ := exists_yields_of_find? children (find?_of_filter honly)
      exact ⟨d, .join honly hd⟩

theorem exists_yields_of_find? (ts : List (Term Column)) {winner : Term Column}
    (h : ts.find? (holds w e) = some winner) : ∃ d, winner.Yields w e d := by
  cases ts with
  | nil => cases h
  | cons t rest =>
      rw [List.find?_cons] at h
      split at h
      · next hholds =>
        obtain rfl : t = winner := Option.some.inj h
        exact exists_yields t hholds
      · exact exists_yields_of_find? rest h

end

/-- What is at the bottom is held. -/
theorem Yields.holds_column {x : Delivery} (h : t.Yields w e (some x)) :
    w.holds x.column e = true := by
  generalize hd : some x = d at h
  induction h with
  | entity => cases hd
  | without _ => cases hd
  | missed _ => cases hd
  | single hq =>
      subst hd
      exact hq.holds_column
  | batch hq =>
      subst hd
      exact hq.holds_column
  | maybe _ _ ih => exact ih hd
  | any _ _ ih => exact ih hd
  | join _ _ ih => exact ih hd

end Term

/-! ### Fetching what a term resolves to -/

/-- The erased payload of what a term resolves to. -/
def EntityPayload.ofDelivery (w : World) (e : Entity) : Option Delivery → EntityPayload
  | none => .null
  | some ⟨c, m, false⟩ => .one c.id c.type m e
  | some ⟨c, m, true⟩ => .many c.id c.type m e (w.instances c.id e).length

/-- A valid state reads what it shows. -/
theorem FetchState.reads_self {st : FetchState} (h : st.world.Valid) (e : Entity) :
    st.Reads st.world e :=
  reads_perform h e []

namespace BoundTerm

variable {e : Entity} {st : FetchState} {q : BoundTerm Column} {d : Option Delivery}

theorem Yields.fst_fetchPayload (hvalid : st.world.Valid)
    (h : q.Yields st.world e false d) :
    (q.fetchPayload e st).1 = EntityPayload.ofDelivery st.world e d := by
  induction h with
  | component hholds =>
      rw [hvalid.holds_eq_found] at hholds
      rw [fetchPayload_component, FetchState.fst_fetch, hholds]
      rfl
  | missed hmisses =>
      rw [fetchPayload_maybe, hmisses]
      rfl
  | maybe hholds _ ih => rw [fetchPayload_maybe, hholds, if_pos rfl, ih]
  | changed hholds _ ih => rw [fetchPayload_changed, hholds, if_pos rfl, ih]

theorem Yields.fst_fetchAllPayload (hvalid : st.world.Valid)
    (h : q.Yields st.world e true d) :
    (q.fetchAllPayload e st).1 = EntityPayload.ofDelivery st.world e d := by
  have hreads := FetchState.reads_self hvalid e
  induction h with
  | @component c m hholds =>
      rw [fetchAllPayload_component, hholds, if_pos rfl]
      rw [hreads.count_fetch (hreads.holds c hholds) m]
      rfl
  | missed hmisses =>
      rw [fetchAllPayload_maybe, hmisses]
      rfl
  | maybe hholds _ ih => rw [fetchAllPayload_maybe, hholds, if_pos rfl, ih]
  | changed hholds _ ih => rw [fetchAllPayload_changed, hholds, if_pos rfl, ih]

end BoundTerm

namespace Term

variable {e : Entity} {st : FetchState} {t : Term Column} {d : Option Delivery}

/-- The payload of a list of children is that of the first one that matches. -/
theorem fetchFirstPayload_of_find? {children : List (Term Column)} {winner : Term Column}
    (h : children.find? (holds st.world e) = some winner) :
    fetchFirstPayload e children st = winner.fetchPayload e st := by
  induction children with
  | nil => cases h
  | cons t rest ih =>
      rw [List.find?_cons] at h
      rw [fetchFirstPayload_cons]
      split at h
      · next hholds =>
        cases h
        rw [hholds, if_pos rfl]
      · next hmisses =>
        rw [hmisses, if_neg Bool.false_ne_true]
        exact ih h

/-- **Fetching erases what the term resolves to.** -/
theorem Yields.fst_fetchPayload (hvalid : st.world.Valid) (h : t.Yields st.world e d) :
    (t.fetchPayload e st).1 = EntityPayload.ofDelivery st.world e d := by
  induction h with
  | entity => rfl
  | without _ => rfl
  | single hq => exact hq.fst_fetchPayload hvalid
  | batch hq => exact hq.fst_fetchAllPayload hvalid
  | missed hmisses =>
      rw [fetchPayload_maybe, hmisses]
      rfl
  | maybe hholds _ ih => rw [fetchPayload_maybe, hholds, if_pos rfl, ih]
  | any hfirst _ ih => rw [fetchPayload, fetchFirstPayload_of_find? hfirst, ih]
  | join honly _ ih =>
      rw [fetchPayload_join, holds_join_of_filter honly, if_pos rfl]
      rw [fetchFirstPayload_of_find? (find?_of_filter honly), ih]

end Term

/-! ### What a payload answers -/

/-- A cast to the type, for one instance or for all, fits what is delivered. -/
structure Delivery.Admits (x : Delivery) (t : ComponentType) (all writes : Bool) : Prop where
  type : x.column.type = t
  all : x.all = all
  mutable : writes = true → x.mutable = true

/-- The payload stands for what was delivered for the entity: it is null if this is nothing, and
else names the component and the mode, counts the instances, and gives the entity to the casts
that fit and to no others. -/
structure EntityPayload.Carries (w : World) (e : Entity) (d : Option Delivery)
    (p : EntityPayload) : Prop where
  isNull : p.isNull = true ↔ d = none
  component? : p.component? = d.map (·.column.id)
  isWritable : p.isWritable = d.any (·.mutable)
  isMany : p.isMany = d.any (·.all)
  length : ∀ x ∈ d, x.all = true → p.length = (w.instances x.column.id e).length
  one? : ∀ t target, p.one? t = some target ↔ target = e ∧ ∃ x ∈ d, x.Admits t false false
  oneMut? : ∀ t target, p.oneMut? t = some target ↔ target = e ∧ ∃ x ∈ d, x.Admits t false true
  all? : ∀ t target, p.all? t = some target ↔ target = e ∧ ∃ x ∈ d, x.Admits t true false
  allMut? : ∀ t target, p.allMut? t = some target ↔ target = e ∧ ∃ x ∈ d, x.Admits t true true

/-- A cast for writing is a cast for reading to something that may be written. -/
theorem Delivery.exists_admits_write_iff {d : Option Delivery} {t : ComponentType} {all : Bool} :
    (∃ x ∈ d, x.Admits t all true) ↔
      d.any (·.mutable) = true ∧ ∃ x ∈ d, x.Admits t all false := by
  constructor
  · rintro ⟨x, rfl, h⟩
    exact ⟨h.mutable rfl, x, rfl, h.type, h.all, fun hwrites => absurd hwrites Bool.false_ne_true⟩
  · rintro ⟨hmutable, x, rfl, h⟩
    exact ⟨x, rfl, h.type, h.all, fun _ => hmutable⟩

namespace EntityPayload

variable (w : World) (e : Entity) (d : Option Delivery) (t : ComponentType) (target : Entity)

theorem isWritable_ofDelivery : (ofDelivery w e d).isWritable = d.any (·.mutable) := by
  rcases d with _ | ⟨c, m, all⟩
  · rfl
  · cases all <;> rfl

/-- A cast to one instance, or to all of them. -/
def cast? (p : EntityPayload) (t : ComponentType) (all : Bool) : Option Entity :=
  if all then p.all? t else p.one? t

theorem cast?_ofDelivery_some (x : Delivery) (all : Bool) :
    (ofDelivery w e (some x)).cast? t all =
      if x.column.type = t ∧ x.all = all then some e else none := by
  obtain ⟨c, m, shape⟩ := x
  cases shape <;> cases all <;> simp [cast?, ofDelivery, Payload.one?, Payload.all?]

/-- A cast for reading gives the entity exactly if type and shape fit what was delivered. -/
theorem cast?_ofDelivery (all : Bool) :
    (ofDelivery w e d).cast? t all = some target ↔
      target = e ∧ ∃ x ∈ d, x.Admits t all false := by
  cases d with
  | none => cases all <;> simp [cast?, ofDelivery, Payload.one?, Payload.all?]
  | some x =>
      rw [cast?_ofDelivery_some, Option.ite_none_right_eq_some]
      constructor
      · rintro ⟨⟨htype, hall⟩, htarget⟩
        exact ⟨(Option.some.inj htarget).symm, x, rfl, htype, hall, nofun⟩
      · rintro ⟨rfl, y, hy, hadmits⟩
        obtain rfl : x = y := Option.some.inj hy
        exact ⟨⟨hadmits.type, hadmits.all⟩, rfl⟩

/-- A cast for writing asks for the mode as well. -/
theorem cast?_mut_ofDelivery (all : Bool) :
    (if (ofDelivery w e d).isWritable then (ofDelivery w e d).cast? t all else none) = some target ↔
      target = e ∧ ∃ x ∈ d, x.Admits t all true := by
  rw [Option.ite_none_right_eq_some, cast?_ofDelivery, isWritable_ofDelivery,
    Delivery.exists_admits_write_iff]
  exact and_left_comm

/-- **An erased payload answers for what was erased.** -/
theorem carries_ofDelivery : Carries w e d (ofDelivery w e d) where
  isNull := by
    rcases d with _ | ⟨c, m, _ | _⟩ <;> simp [ofDelivery, Payload.isNull]
  component? := by
    rcases d with _ | ⟨c, m, _ | _⟩ <;> rfl
  isWritable := isWritable_ofDelivery w e d
  isMany := by
    rcases d with _ | ⟨c, m, _ | _⟩ <;> rfl
  length x hx hall := by
    subst hx
    obtain ⟨c, m, all⟩ := x
    subst hall
    rfl
  one? t target := cast?_ofDelivery w e d t target false
  oneMut? t target := cast?_mut_ofDelivery w e d t target false
  all? t target := cast?_ofDelivery w e d t target true
  allMut? t target := cast?_mut_ofDelivery w e d t target true

end EntityPayload

/-! ### Queries on reachable stores -/

/-- A storage opens for the type of a native component only. -/
theorem Entry.source_of_opens {entry : Entry} {t : ComponentType}
    (h : entry.emptyStorage.opens t = true) : entry.source = .native t := by
  rw [emptyStorage] at h
  split at h
  · next u hsource =>
    rw [hsource]
    rw [Storage.empty] at h
    cases hkind : u.storage with
    | hidden name =>
        rw [hkind] at h
        cases h
    | _ =>
        rw [hkind] at h
        rw [show u = t from eq_of_beq h]
  · cases h

/-- A column that typed access serves is of the type that is registered for its component. -/
theorem Store.Valid.source_of_holds {s : Store} (h : s.Valid) {c : Column} {e : Entity}
    (hholds : s.world.holds c e = true) :
    ∃ entry, s.registry.entry? c.id = some entry ∧ entry.source = .native c.type := by
  obtain ⟨storage, htyped, _⟩ := World.exists_typed?_of_holds hholds
  obtain ⟨hstorage, hopens⟩ := Option.filter_eq_some_iff.1 htyped
  obtain ⟨entry, hentry, hblank⟩ := h.prescribed c.id storage hstorage
  rw [← storage.opens_blank, hblank] at hopens
  exact ⟨entry, hentry, Entry.source_of_opens hopens⟩

namespace Term

variable {e : Entity} {st : FetchState} {t winner : Term Column} {children : List (Term Column)}

/-- A term with children has a winner if it matches, and for `join` no other child matches. -/
theorem exists_winner {w : World} (ht : t = .any children ∨ t = .join children)
    (h : t.holds w e = true) :
    ∃ winner, children.find? (holds w e) = some winner ∧
      (t = .join children → children.filter (holds w e) = [winner]) := by
  rcases ht with rfl | rfl
  · obtain ⟨winner, hfirst⟩ := exists_find?_of_holds_any h
    exact ⟨winner, hfirst, fun heq => by cases heq⟩
  · obtain ⟨winner, honly⟩ := exists_filter_of_holds_join h
    exact ⟨winner, find?_of_filter honly, fun _ => honly⟩

/-- A term with children hands out the payload of its winner. -/
theorem fst_fetch_of_find? (ht : t = .any children ∨ t = .join children)
    (h : t.holds st.world e = true)
    (hfirst : children.find? (holds st.world e) = some winner) :
    (t.fetch e st).1 = some (.erased (winner.fetchPayload e st).1) := by
  rcases ht with rfl | rfl
  · rw [fetch_any, h, if_pos rfl, fetchFirstPayload_of_find? hfirst]
  · rw [fetch_join, h, if_pos rfl, fetchFirstPayload_of_find? hfirst]

end Term

/-- What the first term of a row delivers is the first slot. -/
theorem head?_of_fetchRow_cons {e : Entity} {t : Term Column} {rest : List (Term Column)}
    {st st' : FetchState} {row : Row} (hrow : fetchRow e (t :: rest) st = (some row, st')) :
    row.head? = (t.fetch e st).1 := by
  rcases hfetch : t.fetch e st with ⟨delivered, st₁⟩
  cases delivered with
  | none =>
      rw [fetchRow_cons_of_none hfetch] at hrow
      cases hrow
  | some slot =>
      rw [fetchRow_cons_of_some hfetch] at hrow
      obtain ⟨rest', _, rfl⟩ := Option.map_eq_some_iff.1 (congrArg Prod.fst hrow)
      rfl

/-- **The winner is delivered.**  When an `any` or `join` term matches an entity of a reachable
store, there is a first child that matches, for `join` the only one.  It resolves to exactly one
thing, a component at its bottom or nothing, and the term hands out its erased payload: as a fetch
on its own, and at the head of every row that starts with it.  The payload answers for what the
child resolved to.  The instances that its casts lead to are all that the entity holds of the
component, of the type that is registered for it, also once the whole row was fetched. -/
theorem Store.winner_is_delivered {s : Store} (hs : s.Reachable) (e : Entity)
    (made : List Fetch) {t : Term Column} {children : List (Term Column)}
    (ht : t = .any children ∨ t = .join children) (hholds : t.holds s.world e = true) :
    ∃ winner d p, children.find? (Term.holds s.world e) = some winner ∧
      (t = .join children → children.filter (Term.holds s.world e) = [winner]) ∧
      winner.Yields s.world e d ∧ (∀ d', winner.Yields s.world e d' → d' = d) ∧
      p = (winner.fetchPayload e { world := s.world, made }).1 ∧
      EntityPayload.Carries s.world e d p ∧
      (t.fetch e { world := s.world, made }).1 = some (.erased p) ∧
      (∀ rest row st, fetchRow e (t :: rest) { world := s.world, made } = (some row, st) →
        row.head? = some (.erased p) ∧
        ∀ x ∈ d, st.world.values x.column e = s.world.instances x.column.id e) ∧
      ∀ x ∈ d, s.world.instances x.column.id e ≠ [] ∧
        ∃ entry, s.registry.entry? x.column.id = some entry ∧
          entry.source = .native x.column.type := by
  let st : FetchState := { world := s.world, made }
  have hvalid : st.world.Valid := hs.valid.world
  obtain ⟨winner, hfirst, honly⟩ := Term.exists_winner ht hholds
  obtain ⟨d, hyields⟩ := Term.exists_yields_of_find? children hfirst
  have hpayload : (winner.fetchPayload e st).1 = EntityPayload.ofDelivery s.world e d :=
    hyields.fst_fetchPayload hvalid
  have hfetch : (t.fetch e st).1 = some (.erased (winner.fetchPayload e st).1) :=
    Term.fst_fetch_of_find? ht hholds hfirst
  have hcarries := EntityPayload.carries_ofDelivery s.world e d
  rw [← hpayload] at hcarries
  have hshows : ∀ x ∈ d, s.world.Shows x.column e := by
    rintro x rfl
    exact (FetchState.reads_self hvalid e).holds x.column hyields.holds_column
  refine ⟨winner, d, _, hfirst, honly, hyields, ?_, rfl, hcarries, hfetch, ?_, ?_⟩
  · intro d' hyields'
    exact hyields'.unique hyields
  · intro rest row st' hrow
    refine ⟨(head?_of_fetchRow_cons hrow).trans hfetch, ?_⟩
    intro x hx
    -- the other terms of the row fetch, and a fetch leaves every instance
    obtain ⟨fs, hst, _⟩ := fetches_fetchRow e (t :: rest) st
    have hleft : st' = st.perform e fs := (congrArg Prod.snd hrow).symm.trans hst
    rw [hleft, World.values_perform]
    exact (hshows x hx).values
  · rintro x hx
    refine ⟨(hshows x hx).ne_nil, ?_⟩
    subst hx
    exact hs.valid.source_of_holds hyields.holds_column

/-- In the sample store the second child of three wins for an entity with a hit: a batch behind an
optional term, to write. -/
theorem Store.sample_batch_wins :
    Store.sample.Reachable ∧ ∃ t children p,
      t = Term.any children ∧ t.holds Store.sample.world ⟨2, 0⟩ = true ∧
      children = [.single (.component ⟨Catalogue.pos, ⟨2⟩⟩ false),
        .maybe (.batch (.component ⟨Catalogue.hit, ⟨1⟩⟩ true)), .entity] ∧
      (t.fetch ⟨2, 0⟩ { world := Store.sample.world }).1 = some (.erased p) ∧
      EntityPayload.Carries Store.sample.world ⟨2, 0⟩
        (some ⟨⟨Catalogue.hit, ⟨1⟩⟩, true, true⟩) p := by
  let hits : BoundTerm Column := .component ⟨Catalogue.hit, ⟨1⟩⟩ true
  let children : List (Term Column) :=
    [.single (.component ⟨Catalogue.pos, ⟨2⟩⟩ false), .maybe (.batch hits), .entity]
  have hholds : (Term.any children).holds Store.sample.world ⟨2, 0⟩ = true := by
    decide +kernel
  obtain ⟨winner, d, p, hfirst, _, _, hunique, _, hcarries, hfetch, _⟩ :=
    Store.winner_is_delivered Store.reachable_sample ⟨2, 0⟩ [] (.inl rfl) hholds
  have hheld : hits.holds Store.sample.world ⟨2, 0⟩ = true := by decide +kernel
  have hpos : (Term.single (.component ⟨Catalogue.pos, ⟨2⟩⟩ false)).holds Store.sample.world
      ⟨2, 0⟩ = false := by decide +kernel
  have hwinner : winner = .maybe (.batch hits) := by
    rw [List.find?_cons, hpos, List.find?_cons] at hfirst
    exact (Option.some.inj hfirst).symm
  subst hwinner
  rw [← hunique _ (.maybe hheld (.batch (.component hheld)))] at hcarries
  exact ⟨Store.reachable_sample, _, children, p, rfl, hholds, rfl, hfetch, hcarries⟩

end EntityStore
