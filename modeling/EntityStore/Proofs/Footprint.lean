import EntityStore.Proofs.AccessReports
import EntityStore.Proofs.Fetching
import EntityStore.Query

/-!
# Footprints: what a query looks at and what it writes

The access report of a query names every component that one of its terms looks at, and among the
written ones every component that a term fetches for writing.  Two reports without a conflict keep
what the one query writes away from what the other one looks at.

* `Footprint`, `Footprint.Allows` — components that may be looked at, and those that may be written;
* `Term.accesses`, `Footprint.AllowsAll` — the components that a term looks at, for writing or not;
* `Term.map_fst_accesses`, `Term.traced_subset`, `Footprint.allows_fetches` — they are the ones that
  occur in it, and it traces and fetches no others;
* `AccessReport.footprint`, `Query.allows_accessReport` — a report allows what its terms look at;
* `Footprint.Apart`, `AccessReport.apart_of_compatible` — reports without a conflict keep apart.
-/

namespace EntityStore

/-- The components that may be looked at, and those that may be written. -/
structure Footprint where
  known : ComponentId → Prop
  written : ComponentId → Prop

/-- The component may be looked at, and written if that is asked for. -/
def Footprint.Allows (p : Footprint) (id : ComponentId) (mutable : Bool) : Prop :=
  p.known id ∧ (mutable = true → p.written id)

/-- Every access of the list is allowed. -/
def Footprint.AllowsAll (p : Footprint) (accesses : List (Column × Bool)) : Prop :=
  ∀ a ∈ accesses, p.Allows a.1.id a.2

/-- What may be written within the one may not even be looked at within the other. -/
structure Footprint.Apart (p p' : Footprint) : Prop where
  here : ∀ id, p.written id → ¬p'.known id
  there : ∀ id, p'.written id → ¬p.known id

theorem Footprint.Apart.symm {p p' : Footprint} (h : p.Apart p') : p'.Apart p :=
  ⟨h.there, h.here⟩

/-! ### Accesses -/

/-- The component that a term is bound to, and whether it is written. -/
def BoundTerm.access (readOnly : Bool) (q : BoundTerm Column) : Column × Bool :=
  (q.column, q.mutable && !readOnly)

namespace Term

mutual

/-- The components that a term looks at, each with whether it is written.  Beneath a `without`
nothing is. -/
def accesses (readOnly : Bool) : Term Column → List (Column × Bool)
  | .entity => []
  | .single q | .batch q => [q.access readOnly]
  | .without inner => accesses true inner
  | .maybe inner => accesses readOnly inner
  | .any children | .join children => allAccesses readOnly children

/-- The components that a list of terms looks at. -/
def allAccesses (readOnly : Bool) : List (Term Column) → List (Column × Bool)
  | [] => []
  | t :: rest => accesses readOnly t ++ allAccesses readOnly rest

end

mutual

/-- A term looks at the components that occur in it. -/
theorem map_fst_accesses (readOnly : Bool) (t : Term Column) :
    (t.accesses readOnly).map Prod.fst = t.components := by
  cases t with
  | entity => rfl
  | single q => rfl
  | batch q => rfl
  | without inner => exact map_fst_accesses true inner
  | maybe inner => exact map_fst_accesses readOnly inner
  | any children => exact map_fst_allAccesses readOnly children
  | join children => exact map_fst_allAccesses readOnly children

theorem map_fst_allAccesses (readOnly : Bool) (ts : List (Term Column)) :
    (allAccesses readOnly ts).map Prod.fst = allComponents ts := by
  cases ts with
  | nil => rfl
  | cons t rest =>
      rw [allAccesses, List.map_append, map_fst_accesses readOnly t,
        map_fst_allAccesses readOnly rest, allComponents]

end

end Term

namespace BoundTerm

theorem fetches_pattern (q : BoundTerm Column) :
    q.pattern.fetches = [⟨q.column.id, q.mutable⟩] := by
  induction q with
  | component c m => rfl
  | maybe inner ih => exact ih
  | changed inner ih => exact ih

/-- The one component of a bound term is all that is traced for it. -/
theorem eq_column_of_mem_traced {q : BoundTerm Column} {c : Column}
    (h : c ∈ q.traced) : c = q.column := by
  induction q with
  | component c' m => cases h
  | maybe inner ih => exact ih h
  | changed inner ih =>
      rcases List.mem_append.1 h with h | h
      · exact ih h
      · exact List.mem_singleton.1 h

end BoundTerm

namespace Term

mutual

/-- What is traced for a term occurs in it. -/
theorem traced_subset (t : Term Column) : t.traced ⊆ t.components := by
  cases t with
  | entity => exact List.nil_subset _
  | single q =>
      intro c hc
      rw [BoundTerm.eq_column_of_mem_traced hc]
      exact List.mem_cons_self
  | batch q =>
      intro c hc
      rw [BoundTerm.eq_column_of_mem_traced hc]
      exact List.mem_cons_self
  | without inner => exact traced_subset inner
  | maybe inner => exact traced_subset inner
  | any children => exact allTraced_subset children
  | join children => exact allTraced_subset children

theorem allTraced_subset (ts : List (Term Column)) : allTraced ts ⊆ allComponents ts := by
  cases ts with
  | nil => exact List.nil_subset _
  | cons t rest =>
      exact List.append_subset.2
        ⟨List.subset_append_of_subset_left _ (traced_subset t),
          List.subset_append_of_subset_right _ (allTraced_subset rest)⟩

end

end Term

namespace Footprint

variable {p : Footprint}

/-! ### What is fetched is looked at -/

theorem allows_mergeInto {new : Fetch} {gs : List Fetch}
    (hnew : p.Allows new.component new.mutable) (hgs : ∀ g ∈ gs, p.Allows g.component g.mutable) :
    ∀ f ∈ new.mergeInto gs, p.Allows f.component f.mutable := by
  induction gs with
  | nil =>
      intro f hf
      rw [List.mem_singleton.1 hf]
      exact hnew
  | cons first rest ih =>
      obtain ⟨hfirst, hrest⟩ := List.forall_mem_cons.1 hgs
      rw [Fetch.mergeInto]
      split
      · next hsame =>
        refine List.forall_mem_cons.2 ⟨⟨hfirst.1, ?_⟩, hrest⟩
        intro hm
        rcases Bool.or_eq_true_iff.1 hm with hm | hm
        · exact hfirst.2 hm
        · exact hsame ▸ hnew.2 hm
      · exact List.forall_mem_cons.2 ⟨hfirst, ih hrest⟩

theorem allows_alternatives {fs : List Fetch}
    (h : ∀ f ∈ fs, p.Allows f.component f.mutable) :
    ∀ f ∈ Fetch.alternatives fs, p.Allows f.component f.mutable := by
  have hfold : ∀ gs : List Fetch, (∀ g ∈ gs, p.Allows g.component g.mutable) →
      ∀ f ∈ fs.foldl (fun merged f => f.mergeInto merged) gs, p.Allows f.component f.mutable := by
    induction fs with
    | nil => exact fun gs hgs => hgs
    | cons first rest ih =>
        obtain ⟨hfirst, hrest⟩ := List.forall_mem_cons.1 h
        exact fun gs hgs => ih hrest _ (allows_mergeInto hfirst hgs)
  exact hfold [] nofun

theorem allows_of_allowedBy {f : Fetch} {gs : List Fetch} (h : f.AllowedBy gs)
    (hgs : ∀ g ∈ gs, p.Allows g.component g.mutable) : p.Allows f.component f.mutable := by
  obtain ⟨g, hg, hcomponent, hmutable⟩ := h
  have hallows := hgs g hg
  rw [hcomponent] at hallows
  exact ⟨hallows.1, fun hm => hallows.2 (hmutable hm)⟩

theorem allows_fetches_bound {q : BoundTerm Column}
    (h : p.Allows q.column.id q.mutable) :
    ∀ f ∈ q.pattern.fetches, p.Allows f.component f.mutable := by
  rw [q.fetches_pattern]
  intro f hf
  rw [List.mem_singleton.1 hf]
  exact h

theorem allows_access_false {q : BoundTerm Column}
    (h : p.AllowsAll [q.access false]) : p.Allows q.column.id q.mutable := by
  have haccess := h _ List.mem_cons_self
  rw [BoundTerm.access, Bool.not_false, Bool.and_true] at haccess
  exact haccess

mutual

/-- **What a term fetches, it looks at.** -/
theorem allows_fetches (t : Term Column) (h : p.AllowsAll (t.accesses false)) :
    ∀ f ∈ t.pattern.fetches, p.Allows f.component f.mutable := by
  cases t with
  | entity => exact nofun
  | single q => exact allows_fetches_bound (allows_access_false h)
  | batch q => exact allows_fetches_bound (allows_access_false h)
  | without inner => exact nofun
  | maybe inner => exact allows_fetches inner h
  | any children => exact allows_alternatives (allows_allFetches children h)
  | join children => exact allows_alternatives (allows_allFetches children h)

theorem allows_allFetches (ts : List (Term Column))
    (h : p.AllowsAll (Term.allAccesses false ts)) :
    ∀ f ∈ Pattern.allFetches (Term.patterns ts), p.Allows f.component f.mutable := by
  cases ts with
  | nil => exact nofun
  | cons t rest =>
      obtain ⟨hfirst, hrest⟩ := List.forall_mem_append.1 h
      exact List.forall_mem_append.2 ⟨allows_fetches t hfirst, allows_allFetches rest hrest⟩

end

theorem known_of_mem_components {readOnly : Bool} {t : Term Column}
    (h : p.AllowsAll (t.accesses readOnly)) : ∀ c ∈ t.components, p.known c.id := by
  intro c hc
  rw [← t.map_fst_accesses readOnly] at hc
  obtain ⟨a, ha, rfl⟩ := List.mem_map.1 hc
  exact (h a ha).1

theorem known_of_mem_allComponents {readOnly : Bool} {ts : List (Term Column)}
    (h : p.AllowsAll (Term.allAccesses readOnly ts)) :
    ∀ c ∈ Term.allComponents ts, p.known c.id := by
  intro c hc
  rw [← Term.map_fst_allAccesses readOnly ts] at hc
  obtain ⟨a, ha, rfl⟩ := List.mem_map.1 hc
  exact (h a ha).1

end Footprint

/-! ### Access reports -/

namespace AccessReport

/-- The components that the report names, and those that it names as written. -/
def footprint (r : AccessReport) : Footprint where
  known id := r.written.contains id = true ∨ r.read.contains id = true
  written id := r.written.contains id = true

/-- What is named in the one report is named in the other, as written if it was. -/
structure Below (r r' : AccessReport) : Prop where
  written : ∀ id, r.written.contains id = true → r'.written.contains id = true
  read : ∀ id, r.read.contains id = true → r'.read.contains id = true

theorem Below.allows {r r' : AccessReport} (h : r.Below r') {id : ComponentId} {mutable : Bool}
    (hallows : r.footprint.Allows id mutable) : r'.footprint.Allows id mutable :=
  ⟨hallows.1.imp (h.written id) (h.read id), fun hm => h.written id (hallows.2 hm)⟩

theorem Gains.below {r r' : AccessReport} {written read traced : ComponentId → Prop}
    (h : ∀ id, Gains id (written id) (read id) (traced id) r r') : r.Below r' :=
  ⟨fun id hid => (h id).written.2 (.inl hid), fun id hid => (h id).read.2 (.inl hid)⟩

theorem allows_add (r : AccessReport) (id : ComponentId) (mutable : Bool) :
    (r.add id mutable).footprint.Allows id mutable := by
  have hgains := gains_add id id mutable r
  cases mutable with
  | true =>
      have hwritten := hgains.written.2 (.inr ⟨rfl, rfl⟩)
      exact ⟨.inl hwritten, fun _ => hwritten⟩
  | false => exact ⟨.inr (hgains.read.2 (.inr ⟨rfl, rfl⟩)), nofun⟩

/-- Tracing is reported apart. -/
theorem below_traceAll (ids : List ComponentId) (r : AccessReport) :
    r.Below (ids.foldl .trace r) :=
  Gains.below fun id => gains_traceAll id ids r

/-- Adding terms only adds to a report. -/
theorem below_addAllTo (readOnly : Bool) (patterns : List Pattern) (r : AccessReport) :
    r.Below (Pattern.addAllTo readOnly patterns r) :=
  Gains.below fun id => gains_addAllTo id readOnly r patterns

theorem allows_addTo_bound {readOnly : Bool} (q : BoundTerm Column) (r : AccessReport) :
    (q.pattern.addTo readOnly r).footprint.Allows q.column.id (q.mutable && !readOnly) := by
  induction q with
  | component c m => exact allows_add r c.id _
  | maybe inner ih => exact ih
  | changed inner ih => exact (below_traceAll _ _).allows ih

mutual

/-- **What a term looks at is reported.** -/
theorem allows_addTo (readOnly : Bool) (t : Term Column) (r : AccessReport) :
    (t.pattern.addTo readOnly r).footprint.AllowsAll (t.accesses readOnly) := by
  cases t with
  | entity => exact nofun
  | single q =>
      intro a ha
      rw [List.mem_singleton.1 ha]
      exact allows_addTo_bound q r
  | batch q =>
      intro a ha
      rw [List.mem_singleton.1 ha]
      exact allows_addTo_bound q r
  | without inner => exact allows_addTo true inner r
  | maybe inner => exact allows_addTo readOnly inner r
  | any children => exact allows_addAllTo readOnly children r
  | join children => exact allows_addAllTo readOnly children r

theorem allows_addAllTo (readOnly : Bool) (ts : List (Term Column)) (r : AccessReport) :
    (Pattern.addAllTo readOnly (Term.patterns ts) r).footprint.AllowsAll
      (Term.allAccesses readOnly ts) := by
  cases ts with
  | nil => exact nofun
  | cons t rest =>
      refine List.forall_mem_append.2 ⟨?_, allows_addAllTo readOnly rest _⟩
      intro a ha
      have hfirst := allows_addTo readOnly t r a ha
      exact (below_addAllTo readOnly (Term.patterns rest) _).allows hfirst

end

/-! ### Reports without a conflict -/

/-- **What one of two systems writes, the other one does not look at**, if they may run at the
same time. -/
theorem apart_of_compatible {r r' : AccessReport} (h : r.compatible r' = true) :
    r.footprint.Apart r'.footprint := by
  rw [compatible, Bool.not_eq_true', Bool.eq_false_iff, ne_eq, conflicts_iff, not_exists] at h
  constructor
  · intro id hwritten hknown
    apply h id
    rw [collide, Bool.or_eq_true, Bool.and_eq_true, Bool.or_eq_true]
    exact .inl ⟨hwritten, hknown⟩
  · intro id hwritten hknown
    apply h id
    rw [collide_comm, collide, Bool.or_eq_true, Bool.and_eq_true, Bool.or_eq_true]
    exact .inl ⟨hwritten, hknown⟩

end AccessReport

/-- **What the terms of a query look at is in its report.** -/
theorem Query.allows_accessReport (q : Query) :
    q.accessReport.footprint.AllowsAll (Term.allAccesses false q.terms) :=
  AccessReport.allows_addAllTo false q.terms {}

end EntityStore
