import EntityStore.Proofs.Candidates
import EntityStore.Proofs.Conflicts
import EntityStore.Proofs.Resolution

/-!
# Which queries are accepted

Whether a query over component types is accepted, and whether a term of it anchors, is decided on
patterns, after the types were replaced by their positions.  Different types have different
positions, so both can be read off the terms as they were written: they do not depend on what was
registered before, nor on the order in which it was.

* `Term.anchors` — anchoring, before the terms are resolved;
* `Term.Asks`, `Term.Clash` — a type occurs in a term outside of every `without`, and two terms
  cannot have it together;
* `Term.asks_pattern_map_iff` — resolved terms ask for the positions of the types;
* `Store.accepts_iff` — **a query is accepted exactly if no two terms of it clash.**
-/

namespace EntityStore

/-! ### Terms and their patterns -/

namespace BoundTerm

variable {κ ν : Type}

theorem mutable_map (f : κ → ν) (q : BoundTerm κ) : (q.map f).mutable = q.mutable := by
  induction q with
  | component c m => rfl
  | maybe inner ih => exact ih
  | changed inner ih => exact ih

/-- Whether the component has to be present. -/
def anchors : BoundTerm κ → Bool
  | .component .. => true
  | .maybe _ => false
  | .changed inner => anchors inner

theorem anchors_pattern_map (f : κ → Column) (q : BoundTerm κ) :
    (q.map f).pattern.anchors = q.anchors := by
  induction q with
  | component c m => rfl
  | maybe inner ih => rfl
  | changed inner ih => exact ih

/-- A bound term asks for its own component. -/
theorem asks_pattern_iff {id : ComponentId} {m : Bool} (q : BoundTerm Column) :
    q.pattern.Asks id m ↔ q.column.id = id ∧ q.mutable = m := by
  induction q with
  | component c m => exact Pattern.asks_component_iff
  | maybe inner ih => exact Pattern.asks_maybe_iff.trans ih
  | changed inner ih => exact Pattern.asks_changed_iff.trans ih

end BoundTerm

namespace Term

variable {κ : Type}

theorem mem_allComponents_iff {k : κ} {ts : List (Term κ)} :
    k ∈ allComponents ts ↔ ∃ t ∈ ts, k ∈ t.components := by
  induction ts with
  | nil => simp [allComponents]
  | cons t rest ih => simp [allComponents, ih]

/-! ### Anchors -/

mutual

/-- Whether the term requires presence in some storage, so that it can supply candidates. -/
def anchors : Term κ → Bool
  | .single q | .batch q => q.anchors
  | .entity | .without _ | .maybe _ => false
  | .any children | .join children => !children.isEmpty && allAnchor children

/-- Whether every term of the list can supply candidates. -/
def allAnchor : List (Term κ) → Bool
  | [] => true
  | t :: rest => anchors t && allAnchor rest

end

mutual

/-- **Anchoring does not depend on the positions of the components.** -/
theorem anchors_pattern_map (f : κ → Column) (t : Term κ) :
    (t.map f).pattern.anchors = t.anchors := by
  cases t with
  | entity => rfl
  | single q => exact q.anchors_pattern_map f
  | batch q => exact q.anchors_pattern_map f
  | without inner => rfl
  | maybe inner => rfl
  | any children =>
      rw [map, pattern, Pattern.anchors, anchors, allAnchor_patterns_mapAll f children, patterns_eq,
        mapAll_eq, List.isEmpty_map, List.isEmpty_map]
  | join children =>
      rw [map, pattern, Pattern.anchors, anchors, allAnchor_patterns_mapAll f children, patterns_eq,
        mapAll_eq, List.isEmpty_map, List.isEmpty_map]

theorem allAnchor_patterns_mapAll (f : κ → Column) (ts : List (Term κ)) :
    Pattern.allAnchor (patterns (mapAll f ts)) = allAnchor ts := by
  cases ts with
  | nil => rfl
  | cons t rest =>
      rw [mapAll, patterns, Pattern.allAnchor, allAnchor, anchors_pattern_map f t,
        allAnchor_patterns_mapAll f rest]

end

/-- A list of terms is anchored if one of its terms is. -/
theorem unanchored_patterns_mapAll (f : κ → Column) (ts : List (Term κ)) :
    unanchored (patterns (mapAll f ts)) = !ts.any anchors := by
  rw [unanchored, patterns_eq, mapAll_eq, List.any_map, List.any_map]
  congr 2
  funext t
  exact t.anchors_pattern_map f

/-! ### What a term asks for -/

/-- The component occurs in the term, for writing or not, and no `without` is around it. -/
inductive Asks (k : κ) (m : Bool) : Term κ → Prop
  | single {q : BoundTerm κ} (hk : q.column = k) (hm : q.mutable = m) : Asks k m (.single q)
  | batch {q : BoundTerm κ} (hk : q.column = k) (hm : q.mutable = m) : Asks k m (.batch q)
  | maybe {inner : Term κ} (h : Asks k m inner) : Asks k m (.maybe inner)
  | any {children : List (Term κ)} {child : Term κ} (hmem : child ∈ children)
      (h : Asks k m child) : Asks k m (.any children)
  | join {children : List (Term κ)} {child : Term κ} (hmem : child ∈ children)
      (h : Asks k m child) : Asks k m (.join children)

section Asks

variable {k : κ} {m : Bool}

theorem asks_single_iff {q : BoundTerm κ} :
    Asks k m (.single q) ↔ q.column = k ∧ q.mutable = m :=
  ⟨fun | .single hk hm => ⟨hk, hm⟩, fun h => .single h.1 h.2⟩

theorem asks_batch_iff {q : BoundTerm κ} :
    Asks k m (.batch q) ↔ q.column = k ∧ q.mutable = m :=
  ⟨fun | .batch hk hm => ⟨hk, hm⟩, fun h => .batch h.1 h.2⟩

theorem not_asks_entity : ¬Asks k m .entity := nofun

theorem not_asks_without (inner : Term κ) : ¬Asks k m (.without inner) := nofun

theorem asks_maybe_iff {inner : Term κ} : Asks k m (.maybe inner) ↔ Asks k m inner :=
  ⟨fun | .maybe h => h, .maybe⟩

theorem asks_any_iff {children : List (Term κ)} :
    Asks k m (.any children) ↔ ∃ child ∈ children, Asks k m child :=
  ⟨fun | .any hmem h => ⟨_, hmem, h⟩, fun ⟨_, hmem, h⟩ => .any hmem h⟩

theorem asks_join_iff {children : List (Term κ)} :
    Asks k m (.join children) ↔ ∃ child ∈ children, Asks k m child :=
  ⟨fun | .join hmem h => ⟨_, hmem, h⟩, fun ⟨_, hmem, h⟩ => .join hmem h⟩

/-- What a term asks for occurs in it. -/
theorem Asks.mem_components {t : Term κ} (h : t.Asks k m) : k ∈ t.components := by
  induction h with
  | single hk hm => exact List.mem_singleton.2 hk.symm
  | batch hk hm => exact List.mem_singleton.2 hk.symm
  | maybe h ih => exact ih
  | any hmem h ih => exact mem_allComponents_iff.2 ⟨_, hmem, ih⟩
  | join hmem h ih => exact mem_allComponents_iff.2 ⟨_, hmem, ih⟩

end Asks

/-- A bound term that was renamed asks for what its component was renamed to. -/
theorem asks_bound_map_iff {id : ComponentId} {m : Bool} (f : κ → Column) (q : BoundTerm κ) :
    (q.map f).pattern.Asks id m ↔ ∃ k, (q.column = k ∧ q.mutable = m) ∧ (f k).id = id := by
  rw [BoundTerm.asks_pattern_iff, BoundTerm.column_map, BoundTerm.mutable_map]
  constructor
  · rintro ⟨hid, hm⟩
    exact ⟨q.column, ⟨rfl, hm⟩, hid⟩
  · rintro ⟨k, ⟨rfl, hm⟩, hid⟩
    exact ⟨hid, hm⟩

mutual

/-- **A resolved term asks for the positions of what the term asks for.** -/
theorem asks_pattern_map_iff {id : ComponentId} {m : Bool} (f : κ → Column) (t : Term κ) :
    (t.map f).pattern.Asks id m ↔ ∃ k, t.Asks k m ∧ (f k).id = id := by
  cases t with
  | entity => simp [map, pattern, Pattern.not_asks_entity, not_asks_entity]
  | without inner => simp [map, pattern, Pattern.not_asks_without, not_asks_without]
  | single q =>
      simp only [map, pattern, asks_single_iff]
      exact asks_bound_map_iff f q
  | batch q =>
      simp only [map, pattern, asks_batch_iff, Pattern.asks_batch_iff]
      exact asks_bound_map_iff f q
  | maybe inner =>
      simp only [map, pattern, asks_maybe_iff, Pattern.asks_maybe_iff]
      exact asks_pattern_map_iff f inner
  | any children =>
      simp only [map, pattern, asks_any_iff, Pattern.asks_any_iff]
      exact exists_asks_patterns_iff f children
  | join children =>
      simp only [map, pattern, asks_join_iff, Pattern.asks_join_iff]
      exact exists_asks_patterns_iff f children

theorem exists_asks_patterns_iff {id : ComponentId} {m : Bool} (f : κ → Column)
    (ts : List (Term κ)) :
    (∃ p ∈ patterns (mapAll f ts), p.Asks id m) ↔
      ∃ k, (∃ t ∈ ts, t.Asks k m) ∧ (f k).id = id := by
  cases ts with
  | nil => simp [mapAll, patterns]
  | cons t rest =>
      simp only [mapAll, patterns, List.exists_mem_cons_iff, asks_pattern_map_iff f t,
        exists_asks_patterns_iff f rest, or_and_right, exists_or]

end

/-! ### Term against term -/

/-- Both terms ask for the component, and one of them asks to write it. -/
def Clash (k : κ) (t u : Term κ) : Prop :=
  ∃ m m', t.Asks k m ∧ u.Asks k m' ∧ (m = true ∨ m' = true)

/-- Nothing clashes with a `without`. -/
theorem not_clash_without (k : κ) (t u : Term κ) : ¬Clash k t (.without u) := by
  rintro ⟨m, m', -, hu, -⟩
  exact not_asks_without u hu

/-- Resolved terms clash exactly if the terms do, where components have positions of their own. -/
theorem clash_pattern_map_iff {f : κ → Column} {t u : Term κ}
    (hf : ∀ k ∈ t.components, ∀ k' ∈ u.components, (f k).id = (f k').id → k = k') :
    (∃ id, Pattern.Clash id (t.map f).pattern (u.map f).pattern) ↔ ∃ k, t.Clash k u := by
  constructor
  · rintro ⟨id, m, m', ht, hu, hwrites⟩
    obtain ⟨k, hk, hid⟩ := (asks_pattern_map_iff f t).1 ht
    obtain ⟨k', hk', hid'⟩ := (asks_pattern_map_iff f u).1 hu
    obtain rfl := hf k hk.mem_components k' hk'.mem_components (hid.trans hid'.symm)
    exact ⟨k, m, m', hk, hk', hwrites⟩
  · rintro ⟨k, m, m', ht, hu, hwrites⟩
    exact ⟨(f k).id, m, m', (asks_pattern_map_iff f t).2 ⟨k, ht, rfl⟩,
      (asks_pattern_map_iff f u).2 ⟨k, hu, rfl⟩, hwrites⟩

end Term

/-! ### Queries over component types -/

/-- Different types have different positions. -/
theorem Registry.Valid.eq_of_register_eq {r : Registry} (hr : r.Valid) {t t' : ComponentType}
    (ht : (r.position? t).isSome = true) (ht' : (r.position? t').isSome = true)
    (h : (r.register t).1 = (r.register t').1) : t = t' := by
  obtain ⟨id, hid⟩ := Option.isSome_iff_exists.1 ht
  obtain ⟨id', hid'⟩ := Option.isSome_iff_exists.1 ht'
  rw [register_of_position? hid, register_of_position? hid'] at h
  have hentry := hr t id hid
  rw [show id = id' from h, hr t' id' hid'] at hentry
  simp only [Option.some.injEq, Entry.mk.injEq, Source.native.injEq] at hentry
  exact hentry.2.2.symm

namespace Store

/-- The query can be prepared. -/
def Accepts (s : Store) (ts : List (Term ComponentType)) : Prop :=
  ∃ q s', s.prepare ts = (.ok q, s')

theorem accepts_iff_refuseAliasing (s : Store) (ts : List (Term ComponentType)) :
    s.Accepts ts ↔
      refuseAliasing (Term.patterns ((s.registry.registerAll (Term.allComponents ts)).resolve ts)) =
        .ok () := by
  constructor
  · rintro ⟨q, s', h⟩
    have hprepared := prepared_of_prepare h
    rw [← hprepared.registry, ← hprepared.terms]
    exact hprepared.accepted
  · intro h
    rw [Accepts, prepare]
    simp only [h]
    exact ⟨_, _, rfl⟩

/-- **A query is accepted exactly if no two terms of it clash**, whatever is registered. -/
theorem accepts_iff {s : Store} (hs : s.registry.Valid) (ts : List (Term ComponentType)) :
    s.Accepts ts ↔ ts.Pairwise fun t u => ∀ k, ¬t.Clash k u := by
  rw [accepts_iff_refuseAliasing, refuseAliasing_eq_ok_iff_pairwise, Registry.resolve,
    Term.patterns_eq, Term.mapAll_eq, List.map_map, List.pairwise_map]
  apply List.Pairwise.iff_of_mem
  intro t u ht hu
  have hregistered : ∀ k v, v ∈ ts → k ∈ v.components →
      ((s.registry.registerAll (Term.allComponents ts)).position? k).isSome = true := by
    intro k v hv hk
    exact Registry.isSome_position?_registerAll (Term.mem_allComponents_iff.2 ⟨v, hv, hk⟩)
  rw [← not_exists, ← not_exists, not_iff_not]
  apply Term.clash_pattern_map_iff
  intro k hk k' hk' hid
  exact (Registry.valid_registerAll hs _).eq_of_register_eq (hregistered k t ht hk)
    (hregistered k' u hu hk') hid

/-- What is prepared is anchored if one of its terms is. -/
theorem Prepared.anchored_eq {s s' : Store} {ts : List (Term ComponentType)} {q : Query}
    (h : s.Prepared ts q s') : q.anchored = ts.any Term.anchors := by
  rw [h.anchored, Query.patterns, h.terms, Registry.resolve, Term.unanchored_patterns_mapAll,
    Bool.not_not]

end Store

end EntityStore
