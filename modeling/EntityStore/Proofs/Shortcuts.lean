import EntityStore.Proofs.EmptyStorages
import EntityStore.Proofs.Resolution

/-!
# Shortcuts

A query looks at nothing when a storage that it needs is not there, or when no term of it can tell
candidates.  Three recursions have to agree for that: which storages a term needs, which candidates
it tells, and whether its pattern is an anchor.  They do, for every term: an entity never matches a
term whose storages are not there, and a term tells candidates exactly if it anchors.  So it makes
no difference to an answer whether a storage is there and empty, or not there.

* `Term.holds_of_not_served`, `Term.candidates_of_not_served` — terms without their storages, and
  `Term.Hopeless` — a list with such a term;
* `Term.isPopulated`, `Term.isSome_candidates_eq` — candidates and anchors, where every `any` and
  `join` has a child;
* `Query.selects_eq`, `Query.candidates_eq` — a query without its shortcuts;
* `Query.SameAnswers` — two queries answer alike, each in its world;
* `Query.shortcuts_change_no_answer` — **none of the shortcuts changes an answer.**
-/

namespace EntityStore

/-! ### Storages that are not there -/

theorem BoundTerm.isServed_of_holds {w : World} {e : Entity} {q : BoundTerm Column}
    (h : q.holds w e = true) : q.isServed w = true := by
  induction q with
  | component c m =>
      obtain ⟨s, hs, -⟩ := World.exists_typed?_of_holds h
      exact Option.isSome_of_eq_some hs
  | maybe inner ih => rfl
  | changed inner ih => exact ih (BoundTerm.holds_changed_iff.1 h).1

theorem BoundTerm.candidates_of_not_served {w : World} {q : BoundTerm Column}
    (h : q.isServed w = false) : q.candidates w = some [] := by
  induction q with
  | component c m =>
      rw [isServed, Option.isSome_eq_false_iff, Option.isNone_iff_eq_none] at h
      rw [candidates, h]
      rfl
  | maybe inner ih => cases h
  | changed inner ih => exact ih h

/-- Empty lists have nothing in common. -/
theorem union_of_forall_nil {lists : List (Option (List Entity))}
    (h : ∀ list ∈ lists, list = some []) : union lists = some [] := by
  refine union_eq_some_iff.2 ⟨lists.map fun _ => [], ?_, ?_⟩
  · rw [List.map_map]
    exact ((List.map_congr_left fun list hlist => (h list hlist).symm).trans
      (List.map_id lists)).symm
  · rw [List.flatten_eq_nil_iff.2 (by simp), List.eraseDups_nil]

/-- An empty list stays the shortest one. -/
theorem foldl_shorter_of_nil {lists : List (Option (List Entity))} {best : Option (List Entity)}
    (h : best = some [] ∨ some [] ∈ lists) : lists.foldl shorter best = some [] := by
  induction lists generalizing best with
  | nil => simpa using h
  | cons list rest ih =>
      apply ih
      rcases h with rfl | hmem
      · cases list <;> simp [shorter]
      · rcases List.mem_cons.1 hmem with rfl | hrest
        · refine .inl ?_
          rcases best with _ | ⟨_ | _⟩ <;> simp [shorter]
        · exact .inr hrest

namespace Term

variable {w : World} {e : Entity}

mutual

theorem isServed_of_holds {t : Term Column} (h : t.holds w e = true) : t.isServed w = true := by
  cases t with
  | entity => rfl
  | single q => exact BoundTerm.isServed_of_holds h
  | batch q => exact BoundTerm.isServed_of_holds h
  | without inner => rfl
  | maybe inner => rfl
  | any children =>
      rw [holds] at h
      exact anyServed_of_countHolds (of_decide_eq_true h)
  | join children =>
      rw [holds, beq_iff_eq] at h
      exact anyServed_of_countHolds (h ▸ Nat.one_pos)

theorem anyServed_of_countHolds {ts : List (Term Column)} (h : 0 < countHolds w e ts) :
    anyServed w ts = true := by
  cases ts with
  | nil => cases h
  | cons t rest =>
      rw [anyServed, Bool.or_eq_true]
      rw [countHolds] at h
      cases hholds : t.holds w e with
      | true => exact .inl (isServed_of_holds hholds)
      | false =>
          rw [hholds, Bool.toNat_false, Nat.zero_add] at h
          exact .inr (anyServed_of_countHolds h)

end

/-- **Nobody matches a term whose storages are not there.** -/
theorem holds_of_not_served {t : Term Column} (h : t.isServed w = false) (e : Entity) :
    t.holds w e = false := by
  refine Bool.eq_false_iff.2 fun hholds => ?_
  rw [isServed_of_holds hholds] at h
  cases h

theorem allHold_of_not_served {ts : List (Term Column)} (h : ts.all (isServed w) = false)
    (e : Entity) : allHold w e ts = false := by
  obtain ⟨t, ht, hunserved⟩ := List.all_eq_false.1 h
  refine List.all_eq_false.2 ⟨t, ht, ?_⟩
  rw [holds_of_not_served (by simpa using hunserved)]
  exact Bool.false_ne_true

mutual

/-- A term whose storages are not there has no candidates, and tells so. -/
theorem candidates_of_not_served {t : Term Column} (h : t.isServed w = false) :
    t.candidates w = some [] := by
  cases t with
  | entity => cases h
  | single q => exact BoundTerm.candidates_of_not_served h
  | batch q => exact BoundTerm.candidates_of_not_served h
  | without inner => cases h
  | maybe inner => cases h
  | any children => exact union_of_forall_nil (allCandidates_of_not_served h)
  | join children => exact union_of_forall_nil (allCandidates_of_not_served h)

theorem allCandidates_of_not_served {ts : List (Term Column)} (h : anyServed w ts = false) :
    ∀ list ∈ allCandidates w ts, list = some [] := by
  cases ts with
  | nil => nofun
  | cons t rest =>
      rw [anyServed, Bool.or_eq_false_iff] at h
      exact List.forall_mem_cons.2
        ⟨candidates_of_not_served h.1, allCandidates_of_not_served h.2⟩

end

/-- One term without its storages leaves a list of terms without candidates. -/
theorem smallest_of_not_served {ts : List (Term Column)} (h : ts.all (isServed w) = false) :
    smallest (allCandidates w ts) = some [] := by
  obtain ⟨t, ht, hunserved⟩ := List.all_eq_false.1 h
  refine foldl_shorter_of_nil (.inr ?_)
  rw [allCandidates_eq, ← candidates_of_not_served (t := t) (by simpa using hunserved)]
  exact List.mem_map_of_mem ht

/-- The terms together have no candidates, and nobody matches them. -/
structure Hopeless (w : World) (ts : List (Term Column)) : Prop where
  candidates : smallest (allCandidates w ts) = some []
  misses : ∀ e, allHold w e ts = false

theorem hopeless_of_not_served {ts : List (Term Column)} (h : ts.all (isServed w) = false) :
    Hopeless w ts :=
  ⟨smallest_of_not_served h, allHold_of_not_served h⟩

/-- More empty storages leave terms as hopeless as they were. -/
theorem hopeless_iff_of_roomier {w' : World} (h : w.Roomier w') (ts : List (Term Column)) :
    Hopeless w ts ↔ Hopeless w' ts := by
  have hlists := allCandidates_congr_of_roomier h ts
  have hmatch : ∀ e, allHold w e ts = allHold w' e ts := fun e =>
    (World.indistinct_roomier.semblance e).allHold h Footprint.allowsAll_everything
  constructor
  · exact fun hopeless => ⟨hlists ▸ hopeless.candidates, fun e => hmatch e ▸ hopeless.misses e⟩
  · exact fun hopeless => ⟨hlists ▸ hopeless.candidates, fun e => hmatch e ▸ hopeless.misses e⟩

end Term

/-! ### Candidates and anchors -/

theorem isSome_union_eq (lists : List (Option (List Entity))) :
    (union lists).isSome = lists.all Option.isSome := by
  rw [Bool.eq_iff_iff, List.all_eq_true]
  constructor
  · intro h list hlist
    obtain ⟨l, hl⟩ := Option.isSome_iff_exists.1 h
    obtain ⟨all, rfl, -⟩ := union_eq_some_iff.1 hl
    obtain ⟨m, -, rfl⟩ := List.mem_map.1 hlist
    rfl
  · exact isSome_union

theorem isSome_smallest_eq (lists : List (Option (List Entity))) :
    (smallest lists).isSome = lists.any Option.isSome := by
  rw [Bool.eq_iff_iff, List.any_eq_true]
  constructor
  · intro h
    obtain ⟨l, hl⟩ := Option.isSome_iff_exists.1 h
    exact ⟨some l, mem_of_smallest hl, rfl⟩
  · intro h
    exact isSome_foldl_shorter (.inr h)

namespace Term

section Populated

variable {κ ν : Type}

mutual

/-- Every `any` and every `join` in the term has a child.  So it is in every term that can be
written over component types, as alternatives come as a tuple with at least one member. -/
def isPopulated : Term κ → Bool
  | .entity | .single _ | .batch _ => true
  | .without inner | .maybe inner => isPopulated inner
  | .any children | .join children => !children.isEmpty && allPopulated children

/-- Every `any` and every `join` in the terms of the list has a child. -/
def allPopulated : List (Term κ) → Bool
  | [] => true
  | t :: rest => isPopulated t && allPopulated rest

end

mutual

theorem isPopulated_map (f : κ → ν) (t : Term κ) : (t.map f).isPopulated = t.isPopulated := by
  cases t with
  | entity => rfl
  | single q => rfl
  | batch q => rfl
  | without inner => rw [map, isPopulated, isPopulated, isPopulated_map]
  | maybe inner => rw [map, isPopulated, isPopulated, isPopulated_map]
  | any children =>
      rw [map, isPopulated, isPopulated, allPopulated_mapAll, mapAll_eq, List.isEmpty_map]
  | join children =>
      rw [map, isPopulated, isPopulated, allPopulated_mapAll, mapAll_eq, List.isEmpty_map]

theorem allPopulated_mapAll (f : κ → ν) (ts : List (Term κ)) :
    allPopulated (mapAll f ts) = allPopulated ts := by
  cases ts with
  | nil => rfl
  | cons t rest => rw [mapAll, allPopulated, allPopulated, isPopulated_map, allPopulated_mapAll]

end

end Populated

mutual

/-- **A term tells candidates exactly if it anchors.** -/
theorem isSome_candidates_eq (w : World) (t : Term Column) (h : t.isPopulated = true) :
    (t.candidates w).isSome = t.pattern.anchors := by
  cases t with
  | entity => rfl
  | single q => exact BoundTerm.isSome_candidates w q
  | batch q => exact BoundTerm.isSome_candidates w q
  | without inner => rfl
  | maybe inner => rfl
  | any children =>
      rw [isPopulated, Bool.and_eq_true] at h
      rw [candidates, isSome_union_eq, all_isSome_allCandidates_eq w children h.2, pattern,
        Pattern.anchors, patterns_eq, List.isEmpty_map, h.1, Bool.true_and]
  | join children =>
      rw [isPopulated, Bool.and_eq_true] at h
      rw [candidates, isSome_union_eq, all_isSome_allCandidates_eq w children h.2, pattern,
        Pattern.anchors, patterns_eq, List.isEmpty_map, h.1, Bool.true_and]

theorem all_isSome_allCandidates_eq (w : World) (ts : List (Term Column))
    (h : allPopulated ts = true) :
    (allCandidates w ts).all Option.isSome = Pattern.allAnchor (patterns ts) := by
  cases ts with
  | nil => rfl
  | cons t rest =>
      rw [allPopulated, Bool.and_eq_true] at h
      rw [allCandidates, List.all_cons, isSome_candidates_eq w t h.1,
        all_isSome_allCandidates_eq w rest h.2, patterns, Pattern.allAnchor]

end

/-- Candidates can be told exactly if a term anchors. -/
theorem isSome_smallest_allCandidates (w : World) {ts : List (Term Column)}
    (h : allPopulated ts = true) :
    (smallest (allCandidates w ts)).isSome = !unanchored (patterns ts) := by
  rw [isSome_smallest_eq, unanchored, Bool.not_not]
  induction ts with
  | nil => rfl
  | cons t rest ih =>
      rw [allPopulated, Bool.and_eq_true] at h
      rw [allCandidates, patterns, List.any_cons, List.any_cons, isSome_candidates_eq w t h.1,
        ih h.2]

end Term

/-! ### Queries without their shortcuts -/

namespace Query

variable {q q' : Query} {w w' : World}

/-- Whether the storages are there makes no difference to membership. -/
theorem selects_eq (hserved : q.served = q.terms.all (Term.isServed w)) (e : Entity) :
    q.selects w e = (q.anchored && Term.allHold w e q.terms) := by
  rw [selects, canMatch]
  cases hall : q.served with
  | true => rw [Bool.true_and]
  | false =>
      rw [hserved] at hall
      rw [Term.allHold_of_not_served hall, Bool.and_false, Bool.and_false]

/-- Neither of the shortcuts makes a difference to the candidates. -/
theorem candidates_eq (hserved : q.served = q.terms.all (Term.isServed w))
    (hanchored : q.anchored = !unanchored q.patterns)
    (hpopulated : Term.allPopulated q.terms = true) :
    q.candidates w = (smallest (Term.allCandidates w q.terms)).getD [] := by
  rw [candidates, canMatch]
  cases hall : q.served with
  | false =>
      rw [hserved] at hall
      rw [Term.smallest_of_not_served hall]
      rfl
  | true =>
      rw [Bool.true_and]
      split
      · rfl
      · next hnot =>
        rw [hanchored, patterns, ← Term.isSome_smallest_allCandidates w hpopulated,
          Option.not_isSome_iff_eq_none] at hnot
        rw [hnot]
        rfl

/-! ### The same answers -/

/-- The queries answer alike, each in its world: whether an entity matches, how many do, which row
an entity has, and what the calls of an iterator, the turn of a system and the stops of a cursor
give, with writing in between. -/
structure SameAnswers (q : Query) (w : World) (q' : Query) (w' : World) : Prop where
  selects : ∀ e, q'.selects w' e = q.selects w e
  candidates : q'.candidates w' = q.candidates w
  count : q'.count w' = q.count w
  rowOf : ∀ e, (q'.rowOf e { world := w' }).1 = (q.rowOf e { world := w }).1
  answers : ∀ writes, q'.answers w' writes = q.answers w writes
  pass : ∀ u timing, (q'.pass u timing w').1 = (q.pass u timing w).1
  walk : ∀ visits c st c' st', (q.cursor w).walk visits { world := w } = (c, st) →
    (q'.cursor w').walk visits { world := w' } = (c', st') →
      c'.current? = c.current? ∧ (c'.row st').1 = (c.row st).1

/-- One query answers alike in worlds that cannot be told apart. -/
theorem sameAnswers_of_indistinct {R : World → World → Prop} (hR : Indistinct .everything R)
    (h : R w w') (hcandidates : q.candidates w = q.candidates w') : q.SameAnswers w q w' := by
  have hterms : Footprint.everything.AllowsAll (Term.allAccesses false q.terms) :=
    Footprint.allowsAll_everything
  have hstart : R ({ world := w } : FetchState).world ({ world := w' } : FetchState).world := h
  have hselects : ∀ e, q.selects w' e = q.selects w e := by
    intro e
    rw [selects, selects, (hR.semblance e).allHold h hterms]
  have hcursor : q.cursor w' = q.cursor w := by
    rw [cursor, cursor, hcandidates]
    exact (RowCursor.seek_congr (c := ⟨q, q.candidates w'⟩) hR hterms h).symm
  refine ⟨hselects, hcandidates.symm, ?_, ?_, ?_, ?_, ?_⟩
  · have hmatch : (Term.allHold w · q.terms) = (Term.allHold w' · q.terms) :=
      funext fun e => (hR.semblance e).allHold h hterms
    rw [count, count, hcandidates, hmatch]
  · intro e
    rw [Query.rowOf, Query.rowOf, hselects]
    split
    · exact ((hR.semblance e).fetchRow hstart hterms).1.symm
    · rfl
  · intro writes
    rw [Query.answers, Query.answers, rows, rows, hcandidates]
    refine Eq.symm (RowIterator.run_congr hR ?_ writes _ _ hstart)
    exact hterms
  · exact fun u timing => (pass_congr hR hterms h hcandidates).1.symm
  · intro visits c st c' st' hwalk hwalk'
    obtain ⟨hstop, hleft⟩ := RowCursor.walk_congr (c := q.cursor w) hR hterms hstart visits
    rw [hcursor] at hwalk'
    rw [hwalk, hwalk'] at hstop hleft
    cases hstop
    have hquery := RowCursor.query_walk (q.cursor w) visits { world := w }
    rw [hwalk] at hquery
    have hquery : c.query = q := hquery
    rw [← hquery] at hterms
    exact ⟨rfl, (RowCursor.row_congr hR hterms hleft).1.symm⟩

end Query

/-! ### Queries that look at nothing -/

theorem RowIterator.fst_run_of_remaining_nil {it : RowIterator} (h : it.remaining = [])
    (writes : List (Record → Record)) (st : FetchState) :
    (it.run writes st).1 = writes.map fun _ => none := by
  induction writes generalizing st with
  | nil => rfl
  | cons f rest ih =>
      rw [fst_run_cons, next_of_remaining_nil h]
      exact congrArg _ (ih st)

theorem RowCursor.fst_walk_of_isPast {c : RowCursor} (h : c.isPast = true)
    (visits : List (List (Record → Record))) (st : FetchState) : (c.walk visits st).1 = c := by
  induction visits generalizing st with
  | nil => rfl
  | cons writes rest ih =>
      rw [walk, step_of_isPast h]
      exact ih _

namespace Query

variable {q q' : Query} {w w' : World}

/-- What a query without candidates answers. -/
structure Idle (q : Query) (w : World) : Prop where
  candidates : q.candidates w = []
  selects : ∀ e, q.selects w e = false

theorem idle_of_hopeless (h : Term.Hopeless w q.terms) : q.Idle w where
  candidates := by
    rw [Query.candidates, h.candidates]
    split <;> rfl
  selects e := by rw [Query.selects, h.misses e, Bool.and_false]

theorem Idle.rowOf_eq (h : q.Idle w) (e : Entity) :
    q.rowOf e { world := w } = (none, { world := w }) :=
  rowOf_of_not_selects (h.selects e)

theorem Idle.answers_eq (h : q.Idle w) (writes : List (Record → Record)) :
    q.answers w writes = writes.map fun _ => none :=
  RowIterator.fst_run_of_remaining_nil h.candidates writes _

theorem Idle.pass_eq (h : q.Idle w) (u : RowUpdate) (timing : Timing) :
    (q.pass u timing w).1 = [] := by
  have hremaining : (q.rows w).remaining = [] := h.candidates
  rw [pass]
  simp only
  rw [RowIterator.drain_of_next_none (RowIterator.next_of_remaining_nil hremaining _)]

theorem Idle.remaining_walk (h : q.Idle w) (visits : List (List (Record → Record))) :
    ((q.cursor w).walk visits { world := w }).1.remaining = [] := by
  have hremaining : (q.cursor w).remaining = [] := by
    rw [cursor, h.candidates]
    rfl
  rw [RowCursor.fst_walk_of_isPast (List.isEmpty_iff.2 hremaining), hremaining]

/-- Idle queries answer alike. -/
theorem Idle.sameAnswers (h : q.Idle w) (h' : q'.Idle w') : q.SameAnswers w q' w' where
  selects e := (h'.selects e).trans (h.selects e).symm
  candidates := h'.candidates.trans h.candidates.symm
  count := by
    rw [count, count, h.candidates, h'.candidates]
    rfl
  rowOf e := by rw [h.rowOf_eq, h'.rowOf_eq]
  answers writes := by rw [h.answers_eq, h'.answers_eq]
  pass u timing := by rw [h.pass_eq, h'.pass_eq]
  walk visits c st c' st' hwalk hwalk' := by
    have hremaining := h.remaining_walk visits
    have hremaining' := h'.remaining_walk visits
    rw [hwalk] at hremaining
    rw [hwalk'] at hremaining'
    obtain ⟨_, _⟩ := c
    obtain ⟨_, _⟩ := c'
    cases hremaining
    cases hremaining'
    exact ⟨rfl, rfl⟩

/-- **A query answers alike where there are more empty storages**, whether or not it finds them
there when it is prepared. -/
theorem sameAnswers_of_roomier (hterms : q'.terms = q.terms) (hanchored : q'.anchored = q.anchored)
    (hserved : q.served = q.terms.all (Term.isServed w))
    (hserved' : q'.served = q'.terms.all (Term.isServed w')) (h : w.Roomier w') :
    q.SameAnswers w q' w' := by
  by_cases hboth : q'.served = q.served
  · -- then it is one query, which cannot tell the worlds apart
    have hsame : q' = q := by
      cases q
      cases q'
      simp_all
    subst hsame
    refine sameAnswers_of_indistinct World.indistinct_roomier h ?_
    rw [candidates, candidates, Term.allCandidates_congr_of_roomier h]
  · -- otherwise a storage is missing in one of the worlds, and nobody matches in either
    have hhopeless : Term.Hopeless w q.terms := by
      cases hq : q.served with
      | false =>
          rw [hserved] at hq
          exact Term.hopeless_of_not_served hq
      | true =>
          have hq' : q'.served = false := by
            rw [hq] at hboth
            exact Bool.eq_false_iff.2 hboth
          rw [hserved', hterms] at hq'
          exact (Term.hopeless_iff_of_roomier h q.terms).2 (Term.hopeless_of_not_served hq')
    have hhopeless' : Term.Hopeless w' q'.terms := by
      rw [hterms]
      exact (Term.hopeless_iff_of_roomier h q.terms).1 hhopeless
    exact (idle_of_hopeless hhopeless).sameAnswers (idle_of_hopeless hhopeless')

end Query

/-! ### Preparing where there are more storages -/

namespace Store

variable {s s₁ : Store} {ts : List (Term ComponentType)} {q : Query}

/-- A query that is resolved to the same columns is prepared alike, and answers alike if only empty
storages were added. -/
theorem exists_prepare_sameAnswers (h : s.prepare ts = (.ok q, s₁)) {s' : Store}
    (hresolve : (s'.registry.registerAll (Term.allComponents ts)).resolve ts = q.terms)
    (hroomier : s₁.world.Roomier (s'.world.traceAll (Term.allTraced q.terms))) :
    ∃ q' s₂, s'.prepare ts = (.ok q', s₂) ∧ q.SameAnswers s₁.world q' s₂.world := by
  have hprepared := prepared_of_prepare h
  have haccepted : refuseAliasing (Term.patterns q.terms) = .ok () := hprepared.accepted
  rw [prepare]
  simp only [hresolve, haccepted]
  refine ⟨_, _, rfl, Query.sameAnswers_of_roomier rfl ?_ ?_ rfl hroomier⟩
  · exact hprepared.anchored.symm
  · exact hprepared.served

/-- The components of a prepared query are registered. -/
theorem Prepared.isSome_position? (h : s.Prepared ts q s₁) {t : ComponentType}
    (ht : t ∈ Term.allComponents ts) : (s₁.registry.position? t).isSome = true := by
  rw [h.registry]
  exact Registry.isSome_position?_registerAll ht

/-- A prepared query keeps its columns when more types are registered. -/
theorem Prepared.resolve_eq (h : s.Prepared ts q s₁) {registry : Registry}
    (hextends : s₁.registry.Extends registry) : registry.resolve ts = q.terms := by
  rw [h.terms]
  exact hextends.resolve_eq fun t ht => h.isSome_position? ht

/-- A query that was prepared once is prepared alike later, when more types are registered and more
empty storages are there. -/
theorem exists_prepare_sameAnswers_later (h : s.prepare ts = (.ok q, s₁)) {registry : Registry}
    {world : World} (hextends : s₁.registry.Extends registry) (hroomier : s₁.world.Roomier world) :
    ∃ q' s₂, ({ registry, world } : Store).prepare ts = (.ok q', s₂) ∧
      q.SameAnswers s₁.world q' s₂.world := by
  have hprepared := prepared_of_prepare h
  refine exists_prepare_sameAnswers h ?_ ?_
  · rw [Registry.registerAll_of_registered, hprepared.resolve_eq hextends]
    exact fun t ht => hextends.isSome_position? (hprepared.isSome_position? ht)
  · rw [hprepared.world] at hroomier ⊢
    exact hroomier.traceAll_right

/-- A query that was refused once is refused later. -/
theorem prepare_eq_error_later {err : StoreError} (h : s.prepare ts = (.error err, s₁))
    {registry : Registry} (hextends : s₁.registry.Extends registry) (world : World) :
    ({ registry, world } : Store).prepare ts = (.error err, { registry, world }) := by
  rw [prepare] at h
  simp only at h
  split at h
  · next hrefused =>
    cases h
    have hregistered : ∀ t ∈ Term.allComponents ts,
        ((s.registry.registerAll (Term.allComponents ts)).position? t).isSome = true :=
      fun t ht => Registry.isSome_position?_registerAll ht
    have hagain : registry.registerAll (Term.allComponents ts) = registry :=
      Registry.registerAll_of_registered fun t ht => hextends.isSome_position? (hregistered t ht)
    rw [prepare]
    simp only [hagain, hextends.resolve_eq hregistered, hrefused]
  · cases h

end Store

namespace Query

/-- **The shortcuts change no answer.**  For every term, and every list of terms, in every world:
nobody matches if a storage that is needed is not there; and if every `any` and `join` has a child,
candidates are told exactly if the pattern anchors, so that a list of terms has candidates exactly
if it is not unanchored.

So a query that was prepared has the members that it would have if no storage had been looked for,
and the candidates that it would have without either shortcut.  And it makes no difference whether
empty storages were made before: in a store that has more of them, at once or later when more types
are registered, the query is prepared too and answers alike, and one that is refused is refused. -/
theorem shortcuts_change_no_answer :
    (∀ (w : World) (t : Term Column), t.isServed w = false → ∀ e, t.holds w e = false) ∧
    (∀ (w : World) (ts : List (Term Column)), ts.all (Term.isServed w) = false →
      ∀ e, Term.allHold w e ts = false) ∧
    (∀ (w : World) (t : Term Column), t.isPopulated = true →
      (t.candidates w).isSome = t.pattern.anchors) ∧
    (∀ (w : World) (ts : List (Term Column)), Term.allPopulated ts = true →
      (unanchored (Term.patterns ts) = true ↔ smallest (Term.allCandidates w ts) = none)) ∧
    (∀ (w : World) (news : List (ComponentId × Storage)),
      w.Roomier (news.foldl (fun w new => w.ensureSlot new.1 new.2.blank) w)) ∧
    (∀ (s s₁ : Store) (ts : List (Term ComponentType)) (q : Query),
      s.prepare ts = (.ok q, s₁) →
        (∀ e, q.selects s₁.world e = (q.anchored && Term.allHold s₁.world e q.terms)) ∧
        (Term.allPopulated ts = true →
          q.candidates s₁.world = (smallest (Term.allCandidates s₁.world q.terms)).getD []) ∧
        (∀ world, s.world.Roomier world →
          ∃ q' s₂, ({ s with world } : Store).prepare ts = (.ok q', s₂) ∧
            q.SameAnswers s₁.world q' s₂.world) ∧
        ∀ registry world, s₁.registry.Extends registry → s₁.world.Roomier world →
          ∃ q' s₂, ({ registry, world } : Store).prepare ts = (.ok q', s₂) ∧
            q.SameAnswers s₁.world q' s₂.world) ∧
    ∀ (s s₁ : Store) (ts : List (Term ComponentType)) (err : StoreError),
      s.prepare ts = (.error err, s₁) → ∀ registry world, s₁.registry.Extends registry →
        ({ registry, world } : Store).prepare ts = (.error err, { registry, world }) := by
  refine ⟨fun w t h e => Term.holds_of_not_served h e,
    fun w ts h e => Term.allHold_of_not_served h e, Term.isSome_candidates_eq, ?_,
    World.roomier_foldl_ensureSlot, ?_, ?_⟩
  · intro w ts hpopulated
    have hsome := Term.isSome_smallest_allCandidates w hpopulated
    rw [← Option.not_isSome_iff_eq_none, hsome, Bool.not_eq_true', Bool.not_eq_false]
  · intro s s₁ ts q h
    have hprepared := Store.prepared_of_prepare h
    refine ⟨selects_eq hprepared.served, ?_, ?_, ?_⟩
    · intro hpopulated
      refine candidates_eq hprepared.served hprepared.anchored ?_
      rw [hprepared.terms, Registry.resolve, Term.allPopulated_mapAll]
      exact hpopulated
    · intro world hroomier
      refine Store.exists_prepare_sameAnswers h ?_ ?_
      · rw [hprepared.terms, hprepared.registry]
      · rw [hprepared.world]
        exact hroomier.traceAll _
    · intro registry world hextends hroomier
      exact Store.exists_prepare_sameAnswers_later h hextends hroomier
  · intro s s₁ ts err h registry world hextends
    exact Store.prepare_eq_error_later h hextends world

def levelsAndPositions : List (Term ComponentType) :=
  [.single (.component Catalogue.level false), .any [.single (.component Catalogue.pos true),
    .maybe (.single (.component Catalogue.level false))]]

/-- In the sample store nobody has a position.  A storage for positions changes nothing. -/
theorem positions_change_no_answer :
    ∃ q s₁ q' s₂, Store.sample.prepare levelsAndPositions = (.ok q, s₁) ∧
      ({ s₁ with world := s₁.world.ensureSlot ⟨2⟩ (.empty Catalogue.pos) } : Store).prepare
        levelsAndPositions = (.ok q', s₂) ∧ q'.count s₂.world = 2 := by
  obtain ⟨-, -, -, -, hmore, hprepare, -⟩ := shortcuts_change_no_answer
  have h : Store.sample.prepare levelsAndPositions =
      (.ok ⟨(Store.sample.registry.resolve levelsAndPositions), true, true⟩,
        (Store.sample.prepare levelsAndPositions).2) := rfl
  obtain ⟨-, -, -, hlater⟩ := hprepare _ _ _ _ h
  obtain ⟨q', s₂, hprepared, hsame⟩ := hlater _ _ (.refl _)
    (hmore (Store.sample.prepare levelsAndPositions).2.world [(⟨2⟩, .empty Catalogue.pos)])
  refine ⟨_, _, q', s₂, h, hprepared, hsame.count.trans rfl⟩

end Query

end EntityStore
