import EntityStore.Proofs.Traversal

/-!
# Queries that lose no match

A later term of a row can only be made to miss by an earlier one that sets a flag the later one
looks at.  The aliasing test keeps a term from fetching for writing what another term fetches, and
with it what a `changed` of the other term looks at; but a `without` fetches nothing, so the test
does not see the flags that are looked at beneath it.

* `Term.watched` — the components whose flags a term looks at beneath a `without`;
* `Term.watched_or_allowedBy` — every flag that a term looks at is watched or its component is
  fetched;
* `Term.Undisturbed` — no earlier term fetches for writing what a later one watches;
* `not_spoiled_of_undisturbed` — then a row is delivered for every match;
* `Query.losesNoMatch_of_undisturbed` — and an iterator loses none;
* `Query.iterator_loses_spoiled_matches` — what an iterator gives, and when it loses a match;
* `Query.isSome_rowOf`, `Query.row_of_members` — a row is given exactly for members.
-/

namespace EntityStore

/-! ### Flags that a term looks at -/

namespace Term

mutual

/-- The components whose flags are looked at beneath a `without`. -/
def watched : Term Column → List Column
  | .entity | .single _ | .batch _ => []
  | .without inner => inner.traced
  | .maybe inner => watched inner
  | .any children | .join children => allWatched children

/-- The components that are watched by the terms of a list. -/
def allWatched : List (Term Column) → List Column
  | [] => []
  | t :: rest => watched t ++ allWatched rest

end

end Term

theorem BoundTerm.allowedBy_of_mem_traced {q : BoundTerm Column} {c : Column}
    (h : c ∈ q.traced) : (⟨c.id, false⟩ : Fetch).AllowedBy q.pattern.fetches := by
  rw [BoundTerm.fetches_pattern, eq_column_of_mem_traced h]
  exact ⟨_, List.mem_singleton_self _, rfl, by simp⟩

namespace Term

mutual

/-- **Flags are watched or their component is fetched.** -/
theorem watched_or_allowedBy (t : Term Column) {c : Column} (h : c ∈ t.traced) :
    c ∈ t.watched ∨ (⟨c.id, false⟩ : Fetch).AllowedBy t.pattern.fetches := by
  cases t with
  | entity => cases h
  | single q => exact .inr (BoundTerm.allowedBy_of_mem_traced h)
  | batch q => exact .inr (BoundTerm.allowedBy_of_mem_traced h)
  | without inner => exact .inl h
  | maybe inner => exact watched_or_allowedBy inner h
  | any children =>
    exact (allWatched_or_allowedBy children h).imp_right Fetch.AllowedBy.alternatives
  | join children =>
    exact (allWatched_or_allowedBy children h).imp_right Fetch.AllowedBy.alternatives

theorem allWatched_or_allowedBy (ts : List (Term Column)) {c : Column} (h : c ∈ allTraced ts) :
    c ∈ allWatched ts ∨ (⟨c.id, false⟩ : Fetch).AllowedBy (Pattern.allFetches (patterns ts)) := by
  cases ts with
  | nil => cases h
  | cons t rest =>
      rw [allTraced] at h
      rcases List.mem_append.1 h with h | h
      · rcases watched_or_allowedBy t h with h | h
        · exact .inl (List.mem_append_left _ h)
        · exact .inr (h.mono (List.subset_append_left _ _))
      · rcases allWatched_or_allowedBy rest h with h | h
        · exact .inl (List.mem_append_right _ h)
        · exact .inr (h.mono (List.subset_append_right _ _))

end

end Term

/-! ### Undisturbed terms -/

namespace Term

/-- What the first term fetches for writing is not watched by the second. -/
def LeavesAlone (t t' : Term Column) : Prop :=
  ∀ f ∈ t.pattern.fetches, f.mutable = true → ∀ c ∈ t'.watched, c.id ≠ f.component

/-- No term watches what an earlier one fetches for writing. -/
def Undisturbed (ts : List (Term Column)) : Prop :=
  ts.Pairwise LeavesAlone

/-- A term matches as before, after fetches that the terms before it are allowed to make. -/
theorem holds_perform {st : FetchState} {e : Entity} {fs : List Fetch} {t : Term Column}
    {gs : List Fetch} (hallowed : ∀ f ∈ fs, f.AllowedBy gs)
    (hconflicts : ∀ g ∈ gs, ∀ g' ∈ t.pattern.fetches, g.conflicts g' = false)
    (halone : ∀ g ∈ gs, g.mutable = true → ∀ c ∈ t.watched, c.id ≠ g.component) :
    t.holds (st.perform e fs).world e = t.holds st.world e := by
  apply holds_congr_of_traced fun c _ => World.holds_perform st e fs c e
  intro c hc
  apply World.isMarked_perform
  intro f hf hcomponent
  by_contra hmutable
  rw [Bool.not_eq_false] at hmutable
  rcases watched_or_allowedBy t hc with hwatched | hfetched
  · obtain ⟨g, hg, hsame, hwrites⟩ := hallowed f hf
    exact halone g hg (hwrites hmutable) c hwatched (hcomponent.symm.trans hsame.symm)
  · have hclash := (hallowed f hf).conflicts_eq_false hfetched hconflicts
    simp [Fetch.conflicts, hcomponent, hmutable] at hclash

end Term

/-- **An undisturbed row is delivered.**  Accepted terms of which none watches what an earlier
one fetches for writing match when their turn comes, if they did at the start. -/
theorem not_spoiled_of_undisturbed {ts : List (Term Column)}
    (haccepted : refuseAliasing (Term.patterns ts) = .ok ()) (hundisturbed : Term.Undisturbed ts)
    {w : World} {e : Entity} (he : Term.allHold w e ts = true) : ¬ Spoiled ts w e := by
  rintro ⟨before, t, after, rfl, hmiss⟩
  obtain ⟨fs, hst, hallowed, _⟩ := fetches_fetchRow e before { world := w }
  rw [refuseAliasing_eq_ok_iff, Term.patterns_eq, Pattern.allFetches_eq] at haccepted
  rw [Term.patterns_eq, Pattern.allFetches_eq] at hallowed
  have hkept : t.holds (FetchState.perform { world := w } e fs).world e = t.holds w e := by
    refine Term.holds_perform hallowed ?_ ?_
    · intro g hg g' hg'
      rw [List.map_append, List.flatMap_append, List.pairwise_append] at haccepted
      refine haccepted.2.2 g hg g' ?_
      rw [List.map_cons, List.flatMap_cons]
      exact List.mem_append_left _ hg'
    · intro g hg hmutable c hc
      obtain ⟨p, hp, hgp⟩ := List.mem_flatMap.1 hg
      obtain ⟨u, hu, rfl⟩ := List.mem_map.1 hp
      rw [Term.Undisturbed] at hundisturbed
      rw [List.pairwise_append] at hundisturbed
      exact hundisturbed.2.2 u hu t List.mem_cons_self g hgp hmutable c hc
  have hholds := List.all_eq_true.1 he t (by simp)
  rw [hst, hkept, hholds] at hmiss
  cases hmiss

namespace Query

theorem losesNoMatch_of_undisturbed {q : Query} {w : World} (hw : w.Valid)
    (hanchored : q.anchored = !unanchored q.patterns)
    (haccepted : refuseAliasing q.patterns = .ok ()) (hundisturbed : Term.Undisturbed q.terms) :
    q.LosesNoMatch w := by
  rw [losesNoMatch_iff hw hanchored]
  intro e he
  apply not_spoiled_of_undisturbed haccepted hundisturbed
  exact (selects_iff.1 he).2

/-- **An iterator loses exactly the spoiled matches.**  Call by call it gives the rows of the
matches, in the order of the candidates, and then nothing; but a match for which the fetches of
earlier terms make a later term miss gives no row, and its place in the sequence looks like the
end.  So nothing is lost exactly if no match is spoiled, as when no earlier term writes what a
later one watches. -/
theorem iterator_loses_spoiled_matches {s s' : Store} {ts : List (Term ComponentType)}
    {q : Query} (hs : s.Reachable) (h : s.prepare ts = (.ok q, s')) :
    (∀ writes i, i < writes.length →
      (q.answers s'.world writes)[i]?.join =
        (q.matching s'.world)[i]?.bind fun e => (fetchRow e q.terms { world := s'.world }).1) ∧
      (∀ e, (fetchRow e q.terms { world := s'.world }).1 = none ↔ Spoiled q.terms s'.world e) ∧
      (q.LosesNoMatch s'.world ↔
        ∀ e, q.selects s'.world e = true → ¬ Spoiled q.terms s'.world e) ∧
      (Term.Undisturbed q.terms → q.LosesNoMatch s'.world) := by
  have hvalid := (Store.valid_of_prepare hs.valid h).world
  have hprepared := Store.prepared_of_prepare h
  have hanchored := hprepared.anchored
  refine ⟨?_, fetchRow_eq_none_iff hvalid q.terms, losesNoMatch_iff hvalid hanchored, ?_⟩
  · intro writes i hi
    exact getElem?_answers hvalid hanchored hi
  · exact losesNoMatch_of_undisturbed hvalid hanchored hprepared.accepted

/-- A query for levels to write that were not changed: its first term sets the flag that its
second term looks at. -/
def unchangedLevels : Query :=
  { terms :=
      [.single (.component ⟨Catalogue.level, ⟨0⟩⟩ true),
        .without (.single (.changed (.component ⟨Catalogue.level, ⟨0⟩⟩ false)))]
    served := true
    anchored := true }

/-- It is accepted and has two matches in the sample store, but an iterator gives no row. -/
theorem unchangedLevels_loses_matches :
    Store.sample.Reachable ∧ ∃ s',
      Store.sample.prepare
          [.single (.component Catalogue.level true),
            .without (.single (.changed (.component Catalogue.level false)))] =
        (.ok unchangedLevels, s') ∧
        unchangedLevels.count s'.world = 2 ∧
        (unchangedLevels.answers s'.world [id, id, id])[0]?.join = none ∧
        ¬ unchangedLevels.LosesNoMatch s'.world := by
  let ts : List (Term ComponentType) :=
    [.single (.component Catalogue.level true),
      .without (.single (.changed (.component Catalogue.level false)))]
  have hprepared : Store.sample.prepare ts = (.ok unchangedLevels, (Store.sample.prepare ts).2) :=
    rfl
  have hloses := iterator_loses_spoiled_matches Store.reachable_sample hprepared
  obtain ⟨hanswers, hrows, hlost, -⟩ := hloses
  have hcount : unchangedLevels.count (Store.sample.prepare ts).2.world = 2 := by decide +kernel
  have hfirst : (unchangedLevels.matching (Store.sample.prepare ts).2.world)[0]? =
      some ⟨1, 0⟩ := by decide +kernel
  have hselected : unchangedLevels.selects (Store.sample.prepare ts).2.world ⟨1, 0⟩ = true := by
    decide +kernel
  have hspoiled : Spoiled unchangedLevels.terms (Store.sample.prepare ts).2.world ⟨1, 0⟩ :=
    ⟨[_], _, [], rfl, by decide +kernel⟩
  refine ⟨Store.reachable_sample, _, hprepared, hcount, ?_, ?_⟩
  · rw [hanswers [id, id, id] 0 (by decide), hfirst, Option.bind_some]
    exact (hrows _).2 hspoiled
  · intro hnone
    exact hlost.1 hnone _ hselected hspoiled

/-! ### Rows of members -/

theorem isSome_rowOf {q : Query} {w : World} (hw : w.Valid)
    (haccepted : refuseAliasing q.patterns = .ok ()) (hundisturbed : Term.Undisturbed q.terms)
    (e : Entity) : (q.rowOf e { world := w }).1.isSome = q.selects w e := by
  cases hselects : q.selects w e with
  | false =>
      have hnone : q.rowOf e { world := w } = (none, { world := w }) :=
        rowOf_of_not_selects hselects
      rw [hnone]
      rfl
  | true =>
      have hholds := (selects_iff.1 hselects).2
      have hunspoiled := not_spoiled_of_undisturbed haccepted hundisturbed hholds
      rw [rowOf, if_pos hselects, ← Option.ne_none_iff_isSome]
      exact fun hnone => hunspoiled ((fetchRow_eq_none_iff hw q.terms e).1 hnone)

/-- **A row is given exactly for members.**  Let a query whose terms do not disturb each other be
prepared in a reachable store and be used in any way.  Then the row of an entity is given exactly if
the entity is a member of the query just before, and if it is not, asking for the row leaves
everything as it is. -/
theorem row_of_members {s s' : Store} {ts : List (Term ComponentType)} {q : Query}
    (hs : s.Reachable) (h : s.prepare ts = (.ok q, s')) (hundisturbed : Term.Undisturbed q.terms)
    (uses : List QueryUse) {w : World}
    (hw : w = uses.foldl (fun w use => use.apply q w) s'.world) (e : Entity) :
    ((q.rowOf e { world := w }).1.isSome = true ↔ q.selects w e = true) ∧
      (q.selects w e = false → (q.rowOf e { world := w }).2 = { world := w }) := by
  have hstart := (Store.valid_of_prepare hs.valid h).world
  have hvalid : w.Valid := by
    rw [hw]
    exact (QueryUse.within_applyAll uses q s'.world).valid hstart
  have haccepted := (Store.prepared_of_prepare h).accepted
  constructor
  · rw [isSome_rowOf hvalid haccepted hundisturbed]
  · intro hmissing
    rw [rowOf_of_not_selects hmissing]

/-- A query for levels to write of those that were not hit: its second term looks at another flag
than the one that its first term sets. -/
def unhitLevels : Query :=
  { terms :=
      [.single (.component ⟨Catalogue.level, ⟨0⟩⟩ true),
        .without (.single (.changed (.component ⟨Catalogue.hit, ⟨1⟩⟩ false)))]
    served := true
    anchored := true }

/-- In the sample store it gives rows for its members also after a pass that wrote their levels, and
none for an entity that was never made. -/
theorem unhitLevels_gives_rows :
    ∃ s', Store.sample.prepare
        [.single (.component Catalogue.level true),
          .without (.single (.changed (.component Catalogue.hit false)))] = (.ok unhitLevels, s') ∧
      ∃ w, w = (QueryUse.iterate [id, id]).apply unhitLevels s'.world ∧
        unhitLevels.selects w ⟨2, 0⟩ = true ∧
        (unhitLevels.rowOf ⟨2, 0⟩ { world := w }).1.isSome = true ∧
        unhitLevels.selects w ⟨3, 0⟩ = false ∧
        (unhitLevels.rowOf ⟨3, 0⟩ { world := w }).2 = { world := w } := by
  let ts : List (Term ComponentType) :=
    [.single (.component Catalogue.level true),
      .without (.single (.changed (.component Catalogue.hit false)))]
  have hprepared : Store.sample.prepare ts = (.ok unhitLevels, (Store.sample.prepare ts).2) := rfl
  have hundisturbed : Term.Undisturbed unhitLevels.terms := by
    simp [Term.Undisturbed, Term.LeavesAlone, unhitLevels, Term.watched, Term.traced,
      BoundTerm.traced, BoundTerm.column, Term.pattern, BoundTerm.pattern, Pattern.fetches]
  have hmembers := row_of_members Store.reachable_sample hprepared hundisturbed
    [.iterate [id, id]] rfl
  have hmember : unhitLevels.selects
      ((QueryUse.iterate [id, id]).apply unhitLevels (Store.sample.prepare ts).2.world) ⟨2, 0⟩ =
      true := by decide +kernel
  have hmissing : unhitLevels.selects
      ((QueryUse.iterate [id, id]).apply unhitLevels (Store.sample.prepare ts).2.world) ⟨3, 0⟩ =
      false := by decide +kernel
  exact ⟨_, hprepared, _, rfl, hmember, (hmembers ⟨2, 0⟩).1.2 hmember, hmissing,
    (hmembers ⟨3, 0⟩).2 hmissing⟩

end Query

end EntityStore
