import EntityStore.Proofs.Fetching

/-!
# The aliasing test is exact

The aliasing test works on one flat list of fetches, in which the alternatives of `any` and `join`
are merged by component.  Read on the terms themselves it says this: two different terms of the
query ask for one component, outside of every `without`, and one of them asks to write it.  Nothing
is lost in the merging and nothing is made up, and no term is ever in conflict with itself.

* `Pattern.Asks` — a component occurs in a term outside of every `without`;
* `Pattern.allowedBy_fetches_iff` — the fetches of a term are what it asks for;
* `Pattern.pairwise_fetches` — no component is listed twice for one term;
* `Pattern.Clash`, `refuseAliasing_eq_ok_iff_pairwise` — the test, term against term;
* `aliasing_test_is_exact` — **it refuses exactly the clashes, in whatever order the terms come.**
-/

namespace EntityStore

/-! ### Merging alternatives -/

namespace Fetch

theorem allowedBy_cons_iff (f g : Fetch) (gs : List Fetch) :
    f.AllowedBy (g :: gs) ↔
      (g.component = f.component ∧ (f.mutable = true → g.mutable = true)) ∨ f.AllowedBy gs := by
  simp [AllowedBy]

theorem allowedBy_append_iff (f : Fetch) (gs gs' : List Fetch) :
    f.AllowedBy (gs ++ gs') ↔ f.AllowedBy gs ∨ f.AllowedBy gs' := by
  simp [AllowedBy, or_and_right, exists_or]

/-- What a merged list allows was allowed by the list or by the fetch that was merged into it. -/
theorem AllowedBy.of_mergeInto {f new : Fetch} {gs : List Fetch}
    (h : f.AllowedBy (new.mergeInto gs)) : f.AllowedBy (new :: gs) := by
  induction gs with
  | nil => exact h
  | cons first rest ih =>
      rw [Fetch.mergeInto] at h
      split at h
      · next hsame =>
        rcases (allowedBy_cons_iff ..).1 h with ⟨hcomponent, hmutable⟩ | hrest
        · -- the merged entry is for writing because the old or the new one is
          change first.component = f.component at hcomponent
          change f.mutable = true → (first.mutable || new.mutable) = true at hmutable
          simp only [allowedBy_cons_iff, ← hsame, hcomponent, true_and]
          cases hfirst : first.mutable <;> simp_all
        · exact hrest.mono (by simp)
      · rcases (allowedBy_cons_iff ..).1 h with hfirst | hrest
        · exact (allowedBy_cons_iff ..).2 (.inr ((allowedBy_cons_iff ..).2 (.inl hfirst)))
        · exact (ih hrest).mono (List.cons_subset_cons _ (List.subset_cons_self _ _))

theorem AllowedBy.of_foldl_mergeInto {f : Fetch} (fs gs : List Fetch)
    (h : f.AllowedBy (fs.foldl (fun merged g => g.mergeInto merged) gs)) :
    f.AllowedBy gs ∨ f.AllowedBy fs := by
  induction fs generalizing gs with
  | nil => exact .inl h
  | cons first rest ih =>
      rw [allowedBy_cons_iff]
      rcases ih _ h with hmerged | hrest
      · rcases (allowedBy_cons_iff ..).1 hmerged.of_mergeInto with hfirst | hgs
        · exact .inr (.inl hfirst)
        · exact .inl hgs
      · exact .inr (.inr hrest)

/-- **Merging alternatives changes nothing about what is allowed.** -/
theorem allowedBy_alternatives_iff (f : Fetch) (fs : List Fetch) :
    f.AllowedBy (alternatives fs) ↔ f.AllowedBy fs := by
  constructor
  · intro h
    rcases AllowedBy.of_foldl_mergeInto fs [] h with hnil | hfs
    · obtain ⟨g, hg, -⟩ := hnil
      cases hg
    · exact hfs
  · exact AllowedBy.alternatives

/-- The components of a merged list are those of the list and that of the fetch. -/
theorem component_of_mem_mergeInto {f new : Fetch} {gs : List Fetch}
    (h : f ∈ new.mergeInto gs) :
    f.component = new.component ∨ ∃ g ∈ gs, g.component = f.component := by
  obtain ⟨g, hg, hcomponent, -⟩ := AllowedBy.of_mergeInto ⟨f, h, rfl, id⟩
  rcases List.mem_cons.1 hg with rfl | hgs
  · exact .inl hcomponent.symm
  · exact .inr ⟨g, hgs, hcomponent⟩

/-- Merging a fetch keeps the components of a list different. -/
theorem pairwise_mergeInto (new : Fetch) {gs : List Fetch}
    (h : gs.Pairwise (·.component ≠ ·.component)) :
    (new.mergeInto gs).Pairwise (·.component ≠ ·.component) := by
  induction gs with
  | nil => exact List.pairwise_singleton _ new
  | cons first rest ih =>
      obtain ⟨hfirst, hrest⟩ := List.pairwise_cons.1 h
      rw [mergeInto]
      split
      · exact List.pairwise_cons.2 ⟨hfirst, hrest⟩
      · next hother =>
        refine List.pairwise_cons.2 ⟨?_, ih hrest⟩
        intro f hf
        rcases component_of_mem_mergeInto hf with hnew | ⟨g, hg, hsame⟩
        · rwa [hnew]
        · rw [← hsame]
          exact hfirst g hg

theorem pairwise_alternatives (fs : List Fetch) :
    (alternatives fs).Pairwise (·.component ≠ ·.component) := by
  suffices hfold : ∀ gs : List Fetch, gs.Pairwise (·.component ≠ ·.component) →
      (fs.foldl (fun merged f => f.mergeInto merged) gs).Pairwise
        (·.component ≠ ·.component) from hfold [] List.Pairwise.nil
  induction fs with
  | nil => exact fun gs hgs => hgs
  | cons first rest ih => exact fun gs hgs => ih _ (pairwise_mergeInto first hgs)

end Fetch

/-! ### What a term asks for -/

namespace Pattern

/-- The component occurs in the term, for writing or not, and no `without` is around it. -/
inductive Asks (id : ComponentId) (m : Bool) : Pattern → Prop
  | component : Asks id m (.component id m)
  | maybe {child : Pattern} (h : Asks id m child) : Asks id m (.maybe child)
  | changed {child : Pattern} (h : Asks id m child) : Asks id m (.changed child)
  | batch {child : Pattern} (h : Asks id m child) : Asks id m (.batch child)
  | any {children : List Pattern} {child : Pattern} (hmem : child ∈ children)
      (h : Asks id m child) : Asks id m (.any children)
  | join {children : List Pattern} {child : Pattern} (hmem : child ∈ children)
      (h : Asks id m child) : Asks id m (.join children)

section Asks

variable {id : ComponentId} {m : Bool}

theorem asks_component_iff {id' : ComponentId} {m' : Bool} :
    Asks id m (.component id' m') ↔ id' = id ∧ m' = m := by
  constructor
  · rintro ⟨⟩
    exact ⟨rfl, rfl⟩
  · rintro ⟨rfl, rfl⟩
    exact .component

theorem not_asks_entity : ¬Asks id m .entity := nofun

theorem not_asks_without (child : Pattern) : ¬Asks id m (.without child) := nofun

theorem asks_maybe_iff {child : Pattern} : Asks id m (.maybe child) ↔ Asks id m child :=
  ⟨fun | .maybe h => h, .maybe⟩

theorem asks_changed_iff {child : Pattern} : Asks id m (.changed child) ↔ Asks id m child :=
  ⟨fun | .changed h => h, .changed⟩

theorem asks_batch_iff {child : Pattern} : Asks id m (.batch child) ↔ Asks id m child :=
  ⟨fun | .batch h => h, .batch⟩

theorem asks_any_iff {children : List Pattern} :
    Asks id m (.any children) ↔ ∃ child ∈ children, Asks id m child :=
  ⟨fun | .any hmem h => ⟨_, hmem, h⟩, fun ⟨_, hmem, h⟩ => .any hmem h⟩

theorem asks_join_iff {children : List Pattern} :
    Asks id m (.join children) ↔ ∃ child ∈ children, Asks id m child :=
  ⟨fun | .join hmem h => ⟨_, hmem, h⟩, fun ⟨_, hmem, h⟩ => .join hmem h⟩

end Asks

/-- The term asks for the component, and for writing if that is wanted. -/
def AsksAtLeast (id : ComponentId) (m : Bool) (p : Pattern) : Prop :=
  ∃ m', p.Asks id m' ∧ (m = true → m' = true)

/-- Alternatives ask for what one of the children asks for. -/
theorem asksAtLeast_iff_of_children {id : ComponentId} {m : Bool} {p : Pattern}
    {children : List Pattern} (h : ∀ m', p.Asks id m' ↔ ∃ child ∈ children, child.Asks id m') :
    p.AsksAtLeast id m ↔ ∃ child ∈ children, child.AsksAtLeast id m := by
  constructor
  · rintro ⟨m', hasks, hm⟩
    obtain ⟨child, hmem, hchild⟩ := (h m').1 hasks
    exact ⟨child, hmem, m', hchild, hm⟩
  · rintro ⟨child, hmem, m', hchild, hm⟩
    exact ⟨m', (h m').2 ⟨child, hmem, hchild⟩, hm⟩

mutual

/-- **The fetches of a term are what it asks for.** -/
theorem allowedBy_fetches_iff (id : ComponentId) (m : Bool) :
    (p : Pattern) → ((⟨id, m⟩ : Fetch).AllowedBy p.fetches ↔ p.AsksAtLeast id m)
  | .entity => by simp [fetches, Fetch.AllowedBy, AsksAtLeast, not_asks_entity]
  | .without child => by simp [fetches, Fetch.AllowedBy, AsksAtLeast, not_asks_without]
  | .component id' m' => by
      simp only [fetches, Fetch.AllowedBy, AsksAtLeast, asks_component_iff, List.mem_singleton,
        exists_eq_left, and_assoc, exists_and_left, exists_eq_left']
  | .maybe child => by
      simpa only [fetches, AsksAtLeast, asks_maybe_iff] using allowedBy_fetches_iff id m child
  | .changed child => by
      simpa only [fetches, AsksAtLeast, asks_changed_iff] using allowedBy_fetches_iff id m child
  | .batch child => by
      simpa only [fetches, AsksAtLeast, asks_batch_iff] using allowedBy_fetches_iff id m child
  | .any children => by
      rw [fetches, Fetch.allowedBy_alternatives_iff, allowedBy_allFetches_iff id m children,
        asksAtLeast_iff_of_children fun _ => asks_any_iff]
  | .join children => by
      rw [fetches, Fetch.allowedBy_alternatives_iff, allowedBy_allFetches_iff id m children,
        asksAtLeast_iff_of_children fun _ => asks_join_iff]

/-- The fetches of several terms are what one of them asks for. -/
theorem allowedBy_allFetches_iff (id : ComponentId) (m : Bool) :
    (ps : List Pattern) →
      ((⟨id, m⟩ : Fetch).AllowedBy (allFetches ps) ↔ ∃ p ∈ ps, p.AsksAtLeast id m)
  | [] => by simp [allFetches, Fetch.AllowedBy]
  | p :: rest => by
      rw [allFetches, Fetch.allowedBy_append_iff, allowedBy_fetches_iff id m p,
        allowedBy_allFetches_iff id m rest]
      simp

end

/-- No component is listed twice for one term. -/
theorem pairwise_fetches : (p : Pattern) → p.fetches.Pairwise (·.component ≠ ·.component)
  | .entity | .without _ => List.Pairwise.nil
  | .component _ _ => List.pairwise_singleton _ _
  | .maybe child | .changed child | .batch child => pairwise_fetches child
  | .any children | .join children => Fetch.pairwise_alternatives (allFetches children)

/-! ### Term against term -/

/-- Both terms ask for the component, and one of them asks to write it. -/
def Clash (id : ComponentId) (p q : Pattern) : Prop :=
  ∃ m m', p.Asks id m ∧ q.Asks id m' ∧ (m = true ∨ m' = true)

theorem Clash.symm {id : ComponentId} {p q : Pattern} (h : Clash id p q) : Clash id q p := by
  obtain ⟨m, m', hp, hq, hwrites⟩ := h
  exact ⟨m', m, hq, hp, hwrites.symm⟩

/-- Two terms clash exactly if a fetch of one is in conflict with a fetch of the other. -/
theorem clash_iff (id : ComponentId) (p q : Pattern) :
    Clash id p q ↔
      ∃ f ∈ p.fetches, ∃ g ∈ q.fetches, f.component = id ∧ f.conflicts g = true := by
  constructor
  · rintro ⟨m, m', hp, hq, hwrites⟩
    obtain ⟨f, hf, hcomponent, hmutable⟩ := (allowedBy_fetches_iff id m p).2 ⟨m, hp, fun h => h⟩
    obtain ⟨g, hg, hcomponent', hmutable'⟩ :=
      (allowedBy_fetches_iff id m' q).2 ⟨m', hq, fun h => h⟩
    refine ⟨f, hf, g, hg, hcomponent, ?_⟩
    rw [Fetch.conflicts, hcomponent, hcomponent', beq_self_eq_true, Bool.true_and,
      Bool.or_eq_true]
    exact hwrites.imp hmutable hmutable'
  · rintro ⟨f, hf, g, hg, rfl, hconflict⟩
    rw [Fetch.conflicts, Bool.and_eq_true, beq_iff_eq, Bool.or_eq_true] at hconflict
    obtain ⟨hsame, hwrites⟩ := hconflict
    obtain ⟨m, hp, hm⟩ := (allowedBy_fetches_iff f.component f.mutable p).1 ⟨f, hf, rfl, fun h => h⟩
    obtain ⟨m', hq, hm'⟩ :=
      (allowedBy_fetches_iff f.component g.mutable q).1 ⟨g, hg, hsame.symm, fun h => h⟩
    exact ⟨m, m', hp, hq, hwrites.imp hm hm'⟩

/-- A relation that only ever fails for fetches of one component holds in the flat list if it holds
between the terms, as the fetches of one term are of different components. -/
theorem pairwise_allFetches_iff {R : Fetch → Fetch → Prop}
    (hR : ∀ f g : Fetch, f.component ≠ g.component → R f g) (ps : List Pattern) :
    (allFetches ps).Pairwise R ↔
      ps.Pairwise fun p q => ∀ f ∈ p.fetches, ∀ g ∈ q.fetches, R f g := by
  rw [allFetches_eq, List.pairwise_flatMap]
  exact and_iff_right fun p _ => p.pairwise_fetches.imp fun {f g} => hR f g

end Pattern

open Pattern

/-- The aliasing test accepts the lists in which no two terms clash. -/
theorem refuseAliasing_eq_ok_iff_pairwise (ps : List Pattern) :
    refuseAliasing ps = .ok () ↔ ps.Pairwise fun p q => ∀ id, ¬Clash id p q := by
  have hapart : ∀ f g : Fetch, f.component ≠ g.component → f.conflicts g = false := by
    intro f g hne
    simp [Fetch.conflicts, hne]
  rw [refuseAliasing_eq_ok_iff, pairwise_allFetches_iff hapart]
  refine List.Pairwise.iff fun p q => ⟨fun h id hclash => ?_, fun h f hf g hg => ?_⟩
  · obtain ⟨f, hf, g, hg, -, hconflict⟩ := (clash_iff id p q).1 hclash
    rw [h f hf g hg] at hconflict
    cases hconflict
  · refine Bool.eq_false_iff.2 fun hconflict => ?_
    exact h f.component ((clash_iff f.component p q).2 ⟨f, hf, g, hg, rfl, hconflict⟩)

/-- The fetch that is reported is in conflict with a later one. -/
theorem not_pairwise_of_firstConflict? {fs : List Fetch} {f : Fetch}
    (h : firstConflict? fs = some f) :
    ¬fs.Pairwise fun g g' => g.component = f.component → g.conflicts g' = false := by
  induction fs with
  | nil => cases h
  | cons first rest ih =>
      rw [List.pairwise_cons]
      rintro ⟨hfirst, hrest⟩
      rw [firstConflict?] at h
      split at h
      · next hany =>
        cases h
        obtain ⟨g, hg, hconflict⟩ := List.any_eq_true.1 hany
        rw [hfirst g hg rfl] at hconflict
        cases hconflict
      · exact ih h hrest

/-- Two different terms of the list clash in the component. -/
def ClashAmong (id : ComponentId) (ps : List Pattern) : Prop :=
  ∃ (i j : Nat) (p q : Pattern), i ≠ j ∧ ps[i]? = some p ∧ ps[j]? = some q ∧ Clash id p q

theorem clashAmong_iff (id : ComponentId) (ps : List Pattern) :
    ClashAmong id ps ↔ ¬ps.Pairwise fun p q => ¬Clash id p q := by
  rw [List.pairwise_iff_getElem]
  constructor
  · rintro ⟨i, j, p, q, hne, hi, hj, hclash⟩ hnone
    obtain ⟨hlti, rfl⟩ := List.getElem?_eq_some_iff.1 hi
    obtain ⟨hltj, rfl⟩ := List.getElem?_eq_some_iff.1 hj
    rcases Nat.lt_or_gt_of_ne hne with hlt | hgt
    · exact hnone i j hlti hltj hlt hclash
    · exact hnone j i hltj hlti hgt hclash.symm
  · intro h
    simp only [Classical.not_forall, Classical.not_not] at h
    obtain ⟨i, j, hi, hj, hlt, hclash⟩ := h
    exact ⟨i, j, ps[i], ps[j], Nat.ne_of_lt hlt, List.getElem?_eq_getElem hi,
      List.getElem?_eq_getElem hj, hclash⟩

/-- The component that is reported is one in which two terms clash. -/
theorem clashAmong_of_refused {ps : List Pattern} {err : StoreError}
    (h : refuseAliasing ps = .error err) :
    ∃ id, ClashAmong id ps ∧ err = .conflictingAccess
      s!"component {id.text} is fetched mutably by more than one term" := by
  rw [refuseAliasing] at h
  cases hfirst : firstConflict? (allFetches ps) with
  | none =>
      rw [hfirst] at h
      cases h
  | some f =>
      rw [hfirst] at h
      cases h
      refine ⟨f.component, ?_, rfl⟩
      rw [clashAmong_iff]
      intro hnone
      apply not_pairwise_of_firstConflict? hfirst
      rw [pairwise_allFetches_iff]
      · refine hnone.imp fun {p q} hclash g hg g' hg' hsame => ?_
        rw [clash_iff] at hclash
        refine Bool.eq_false_iff.2 fun hconflict => ?_
        exact hclash ⟨g, hg, g', hg', hsame, hconflict⟩
      · intro g g' hne _
        simp [Fetch.conflicts, hne]

theorem refuseAliasing_eq_ok_iff_clashAmong (ps : List Pattern) :
    refuseAliasing ps = .ok () ↔ ∀ id, ¬ClashAmong id ps := by
  constructor
  · intro hok id hclash
    rw [clashAmong_iff] at hclash
    exact hclash (((refuseAliasing_eq_ok_iff_pairwise ps).1 hok).imp fun h => h id)
  · intro hnone
    cases houtcome : refuseAliasing ps with
    | ok done => rfl
    | error err =>
        obtain ⟨id, hclash, -⟩ := clashAmong_of_refused houtcome
        exact absurd hclash (hnone id)

/-- **The aliasing test refuses exactly the clashes.**  A list of terms, nested in whatever way, is
refused exactly if two different terms of it ask for one component, outside of every `without`, and
one of the two asks to write it; the error names such a component.  So the order of the terms does
not matter, and what is left of an accepted list is accepted. -/
theorem aliasing_test_is_exact (ps : List Pattern) :
    ((∃ err, refuseAliasing ps = .error err) ↔
      ∃ (i j : Nat) (p q : Pattern), i ≠ j ∧ ps[i]? = some p ∧ ps[j]? = some q ∧
        ∃ id m m', p.Asks id m ∧ q.Asks id m' ∧ (m = true ∨ m' = true)) ∧
    (∀ err, refuseAliasing ps = .error err → ∃ id, ClashAmong id ps ∧
      err = .conflictingAccess
        s!"component {id.text} is fetched mutably by more than one term") ∧
    (∀ qs, ps.Perm qs → (refuseAliasing ps = .ok () ↔ refuseAliasing qs = .ok ())) ∧
    ∀ qs, qs.Sublist ps → refuseAliasing ps = .ok () → refuseAliasing qs = .ok () := by
  refine ⟨?_, fun err h => clashAmong_of_refused h, ?_, ?_⟩
  · constructor
    · rintro ⟨err, h⟩
      obtain ⟨id, ⟨i, j, p, q, hne, hi, hj, hclash⟩, -⟩ := clashAmong_of_refused h
      exact ⟨i, j, p, q, hne, hi, hj, id, hclash⟩
    · rintro ⟨i, j, p, q, hne, hi, hj, id, hclash⟩
      cases houtcome : refuseAliasing ps with
      | ok done =>
          have hnone := (refuseAliasing_eq_ok_iff_clashAmong ps).1 houtcome id
          exact absurd ⟨i, j, p, q, hne, hi, hj, hclash⟩ hnone
      | error err => exact ⟨err, rfl⟩
  · intro qs hperm
    rw [refuseAliasing_eq_ok_iff_pairwise, refuseAliasing_eq_ok_iff_pairwise]
    exact hperm.pairwise_iff fun h id hclash => h id hclash.symm
  · intro qs hsub hok
    rw [refuseAliasing_eq_ok_iff_pairwise] at hok ⊢
    exact hok.sublist hsub

/-- A component that is written in one alternative of a term and read in another term, and one that
stands twice in one term and otherwise only below a `without`. -/
theorem aliasing_test_on_alternatives :
    (∃ err, refuseAliasing
      [.any [.component ⟨0⟩ false, .join [.component ⟨1⟩ true]], .maybe (.component ⟨1⟩ false)] =
        .error err) ∧
    refuseAliasing [.without (.component ⟨1⟩ true),
      .any [.component ⟨1⟩ true, .component ⟨1⟩ true]] = .ok () := by
  constructor
  · refine (aliasing_test_is_exact _).1.2 ⟨0, 1, _, _, by decide, rfl, rfl, ⟨1⟩, true, false, ?_⟩
    exact ⟨.any (List.mem_cons_of_mem _ List.mem_cons_self) (.join List.mem_cons_self .component),
      .maybe .component, .inl rfl⟩
  · have hswapped : refuseAliasing [.any [.component ⟨1⟩ true, .component ⟨1⟩ true],
      .without (.component ⟨1⟩ true)] = .ok () := rfl
    exact ((aliasing_test_is_exact _).2.2.1 _ (List.Perm.swap ..)).1 hswapped

end EntityStore
