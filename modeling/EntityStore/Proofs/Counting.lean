import EntityStore.Proofs.Builds

/-!
# Counting laws

The counts of related queries are computed from different lists of candidates and after different
builds, but each is the number of the entities that match, so they obey the laws of finite sets.
A term splits the matches of a query into those that meet it and those that do not; an optional
term leaves them as they are; `any` is the union of its alternatives, and `join` what is left of it
without the entities that meet both.

* `Store.meets_without`, `meets_maybe`, `meets_any_pair`, `meets_join_pair` — what the terms mean;
* `Store.matched_eq_union`, `matched_inter_eq_empty` — a term splits the matches;
* `Store.matched_pair`, `matched_any_pair`, `matched_join_pair` — two terms and their alternatives;
* `Store.counting_laws` — **the laws of the counts.**
-/

namespace EntityStore

namespace Store

variable {s : Store}

/-! ### What terms mean -/

section Meets

variable (s) (e : Entity) (t a b : Term ComponentType)

theorem meets_without : s.meets e (.without t) = !s.meets e t := rfl

theorem meets_maybe : s.meets e (.maybe t) = true := rfl

theorem meets_any_pair : s.meets e (.any [a, b]) = (s.meets e a || s.meets e b) := by
  show decide (0 < (s.meets e a).toNat + ((s.meets e b).toNat + 0)) = _
  cases s.meets e a <;> cases s.meets e b <;> rfl

theorem meets_join_pair : s.meets e (.join [a, b]) = (s.meets e a ^^ s.meets e b) := by
  show ((s.meets e a).toNat + ((s.meets e b).toNat + 0) == 1) = _
  cases s.meets e a <;> cases s.meets e b <;> rfl

end Meets

/-! ### What lists of terms match -/

section Matched

variable {e : Entity}

theorem mem_matched_iff {ts : List (Term ComponentType)} :
    e ∈ s.matched ts ↔ ts.all (s.meets e) = true :=
  Iff.rfl

theorem mem_matched_append_iff {ts : List (Term ComponentType)} {t : Term ComponentType} :
    e ∈ s.matched (ts ++ [t]) ↔ e ∈ s.matched ts ∧ s.meets e t = true := by
  simp [mem_matched_iff]

theorem mem_matched_singleton_iff {t : Term ComponentType} :
    e ∈ s.matched [t] ↔ s.meets e t = true := by
  simp [mem_matched_iff]

end Matched

variable (s) (ts : List (Term ComponentType)) (t a b : Term ComponentType)

/-- A term splits the matches: some meet it, the others do not. -/
theorem matched_eq_union :
    s.matched ts = s.matched (ts ++ [t]) ∪ s.matched (ts ++ [.without t]) := by
  ext e
  rw [Set.mem_union, mem_matched_append_iff, mem_matched_append_iff, meets_without, ← and_or_left,
    Bool.not_eq_true']
  exact (and_iff_left (Bool.eq_false_or_eq_true (s.meets e t))).symm

/-- Nobody is on both sides of the split. -/
theorem matched_inter_eq_empty :
    s.matched (ts ++ [t]) ∩ s.matched (ts ++ [.without t]) = ∅ := by
  rw [Set.eq_empty_iff_forall_notMem]
  rintro e ⟨hmeets, hmisses⟩
  rw [mem_matched_append_iff] at hmeets hmisses
  rw [meets_without, hmeets.2] at hmisses
  exact Bool.false_ne_true hmisses.2

theorem matched_maybe : s.matched (ts ++ [.maybe t]) = s.matched ts := by
  ext e
  rw [mem_matched_append_iff]
  exact and_iff_left (s.meets_maybe e t)

theorem matched_pair : s.matched [a, b] = s.matched [a] ∩ s.matched [b] := by
  ext e
  simp [mem_matched_iff]

theorem matched_any_pair : s.matched [.any [a, b]] = s.matched [a] ∪ s.matched [b] := by
  ext e
  simp only [Set.mem_union, mem_matched_singleton_iff, meets_any_pair, Bool.or_eq_true]

theorem matched_join_pair :
    s.matched [.join [a, b]] = s.matched [.any [a, b]] \ s.matched [a, b] := by
  ext e
  simp only [matched_any_pair, matched_pair, Set.mem_sdiff, Set.mem_union, Set.mem_inter_iff,
    mem_matched_singleton_iff, meets_join_pair]
  cases s.meets e a <;> cases s.meets e b <;> simp

variable {s ts t a b}

/-! ### A term and its negation -/

theorem Valid.accepts_without (hs : s.Valid) (h : s.Accepts ts) :
    s.Accepts (ts ++ [.without t]) := by
  rw [accepts_iff hs.registry] at h ⊢
  refine List.pairwise_append.2 ⟨h, List.pairwise_singleton _ _, ?_⟩
  intro u hu v hv k
  obtain rfl := List.mem_singleton.1 hv
  exact Term.not_clash_without k u t

theorem anchored_append (h : ts.any Term.anchors = true) (us : List (Term ComponentType)) :
    (ts ++ us).any Term.anchors = true := by
  rw [List.any_append, h, Bool.true_or]

section Split

variable {q q' : Query} {w w' : World} (hs : s.Valid) (hts : ts.any Term.anchors = true)

include hs hts

/-- A term and its negation share out the count. -/
theorem Builds.count_eq_add (h : s.Builds ts q w) {q₁ q₂ : Query} {w₁ w₂ : World}
    (h₁ : s.Builds (ts ++ [t]) q₁ w₁) (h₂ : s.Builds (ts ++ [.without t]) q₂ w₂) :
    q.count w = q₁.count w₁ + q₂.count w₂ := by
  have hwith := anchored_append hts [t]
  have hwithout := anchored_append hts [.without t]
  have hapart := Set.disjoint_iff_inter_eq_empty.2 (s.matched_inter_eq_empty ts t)
  rw [h.count_eq hs hts, h₁.count_eq hs hwith, h₂.count_eq hs hwithout, s.matched_eq_union ts t]
  exact Set.ncard_union_eq hapart (h₁.finite hs hwith) (h₂.finite hs hwithout)

/-- An optional term leaves the count. -/
theorem Builds.count_maybe (h : s.Builds ts q w) (h' : s.Builds (ts ++ [.maybe t]) q' w') :
    q'.count w' = q.count w := by
  rw [h.count_eq hs hts, h'.count_eq hs (anchored_append hts _), matched_maybe]

end Split

/-! ### Two terms as alternatives -/

theorem Valid.accepts_singleton (hs : s.Valid) (t : Term ComponentType) : s.Accepts [t] := by
  rw [accepts_iff hs.registry]
  exact List.pairwise_singleton _ _

theorem anchored_cons (h : a.anchors = true) (ts : List (Term ComponentType)) :
    (a :: ts).any Term.anchors = true := by
  rw [List.any_cons, h, Bool.true_or]

section Alternatives

variable {q qa qb q₁ q₂ : Query} {w wa wb w₁ w₂ : World} (hs : s.Valid)
  (ha : a.anchors = true) (hb : b.anchors = true)

include hs ha hb

/-- Any of two terms is counted as their union is. -/
theorem Builds.count_any_pair (hleft : s.Builds [a] qa wa) (hright : s.Builds [b] qb wb)
    (h : s.Builds [a, b] q w) (h₁ : s.Builds [.any [a, b]] q₁ w₁) :
    q₁.count w₁ + q.count w = qa.count wa + qb.count wb := by
  have hany : (Term.any [a, b]).anchors = true := by
    simp [Term.anchors, Term.allAnchor, ha, hb]
  have hfinleft := hleft.finite hs (anchored_cons ha [])
  have hfinright := hright.finite hs (anchored_cons hb [])
  rw [hleft.count_eq hs (anchored_cons ha []), hright.count_eq hs (anchored_cons hb []),
    h.count_eq hs (anchored_cons ha [b]), h₁.count_eq hs (anchored_cons hany []),
    matched_any_pair, matched_pair]
  exact Set.ncard_union_add_ncard_inter _ _ hfinleft hfinright

/-- One of two terms is counted as any of them without both. -/
theorem Builds.count_join_pair (h : s.Builds [a, b] q w) (h₁ : s.Builds [.any [a, b]] q₁ w₁)
    (h₂ : s.Builds [.join [a, b]] q₂ w₂) : q₂.count w₂ + q.count w = q₁.count w₁ := by
  have hany : (Term.any [a, b]).anchors = true := by
    simp [Term.anchors, Term.allAnchor, ha, hb]
  have hjoin : (Term.join [a, b]).anchors = true := hany
  have hboth : s.matched [a, b] ⊆ s.matched [.any [a, b]] := by
    rw [matched_pair, matched_any_pair]
    exact Set.inter_subset_left.trans Set.subset_union_left
  rw [h.count_eq hs (anchored_cons ha [b]), h₁.count_eq hs (anchored_cons hany []),
    h₂.count_eq hs (anchored_cons hjoin []), matched_join_pair]
  exact Set.ncard_sdiff_add_ncard_of_subset hboth (h₁.finite hs (anchored_cons hany []))

end Alternatives

/-! ### The laws -/

/-- **The laws of the counts.**  Let queries be built one after another in a reachable store, in
whatever order and with others in between, and each be asked when it is built or later.

If an anchored list of terms is accepted, and is with one more term and with the term as an
optional one, then it is with the negation of the term too, and all of them are whatever was built
before.  The matches are those that meet the term and those that do not, none of them both, and the
counts add up; the optional term leaves the count.

If two anchoring terms are accepted together, then so is each of them alone and either kind of
alternative.  The counts of `any` and of both terms add up to those of the two, and the counts of
`join` and of both terms to that of `any`. -/
theorem counting_laws (hs : s.Reachable) :
    (∀ (ts : List (Term ComponentType)) (t : Term ComponentType), ts.any Term.anchors = true →
      s.Accepts ts → s.Accepts (ts ++ [t]) → s.Accepts (ts ++ [.maybe t]) →
      (∀ us ∈ [ts, ts ++ [t], ts ++ [.without t], ts ++ [.maybe t]], ∀ earlier,
        (s.prepareAll earlier).Accepts us) ∧
      ∀ q w q₁ w₁ q₂ w₂ q₃ w₃, s.Builds ts q w → s.Builds (ts ++ [t]) q₁ w₁ →
        s.Builds (ts ++ [.without t]) q₂ w₂ → s.Builds (ts ++ [.maybe t]) q₃ w₃ →
        {e | q.selects w e = true} =
          {e | q₁.selects w₁ e = true} ∪ {e | q₂.selects w₂ e = true} ∧
        {e | q₁.selects w₁ e = true} ∩ {e | q₂.selects w₂ e = true} = ∅ ∧
        q.count w = q₁.count w₁ + q₂.count w₂ ∧
        q₃.count w₃ = q.count w) ∧
    ∀ a b : Term ComponentType, a.anchors = true → b.anchors = true → s.Accepts [a, b] →
      (∀ us ∈ [[a], [b], [a, b], [.any [a, b]], [.join [a, b]]], ∀ earlier,
        (s.prepareAll earlier).Accepts us) ∧
      ∀ qa wa qb wb q w q₁ w₁ q₂ w₂, s.Builds [a] qa wa → s.Builds [b] qb wb →
        s.Builds [a, b] q w → s.Builds [.any [a, b]] q₁ w₁ → s.Builds [.join [a, b]] q₂ w₂ →
        q₁.count w₁ + q.count w = qa.count wa + qb.count wb ∧
        q₂.count w₂ + q.count w = q₁.count w₁ := by
  have hvalid := hs.valid
  constructor
  · intro ts t hts haccepts haccepts₁ haccepts₃
    constructor
    -- an excluded term fetches nothing, so it is accepted wherever the others are
    · simp only [hvalid.accepts_prepareAll_iff, List.forall_mem_cons]
      exact ⟨fun _ => haccepts, fun _ => haccepts₁, fun _ => hvalid.accepts_without haccepts,
        fun _ => haccepts₃, nofun⟩
    · intro q w q₁ w₁ q₂ w₂ q₃ w₃ h h₁ h₂ h₃
      rw [h.setOf_selects hvalid hts, h₁.setOf_selects hvalid (anchored_append hts _),
        h₂.setOf_selects hvalid (anchored_append hts _)]
      exact ⟨s.matched_eq_union ts t, s.matched_inter_eq_empty ts t,
        h.count_eq_add hvalid hts h₁ h₂, h.count_maybe hvalid hts h₃⟩
  · intro a b ha hb haccepts
    constructor
    · simp only [hvalid.accepts_prepareAll_iff, List.forall_mem_cons]
      exact ⟨fun _ => hvalid.accepts_singleton a, fun _ => hvalid.accepts_singleton b,
        fun _ => haccepts, fun _ => hvalid.accepts_singleton _,
        fun _ => hvalid.accepts_singleton _, nofun⟩
    · intro qa wa qb wb q w q₁ w₁ q₂ w₂ hleft hright h h₁ h₂
      exact ⟨Builds.count_any_pair hvalid ha hb hleft hright h h₁,
        Builds.count_join_pair hvalid ha hb h h₁ h₂⟩

def levelTerm : Term ComponentType :=
  .single (.component Catalogue.level false)

def hitTerm : Term ComponentType :=
  .single (.component Catalogue.hit true)

/-- In the sample store two entities have a level, and one of them has a hit as well.  So one has
no hit, two have any of the two, and one has just one. -/
theorem levels_and_hits_are_counted :
    ∃ q₁ w₁ q₂ w₂ q₃ w₃ q₄ w₄, sample.Builds [levelTerm, .without hitTerm] q₁ w₁ ∧
      sample.Builds [levelTerm, .maybe hitTerm] q₂ w₂ ∧
      sample.Builds [.any [levelTerm, hitTerm]] q₃ w₃ ∧
      sample.Builds [.join [levelTerm, hitTerm]] q₄ w₄ ∧
      q₁.count w₁ = 1 ∧ q₂.count w₂ = 2 ∧ q₃.count w₃ = 2 ∧ q₄.count w₄ = 1 := by
  obtain ⟨hsplit, hpair⟩ := counting_laws reachable_sample
  obtain ⟨haccepts, hcounts⟩ := hsplit [levelTerm] hitTerm rfl ⟨_, _, rfl⟩ ⟨_, _, rfl⟩ ⟨_, _, rfl⟩
  obtain ⟨haccepts', hcounts'⟩ := hpair levelTerm hitTerm rfl rfl ⟨_, _, rfl⟩
  -- levels, hits and both are built and counted
  obtain ⟨q, w, h, hlevels⟩ : ∃ q w, sample.Builds [levelTerm] q w ∧ q.count w = 2 :=
    ⟨⟨sample.registry.resolve [levelTerm], true, true⟩, _, ⟨[], [[hitTerm]], rfl, rfl⟩, rfl⟩
  obtain ⟨qhit, whit, hhit, hhits⟩ : ∃ q w, sample.Builds [hitTerm] q w ∧ q.count w = 1 :=
    ⟨⟨sample.registry.resolve [hitTerm], true, true⟩, _, ⟨[[levelTerm]], [], rfl, rfl⟩, rfl⟩
  obtain ⟨qboth, wboth, hboth, hboths⟩ :
      ∃ q w, sample.Builds [levelTerm, hitTerm] q w ∧ q.count w = 1 :=
    ⟨⟨sample.registry.resolve [levelTerm, hitTerm], true, true⟩, _,
      ⟨[[levelTerm], [hitTerm]], [], rfl, rfl⟩, rfl⟩
  -- the others are built after levels, and their counts follow
  obtain ⟨q₁, h₁⟩ :=
    exists_builds (haccepts [levelTerm, .without hitTerm] (by simp) [[levelTerm]]) []
  obtain ⟨q₂, h₂⟩ :=
    exists_builds (haccepts [levelTerm, .maybe hitTerm] (by simp) [[levelTerm]]) []
  obtain ⟨q₃, h₃⟩ :=
    exists_builds (haccepts' [.any [levelTerm, hitTerm]] (by simp) [[levelTerm]]) []
  obtain ⟨q₄, h₄⟩ :=
    exists_builds (haccepts' [.join [levelTerm, hitTerm]] (by simp) [[levelTerm]]) []
  obtain ⟨-, -, hadd, hmaybe⟩ := hcounts _ _ _ _ _ _ _ _ h hboth h₁ h₂
  obtain ⟨hany, hjoin⟩ := hcounts' _ _ _ _ _ _ _ _ _ _ h hhit hboth h₃ h₄
  exact ⟨q₁, _, q₂, _, q₃, _, q₄, _, h₁, h₂, h₃, h₄, by omega, by omega, by omega, by omega⟩

end Store

end EntityStore
