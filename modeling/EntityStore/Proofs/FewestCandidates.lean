import EntityStore.Proofs.Candidates

/-!
# The fewest candidates

A list of terms takes its candidates from one term only, and alternatives take those of all their
children.  Neither loses a match or names an entity twice: the candidates of a list are the fewest
that a term of it offers, the matches among them are the matches among the candidates of any other
term, and those of alternatives come in the order in which the children name them.

* `MergedFrom`, `union_eq_some_iff_mergedFrom` — the union of candidate lists;
* `Term.candidatesFor_smallest` — the candidates of a list of terms are complete;
* `Store.candidates_are_fewest` — **free of duplicates, complete and minimal.**
-/

namespace EntityStore

/-! ### Candidates of alternatives -/

/-- The entities of several lists, each once, in the order of their first occurrences. -/
structure MergedFrom (lists : List (List Entity)) (l : List Entity) : Prop where
  nodup : l.Nodup
  mem_iff : ∀ e, e ∈ l ↔ ∃ m ∈ lists, e ∈ m
  /-- They stand as they first occur in the lists, one list after the other. -/
  inOrder : l.Pairwise fun e e' => lists.flatten.idxOf e < lists.flatten.idxOf e'

theorem mergedFrom_eraseDups (lists : List (List Entity)) :
    MergedFrom lists lists.flatten.eraseDups where
  nodup := nodup_eraseDups _
  mem_iff e := by rw [List.mem_eraseDups, List.mem_flatten]
  inOrder := pairwise_eraseDups _

/-- Nothing else is left to choose. -/
theorem MergedFrom.unique {lists : List (List Entity)} {l l' : List Entity}
    (h : MergedFrom lists l) (h' : MergedFrom lists l') : l = l' := by
  have hperm : l.Perm l' := by
    rw [List.perm_ext_iff_of_nodup h.nodup h'.nodup]
    intro e
    rw [h.mem_iff, h'.mem_iff]
  refine hperm.eq_of_pairwise ?_ h.inOrder h'.inOrder
  intro e e' _ _ hlt hgt
  exact absurd hlt (Nat.not_lt_of_gt hgt)

/-- **A union is there if all lists are, and merges them.** -/
theorem union_eq_some_iff_mergedFrom {lists : List (Option (List Entity))} {l : List Entity} :
    union lists = some l ↔ ∃ all, lists = all.map some ∧ MergedFrom all l := by
  rw [union_eq_some_iff]
  refine exists_congr fun all => and_congr_right fun _ => ?_
  constructor
  · rintro rfl
    exact mergedFrom_eraseDups all
  · exact (mergedFrom_eraseDups all).unique

namespace Term

variable {w : World} {ts : List (Term Column)} {l : List Entity}

/-! ### Candidates of a list of terms -/

theorem mem_allCandidates_of_mem {t : Term Column} (ht : t ∈ ts) (h : t.candidates w = some l) :
    some l ∈ allCandidates w ts := by
  rw [allCandidates_eq]
  exact List.mem_map.2 ⟨t, ht, h⟩

/-- The list that is chosen is that of the first term with the fewest candidates. -/
theorem exists_split_of_smallest_allCandidates (h : smallest (allCandidates w ts) = some l) :
    ∃ before t after, ts = before ++ t :: after ∧ t.candidates w = some l ∧
      ∀ u ∈ before, ∀ m, u.candidates w = some m → l.length < m.length := by
  obtain ⟨before, after, hsplit, hbefore, -⟩ := exists_split_of_smallest h
  rw [allCandidates_eq, List.map_eq_append_iff] at hsplit
  obtain ⟨us, rest, rfl, rfl, hrest⟩ := hsplit
  obtain ⟨t, vs, rfl, ht, -⟩ := List.map_eq_cons_iff.1 hrest
  exact ⟨us, t, vs, rfl, ht, fun u hu m hm => hbefore m (List.mem_map.2 ⟨u, hu, hm⟩)⟩

/-- What a term of the list tells contains all matches of the list. -/
theorem candidatesFor_allHold (hw : w.Valid) {t : Term Column} (ht : t ∈ ts)
    (h : t.candidates w = some l) : CandidatesFor w (allHold w · ts) l :=
  (candidatesFor hw t h).weaken fun _ he => List.all_eq_true.1 he t ht

theorem candidatesFor_smallest (hw : w.Valid) (h : smallest (allCandidates w ts) = some l) :
    CandidatesFor w (allHold w · ts) l := by
  obtain ⟨before, t, after, rfl, hcandidates, -⟩ := exists_split_of_smallest_allCandidates h
  exact candidatesFor_allHold hw (List.mem_append_right _ List.mem_cons_self) hcandidates

end Term

/-- Complete lists contain the same matches, each once. -/
theorem CandidatesFor.filter_perm {w : World} {matched : Entity → Bool} {l m : List Entity}
    (hl : CandidatesFor w matched l) (hm : CandidatesFor w matched m) :
    (m.filter matched).Perm (l.filter matched) := by
  rw [List.perm_ext_iff_of_nodup (hm.nodup.filter _) (hl.nodup.filter _)]
  intro e
  rw [List.mem_filter, List.mem_filter]
  exact ⟨fun he => ⟨hl.complete e he.2, he.2⟩, fun he => ⟨hm.complete e he.2, he.2⟩⟩

/-- Alternatives have candidates if every child has, and then those of all children. -/
theorem Term.candidates_eq_some_iff_mergedFrom {w : World} {t : Term Column}
    {children : List (Term Column)} (ht : t = .any children ∨ t = .join children)
    {l : List Entity} : t.candidates w = some l ↔
      ∃ lists, children.map (Term.candidates w) = lists.map some ∧ MergedFrom lists l := by
  have hunion : t.candidates w = union (Term.allCandidates w children) := by
    rcases ht with rfl | rfl <;> rw [Term.candidates]
  rw [hunion, Term.allCandidates_eq, union_eq_some_iff_mergedFrom]

/-- **Candidates are duplicate-free, complete and minimal.**  Take a reachable store, with change
tracing switched on as building a query may do, and terms nested in whatever way.

A term that anchors tells candidates, and so does a list of terms with one that anchors.  The
candidates of the list are free of duplicates and contain every entity that matches all terms.  They
are those of the first term that tells the fewest, and no term tells fewer; and whichever term is
asked, the matches among its candidates are the same.

The candidates of `any` and of `join` are there exactly if every child tells some, and are then the
entities of the children's lists, each once, in the order of their first occurrences. -/
theorem Store.candidates_are_fewest {s : Store} (hs : s.Reachable) {cs : List Column} {w : World}
    (hw : s.world.traceAll cs = w) :
    (∀ ts : List (Term Column),
      (∀ t ∈ ts, t.pattern.anchors = true →
        (t.candidates w).isSome = true ∧ (smallest (Term.allCandidates w ts)).isSome = true) ∧
      ∀ l, smallest (Term.allCandidates w ts) = some l →
        l.Nodup ∧ (∀ e, Term.allHold w e ts = true → e ∈ l) ∧
        (∃ before t after, ts = before ++ t :: after ∧ t.candidates w = some l ∧
          ∀ u ∈ before, ∀ m, u.candidates w = some m → l.length < m.length) ∧
        ∀ t ∈ ts, ∀ m, t.candidates w = some m → l.length ≤ m.length ∧
          (m.filter (Term.allHold w · ts)).Perm (l.filter (Term.allHold w · ts))) ∧
    ∀ (children : List (Term Column)) (l : List Entity),
      ((Term.any children).candidates w = some l ↔ ∃ lists,
        children.map (Term.candidates w) = lists.map some ∧ MergedFrom lists l) ∧
      ((Term.join children).candidates w = some l ↔ ∃ lists,
        children.map (Term.candidates w) = lists.map some ∧ MergedFrom lists l) := by
  have hvalid : w.Valid := hw ▸ (World.within_traceAll s.world cs).valid hs.valid.world
  refine ⟨?_, fun children l => ⟨Term.candidates_eq_some_iff_mergedFrom (.inl rfl),
    Term.candidates_eq_some_iff_mergedFrom (.inr rfl)⟩⟩
  intro ts
  constructor
  · intro t ht hanchors
    have hsome := t.isSome_candidates w hanchors
    obtain ⟨m, hm⟩ := Option.isSome_iff_exists.1 hsome
    exact ⟨hsome, isSome_smallest (Term.mem_allCandidates_of_mem ht hm)⟩
  · intro l hl
    have hall := Term.candidatesFor_smallest hvalid hl
    refine ⟨hall.nodup, hall.complete, Term.exists_split_of_smallest_allCandidates hl, ?_⟩
    intro t ht m hm
    exact ⟨length_le_of_smallest hl (Term.mem_allCandidates_of_mem ht hm),
      hall.filter_perm (Term.candidatesFor_allHold hvalid ht hm)⟩

/-- In the sample store two entities have a level and the second one has a hit as well, so levels
and hits together are looked for among the hits, and what matches there is what matches among the
levels.  Alternatives that name the hits first give the second entity first. -/
theorem Store.sample_candidates_are_fewest :
    ∃ (w : World) (levels hits : Term Column) (l m : List Entity),
      sample.Reachable ∧ sample.world.traceAll [⟨Catalogue.level, ⟨0⟩⟩] = w ∧
      smallest (Term.allCandidates w [levels, hits]) = some l ∧ l.length = 1 ∧
      levels.candidates w = some m ∧ m.length = 2 ∧
      (m.filter (Term.allHold w · [levels, hits])).Perm
        (l.filter (Term.allHold w · [levels, hits])) ∧
      (Term.any [hits, levels]).candidates w = some [⟨2, 0⟩, ⟨1, 0⟩] ∧
      ∃ lists, [hits, levels].map (Term.candidates w) = lists.map some ∧
        MergedFrom lists [⟨2, 0⟩, ⟨1, 0⟩] := by
  let levels : Term Column := .single (.changed (.component ⟨Catalogue.level, ⟨0⟩⟩ false))
  let hits : Term Column := .batch (.component ⟨Catalogue.hit, ⟨1⟩⟩ true)
  obtain ⟨w, hw⟩ : ∃ w, sample.world.traceAll [⟨Catalogue.level, ⟨0⟩⟩] = w := ⟨_, rfl⟩
  have hlists : smallest (Term.allCandidates w [levels, hits]) = some [⟨2, 0⟩] ∧
      levels.candidates w = some [⟨1, 0⟩, ⟨2, 0⟩] ∧
      (Term.any [hits, levels]).candidates w = some [⟨2, 0⟩, ⟨1, 0⟩] := by
    subst hw
    decide +kernel
  obtain ⟨hfewest, hlevels, hany⟩ := hlists
  obtain ⟨hterms, halternatives⟩ := candidates_are_fewest reachable_sample hw
  obtain ⟨-, -, -, hothers⟩ := (hterms [levels, hits]).2 _ hfewest
  exact ⟨w, levels, hits, _, _, reachable_sample, hw, hfewest, rfl, hlevels, rfl,
    (hothers levels List.mem_cons_self _ hlevels).2, hany, (halternatives _ _).1.1 hany⟩

end EntityStore
