import EntityStore.Proofs.Matching
import EntityStore.Proofs.Reachable

/-!
# Candidates

A query looks at the candidates of one of its terms only.  That is enough: a term that can tell
its candidates tells all of them, so every match is among the candidates of every such term.

* `Term.candidates_congr_of_listed` — candidates are made of what the storages list;
* `CandidatesFor` — what a candidate list has to be: free of duplicates, alive, complete;
* `Term.candidatesFor` — the candidates of a term are that, whatever the term is made of;
* `Term.isSome_candidates` — a term that anchors has candidates;
* `Store.Prepared` — what a query that was prepared is;
* `Query.candidatesFor` — the candidates of a query are all that matches it, and more.
-/

namespace EntityStore

/-! ### Combining candidate lists -/

theorem mapM_id_eq_some_iff {lists : List (Option (List Entity))} {all : List (List Entity)} :
    lists.mapM id = some all ↔ lists = all.map some := by
  induction lists generalizing all with
  | nil => cases all <;> simp
  | cons first rest ih =>
      rw [List.mapM_cons]
      cases first with
      | none => cases all <;> simp
      | some l =>
          cases hrest : rest.mapM id with
          | none =>
              have hno : ∀ all, rest ≠ List.map some all := by
                intro all h
                rw [ih.2 h] at hrest
                cases hrest
              cases all <;> simp [hno]
          | some all' =>
              have hall := ih.1 hrest
              subst hall
              cases all with
              | nil => simp
              | cons l' all => simp [List.map_inj_right]

theorem union_eq_some_iff {lists : List (Option (List Entity))} {l : List Entity} :
    union lists = some l ↔
      ∃ all : List (List Entity), lists = all.map some ∧ all.flatten.eraseDups = l := by
  rw [union]
  rw [Option.map_eq_some_iff]
  simp only [mapM_id_eq_some_iff]

theorem mem_union {lists : List (Option (List Entity))} {l : List Entity}
    (h : union lists = some l) (e : Entity) : e ∈ l ↔ ∃ m, some m ∈ lists ∧ e ∈ m := by
  obtain ⟨all, rfl, rfl⟩ := union_eq_some_iff.1 h
  simp [List.mem_eraseDups]

theorem eraseDups_concat (l : List Entity) (e : Entity) :
    (l ++ [e]).eraseDups = if e ∈ l then l.eraseDups else l.eraseDups ++ [e] := by
  rw [List.eraseDups_append]
  split
  · next hmem => simp [List.removeAll, hmem]
  · next hnew => simp [List.removeAll, hnew, List.eraseDups_cons]

/-- What is left without repetitions stands in the order of the first occurrences. -/
theorem pairwise_eraseDups (l : List Entity) :
    l.eraseDups.Pairwise fun e e' => l.idxOf e < l.idxOf e' := by
  induction l using List.reverseRecOn with
  | nil => exact List.Pairwise.nil
  | append_singleton l e ih =>
      -- those that were there keep their places, and a new one comes behind them
      have hkept : l.eraseDups.Pairwise fun a b => (l ++ [e]).idxOf a < (l ++ [e]).idxOf b := by
        refine ih.imp_of_mem fun {a b} ha hb hlt => ?_
        rw [List.idxOf_append_of_mem (List.mem_eraseDups.1 ha),
          List.idxOf_append_of_mem (List.mem_eraseDups.1 hb)]
        exact hlt
      rw [eraseDups_concat]
      split
      · exact hkept
      · next hnew =>
        refine List.pairwise_append.2 ⟨hkept, List.pairwise_singleton _ _, ?_⟩
        intro a ha b hb
        have hmem := List.mem_eraseDups.1 ha
        rw [List.mem_singleton.1 hb, List.idxOf_append_of_mem hmem,
          List.idxOf_append_of_notMem hnew]
        exact Nat.lt_of_lt_of_le (List.idxOf_lt_length_iff.2 hmem) (Nat.le_add_right _ _)

theorem nodup_eraseDups (l : List Entity) : l.eraseDups.Nodup := by
  refine (pairwise_eraseDups l).imp ?_
  rintro e _ hlt rfl
  exact Nat.lt_irrefl _ hlt

theorem nodup_union {lists : List (Option (List Entity))} {l : List Entity}
    (h : union lists = some l) : l.Nodup := by
  obtain ⟨all, _, rfl⟩ := union_eq_some_iff.1 h
  exact nodup_eraseDups _

theorem isSome_union {lists : List (Option (List Entity))}
    (h : ∀ list ∈ lists, list.isSome = true) : (union lists).isSome = true := by
  rw [Option.isSome_iff_exists]
  refine ⟨_, union_eq_some_iff.2 ⟨lists.map (·.getD []), ?_, rfl⟩⟩
  rw [List.map_map]
  refine (List.map_id lists).symm.trans (List.map_congr_left ?_)
  intro list hlist
  obtain ⟨l, rfl⟩ := Option.isSome_iff_exists.1 (h list hlist)
  rfl

theorem isSome_foldl_shorter {lists : List (Option (List Entity))}
    {best : Option (List Entity)} (h : best.isSome = true ∨ ∃ list ∈ lists, list.isSome = true) :
    (lists.foldl shorter best).isSome = true := by
  induction lists generalizing best with
  | nil =>
      rcases h with h | ⟨list, hlist, _⟩
      · exact h
      · cases hlist
  | cons list rest ih =>
      rw [List.foldl_cons]
      apply ih
      have hshorter : (shorter best list).isSome = (best.isSome || list.isSome) := by
        unfold shorter
        split
        · rfl
        · next hbest =>
          cases best with
          | none => exact absurd rfl (hbest)
          | some a => rfl
        · split <;> rfl
      rw [hshorter, Bool.or_eq_true]
      rcases h with h | ⟨list', hlist', hsome⟩
      · exact .inl (.inl h)
      · rcases List.mem_cons.1 hlist' with rfl | hmem
        · exact .inl (.inr hsome)
        · exact .inr ⟨list', hmem, hsome⟩

theorem isSome_smallest {lists : List (Option (List Entity))} {l : List Entity}
    (h : some l ∈ lists) : (smallest lists).isSome = true :=
  isSome_foldl_shorter (.inr ⟨some l, h, rfl⟩)

theorem smallest_concat (lists : List (Option (List Entity))) (list : Option (List Entity)) :
    smallest (lists ++ [list]) = shorter (smallest lists) list := by
  rw [smallest, List.foldl_append]
  rfl

/-- **The list that is chosen is the first one among the shortest.** -/
theorem exists_split_of_smallest {lists : List (Option (List Entity))} {l : List Entity}
    (h : smallest lists = some l) : ∃ before after, lists = before ++ some l :: after ∧
      (∀ m, some m ∈ before → l.length < m.length) ∧
      ∀ m, some m ∈ after → l.length ≤ m.length := by
  induction lists using List.reverseRecOn generalizing l with
  | nil => cases h
  | append_singleton lists list ih =>
      rw [smallest_concat] at h
      cases hearlier : smallest lists with
      | none =>
          rw [hearlier] at h
          change list = some l at h
          refine ⟨lists, [], by rw [h], ?_, by simp⟩
          -- there was no list before
          intro m hm
          have hsome := isSome_smallest hm
          rw [hearlier] at hsome
          cases hsome
      | some best =>
          obtain ⟨before, after, hsplit, hbefore, hafter⟩ := ih hearlier
          rw [hearlier] at h
          cases list with
          | none =>
              cases h
              exact ⟨before, after ++ [none], by simp [hsplit], hbefore, by simpa using hafter⟩
          | some m =>
              by_cases hlt : m.length < best.length
              · obtain rfl : m = l := by simpa [shorter, hlt] using h
                refine ⟨lists, [], rfl, ?_, by simp⟩
                intro m' hm'
                rw [hsplit, List.mem_append, List.mem_cons] at hm'
                rcases hm' with hm' | hm' | hm'
                · exact hlt.trans (hbefore m' hm')
                · cases hm'
                  exact hlt
                · exact Nat.lt_of_lt_of_le hlt (hafter m' hm')
              · obtain rfl : best = l := by simpa [shorter, hlt] using h
                refine ⟨before, after ++ [some m], by simp [hsplit], hbefore, ?_⟩
                intro m' hm'
                rcases List.mem_append.1 hm' with hm' | hm'
                · exact hafter m' hm'
                · cases List.mem_singleton.1 hm'
                  exact Nat.le_of_not_lt hlt

/-- The shortest list is one of the lists. -/
theorem mem_of_smallest {lists : List (Option (List Entity))} {l : List Entity}
    (h : smallest lists = some l) : some l ∈ lists := by
  obtain ⟨before, after, rfl, -, -⟩ := exists_split_of_smallest h
  exact List.mem_append_right _ List.mem_cons_self

/-- The shortest list is no longer than any of the lists. -/
theorem length_le_of_smallest {lists : List (Option (List Entity))} {l m : List Entity}
    (h : smallest lists = some l) (hm : some m ∈ lists) : l.length ≤ m.length := by
  obtain ⟨before, after, rfl, hbefore, hafter⟩ := exists_split_of_smallest h
  rw [List.mem_append, List.mem_cons] at hm
  rcases hm with hm | hm | hm
  · exact Nat.le_of_lt (hbefore m hm)
  · cases hm
    exact Nat.le_refl _
  · exact hafter m hm

/-! ### Candidates depend on what is listed -/

theorem BoundTerm.candidates_congr_of_listed {w w' : World} {q : BoundTerm Column}
    (h : ((w.typed? q.column).map (·.entities)).getD [] =
      ((w'.typed? q.column).map (·.entities)).getD []) : q.candidates w = q.candidates w' := by
  induction q with
  | component c m => exact congrArg some h
  | maybe inner ih => rfl
  | changed inner ih => exact ih h

namespace Term

mutual

/-- Candidates are made of the listings of the components that occur. -/
theorem candidates_congr_of_listed {w w' : World} {t : Term Column}
    (h : ∀ c ∈ t.components, ((w.typed? c).map (·.entities)).getD [] =
      ((w'.typed? c).map (·.entities)).getD []) : t.candidates w = t.candidates w' := by
  cases t with
  | entity => rfl
  | single q => exact BoundTerm.candidates_congr_of_listed (h _ List.mem_cons_self)
  | batch q => exact BoundTerm.candidates_congr_of_listed (h _ List.mem_cons_self)
  | without inner => rfl
  | maybe inner => rfl
  | any children => rw [candidates, candidates, allCandidates_congr_of_listed h]
  | join children => rw [candidates, candidates, allCandidates_congr_of_listed h]

theorem allCandidates_congr_of_listed {w w' : World} {ts : List (Term Column)}
    (h : ∀ c ∈ allComponents ts, ((w.typed? c).map (·.entities)).getD [] =
      ((w'.typed? c).map (·.entities)).getD []) : allCandidates w ts = allCandidates w' ts := by
  cases ts with
  | nil => rfl
  | cons t rest =>
      obtain ⟨ht, hrest⟩ := List.forall_mem_append.1 h
      rw [allCandidates, allCandidates, candidates_congr_of_listed ht,
        allCandidates_congr_of_listed hrest]

end

end Term

/-! ### Candidates of a term -/

/-- A list in which every live entity that matches occurs, and live entities only, each once. -/
structure CandidatesFor (w : World) (matched : Entity → Bool) (l : List Entity) : Prop where
  nodup : l.Nodup
  alive : ∀ e ∈ l, w.isAlive e = true
  complete : ∀ e, matched e = true → e ∈ l

theorem CandidatesFor.weaken {w : World} {matched matched' : Entity → Bool} {l : List Entity}
    (h : CandidatesFor w matched l) (hsub : ∀ e, matched' e = true → matched e = true) :
    CandidatesFor w matched' l where
  nodup := h.nodup
  alive := h.alive
  complete e he := h.complete e (hsub e he)

/-- The candidates of a component are the entities of its storage. -/
theorem World.Valid.candidatesFor {w : World} (h : w.Valid) (c : Column) :
    CandidatesFor w (w.holds c) (((w.typed? c).map (·.entities)).getD []) := by
  unfold World.holds
  cases htyped : w.typed? c with
  | none => exact ⟨List.nodup_nil, by simp, by simp⟩
  | some s =>
      obtain ⟨hstorage, _⟩ := Option.filter_eq_some_iff.1 htyped
      have hvalid := h.storage c.id s hstorage
      refine ⟨hvalid.nodup_entities, ?_, ?_⟩
      · intro e he
        exact h.alive c.id s hstorage e ((hvalid.contains_iff_mem e).2 he)
      · intro e he
        exact (hvalid.contains_iff_mem e).1 he

theorem BoundTerm.candidatesFor {w : World} (h : w.Valid) {q : BoundTerm Column}
    {l : List Entity} (hl : q.candidates w = some l) :
    CandidatesFor w (fun e => q.holds w e) l := by
  induction q with
  | component c m =>
      cases hl
      exact h.candidatesFor c
  | maybe inner ih => cases hl
  | changed inner ih =>
      refine (ih hl).weaken ?_
      intro e he
      exact (BoundTerm.holds_changed_iff.1 he).1

namespace Term

/-- The candidates of all terms together are those of a term that asks for one of them. -/
theorem candidatesFor_union {w : World} {ts : List (Term Column)}
    (h : ∀ t ∈ ts, ∀ m, t.candidates w = some m → CandidatesFor w (fun e => t.holds w e) m)
    {l : List Entity} (hl : union (allCandidates w ts) = some l) :
    CandidatesFor w (fun e => decide (0 < countHolds w e ts)) l where
  nodup := nodup_union hl
  alive e he := by
    obtain ⟨m, hm, hem⟩ := (mem_union hl e).1 he
    rw [allCandidates_eq] at hm
    obtain ⟨t, ht, hcandidates⟩ := List.mem_map.1 hm
    exact (h t ht m hcandidates).alive e hem
  complete e he := by
    rw [decide_eq_true_eq, countHolds_eq, List.countP_pos_iff] at he
    obtain ⟨t, ht, hholds⟩ := he
    have hmem : t.candidates w ∈ allCandidates w ts := by
      rw [allCandidates_eq]
      exact List.mem_map_of_mem ht
    -- every term of the list has candidates, as the union is there
    obtain ⟨all, hall, -⟩ := union_eq_some_iff.1 hl
    obtain ⟨m, -, hm⟩ := List.mem_map.1 (hall ▸ hmem)
    rw [← hm] at hmem
    exact (mem_union hl e).2 ⟨m, hmem, (h t ht m hm.symm).complete e hholds⟩

mutual

/-- **A term that tells its candidates tells all of them.** -/
theorem candidatesFor {w : World} (h : w.Valid) (t : Term Column) {l : List Entity}
    (hl : t.candidates w = some l) : CandidatesFor w (fun e => t.holds w e) l := by
  cases t with
  | entity => cases hl
  | single q => exact BoundTerm.candidatesFor h hl
  | batch q => exact BoundTerm.candidatesFor h hl
  | without inner => cases hl
  | maybe inner => cases hl
  | any children =>
      refine (candidatesFor_union (forall_candidatesFor h children) hl).weaken ?_
      intro e he
      rw [Term.holds] at he
      exact he
  | join children =>
      refine (candidatesFor_union (forall_candidatesFor h children) hl).weaken ?_
      intro e he
      rw [Term.holds] at he
      rw [beq_iff_eq] at he
      rw [he]
      rfl

theorem forall_candidatesFor {w : World} (h : w.Valid) (ts : List (Term Column)) :
    ∀ t ∈ ts, ∀ m, t.candidates w = some m → CandidatesFor w (fun e => t.holds w e) m := by
  cases ts with
  | nil => exact nofun
  | cons t rest =>
      exact List.forall_mem_cons.2
        ⟨fun _ hm => candidatesFor h t hm, forall_candidatesFor h rest⟩

end

end Term

/-! ### Anchors have candidates -/

theorem BoundTerm.isSome_candidates (w : World) (q : BoundTerm Column) :
    (q.candidates w).isSome = q.pattern.anchors := by
  induction q with
  | component c m => rfl
  | maybe inner ih => rfl
  | changed inner ih => exact ih

namespace Term

mutual

theorem isSome_candidates (w : World) (t : Term Column) (h : t.pattern.anchors = true) :
    (t.candidates w).isSome = true := by
  cases t with
  | entity => cases h
  | single q => exact (BoundTerm.isSome_candidates w q).trans h
  | batch q => exact (BoundTerm.isSome_candidates w q).trans h
  | without inner => cases h
  | maybe inner => cases h
  | any children =>
      apply isSome_union
      exact isSome_of_mem_allCandidates w children (Bool.and_eq_true_iff.1 h).2
  | join children =>
      apply isSome_union
      exact isSome_of_mem_allCandidates w children (Bool.and_eq_true_iff.1 h).2

theorem isSome_of_mem_allCandidates (w : World) (ts : List (Term Column))
    (h : Pattern.allAnchor (patterns ts) = true) (list : Option (List Entity))
    (hlist : list ∈ allCandidates w ts) : list.isSome = true := by
  cases ts with
  | nil => cases hlist
  | cons t rest =>
      rw [patterns, Pattern.allAnchor] at h
      rw [Bool.and_eq_true] at h
      rw [allCandidates] at hlist
      rcases List.mem_cons.1 hlist with rfl | hrest
      · exact isSome_candidates w t h.1
      · exact isSome_of_mem_allCandidates w rest h.2 list hrest

end

end Term

/-! ### Prepared queries -/

/-- What preparing a list of terms gives. -/
structure Store.Prepared (s : Store) (ts : List (Term ComponentType)) (q : Query) (s' : Store) :
    Prop where
  registry : s'.registry = s.registry.registerAll (Term.allComponents ts)
  terms : q.terms = s'.registry.resolve ts
  accepted : refuseAliasing q.patterns = .ok ()
  world : s'.world = s.world.traceAll (Term.allTraced q.terms)
  served : q.served = q.terms.all (Term.isServed s'.world)
  anchored : q.anchored = !unanchored q.patterns

theorem Store.prepared_of_prepare {s s' : Store} {ts : List (Term ComponentType)} {q : Query}
    (h : s.prepare ts = (.ok q, s')) : s.Prepared ts q s' := by
  rw [Store.prepare] at h
  simp only at h
  split at h
  · cases h
  · next haccepted =>
    cases h
    exact ⟨rfl, rfl, haccepted, rfl, rfl, rfl⟩

theorem Store.valid_of_prepare {s s' : Store} {ts : List (Term ComponentType)} {q : Query}
    (hs : s.Valid) (h : s.prepare ts = (.ok q, s')) : s'.Valid :=
  (hs.prepare ts).of_eq h

namespace Query

theorem selects_iff {q : Query} {w : World} {e : Entity} :
    q.selects w e = true ↔ q.canMatch = true ∧ Term.allHold w e q.terms = true :=
  Bool.and_eq_true_iff

/-- A query that cannot match has no candidates. -/
theorem canMatch_of_mem_candidates {q : Query} {w : World} {e : Entity}
    (h : e ∈ q.candidates w) : q.canMatch = true := by
  by_contra hno
  have hempty : q.candidates w = [] := if_neg hno
  rw [hempty] at h
  cases h

theorem exists_anchor {q : Query} (h : unanchored q.patterns = false) :
    ∃ t ∈ q.terms, t.pattern.anchors = true := by
  rw [unanchored, patterns] at h
  rw [Bool.not_eq_false', Term.patterns_eq, List.any_eq_true] at h
  obtain ⟨p, hp, hanchors⟩ := h
  obtain ⟨t, ht, rfl⟩ := List.mem_map.1 hp
  exact ⟨t, ht, hanchors⟩

/-- **The candidates of one term are enough.**  They are the matches of the whole query and
perhaps more, each alive and there once. -/
theorem candidatesFor {q : Query} {w : World} (hw : w.Valid)
    (hanchored : q.anchored = !unanchored q.patterns) :
    CandidatesFor w (q.selects w) (q.candidates w) := by
  unfold candidates selects
  cases hmatch : q.canMatch with
  | false => exact ⟨List.nodup_nil, by simp, by simp⟩
  | true =>
      have hboth : q.served = true ∧ q.anchored = true := Bool.and_eq_true_iff.1 hmatch
      rw [hanchored, Bool.not_eq_true'] at hboth
      obtain ⟨t, ht, hanchors⟩ := exists_anchor hboth.2
      have hsome : (smallest (Term.allCandidates w q.terms)).isSome = true := by
        apply isSome_foldl_shorter
        refine .inr ⟨t.candidates w, ?_, t.isSome_candidates w hanchors⟩
        rw [Term.allCandidates_eq]
        exact List.mem_map_of_mem ht
      obtain ⟨l, hl⟩ := Option.isSome_iff_exists.1 hsome
      have hmem := mem_of_smallest hl
      rw [Term.allCandidates_eq] at hmem
      obtain ⟨t', ht', hcandidates⟩ := List.mem_map.1 hmem
      rw [if_pos rfl, hl]
      refine (Term.candidatesFor hw t' hcandidates).weaken ?_
      intro e he
      rw [Bool.true_and] at he
      exact List.all_eq_true.1 he t' ht'

end Query

end EntityStore
