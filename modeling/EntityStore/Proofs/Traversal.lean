import EntityStore.Proofs.Candidates
import Mathlib.Data.List.TakeWhile
import Mathlib.Data.Set.Card

/-!
# Traversals meet every match

The candidates of a query live in slots of their own, so what is fetched for one of them changes
the facets of no other: a candidate that is still ahead matches exactly if it did when the
traversal started.

* `Query.matching` — the matches of a query, in the order of its candidates;
* `Ahead` — what every traversal keeps: who is ahead looks as at the start;
* `Ahead.standing` — looking for the next match finds the next one of the start;
* `Query.cursor_visits_matches` — a cursor stops at the matches, each once and in order, whatever
  is fetched and written on the way;
* `RowIterator.fst_run` — what the calls of an iterator give;
* `Query.losesNoMatch_iff` — when an iterator gives a row for every match.
-/

namespace EntityStore

/-! ### Matches -/

namespace Query

/-- The matches, in the order of the candidates. -/
def matching (q : Query) (w : World) : List Entity :=
  (q.candidates w).filter (Term.allHold w · q.terms)

theorem count_eq_length (q : Query) (w : World) : q.count w = (q.matching w).length :=
  List.countP_eq_length_filter

section

variable {q : Query} {w : World} (hw : w.Valid) (hanchored : q.anchored = !unanchored q.patterns)

include hw hanchored

theorem mem_matching_iff (e : Entity) : e ∈ q.matching w ↔ q.selects w e = true := by
  have hall := candidatesFor hw hanchored
  rw [matching]
  rw [List.mem_filter]
  constructor
  · rintro ⟨hmem, hholds⟩
    exact selects_iff.2 ⟨canMatch_of_mem_candidates hmem, hholds⟩
  · intro he
    exact ⟨hall.complete e he, (selects_iff.1 he).2⟩

theorem nodup_matching : (q.matching w).Nodup :=
  (candidatesFor hw hanchored).nodup.filter _

theorem isAlive_of_selects {e : Entity} (he : q.selects w e = true) : w.isAlive e = true :=
  have hall := candidatesFor hw hanchored
  hall.alive e (hall.complete e he)

theorem setOf_selects_eq :
    {e | q.selects w e = true} = ↑(q.matching w).toFinset := by
  ext e
  rw [List.coe_toFinset]
  exact (mem_matching_iff hw hanchored e).symm

theorem count_eq_ncard : q.count w = {e | q.selects w e = true}.ncard := by
  rw [setOf_selects_eq hw hanchored, Set.ncard_coe_finset,
    List.toFinset_card_of_nodup (nodup_matching hw hanchored), count_eq_length]

end

end Query

/-- Distinct live entities live in distinct slots. -/
theorem World.pairwise_slot_ne {w : World} {l : List Entity} (hnodup : l.Nodup)
    (halive : ∀ e ∈ l, w.isAlive e = true) : l.Pairwise fun e e' => e.slot ≠ e'.slot := by
  rw [List.nodup_iff_pairwise_ne] at hnodup
  refine hnodup.imp_of_mem ?_
  intro e e' he he' hne hslot
  exact hne (Allocator.eq_of_slot_eq (halive e he) (halive e' he') hslot)

/-! ### What is ahead of a traversal -/

/-- The entities that remain look as they did at the start and have slots of their own; those of
them that matched at the start are pending. -/
structure Ahead (holds : World → Entity → Bool) (start w : World)
    (remaining pending : List Entity) : Prop where
  facets : ∀ e ∈ remaining, w.facets e = start.facets e
  slots : remaining.Pairwise fun e e' => e.slot ≠ e'.slot
  pending : remaining.filter (holds start) = pending

namespace Ahead

variable {holds : World → Entity → Bool} {start w : World} {remaining pending : List Entity}

theorem tail {e : Entity} {rest : List Entity} (h : Ahead holds start w (e :: rest) pending) :
    Ahead holds start w rest (rest.filter (holds start)) where
  facets e' he' := h.facets e' (List.mem_cons_of_mem e he')
  slots := (List.pairwise_cons.1 h.slots).2
  pending := rfl

/-- What does not concern the entities ahead leaves them ahead. -/
theorem of_facets_eq {w' : World} (h : Ahead holds start w remaining pending)
    (hsame : ∀ e ∈ remaining, w'.facets e = w.facets e) :
    Ahead holds start w' remaining pending where
  facets e he := (hsame e he).trans (h.facets e he)
  slots := h.slots
  pending := h.pending

end Ahead

/-- A traversal that stands on the first pending entity, or has none left. -/
inductive Standing (holds : World → Entity → Bool) (start w : World) :
    List Entity → List Entity → Prop where
  | past : Standing holds start w [] []
  | on {e : Entity} {rest pending : List Entity} (slots : ∀ e' ∈ rest, e.slot ≠ e'.slot)
    (ahead : Ahead holds start w rest pending) : Standing holds start w (e :: rest) (e :: pending)

/-- A search that stops at an entity has found what it was looking for. -/
theorem holds_of_dropWhile_eq_cons {holds : Entity → Bool} {l rest : List Entity} {e : Entity}
    (h : l.dropWhile (fun e => !holds e) = e :: rest) : holds e = true := by
  have hhead := List.head?_dropWhile_not (fun e => !holds e) l
  rw [h] at hhead
  simpa using hhead

/-- **The next match is the next one of the start.**  Looking for it passes exactly the entities
that did not match at the start. -/
theorem Ahead.standing {holds : World → Entity → Bool} {start w : World}
    {remaining pending : List Entity}
    (hcongr : ∀ {w w' : World} {e : Entity}, w.facets e = w'.facets e → holds w e = holds w' e)
    (h : Ahead holds start w remaining pending) :
    Standing holds start w (remaining.dropWhile fun e => !holds w e) pending := by
  induction remaining with
  | nil =>
      rw [← h.pending]
      exact .past
  | cons e rest ih =>
      have hsame : holds w e = holds start e := hcongr (h.facets e List.mem_cons_self)
      have hpending := h.pending
      rw [List.filter_cons] at hpending
      rw [List.dropWhile_cons, hsame]
      cases hholds : holds start e with
      | true =>
          rw [hholds, if_pos rfl] at hpending
          rw [← hpending]
          exact .on (List.pairwise_cons.1 h.slots).1 h.tail
      | false =>
          rw [hholds, if_neg Bool.false_ne_true] at hpending
          have htail := h.tail
          rw [hpending] at htail
          exact ih htail

namespace Standing

variable {holds : World → Entity → Bool} {start w : World} {remaining pending : List Entity}

theorem head?_eq (h : Standing holds start w remaining pending) :
    remaining.head? = pending.head? := by
  cases h with
  | past => rfl
  | on _ _ => rfl

/-- What concerns only the entity stood on leaves the traversal standing. -/
theorem of_facets_eq {w' : World} (h : Standing holds start w remaining pending)
    (hsame : ∀ e e', remaining.head? = some e → e.slot ≠ e'.slot → w'.facets e' = w.facets e') :
    Standing holds start w' remaining pending := by
  cases h with
  | past => exact .past
  | @on e rest pending hslots hahead =>
      refine .on hslots (hahead.of_facets_eq ?_)
      intro e' he'
      exact hsame e e' rfl (hslots e' he')

end Standing

theorem Query.ahead {q : Query} {w : World} (hw : w.Valid)
    (hanchored : q.anchored = !unanchored q.patterns) :
    Ahead (fun w e => Term.allHold w e q.terms) w w (q.candidates w) (q.matching w) where
  facets _ _ := rfl
  slots := World.pairwise_slot_ne (candidatesFor hw hanchored).nodup
    (candidatesFor hw hanchored).alive
  pending := rfl

theorem facets_writeThrough (f : Record → Record) (delivered : Option Row) (st : FetchState)
    (e : Entity) : (writeThrough f delivered st).world.facets e = st.world.facets e := by
  cases delivered with
  | none => rfl
  | some row => exact World.facets_updateRow f row st.world e

/-! ### Cursors -/

namespace RowCursor

variable {c : RowCursor} {start : World} {pending : List Entity}

/-- Fetching and writing at a position concerns the entity of that position only. -/
theorem facets_getAll_of_slot_ne {e e' : Entity} (hcurrent : c.current? = some e)
    (hslot : e.slot ≠ e'.slot) (writes : List (Record → Record)) (st : FetchState) :
    (c.getAll writes st).world.facets e' = st.world.facets e' := by
  induction writes generalizing st with
  | nil => rfl
  | cons f rest ih =>
      refine (ih _).trans ?_
      rw [facets_writeThrough]
      obtain ⟨l, hl⟩ := List.head?_eq_some_iff.1 hcurrent
      rw [row]
      rw [hl]
      exact World.facets_fetchRow_of_slot_ne c.query.terms st hslot

theorem query_step (c : RowCursor) (w : World) : (c.step w).query = c.query := by
  rw [step]
  split <;> rfl

theorem query_walk (c : RowCursor) (visits : List (List (Record → Record))) (st : FetchState) :
    (c.walk visits st).1.query = c.query := by
  induction visits generalizing c st with
  | nil => rfl
  | cons writes rest ih => exact (ih _ _).trans (query_step _ _)

theorem standing_step {w : World}
    (h : Standing (fun w e => Term.allHold w e c.query.terms) start w c.remaining pending) :
    Standing (fun w e => Term.allHold w e c.query.terms) start w (c.step w).remaining
      pending.tail := by
  obtain ⟨q, remaining⟩ := c
  cases h with
  | past => exact .past
  | on hslots hahead => exact hahead.standing fun hfacets => Term.allHold_congr hfacets q.terms

/-- **A walk keeps to the matches of the start.**  After so many steps it stands on the first of
those that are left. -/
theorem standing_walk (c : RowCursor) (st : FetchState)
    (h : Standing (fun w e => Term.allHold w e c.query.terms) start st.world c.remaining pending)
    (visits : List (List (Record → Record))) :
    Standing (fun w e => Term.allHold w e c.query.terms) start (c.walk visits st).2.world
      (c.walk visits st).1.remaining (pending.drop visits.length) := by
  induction visits generalizing c st pending with
  | nil => exact h
  | cons writes rest ih =>
      have hget : Standing (fun w e => Term.allHold w e c.query.terms) start
          (c.getAll writes st).world c.remaining pending := by
        refine h.of_facets_eq ?_
        intro e e' hcurrent hslot
        exact facets_getAll_of_slot_ne hcurrent hslot writes st
      have hstep := standing_step hget
      rw [← query_step c (c.getAll writes st).world] at hstep
      have hall := ih _ _ hstep
      rw [query_step, List.drop_tail] at hall
      exact hall

end RowCursor

/-! ### Iterators -/

namespace RowIterator

/-- `next` looks for a match and fetches its row. -/
theorem nextOf_eq (ts : List (Term Column)) (remaining : List Entity) (st : FetchState) :
    nextOf ts remaining st =
      match remaining.dropWhile fun e => !Term.allHold st.world e ts with
      | [] => (none, [], st)
      | e :: rest => ((fetchRow e ts st).1, rest, (fetchRow e ts st).2) := by
  induction remaining with
  | nil => rfl
  | cons e rest ih =>
      rw [nextOf]
      rw [List.dropWhile_cons]
      cases Term.allHold st.world e ts with
      | true => rfl
      | false => exact ih

theorem next_eq (it : RowIterator) (st : FetchState) :
    it.next st =
      match it.remaining.dropWhile fun e => !Term.allHold st.world e it.query.terms with
      | [] => (none, { it with remaining := [] }, st)
      | e :: rest =>
        ((fetchRow e it.query.terms st).1, { it with remaining := rest },
          (fetchRow e it.query.terms st).2) := by
  rw [next]
  rw [nextOf_eq]
  cases it.remaining.dropWhile fun e => !Term.allHold st.world e it.query.terms <;> rfl

variable {it : RowIterator} {start : World} {e : Entity} {pending : List Entity}
  {st : FetchState}

/-- With no match ahead, nothing is given and nothing happens. -/
theorem next_of_ahead_nil
    (h : Ahead (fun w e => Term.allHold w e it.query.terms) start st.world it.remaining []) :
    it.next st = (none, { it with remaining := [] }, st) := by
  have hstanding := h.standing fun hfacets => Term.allHold_congr hfacets it.query.terms
  rw [next_eq]
  generalize it.remaining.dropWhile _ = left at hstanding
  cases hstanding
  rfl

/-- With a match ahead, its row is fetched, and the later matches stay ahead. -/
theorem next_of_ahead_cons
    (h : Ahead (fun w e => Term.allHold w e it.query.terms) start st.world it.remaining
      (e :: pending)) :
    ∃ rest, it.next st = ((fetchRow e it.query.terms st).1, { it with remaining := rest },
        (fetchRow e it.query.terms st).2) ∧
      st.world.facets e = start.facets e ∧
      Ahead (fun w e => Term.allHold w e it.query.terms) start
        (fetchRow e it.query.terms st).2.world rest pending := by
  have hstanding := h.standing fun hfacets => Term.allHold_congr hfacets it.query.terms
  have hmem : ∀ e' ∈ it.remaining.dropWhile fun e => !Term.allHold st.world e it.query.terms,
      e' ∈ it.remaining := fun e' he' => (List.dropWhile_sublist _).subset he'
  rw [next_eq]
  generalize it.remaining.dropWhile _ = left at hstanding hmem
  cases hstanding with
  | @on _ rest _ hslots hahead =>
      refine ⟨rest, rfl, h.facets e (hmem e List.mem_cons_self), hahead.of_facets_eq ?_⟩
      intro e' he'
      exact World.facets_fetchRow_of_slot_ne it.query.terms st (hslots e' he')

/-- The calls of an iterator come to the matches of the start one after the other. -/
theorem upcoming?_skip (it : RowIterator) (st : FetchState)
    (h : Ahead (fun w e => Term.allHold w e it.query.terms) start st.world it.remaining pending)
    (k : Nat) : (it.skip k st).1.upcoming? (it.skip k st).2.world = pending[k]? := by
  induction k generalizing it st pending with
  | zero =>
      have hstanding := h.standing fun hfacets => Term.allHold_congr hfacets it.query.terms
      have hhead := hstanding.head?_eq
      rw [List.head?_eq_getElem? (l := pending)] at hhead
      exact (List.find?_eq_head?_dropWhile_not _ _).trans hhead
  | succ k ih =>
      rw [skip_succ]
      cases pending with
      | nil =>
          have hnone : Ahead (fun w e => Term.allHold w e it.query.terms) start st.world [] [] :=
            ⟨by simp, List.Pairwise.nil, rfl⟩
          rw [next_of_ahead_nil h]
          exact ih { it with remaining := [] } _ hnone
      | cons e pending =>
          obtain ⟨left, hnext, _, hahead⟩ := next_of_ahead_cons h
          rw [hnext]
          exact ih { it with remaining := left } _ hahead

/-- **What the calls of an iterator give.**  One after the other they give the rows of the
matches of the start, as they would have been fetched then, and nothing after the last. -/
theorem fst_run (it : RowIterator) (st : FetchState)
    (h : Ahead (fun w e => Term.allHold w e it.query.terms) start st.world it.remaining pending)
    (writes : List (Record → Record)) :
    (it.run writes st).1 = (List.range writes.length).map fun i =>
      pending[i]?.bind fun e => (fetchRow e it.query.terms { world := start }).1 := by
  induction writes generalizing it st pending with
  | nil => rfl
  | cons f rest ih =>
      rw [fst_run_cons, List.length_cons, List.range_succ_eq_map, List.map_cons, List.map_map]
      cases pending with
      | nil =>
          have hnone : Ahead (fun w e => Term.allHold w e it.query.terms) start st.world [] [] :=
            ⟨by simp, List.Pairwise.nil, rfl⟩
          rw [next_of_ahead_nil h]
          exact congrArg _ (ih { it with remaining := [] } _ hnone)
      | cons e pending =>
          obtain ⟨left, hnext, hlook, hahead⟩ := next_of_ahead_cons h
          have hrow : (fetchRow e it.query.terms st).1 =
              (fetchRow e it.query.terms { world := start }).1 :=
            (fetchRow_alike hlook it.query.terms).1
          have hlater : Ahead (fun w e => Term.allHold w e it.query.terms) start
              (writeThrough f (fetchRow e it.query.terms st).1
                (fetchRow e it.query.terms st).2).world left pending := by
            refine hahead.of_facets_eq ?_
            intro e' _
            exact facets_writeThrough f _ _ e'
          rw [hnext]
          refine congrArg₂ _ hrow ?_
          exact ih { it with remaining := left } _ hlater

end RowIterator

/-! ### Queries on reachable stores -/

namespace Query

theorem standing_cursor {q : Query} {w : World} (hw : w.Valid)
    (hanchored : q.anchored = !unanchored q.patterns) :
    Standing (fun w e => Term.allHold w e q.terms) w w (q.cursor w).remaining (q.matching w) :=
  (ahead hw hanchored).standing fun hfacets => Term.allHold_congr hfacets q.terms

/-- **Membership, counting and walking agree.**  Of a query on a reachable store every match is
alive; the number of matches is the count; and a cursor stops at the matches, each once and in
the order of the candidates, and then at nothing more, however often rows are fetched and written
where it stands. -/
theorem cursor_visits_matches {s s' : Store} {ts : List (Term ComponentType)} {q : Query}
    (hs : s.Reachable) (h : s.prepare ts = (.ok q, s')) :
    (∀ e, q.selects s'.world e = true → s'.world.isAlive e = true) ∧
      {e | q.selects s'.world e = true}.Finite ∧
      q.count s'.world = {e | q.selects s'.world e = true}.ncard ∧
      (q.matching s'.world).Sublist (q.candidates s'.world) ∧
      (q.matching s'.world).Nodup ∧
      (∀ e, e ∈ q.matching s'.world ↔ q.selects s'.world e = true) ∧
      ∀ (visits : List (List (Record → Record))) (c : RowCursor) (st : FetchState),
        (q.cursor s'.world).walk visits { world := s'.world } = (c, st) →
          c.current? = (q.matching s'.world)[visits.length]? ∧
            (c.isPast = true ↔ q.count s'.world ≤ visits.length) := by
  have hvalid := (Store.valid_of_prepare hs.valid h).world
  have hanchored := (Store.prepared_of_prepare h).anchored
  refine ⟨fun e => isAlive_of_selects hvalid hanchored, ?_, count_eq_ncard hvalid hanchored,
    List.filter_sublist, nodup_matching hvalid hanchored, mem_matching_iff hvalid hanchored, ?_⟩
  · rw [setOf_selects_eq hvalid hanchored]
    exact Finset.finite_toSet _
  · intro visits c st hwalk
    have hstanding := RowCursor.standing_walk (q.cursor s'.world) { world := s'.world }
      (standing_cursor hvalid hanchored) visits
    have hhead := hstanding.head?_eq
    rw [hwalk, List.head?_drop] at hhead
    have hcurrent : c.current? = (q.matching s'.world)[visits.length]? := hhead
    refine ⟨hcurrent, ?_⟩
    rw [count_eq_length, ← List.getElem?_eq_none_iff, ← hcurrent]
    exact List.isEmpty_iff.trans List.head?_eq_none_iff.symm

/-- The query for the levels of the sample store, to write them. -/
def levels : Query :=
  { terms := [.single (.component ⟨Catalogue.level, ⟨0⟩⟩ true)], served := true, anchored := true }

/-- In the sample store two entities have levels, and a cursor that fetched one of them twice
stands on the other. -/
theorem cursor_visits_levels :
    Store.sample.Reachable ∧ ∃ s',
      Store.sample.prepare [.single (.component Catalogue.level true)] = (.ok levels, s') ∧
        {e | levels.selects s'.world e = true}.ncard = 2 ∧
        ((levels.cursor s'.world).walk [[id, id]] { world := s'.world }).1.current? =
          some ⟨2, 0⟩ := by
  let ts : List (Term ComponentType) := [.single (.component Catalogue.level true)]
  have hprepared : Store.sample.prepare ts = (.ok levels, (Store.sample.prepare ts).2) := rfl
  have hvisits := cursor_visits_matches Store.reachable_sample hprepared
  obtain ⟨-, -, hcount, -, -, -, hwalk⟩ := hvisits
  refine ⟨Store.reachable_sample, _, hprepared, ?_, ?_⟩
  · exact hcount.symm
  · exact (hwalk [[id, id]] _ _ rfl).1

/-- What the calls of an iterator give that is started on a world. -/
def answers (q : Query) (w : World) (writes : List (Record → Record)) : List (Option Row) :=
  ((q.rows w).run writes { world := w }).1

/-- An iterator gives a row for each match and nothing afterwards. -/
def LosesNoMatch (q : Query) (w : World) : Prop :=
  ∀ writes i, i < writes.length →
    ((q.answers w writes)[i]?.join.isSome = true ↔ i < q.count w)

theorem getElem?_answers {q : Query} {w : World} (hw : w.Valid)
    (hanchored : q.anchored = !unanchored q.patterns) {writes : List (Record → Record)} {i : Nat}
    (hi : i < writes.length) :
    (q.answers w writes)[i]?.join =
      (q.matching w)[i]?.bind fun e => (fetchRow e q.terms { world := w }).1 := by
  have hrun := RowIterator.fst_run (q.rows w) { world := w } (ahead hw hanchored) writes
  rw [answers]
  rw [hrun, List.getElem?_map, List.getElem?_range hi]
  rfl

theorem losesNoMatch_iff {q : Query} {w : World} (hw : w.Valid)
    (hanchored : q.anchored = !unanchored q.patterns) :
    q.LosesNoMatch w ↔ ∀ e, q.selects w e = true → ¬ Spoiled q.terms w e := by
  have hdelivered : ∀ e, ¬ Spoiled q.terms w e ↔
      (fetchRow e q.terms { world := w }).1.isSome = true := by
    intro e
    rw [← fetchRow_eq_none_iff hw, ← Option.not_isSome_iff_eq_none, not_not]
  constructor
  · intro hall e he
    obtain ⟨i, hi, hget⟩ := List.mem_iff_getElem.1 ((mem_matching_iff hw hanchored e).2 he)
    have hlong : i < (List.replicate (i + 1) (id : Record → Record)).length := by simp
    have hsome := (hall _ i hlong).2 (by rw [count_eq_length]; exact hi)
    rw [getElem?_answers hw hanchored hlong, List.getElem?_eq_getElem hi, hget,
      Option.bind_some] at hsome
    exact (hdelivered e).2 hsome
  · intro hall writes i hi
    rw [getElem?_answers hw hanchored hi, count_eq_length]
    constructor
    · intro hsome
      by_contra hpast
      rw [List.getElem?_eq_none (Nat.le_of_not_lt hpast)] at hsome
      cases hsome
    · intro hlt
      have hmem := (mem_matching_iff hw hanchored _).1 (List.getElem_mem hlt)
      rw [List.getElem?_eq_getElem hlt]
      exact (hdelivered _).1 (hall _ hmem)

end Query

end EntityStore
