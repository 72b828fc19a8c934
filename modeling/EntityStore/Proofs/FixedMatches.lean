import EntityStore.Proofs.Traversal

/-!
# Untyped cursors keep their matches

An accepted untyped query matches an entity by presence and by flags, and the only flags that its
cursor sets are those of entities that match already.  So what matches when the cursor is started
matches for ever, and the cursor walks along these matches whatever is visited and written on the
way.

* `UntypedTerm.holds_perform` — loading the accessors for a match changes no match;
* `UntypedQuery.candidatesFor` — the candidates of an untyped query are all that matches it;
* `UntypedQuery.matching` — the matches at the start, in the order of the candidates;
* `UntypedCursor.Steady` — what every call of a cursor keeps;
* `Steady.apply`, `Steady.run` — one call, and any number of them;
* `Store.cursor_matches_are_fixed` — membership, position and count throughout.
-/

namespace EntityStore

/-! ### Loading accessors changes no match -/

namespace UntypedTerm

theorem finds_eq (t : UntypedTerm) (w : World) (e : Entity) :
    t.finds w e = ((w.facets e t.component).map Facet.held).getD false := by
  rw [finds, World.facets, Option.map_map]
  rfl

theorem holds_changed_eq {t : UntypedTerm} (h : t.requirement = .changed) (w : World)
    (e : Entity) :
    t.holds w e = ((w.facets e t.component).map fun x => x.held && x.marked).getD false := by
  rw [holds, World.facets, Option.map_map]
  simp only [h]
  rfl

theorem holds_congr {w w' : World} {e : Entity} (h : w.facets e = w'.facets e)
    (t : UntypedTerm) : t.holds w e = t.holds w' e := by
  cases hr : t.requirement with
  | changed => rw [holds_changed_eq hr, holds_changed_eq hr, h]
  | _ => simp only [holds, hr, finds_eq, h]

theorem finds_perform (t : UntypedTerm) (st : FetchState) (e : Entity) (fs : List Fetch)
    (e' : Entity) : t.finds (st.perform e fs).world e' = t.finds st.world e' := by
  obtain ⟨flagged, _, hfacet⟩ := World.facets_perform st e fs e' t.component
  rw [finds_eq, finds_eq, hfacet, Option.map_map]
  rfl

/-- **Fetches for a match change no match.**  The match itself stays one, nobody else in its slot
holds the component, and other slots are not concerned. -/
theorem holds_perform {st : FetchState} (hw : st.world.Valid) {e : Entity}
    (halive : st.world.isAlive e = true) {t : UntypedTerm} (hholds : t.holds st.world e = true)
    (fs : List Fetch) (e' : Entity) :
    t.holds (st.perform e fs).world e' = t.holds st.world e' := by
  cases hr : t.requirement with
  | changed =>
      by_cases hslot : e.slot = e'.slot
      · rw [holds_changed_eq hr] at hholds ⊢
        rw [holds_changed_eq hr]
        obtain ⟨flagged, _, hfacet⟩ := World.facets_perform st e fs e' t.component
        rw [hfacet]
        cases hx : st.world.facets e' t.component with
        | none => rfl
        | some x =>
            show (x.held && (x.marked || flagged)) = (x.held && x.marked)
            cases hheld : x.held with
            | false => rfl
            | true =>
                -- whoever is held in the slot is the match, which is flagged already
                obtain ⟨s, hs, rfl⟩ := Option.map_eq_some_iff.1 hx
                have halive' := hw.alive _ s hs e' hheld
                have hsame : e = e' := Allocator.eq_of_slot_eq halive halive' hslot
                subst hsame
                rw [hx] at hholds
                have hmarked := (Bool.and_eq_true_iff.1 hholds).2
                rw [hmarked, Bool.true_or]
      · exact holds_congr (World.facets_perform_of_slot_ne st fs hslot) t
  | _ => simp only [holds, hr, finds_perform]

/-- A match of a term that anchors is held. -/
theorem exists_of_holds {t : UntypedTerm} (hanchors : t.anchors = true) {w : World} {e : Entity}
    (h : t.holds w e = true) : ∃ s, w.storage? t.component = some s ∧ s.contains e = true := by
  rw [anchors] at hanchors
  rw [holds, finds] at h
  cases hs : w.storage? t.component with
  | none =>
      cases hr : t.requirement <;> simp [hr, hs] at hanchors h
  | some s =>
      refine ⟨s, rfl, ?_⟩
      cases hr : t.requirement <;> simp_all

end UntypedTerm

/-! ### Candidates -/

theorem shorter_some (best : Option (List Entity)) (l : List Entity) :
    shorter best (some l) = best ∨ shorter best (some l) = some l := by
  cases best with
  | none => exact .inr rfl
  | some a =>
      by_cases h : l.length < a.length
      · exact .inr (if_pos h)
      · exact .inl (if_neg h)

namespace UntypedQuery

/-- The candidates are none, or the best list so far, or the entities of an anchoring term. -/
theorem candidatesOf_cases (w : World) (ts : List UntypedTerm) (best : Option (List Entity)) :
    candidatesOf w ts best = [] ∨ best = some (candidatesOf w ts best) ∨
      ∃ t ∈ ts, t.anchors = true ∧
        ∃ s, w.storage? t.component = some s ∧ candidatesOf w ts best = s.entities := by
  induction ts generalizing best with
  | nil => cases best <;> simp [candidatesOf]
  | cons t rest ih =>
      have hlater : ∀ {l : List Entity}, (∃ t' ∈ rest, t'.anchors = true ∧
            ∃ s, w.storage? t'.component = some s ∧ l = s.entities) →
          ∃ t' ∈ t :: rest, t'.anchors = true ∧
            ∃ s, w.storage? t'.component = some s ∧ l = s.entities := by
        rintro l ⟨t', ht', hfound⟩
        exact ⟨t', List.mem_cons_of_mem t ht', hfound⟩
      rw [candidatesOf]
      cases hanchors : t.anchors with
      | false =>
          rw [if_neg Bool.false_ne_true]
          exact (ih best).imp_right (Or.imp_right hlater)
      | true =>
          rw [if_pos rfl]
          cases hs : w.storage? t.component with
          -- an anchoring term without a storage ends the search with nobody
          | none => exact .inl rfl
          | some s =>
              simp only
              rcases shorter_some best s.entities with hbest | hbest
              · rw [hbest]
                exact (ih best).imp_right (Or.imp_right hlater)
              · rw [hbest]
                rcases ih (some s.entities) with hnil | hsame | hrest
                · exact .inl hnil
                · exact .inr (.inr ⟨t, List.mem_cons_self, hanchors, s, hs,
                    (Option.some.inj hsame).symm⟩)
                · exact .inr (.inr (hlater hrest))

def start (q : UntypedQuery) (w : World) : UntypedCursor :=
  { terms := q.terms
    entities := q.candidates w
    remaining := q.candidates w
    current := .null
    phase := .begun
    targets := q.terms.map fun _ => none }

/-- **The candidates of one term are enough**, also for an untyped query. -/
theorem candidatesFor (q : UntypedQuery) {w : World} (hw : w.Valid) :
    CandidatesFor w ((q.start w).selects w) (q.candidates w) := by
  have hcases := candidatesOf_cases w q.terms none
  rcases hcases with hnil | hnone | ⟨t, ht, hanchors, s, hs, hentities⟩
  · have hempty : q.candidates w = [] := hnil
    refine ⟨by rw [hempty]; exact List.nodup_nil, by rw [hempty]; simp, ?_⟩
    intro e he
    rw [UntypedCursor.selects] at he
    simp [start, hempty] at he
  · cases hnone
  · have hlist : q.candidates w = s.entities := hentities
    have hvalid := hw.storage _ s hs
    rw [hlist]
    refine ⟨hvalid.nodup_entities, ?_, ?_⟩
    · intro e he
      exact hw.alive _ s hs e ((hvalid.contains_iff_mem e).2 he)
    · intro e he
      have hall := (Bool.and_eq_true_iff.1 he).2
      have hholds := List.all_eq_true.1 hall t ht
      obtain ⟨s', hs', hheld⟩ := UntypedTerm.exists_of_holds hanchors hholds
      rw [hs] at hs'
      cases hs'
      exact (hvalid.contains_iff_mem e).1 hheld

/-- The matches, in the order of the candidates. -/
def matching (q : UntypedQuery) (w : World) : List Entity :=
  (q.candidates w).filter ((q.start w).selects w)

theorem mem_matching_iff (q : UntypedQuery) {w : World} (hw : w.Valid) (e : Entity) :
    e ∈ q.matching w ↔ (q.start w).selects w e = true := by
  rw [matching, List.mem_filter]
  constructor
  · exact fun h => h.2
  · exact fun h => ⟨(q.candidatesFor hw).complete e h, h⟩

theorem nodup_matching (q : UntypedQuery) {w : World} (hw : w.Valid) : (q.matching w).Nodup :=
  (q.candidatesFor hw).nodup.filter _

end UntypedQuery

/-! ### Searching -/

/-- A search passes what was not looked for. -/
theorem filter_dropWhile_not (p : Entity → Bool) (l : List Entity) :
    (l.dropWhile fun e => !p e).filter p = l.filter p := by
  induction l with
  | nil => rfl
  | cons e rest ih =>
      cases he : p e with
      | true => rw [List.dropWhile_cons_of_neg (by simp [he])]
      | false =>
          rw [List.dropWhile_cons_of_pos (by simp [he]), ih,
            List.filter_cons_of_neg (by simp [he])]

/-! ### What the calls of a cursor keep -/

/-- Writing through an accessor shows in no facet. -/
theorem Accessor.facets_write (a : Accessor) (w : World) (field : String) (v : Value)
    (e : Entity) : (a.write w field v).2.facets e = w.facets e := by
  rw [snd_write]
  split
  · cases a.target with
    | none => rfl
    | some target =>
        exact World.facets_modifyStorage fun s => s.facet_writeField target field v e
  · rfl

/-- An open cursor moves on by a search from the next candidate. -/
theorem UntypedCursor.next_of_open {c : UntypedCursor} (h : c.phase ≠ .ended) (st : FetchState) :
    c.next st = { c with phase := .iterating, remaining := c.remaining.drop 1 }.seek st := by
  rw [next]
  cases hphase : c.phase with
  | ended => exact absurd hphase h
  | begun => rfl
  | iterating => rfl

/-- The cursor belongs to a walk that started from `start`, and matches are what they were then. -/
structure Steady (q : UntypedQuery) (start : World) (c : UntypedCursor) (w : World) : Prop where
  terms : c.terms = q.terms
  candidates : c.entities = q.candidates start
  valid : w.Valid
  alive : w.entities = start.entities
  selects : ∀ e, c.selects w e = (q.start start).selects start e

namespace Steady

variable {q : UntypedQuery} {start w : World} {c : UntypedCursor} {st : FetchState}

theorem refl (q : UntypedQuery) (hstart : start.Valid) : Steady q start (q.start start) start where
  terms := rfl
  candidates := rfl
  valid := hstart
  alive := rfl
  selects _ := rfl

/-- Only terms and candidates of a cursor decide what it matches. -/
theorem of_eq (h : Steady q start c w) {c' : UntypedCursor} (hterms : c'.terms = c.terms)
    (hcandidates : c'.entities = c.entities) : Steady q start c' w where
  terms := hterms.trans h.terms
  candidates := hcandidates.trans h.candidates
  valid := h.valid
  alive := h.alive
  selects e := by
    rw [← h.selects e, UntypedCursor.selects, UntypedCursor.selects, hterms, hcandidates]

/-- What leaves every term as it is keeps the matches. -/
theorem of_holds (h : Steady q start c w) {w' : World} (hwithin : w'.Within w)
    (hholds : ∀ t ∈ c.terms, ∀ e, t.holds w' e = t.holds w e) : Steady q start c w' where
  terms := h.terms
  candidates := h.candidates
  valid := hwithin.valid h.valid
  alive := hwithin.entities.trans h.alive
  selects e := by
    have hall : (c.terms.all fun t => t.holds w' e) = c.terms.all fun t => t.holds w e := by
      rw [Bool.eq_iff_iff, List.all_eq_true, List.all_eq_true]
      exact forall₂_congr fun t ht => by rw [hholds t ht e]
    rw [← h.selects e, UntypedCursor.selects, UntypedCursor.selects, hall]

/-- A match is one of the candidates at the start, and alive. -/
theorem isAlive (h : Steady q start c w) (hstart : start.Valid) {e : Entity}
    (he : c.selects w e = true) : w.isAlive e = true := by
  have hcandidates := q.candidatesFor hstart
  rw [h.selects e] at he
  have halive := hcandidates.alive e (hcandidates.complete e he)
  rw [World.isAlive, h.alive]
  exact halive

/-- **Pointing at a match keeps the matches.** -/
theorem point (h : Steady q start c st.world) (hstart : start.Valid) {e : Entity}
    (he : c.selects st.world e = true) :
    Steady q start (c.point e st).1 (c.point e st).2.world := by
  have halive := h.isAlive hstart he
  have hall := List.all_eq_true.1 (Bool.and_eq_true_iff.1 he).2
  have hpointed : Steady q start c (pointAll e c.terms st).2.world := by
    obtain ⟨fs, hst, _⟩ := fetches_pointAll e c.terms st
    refine h.of_holds (World.within_pointAll e c.terms st) ?_
    intro t ht e'
    rw [hst]
    exact UntypedTerm.holds_perform h.valid halive (hall t ht) fs e'
  exact hpointed.of_eq rfl rfl

theorem seek (h : Steady q start c st.world) (hstart : start.Valid) :
    Steady q start (c.seek st).1 (c.seek st).2.world := by
  rw [UntypedCursor.seek]
  split
  · exact h.of_eq rfl rfl
  · next e rest hleft =>
    have he : c.selects st.world e = true := holds_of_dropWhile_eq_cons hleft
    have hmoved : Steady q start { c with remaining := e :: rest, current := e } st.world :=
      h.of_eq rfl rfl
    exact hmoved.point hstart he

/-- Writing through an accessor changes instances, which no term looks at. -/
theorem write (h : Steady q start c st.world) (a : Accessor) (field : String) (v : Value) :
    Steady q start c (a.write st.world field v).2 := by
  refine h.of_holds (a.within_write st.world field v) ?_
  intro t _ e
  exact UntypedTerm.holds_congr (a.facets_write st.world field v e) t

/-- **Every call keeps the matches.** -/
theorem apply (h : Steady q start c st.world) (hstart : start.Valid) (use : UntypedUse) :
    Steady q start (use.apply c st).1 (use.apply c st).2.world := by
  cases use with
  | next =>
      show Steady q start (c.next st).1 (c.next st).2.world
      have hmoved : Steady q start
          { c with phase := .iterating, remaining := c.remaining.drop 1 } st.world :=
        h.of_eq rfl rfl
      rw [UntypedCursor.next]
      split
      · exact h
      · exact hmoved.seek hstart
      · exact hmoved.seek hstart
  | visit e =>
      show Steady q start (c.visit e st).2.1 (c.visit e st).2.2.world
      rw [UntypedCursor.visit]
      split
      · next he => exact h.point hstart he
      · exact h
  | drain => exact h.of_eq rfl rfl
  | write index field v =>
      cases haccessor : c.accessor? index with
      | none =>
          simp only [UntypedUse.apply, haccessor]
          exact h
      | some a =>
          simp only [UntypedUse.apply, haccessor]
          exact h.write a field v

theorem run (h : Steady q start c st.world) (hstart : start.Valid) (uses : List UntypedUse) :
    Steady q start (UntypedUse.run uses c st).1 (UntypedUse.run uses c st).2.world := by
  induction uses generalizing c st with
  | nil => exact h
  | cons use rest ih => exact ih (h.apply hstart use)

theorem mem_matching_iff (h : Steady q start c w) (hstart : start.Valid) (e : Entity) :
    c.selects w e = true ↔ e ∈ q.matching start := by
  rw [h.selects e, q.mem_matching_iff hstart]

/-- The count is that of the matches, wherever the cursor is. -/
theorem fst_drain (h : Steady q start c w) : (c.drain w).1 = (q.matching start).length := by
  rw [UntypedCursor.drain, UntypedQuery.matching, ← List.countP_eq_length_filter, h.candidates]
  exact List.countP_congr fun e _ => by rw [h.selects e]

end Steady

/-! ### Where a cursor stands -/

/-- The cursor has made `k` steps along its matches: it stands on the match at that position, or
it has passed the last one and is closed. -/
structure UntypedCursor.StandsAt (c : UntypedCursor) (matching : List Entity) (k : Nat) :
    Prop where
  current : c.current = matching[k]?.getD .null
  phase : c.phase =
    if matching.length ≤ k then .ended else if k = 0 then .begun else .iterating

/-- Where the cursor stands, with what is still before it: the matches that come next are among
the candidates that come next. -/
structure Walking (q : UntypedQuery) (start : World) (k : Nat) (c : UntypedCursor) : Prop where
  stands : c.StandsAt (q.matching start) k
  before : k < (q.matching start).length →
    c.remaining.filter ((q.start start).selects start) = (q.matching start).drop k ∧
      c.remaining.head? = some c.current

namespace Walking

variable {q : UntypedQuery} {start : World} {k : Nat} {c : UntypedCursor} {st : FetchState}

theorem of_le (hk : (q.matching start).length ≤ k) (hcurrent : c.current = .null)
    (hphase : c.phase = .ended) : Walking q start k c where
  stands :=
    { current := by rw [hcurrent, List.getElem?_eq_none hk]; rfl
      phase := by rw [hphase, if_pos hk] }
  before hlt := absurd hk (Nat.not_le.2 hlt)

theorem ended (h : Walking q start k c) (hk : (q.matching start).length ≤ k) :
    c.current = .null ∧ c.phase = .ended := by
  have hcurrent := h.stands.current
  have hphase := h.stands.phase
  rw [List.getElem?_eq_none hk] at hcurrent
  rw [if_pos hk] at hphase
  exact ⟨hcurrent, hphase⟩

theorem open_of_lt (h : Walking q start k c) (hk : k < (q.matching start).length) :
    c.phase ≠ .ended := by
  rw [h.stands.phase, if_neg (Nat.not_le.2 hk)]
  split <;> nofun

/-- Past the last match all positions are the same. -/
theorem of_past (h : Walking q start k c) (hk : (q.matching start).length ≤ k) {k' : Nat}
    (hk' : (q.matching start).length ≤ k') : Walking q start k' c :=
  of_le hk' (h.ended hk).1 (h.ended hk).2

/-- **A search finds the match at its position.** -/
theorem seek (h : Steady q start c st.world)
    (hbefore : c.remaining.filter ((q.start start).selects start) = (q.matching start).drop k)
    (hphase : c.phase = if k = 0 then .begun else .iterating) :
    Walking q start k (c.seek st).1 := by
  have hselects : (fun e => !c.selects st.world e) =
      fun e => !(q.start start).selects start e := funext fun e => by rw [h.selects e]
  have hfound := filter_dropWhile_not ((q.start start).selects start) c.remaining
  rw [UntypedCursor.seek, hselects]
  split
  · next hleft =>
    rw [hleft, hbefore] at hfound
    exact of_le (List.drop_eq_nil_iff.1 hfound.symm) rfl rfl
  · next e rest hleft =>
    have he : (q.start start).selects start e = true := holds_of_dropWhile_eq_cons hleft
    rw [hleft, hbefore] at hfound
    have hhead : (q.matching start)[k]? = some e := by
      rw [← List.head?_drop, ← hfound, List.filter_cons_of_pos he]
      rfl
    have hlt : k < (q.matching start).length := (List.getElem?_eq_some_iff.1 hhead).1
    refine ⟨⟨?_, ?_⟩, ?_⟩
    · show e = _
      rw [hhead]
      rfl
    · show c.phase = _
      rw [hphase, if_neg (Nat.not_le.2 hlt)]
    · intro _
      exact ⟨hfound, rfl⟩

/-- **A step leads to the next match.** -/
theorem next (h : Walking q start k c) (hsteady : Steady q start c st.world) :
    Walking q start (k + 1) (c.next st).1 := by
  by_cases hk : (q.matching start).length ≤ k
  · rw [UntypedCursor.next_of_ended (h.ended hk).2]
    exact h.of_past hk (Nat.le_succ_of_le hk)
  · have hlt : k < (q.matching start).length := Nat.not_le.1 hk
    obtain ⟨hfilter, hhead⟩ := h.before hlt
    -- the current entity matches, so it is the head of what is left to visit
    have hrest : (c.remaining.drop 1).filter ((q.start start).selects start) =
        (q.matching start).drop (k + 1) := by
      obtain ⟨rest, hremaining⟩ := List.head?_eq_some_iff.1 hhead
      have hcurrent : (q.start start).selects start c.current = true := by
        have hmem : c.current ∈ q.matching start := by
          rw [h.stands.current, List.getElem?_eq_getElem hlt]
          exact List.getElem_mem hlt
        exact (List.mem_filter.1 hmem).2
      rw [hremaining, List.filter_cons_of_pos hcurrent] at hfilter
      have htail := congrArg List.tail hfilter
      rw [List.tail_cons, List.tail_drop] at htail
      rw [hremaining]
      exact htail
    rw [UntypedCursor.next_of_open (h.open_of_lt hlt)]
    exact seek (hsteady.of_eq rfl rfl) hrest rfl

theorem close (c : UntypedCursor) (hk : (q.matching start).length ≤ k) :
    Walking q start k c.close :=
  of_le hk rfl rfl

/-- Loading accessors leaves the cursor where it is. -/
theorem point (h : Walking q start k c) (e : Entity) (st : FetchState) :
    Walking q start k (c.point e st).1 :=
  ⟨⟨h.stands.current, h.stands.phase⟩, h.before⟩

end Walking

/-! ### Any number of calls -/

namespace UntypedUse

def isNext : UntypedUse → Bool
  | .next => true
  | .visit _ | .drain | .write .. => false

def isDrain : UntypedUse → Bool
  | .drain => true
  | .next | .visit _ | .write .. => false

/-- The position that calls lead to from position `k` among `n` matches: one further with each
`next`, and past the end with a count. -/
def positionFrom (n k : Nat) (uses : List UntypedUse) : Nat :=
  if uses.any isDrain then n else k + uses.countP isNext

theorem run_cons (use : UntypedUse) (rest : List UntypedUse) (c : UntypedCursor)
    (st : FetchState) :
    run (use :: rest) c st = run rest (use.apply c st).1 (use.apply c st).2 := rfl

end UntypedUse

/-- **The cursor walks along the matches of the start.** -/
theorem Walking.run {q : UntypedQuery} {start : World} {k : Nat} {c : UntypedCursor}
    {st : FetchState} (h : Walking q start k c) (hsteady : Steady q start c st.world)
    (hstart : start.Valid) (uses : List UntypedUse) :
    Walking q start (UntypedUse.positionFrom (q.matching start).length k uses)
      (UntypedUse.run uses c st).1 := by
  induction uses generalizing k c st with
  | nil => exact h
  | cons use rest ih =>
      have hlater := hsteady.apply hstart use
      rw [UntypedUse.run_cons]
      cases use with
      | next =>
          have hnext := ih (h.next hsteady) hlater
          have hposition : UntypedUse.positionFrom (q.matching start).length (k + 1) rest =
              UntypedUse.positionFrom (q.matching start).length k (.next :: rest) := by
            simp only [UntypedUse.positionFrom, List.any_cons, List.countP_cons,
              UntypedUse.isDrain, UntypedUse.isNext, Bool.false_or, if_true]
            rw [Nat.add_assoc, Nat.add_comm 1]
          rw [← hposition]
          exact hnext
      | visit e =>
          have hvisit : Walking q start k (c.visit e st).2.1 := by
            rw [UntypedCursor.visit]
            split
            · exact h.point e st
            · exact h
          exact ih hvisit hlater
      | drain =>
          -- a closed cursor stays closed, whatever is counted later
          have hclosed := ih (close c (Nat.le_refl _)) hlater
          have hpast : (q.matching start).length ≤
              UntypedUse.positionFrom (q.matching start).length (q.matching start).length
                rest := by
            rw [UntypedUse.positionFrom]
            split
            · exact Nat.le_refl _
            · exact Nat.le_add_right _ _
          exact hclosed.of_past hpast (Nat.le_refl _)
      | write index field v =>
          have hwrite : (UntypedUse.apply (.write index field v) c st).1 = c := by
            rw [UntypedUse.apply]
            split <;> rfl
          refine ih ?_ hlater
          rw [hwrite]
          exact h

/-! ### The theorem -/

theorem Store.startQuery_of_check {s : Store} {q : UntypedQuery}
    (h : q.check s.registry = .ok ()) :
    s.startQuery q = .ok ((q.start (q.trace s.world)).seek { world := q.trace s.world }) := by
  rw [Store.startQuery]
  rw [h]
  rfl

/-- A query that was started searched for its first match. -/
theorem Store.seek_of_startQuery {s : Store} {q : UntypedQuery} {c : UntypedCursor}
    {st : FetchState} (h : s.startQuery q = .ok (c, st)) :
    (q.start (q.trace s.world)).seek { world := q.trace s.world } = (c, st) := by
  cases hcheck : q.check s.registry with
  | error err =>
      rw [startQuery] at h
      rw [hcheck] at h
      cases h
  | ok _ =>
      rw [startQuery_of_check hcheck] at h
      exact Except.ok.inj h

/-- **The matches of an untyped cursor are fixed when it is started.**  Every query that passes
its test can be started on every reachable store.  Let its matches be the candidates that match
once tracing is switched on.  Each of them is listed once, and after any number of calls, in any
order, still exactly they match; the cursor stands on the match whose position is the number of
`next` calls, or is closed if there is none or if the matches were counted; and a count gives their
number and closes the cursor. -/
theorem Store.cursor_matches_are_fixed {s : Store} (hs : s.Reachable) {q : UntypedQuery}
    (h : q.check s.registry = .ok ()) :
    ∃ c st, s.startQuery q = .ok (c, st) ∧
      (q.matching (q.trace s.world)).Nodup ∧
      ∀ (uses : List UntypedUse) (c' : UntypedCursor) (st' : FetchState),
        UntypedUse.run uses c st = (c', st') →
          (∀ e, c'.selects st'.world e = true ↔ e ∈ q.matching (q.trace s.world)) ∧
          c'.StandsAt (q.matching (q.trace s.world))
            (UntypedUse.positionFrom (q.matching (q.trace s.world)).length 0 uses) ∧
          (c'.drain st'.world).1 = (q.matching (q.trace s.world)).length ∧
          (c'.drain st'.world).2.StandsAt (q.matching (q.trace s.world))
            (q.matching (q.trace s.world)).length := by
  have hstart : (q.trace s.world).Valid := (within_traceTerms q s.world).valid hs.valid.world
  have hsteady : Steady q (q.trace s.world)
      ((q.start (q.trace s.world)).seek { world := q.trace s.world }).1
      ((q.start (q.trace s.world)).seek { world := q.trace s.world }).2.world :=
    Steady.seek (Steady.refl q hstart) hstart
  have hwalking : Walking q (q.trace s.world) 0
      ((q.start (q.trace s.world)).seek { world := q.trace s.world }).1 := by
    refine Walking.seek (Steady.refl q hstart) ?_ rfl
    rw [List.drop_zero]
    rfl
  have hbegun := startQuery_of_check h
  rcases hseek : (q.start (q.trace s.world)).seek { world := q.trace s.world } with ⟨c, st⟩
  rw [hseek] at hsteady hwalking hbegun
  refine ⟨c, st, hbegun, q.nodup_matching hstart, ?_⟩
  intro uses c' st' hrun
  have hlater := hsteady.run hstart uses
  have hstands := (hwalking.run hsteady hstart uses).stands
  rw [hrun] at hlater hstands
  have hclosed : Walking q (q.trace s.world) (q.matching (q.trace s.world)).length c'.close :=
    Walking.close c' (Nat.le_refl _)
  exact ⟨hlater.mem_matching_iff hstart, hstands, hlater.fst_drain, hclosed.stands⟩

/-- Entities with a level that is written and without a position. -/
def UntypedQuery.sample : UntypedQuery :=
  UntypedQuery.exclude (UntypedQuery.require {} ⟨0⟩ true) ⟨2⟩

/-- On the sample store two entities match.  The cursor comes to the second one with one step,
although that one was visited before and written to. -/
theorem Store.sample_matches_are_fixed :
    Store.sample.Reachable ∧ UntypedQuery.sample.check Store.sample.registry = .ok () ∧
      UntypedQuery.sample.matching (UntypedQuery.sample.trace Store.sample.world) =
        [⟨1, 0⟩, ⟨2, 0⟩] ∧
      ∃ c st, Store.sample.startQuery UntypedQuery.sample = .ok (c, st) ∧
        (UntypedUse.run [.visit ⟨2, 0⟩, .write 0 "value" (.int 5), .next] c st).1.current =
          ⟨2, 0⟩ := by
  have hchecked : UntypedQuery.sample.check Store.sample.registry = .ok () := rfl
  have hmatching : UntypedQuery.sample.matching (UntypedQuery.sample.trace Store.sample.world) =
      [⟨1, 0⟩, ⟨2, 0⟩] := by decide +kernel
  obtain ⟨c, st, hstart, _, hcalls⟩ :=
    Store.cursor_matches_are_fixed Store.reachable_sample hchecked
  refine ⟨Store.reachable_sample, hchecked, hmatching, c, st, hstart, ?_⟩
  have hstands :=
    (hcalls [.visit ⟨2, 0⟩, .write 0 "value" (.int 5), .next] _ _ rfl).2.1.current
  rw [hmatching] at hstands
  exact hstands

end EntityStore
