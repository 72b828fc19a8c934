import EntityStore.Proofs.Delivery
import EntityStore.Proofs.FixedMatches
import EntityStore.Proofs.Watching

/-!
# Typed and untyped queries agree

A query over component types and the untyped query with the same conditions walk the same
entities in lockstep.  The untyped cursor is one fetch ahead: it has loaded its accessors for the
entity whose row the typed iterator gives next.

* `Condition.exists_row` — the row of a match is delivered;
* `InStep` — the cursor is about to look for the match whose row the iterator gives next;
* `Abreast` — it has found it, or both are past the last match;
* `InStep.abreast`, `Abreast.next` — a search leads from the one to the other, and a call on
  both sides keeps them abreast;
* `Store.typed_and_untyped_queries_agree` — acceptance, membership, counts and traversals.
-/

namespace EntityStore

/-! ### Rows of conditions -/

namespace Condition

variable {r : Registry} {cs : List Condition}

/-- Conditions watch nothing. -/
theorem undisturbed_resolved (r : Registry) (cs : List Condition) :
    Term.Undisturbed (cs.map (resolved r)) := by
  have hwatched : ∀ c : Condition, (c.resolved r).watched = [] := by
    intro c
    cases c <;> rfl
  rw [Term.Undisturbed]
  rw [List.pairwise_map]
  refine List.pairwise_of_forall ?_
  intro c c' f _ _ column hcolumn
  rw [hwatched] at hcolumn
  cases hcolumn

/-- The row of a match is delivered. -/
theorem exists_row {ts : List (Term Column)} (hts : ts = cs.map (resolved r))
    (haccepted : refuseAliasing (Term.patterns ts) = .ok ()) {st : FetchState}
    (hw : st.world.Valid) {e : Entity} (he : Term.allHold st.world e ts = true) :
    ∃ row, (fetchRow e ts st).1 = some row := by
  have hspoiled : ¬ Spoiled ts st.world e :=
    not_spoiled_of_undisturbed haccepted (hts ▸ undisturbed_resolved r cs) he
  rw [← fetchRow_eq_none_iff hw, ← fst_fetchRow_eq] at hspoiled
  exact Option.ne_none_iff_exists'.1 hspoiled

end Condition

/-! ### The simulation -/

namespace UntypedCursor

/-- The entity that the cursor stands on, if it is open. -/
def entity? (c : UntypedCursor) : Option Entity :=
  if c.isOpen then some c.current else none

end UntypedCursor

/-- The cursor is about to look for the match whose row the iterator gives next: both ask for the
same conditions, have the same candidates before them, and worlds that agree up to counts. -/
structure InStep (r : Registry) (cs : List Condition) (it : RowIterator) (st : FetchState)
    (c : UntypedCursor) (st' : FetchState) : Prop where
  terms : it.query.terms = cs.map (Condition.resolved r)
  accepted : refuseAliasing (Term.patterns it.query.terms) = .ok ()
  untyped : c.terms = cs.map (Condition.untyped r)
  remaining : c.remaining = it.remaining
  started : c.entities = [] → c.remaining = []
  opened : c.phase ≠ .ended
  ready : Condition.Ready r cs st.world
  ready' : Condition.Ready r cs st'.world
  worlds : st.world.uncounted = st'.world.uncounted

/-- The cursor stands on the match whose row the iterator gives next, with its accessors on what
the row will deliver; or both have passed the last match. -/
inductive Abreast (r : Registry) (cs : List Condition) (it : RowIterator) (st : FetchState)
    (c : UntypedCursor) (st' : FetchState) : Prop where
  | on (e : Entity) (rest : List Entity) (row : Row) (st₁ : FetchState)
    (upcoming : it.upcoming? st.world = some e) (current : c.entity? = some e)
    (next : it.next st = (some row, { it with remaining := rest }, st₁))
    (worlds : st₁.world.uncounted = st'.world.uncounted)
    (delivers : List.Forall₂ (fun a slot => Accessor.Reads a st'.world slot st₁.world)
      c.accessors row)
    (later : InStep r cs { it with remaining := rest } st₁
      { c with phase := .iterating, remaining := c.remaining.drop 1 } st')
  | past (upcoming : it.upcoming? st.world = none) (ended : c.phase = .ended)
    (next : it.next st = (none, { it with remaining := [] }, st))
    (worlds : st.world.uncounted = st'.world.uncounted)

namespace InStep

variable {r : Registry} {cs : List Condition} {it : RowIterator} {st st' : FetchState}
  {c : UntypedCursor}

theorem allHold_eq (h : InStep r cs it st c st') (e : Entity) :
    c.terms.all (·.holds st'.world e) = Term.allHold st.world e it.query.terms := by
  rw [h.untyped, Condition.all_holds_eq h.ready', h.terms]
  exact Term.allHold_congr (World.facets_congr_of_uncounted h.worlds e).symm _

/-- Both look for the same next match. -/
theorem dropWhile_eq (h : InStep r cs it st c st') :
    (c.remaining.dropWhile fun e => !c.selects st'.world e) =
      it.remaining.dropWhile fun e => !Term.allHold st.world e it.query.terms := by
  rw [← h.remaining]
  cases hentities : c.entities with
  | nil =>
      rw [h.started hentities]
      rfl
  | cons first rest =>
      congr 1
      funext e
      rw [UntypedCursor.selects]
      rw [hentities, h.allHold_eq]
      rfl

/-- **A search leads from step to step.** -/
theorem abreast (h : InStep r cs it st c st') :
    Abreast r cs it st (c.seek st').1 (c.seek st').2 := by
  have hfind : it.upcoming? st.world =
      (it.remaining.dropWhile fun e => !Term.allHold st.world e it.query.terms).head? :=
    List.find?_eq_head?_dropWhile_not _ _
  have hnext := it.next_eq st
  have hdrop := h.dropWhile_eq
  rw [UntypedCursor.seek]
  -- both pass by the same candidates, so they stop at the same entity or at none
  rw [hdrop]
  cases hleft : it.remaining.dropWhile fun e => !Term.allHold st.world e it.query.terms with
  | nil =>
      rw [hleft] at hfind hnext
      exact .past hfind rfl hnext h.worlds
  | cons e rest =>
      rw [hleft] at hfind hnext
      have hholds : Term.allHold st.world e it.query.terms = true :=
        holds_of_dropWhile_eq_cons hleft
      obtain ⟨row, hrow⟩ := Condition.exists_row h.terms h.accepted h.ready.valid hholds
      have hrow' := hrow
      rw [h.terms] at hrow'
      obtain ⟨hworlds, hdelivers⟩ :=
        Condition.fetchRow_pointAll h.ready h.ready' h.worlds hrow'
      rw [← h.terms, ← h.untyped] at hworlds
      rw [← h.untyped] at hdelivers
      have hready := h.ready.within (World.within_fetchRow e it.query.terms st)
      have hready' := h.ready'.within (World.within_pointAll e c.terms st')
      refine .on e rest row _ hfind ?_ ?_ hworlds ?_ ?_
      · have hopen : c.isOpen = true := bne_iff_ne.2 h.opened
        exact if_pos hopen
      · rw [hnext]
        exact congrArg (·, _, _) hrow
      · have haccessors := Condition.accessors_eq (r := r) cs (pointAll e c.terms st').1
        rw [← h.untyped] at haccessors
        show List.Forall₂ _ ((c.terms.zip (pointAll e c.terms st').1).map _) row
        rw [haccessors]
        exact hdelivers _ _ hready hworlds.symm
      · refine ⟨h.terms, h.accepted, h.untyped, rfl, ?_, ?_, hready, hready', hworlds⟩
        · intro hentities
          rw [← hdrop, h.started hentities] at hleft
          cases hleft
        · intro hended
          cases hended

end InStep

namespace Abreast

variable {r : Registry} {cs : List Condition} {it : RowIterator} {st st' : FetchState}
  {c : UntypedCursor}

/-- **A call on both sides keeps them abreast.** -/
theorem next (h : Abreast r cs it st c st') :
    Abreast r cs (it.next st).2.1 (it.next st).2.2 (c.next st').1 (c.next st').2 := by
  cases h with
  | on e rest row st₁ _ hcurrent hnext _ _ hlater =>
      have hcall : c.next st' =
          { c with phase := .iterating, remaining := c.remaining.drop 1 }.seek st' := by
        rw [UntypedCursor.next]
        cases hphase : c.phase with
        | ended =>
            rw [UntypedCursor.entity?, UntypedCursor.isOpen] at hcurrent
            rw [hphase] at hcurrent
            cases hcurrent
        | begun => rfl
        | iterating => rfl
      rw [hnext, hcall]
      exact hlater.abreast
  | past _ hended hnext hworlds =>
      rw [hnext, UntypedCursor.next_of_ended hended]
      exact .past rfl hended (RowIterator.next_of_remaining_nil rfl st) hworlds

/-- Calls on both sides keep them abreast. -/
theorem run (h : Abreast r cs it st c st') (k : Nat) :
    Abreast r cs (it.skip k st).1 (it.skip k st).2
      (UntypedUse.run (List.replicate k .next) c st').1
      (UntypedUse.run (List.replicate k .next) c st').2 := by
  induction k generalizing it st c st' with
  | zero => exact h
  | succ k ih => exact ih h.next

/-- What the next call gives and what the cursor has loaded. -/
theorem outcome (h : Abreast r cs it st c st') :
    c.entity? = it.upcoming? st.world ∧
      (it.next st).1.isSome = c.isOpen ∧
      (∀ row, (it.next st).1 = some row →
        List.Forall₂ (fun a slot => Accessor.Reads a st'.world slot (it.next st).2.2.world)
          c.accessors row) ∧
      (it.next st).2.2.world.uncounted = st'.world.uncounted := by
  cases h with
  | on e rest row st₁ hupcoming hcurrent hnext hworlds hdelivers _ =>
      rw [hnext, hupcoming]
      refine ⟨hcurrent, ?_, ?_, hworlds⟩
      · rw [UntypedCursor.entity?] at hcurrent
        cases hopen : c.isOpen with
        | true => rfl
        | false =>
            rw [hopen] at hcurrent
            cases hcurrent
      · intro row' hrow'
        cases hrow'
        exact hdelivers
  | past hupcoming hended hnext hworlds =>
      have hclosed : c.isOpen = false := by
        rw [UntypedCursor.isOpen]
        rw [hended]
        rfl
      rw [hnext, hupcoming, hclosed]
      refine ⟨?_, rfl, nofun, hworlds⟩
      rw [UntypedCursor.entity?]
      rw [hclosed]
      rfl

end Abreast

/-! ### Starting both queries -/

theorem UntypedCursor.entities_seek (c : UntypedCursor) (st : FetchState) :
    (c.seek st).1.entities = c.entities := by
  rw [seek]
  split <;> rfl

namespace Query

variable {q : Query} {w : World}

/-- Where there are no candidates, nothing matches. -/
theorem selects_eq_of_candidates (hw : w.Valid)
    (hanchored : q.anchored = !unanchored q.patterns) (e : Entity) :
    q.selects w e = (!(q.candidates w).isEmpty && Term.allHold w e q.terms) := by
  rw [Bool.eq_iff_iff]
  constructor
  · intro he
    have hmem := (candidatesFor hw hanchored).complete e he
    rw [Bool.and_eq_true]
    refine ⟨?_, (selects_iff.1 he).2⟩
    rw [Bool.not_eq_true', List.isEmpty_eq_false_iff]
    exact List.ne_nil_of_mem hmem
  · intro he
    rw [Bool.and_eq_true, Bool.not_eq_true', List.isEmpty_eq_false_iff] at he
    obtain ⟨e', he'⟩ := List.exists_mem_of_ne_nil _ he.1
    exact selects_iff.2 ⟨canMatch_of_mem_candidates he', he.2⟩

theorem count_eq_countP_selects : q.count w = (q.candidates w).countP (q.selects w) := by
  apply List.countP_congr
  intro e he
  rw [selects]
  rw [canMatch_of_mem_candidates he, Bool.true_and]

end Query

section

variable {s s' : Store} {cs : List Condition} {q : Query}

/-- The cursor that an untyped query with the given conditions starts from. -/
def Condition.start (s : Store) (cs : List Condition) (w : World) : UntypedCursor :=
  (UntypedQuery.ofConditions s.registry cs).start w

/-- Both queries start in step, from one world. -/
theorem Condition.inStep_start (hs : s.Valid) (hfits : ∀ c ∈ cs, c.Fits s.registry)
    (h : s.Prepared (cs.map Condition.term) q s') :
    (UntypedQuery.ofConditions s.registry cs).trace s.world = s'.world ∧
      (Condition.start s cs s'.world).entities = q.candidates s'.world ∧
      InStep s.registry cs (q.rows s'.world) { world := s'.world }
        (Condition.start s cs s'.world) { world := s'.world } := by
  have hbefore := ready_of_valid hs hfits
  have hterms : q.terms = cs.map (resolved s.registry) := by
    rw [h.terms, h.registry, registerAll_of_fits hfits, resolve_terms]
  have hworld : (UntypedQuery.ofConditions s.registry cs).trace s.world = s'.world := by
    rw [h.world, hterms, traceAll_eq_trace hbefore]
  have hready : Ready s.registry cs s'.world := by
    rw [← hworld]
    exact hbefore.within (Store.within_traceTerms _ _)
  have hcandidates := candidates_eq hready hterms h.served h.anchored
  exact ⟨hworld, hcandidates,
    { terms := hterms
      accepted := h.accepted
      untyped := terms_ofConditions s.registry cs
      remaining := hcandidates
      started := id
      opened := nofun
      ready := hready
      ready' := hready
      worlds := rfl }⟩

/-- Right after the start the same entities match. -/
theorem Condition.selects_start (hs : s'.Valid) (h : s.Prepared (cs.map Condition.term) q s')
    (hcandidates : (Condition.start s cs s'.world).entities = q.candidates s'.world)
    (hstep : InStep s.registry cs (q.rows s'.world) { world := s'.world }
      (Condition.start s cs s'.world) { world := s'.world }) (e : Entity) :
    ((Condition.start s cs s'.world).seek { world := s'.world }).1.selects
        ((Condition.start s cs s'.world).seek { world := s'.world }).2.world e =
      q.selects s'.world e := by
  have hsteady : Steady (UntypedQuery.ofConditions s.registry cs) s'.world
      ((Condition.start s cs s'.world).seek { world := s'.world }).1
      ((Condition.start s cs s'.world).seek { world := s'.world }).2.world :=
    Steady.seek (Steady.refl _ hs.world) hs.world
  rw [hsteady.selects e, Query.selects_eq_of_candidates hs.world h.anchored, ← hcandidates]
  exact congrArg (!(Condition.start s cs s'.world).entities.isEmpty && ·) (hstep.allHold_eq e)

end

/-- **Typed and untyped queries agree.**  A query over component types and the untyped query with
the same conditions are both accepted, or both refused for the same reason.  If they are accepted
then, from the same reachable store, the same entities match, the counts are the same, and both
traversals come to the same entities in the same order.  At each of them the row is delivered,
every accessor points at what its slot delivers and reads the same instance there, and the worlds
agree up to access counts, to the end and beyond. -/
theorem Store.typed_and_untyped_queries_agree {s : Store} (hs : s.Reachable)
    {cs : List Condition} (hcs : cs ≠ []) (hfits : ∀ c ∈ cs, c.Fits s.registry) :
    ((s.prepare (cs.map Condition.term)).1.map fun _ => ()) =
        (UntypedQuery.ofConditions s.registry cs).check s.registry ∧
      ∀ (q : Query) (s' : Store), s.prepare (cs.map Condition.term) = (.ok q, s') →
        ∃ c st, s.startQuery (UntypedQuery.ofConditions s.registry cs) = .ok (c, st) ∧
          (∀ e, c.selects st.world e = q.selects s'.world e) ∧
          (c.drain st.world).1 = q.count s'.world ∧
          ∀ (k : Nat) (it : RowIterator) (st₁ : FetchState) (c' : UntypedCursor)
            (st₂ : FetchState),
            (q.rows s'.world).skip k { world := s'.world } = (it, st₁) →
            UntypedUse.run (List.replicate k .next) c st = (c', st₂) →
              it.upcoming? st₁.world = (q.matching s'.world)[k]? ∧
              c'.entity? = (q.matching s'.world)[k]? ∧
              (it.next st₁).1.isSome = c'.isOpen ∧
              (∀ row, (it.next st₁).1 = some row →
                List.Forall₂ (fun a slot => Accessor.Reads a st₂.world slot
                  (it.next st₁).2.2.world) c'.accessors row) ∧
              (it.next st₁).2.2.world.uncounted = st₂.world.uncounted := by
  have hcheck := Condition.map_prepare_eq_check hs.valid hcs hfits
  refine ⟨hcheck, ?_⟩
  intro q s' hprepare
  have hprepared := Store.prepared_of_prepare hprepare
  have hvalid := Store.valid_of_prepare hs.valid hprepare
  obtain ⟨hworld, hcandidates, hstep⟩ := Condition.inStep_start hs.valid hfits hprepared
  rw [hprepare] at hcheck
  -- starting the cursor switches on the tracing that preparing switched on
  have hstart := Store.startQuery_of_check (s := s) hcheck.symm
  rw [hworld] at hstart
  have hselects := Condition.selects_start hvalid hprepared hcandidates hstep
  refine ⟨_, _, hstart, hselects, ?_, ?_⟩
  · have hentities := UntypedCursor.entities_seek (Condition.start s cs s'.world)
      { world := s'.world }
    rw [Query.count_eq_countP_selects, ← hcandidates, ← hentities]
    rw [UntypedCursor.drain]
    exact List.countP_congr fun e _ => by rw [← hselects e]; rfl
  · intro k it st₁ c' st₂ hskip hrun
    have hupcoming := RowIterator.upcoming?_skip (q.rows s'.world) { world := s'.world }
      (Query.ahead hvalid.world hprepared.anchored) k
    have habreast : Abreast s.registry cs it st₁ c' st₂ := by
      have hrunning := hstep.abreast.run k
      rw [hskip] at hrunning
      exact (congrArg (fun p => Abreast s.registry cs it st₁ p.1 p.2) hrun).mp hrunning
    rw [hskip] at hupcoming
    obtain ⟨hentity, hopen, hdelivers, hworlds⟩ := habreast.outcome
    exact ⟨hupcoming, hentity.trans hupcoming, hopen, hdelivers, hworlds⟩

/-- Conditions that both entities of the sample store meet. -/
def Condition.sample : List Condition :=
  [.present Catalogue.level true, .absent Catalogue.pos, .optional Catalogue.hit false]

theorem Condition.fits_sample : ∀ c ∈ Condition.sample, c.Fits Store.sample.registry := by
  intro c hc
  simp only [Condition.sample, List.mem_cons, List.not_mem_nil, or_false] at hc
  rcases hc with rfl | rfl | rfl <;> exact ⟨rfl, rfl⟩

/-- On the sample store both queries are accepted, and the untyped one counts two matches. -/
theorem Store.sample_queries_agree :
    Store.sample.Reachable ∧ Condition.sample ≠ [] ∧
      (∀ c ∈ Condition.sample, c.Fits Store.sample.registry) ∧
      (UntypedQuery.ofConditions Store.sample.registry Condition.sample).check
        Store.sample.registry = .ok () ∧
      ∃ c st, Store.sample.startQuery
          (UntypedQuery.ofConditions Store.sample.registry Condition.sample) = .ok (c, st) ∧
        (c.drain st.world).1 = 2 := by
  let ts : List (Term ComponentType) := Condition.sample.map Condition.term
  let q : Query :=
    { terms := Condition.sample.map (Condition.resolved Store.sample.registry)
      served := true
      anchored := true }
  have hprepared : Store.sample.prepare ts = (.ok q, (Store.sample.prepare ts).2) := rfl
  have htwo : q.count (Store.sample.prepare ts).2.world = 2 := by decide +kernel
  have hsome : Condition.sample ≠ [] := nofun
  have hagree :=
    Store.typed_and_untyped_queries_agree Store.reachable_sample hsome Condition.fits_sample
  obtain ⟨hcheck, hqueries⟩ := hagree
  obtain ⟨c, st, hstart, -, hcount, -⟩ := hqueries q _ hprepared
  refine ⟨Store.reachable_sample, hsome, Condition.fits_sample, ?_, c, st, hstart, ?_⟩
  · exact hcheck.symm
  · exact hcount.trans htwo

end EntityStore
