import EntityStore.Proofs.Rewriting
import EntityStore.Proofs.Traversal

/-!
# Systems

A turn of a system: its query is started, which switches tracing on where a term asks for it, the
rows are taken up to the first call that gives none, and the instances that a row hands out for
writing are rewritten from the contents of the row, at once or after the last row.

* `RowIterator.drain` — taking all rows;
* `Timing`, `Query.pass`, `Query.turn` — a turn;
* `RowIterator.drain_congr`, `RowIterator.run_congr`, `RowCursor.walk_congr` — no traversal tells
  apart what reading and rewriting do not;
* `Query.turn_congr` — a turn depends on what is in sight;
* `Query.confined_turn` — and changes nothing outside of the footprint, but for tracing.
-/

namespace EntityStore

/-- The rows that a system was given, with the instances that it found behind their slots. -/
abbrev Reading := List (Row × List (List Record))

/-! ### Taking all rows -/

namespace RowIterator

/-- Calls of `next` up to the first that gives nothing, but at most the given number, with
something done after each row. -/
def drain (after : Row → World → World) (it : RowIterator) :
    Nat → FetchState → Reading × FetchState
  | 0, st => ([], st)
  | n + 1, st =>
    match it.next st with
    | (none, _, st) => ([], st)
    | (some row, it, st) =>
      let (rest, last) := it.drain after n { st with world := after row st.world }
      ((row, row.contents st.world) :: rest, last)

theorem drain_of_next_none {after : Row → World → World} {it it' : RowIterator}
    {st st' : FetchState} (h : it.next st = (none, it', st')) (n : Nat) :
    it.drain after (n + 1) st = ([], st') := by
  rw [drain, h]

theorem drain_of_next_some {after : Row → World → World} {it it' : RowIterator}
    {st st' : FetchState} {row : Row} (h : it.next st = (some row, it', st')) (n : Nat) :
    it.drain after (n + 1) st =
      ((row, row.contents st'.world) ::
          (it'.drain after n { st' with world := after row st'.world }).1,
        (it'.drain after n { st' with world := after row st'.world }).2) := by
  rw [drain, h]

end RowIterator

/-! ### A turn of a system -/

/-- When a system rewrites the rows of its query. -/
inductive Timing where
  | atOnce
  | atEnd
deriving DecidableEq, Repr

namespace Query

def afterRow (u : RowUpdate) (timing : Timing) (row : Row) (w : World) : World :=
  match timing with
  | .atOnce => row.rewrite u w
  | .atEnd => w

def afterAll (u : RowUpdate) (timing : Timing) (rows : Reading) (w : World) : World :=
  match timing with
  | .atOnce => w
  | .atEnd => rows.foldl (fun w r => r.1.rewrite u w) w

/-- All rows of a query are taken and rewritten. -/
def pass (q : Query) (u : RowUpdate) (timing : Timing) (w : World) : Reading × World :=
  let it := q.rows w
  let (rows, st) := it.drain (afterRow u timing) (it.upperBound + 1) { world := w }
  (rows, afterAll u timing rows st.world)

/-- Tracing is switched on where a term asks for it; then all rows are taken and rewritten. -/
def turn (q : Query) (u : RowUpdate) (timing : Timing) (w : World) : Reading × World :=
  q.pass u timing (w.traceAll (Term.allTraced q.terms))

end Query

/-! ### What is in sight of a turn -/

section InSight

variable {p : Footprint} {R : World → World → Prop} {w w' : World} {u : RowUpdate}
  {timing : Timing}

namespace Indistinct

theorem afterRow (hR : Indistinct p R) (h : R w w') {row : Row} (hrow : p.AllowsRow row) :
    R (Query.afterRow u timing row w) (Query.afterRow u timing row w') := by
  cases timing with
  | atOnce => exact hR.rewrite h hrow u
  | atEnd => exact h

theorem afterAll (hR : Indistinct p R) (h : R w w') {rows : Reading}
    (hrows : ∀ r ∈ rows, p.AllowsRow r.1) :
    R (Query.afterAll u timing rows w) (Query.afterAll u timing rows w') := by
  cases timing with
  | atOnce => exact h
  | atEnd =>
      induction rows generalizing w w' with
      | nil => exact h
      | cons r rest ih =>
          obtain ⟨hfirst, hrest⟩ := List.forall_mem_cons.1 hrows
          exact ih (hR.rewrite h hfirst u) hrest

/-- Writing through a row that was delivered keeps worlds related. -/
theorem writeThrough (hR : Indistinct p R) {st st' : FetchState} (h : R st.world st'.world)
    (f : Record → Record) (delivered : Option Row)
    (hallows : ∀ row, delivered = some row → p.AllowsRow row) :
    R (writeThrough f delivered st).world (EntityStore.writeThrough f delivered st').world := by
  cases delivered with
  | none => exact h
  | some row =>
      show R (updateRow f row st.world) (updateRow f row st'.world)
      rw [← Row.rewrite_const, ← Row.rewrite_const]
      exact hR.rewrite h (hallows row rfl) _

end Indistinct

namespace World

theorem Confined.afterRow {row : Row} (hrow : p.AllowsRow row) (w : World) :
    Confined p w (Query.afterRow u timing row w) := by
  cases timing with
  | atOnce => exact .rewrite hrow u w
  | atEnd => exact .refl p w

theorem Confined.afterAll {rows : Reading} (hrows : ∀ r ∈ rows, p.AllowsRow r.1) (w : World) :
    Confined p w (Query.afterAll u timing rows w) := by
  cases timing with
  | atOnce => exact .refl p w
  | atEnd =>
      induction rows generalizing w with
      | nil => exact .refl p w
      | cons r rest ih =>
          obtain ⟨hfirst, hrest⟩ := List.forall_mem_cons.1 hrows
          exact (Confined.rewrite hfirst u w).trans (ih hrest _)

end World

namespace RowIterator

variable {it it' : RowIterator} {st st' : FetchState}

/-- A call either gives nothing and does nothing, or it fetches a row. -/
theorem next_cases (it : RowIterator) (st : FetchState) :
    ((it.next st).1 = none ∧ (it.next st).2.2 = st) ∨
      ∃ e, (it.next st).1 = (fetchRow e it.query.terms st).1 ∧
        (it.next st).2.2 = (fetchRow e it.query.terms st).2 := by
  rw [next_eq]
  cases it.remaining.dropWhile fun e => !Term.allHold st.world e it.query.terms with
  | nil => exact .inl ⟨rfl, rfl⟩
  | cons e rest => exact .inr ⟨e, rfl, rfl⟩

theorem query_next (it : RowIterator) (st : FetchState) : (it.next st).2.1.query = it.query := rfl

/-- A call does not tell apart what reading and rewriting do not. -/
theorem next_congr (hR : Indistinct p R)
    (hterms : p.AllowsAll (Term.allAccesses false it.query.terms)) (h : R st.world st'.world) :
    (it.next st).1 = (it.next st').1 ∧ (it.next st).2.1 = (it.next st').2.1 ∧
      R (it.next st).2.2.world (it.next st').2.2.world := by
  have hmatch : (fun e => !Term.allHold st.world e it.query.terms) =
      fun e => !Term.allHold st'.world e it.query.terms := by
    funext e
    rw [(hR.semblance e).allHold h hterms]
  rw [next_eq, next_eq, hmatch]
  cases it.remaining.dropWhile fun e => !Term.allHold st'.world e it.query.terms with
  | nil => exact ⟨rfl, rfl, h⟩
  | cons e rest =>
      obtain ⟨hrow, hleft⟩ := (hR.semblance e).fetchRow h hterms
      exact ⟨hrow, rfl, hleft⟩

theorem allowsRow_of_next
    (hterms : p.AllowsAll (Term.allAccesses false it.query.terms)) {row : Row}
    (h : (it.next st).1 = some row) : p.AllowsRow row := by
  rcases it.next_cases st with ⟨hnone, _⟩ | ⟨e, hrow, _⟩
  · rw [hnone] at h
    cases h
  · exact Footprint.allowsRow_of_fetchRow hterms (hrow.symm.trans h)

/-- Neither do calls with writing in between. -/
theorem run_congr (hR : Indistinct p R)
    (hterms : p.AllowsAll (Term.allAccesses false it.query.terms))
    (writes : List (Record → Record)) (st st' : FetchState) (h : R st.world st'.world) :
    (it.run writes st).1 = (it.run writes st').1 := by
  induction writes generalizing it st st' with
  | nil => rfl
  | cons f rest ih =>
      obtain ⟨hrow, hit, hleft⟩ := next_congr hR hterms h
      have hwritten := hR.writeThrough hleft f (it.next st).1 fun row => allowsRow_of_next hterms
      have hquery := it.query_next st
      rw [fst_run_cons, fst_run_cons, ← hrow, ← hit]
      rw [← hquery] at hterms
      exact congrArg _ (ih hterms _ _ hwritten)

theorem confined_next (hterms : p.AllowsAll (Term.allAccesses false it.query.terms))
    (st : FetchState) : st.world.Confined p (it.next st).2.2.world := by
  rcases it.next_cases st with ⟨_, hst⟩ | ⟨e, _, hst⟩
  · rw [hst]
    exact .refl p st.world
  · rw [hst]
    exact .fetchRow e st hterms

/-- **Neither does taking all rows.** -/
theorem drain_congr (hR : Indistinct p R) (u : RowUpdate) (timing : Timing)
    (hterms : p.AllowsAll (Term.allAccesses false it.query.terms)) (n : Nat) (st st' : FetchState)
    (h : R st.world st'.world) :
    (it.drain (Query.afterRow u timing) n st).1 = (it.drain (Query.afterRow u timing) n st').1 ∧
      R (it.drain (Query.afterRow u timing) n st).2.world
        (it.drain (Query.afterRow u timing) n st').2.world := by
  induction n generalizing it st st' with
  | zero => exact ⟨rfl, h⟩
  | succ n ih =>
      obtain ⟨hrow, hit, hleft⟩ := next_congr hR hterms h
      have hquery := it.query_next st
      have hallows : ∀ {row : Row}, (it.next st).1 = some row → p.AllowsRow row :=
        allowsRow_of_next hterms
      rcases hnext : it.next st with ⟨delivered, it₁, st₁⟩
      rcases hnext' : it.next st' with ⟨delivered', it₁', st₁'⟩
      rw [hnext, hnext'] at hrow hit hleft
      rw [hnext] at hquery hallows
      cases hrow
      cases hit
      cases delivered with
      | none =>
          rw [drain_of_next_none hnext, drain_of_next_none hnext']
          exact ⟨rfl, hleft⟩
      | some row =>
          have hrow : p.AllowsRow row := hallows rfl
          have hcontents : row.contents st₁.world = row.contents st₁'.world :=
            hR.contents_eq hleft hrow
          rw [← hquery] at hterms
          -- the update sees the same contents in both worlds, so they stay related
          obtain ⟨hrest, hlast⟩ := ih hterms
            { st₁ with world := Query.afterRow u timing row st₁.world }
            { st₁' with world := Query.afterRow u timing row st₁'.world }
            (hR.afterRow hleft hrow)
          rw [drain_of_next_some hnext, drain_of_next_some hnext', hcontents, hrest]
          exact ⟨rfl, hlast⟩

/-- The rows that were given are made of what the terms look at, and nothing else is changed. -/
theorem confined_drain (u : RowUpdate) (timing : Timing)
    (hterms : p.AllowsAll (Term.allAccesses false it.query.terms)) (n : Nat) (st : FetchState) :
    (∀ r ∈ (it.drain (Query.afterRow u timing) n st).1, p.AllowsRow r.1) ∧
      st.world.Confined p (it.drain (Query.afterRow u timing) n st).2.world := by
  induction n generalizing it st with
  | zero => exact ⟨nofun, .refl p st.world⟩
  | succ n ih =>
      have hconfined := confined_next hterms st
      have hquery := it.query_next st
      have hallows : ∀ {row : Row}, (it.next st).1 = some row → p.AllowsRow row :=
        allowsRow_of_next hterms
      rcases hnext : it.next st with ⟨_ | row, it₁, st₁⟩
      · rw [hnext] at hconfined
        rw [drain_of_next_none hnext]
        exact ⟨nofun, hconfined⟩
      · rw [hnext] at hconfined hquery hallows
        rw [← hquery] at hterms
        obtain ⟨hrest, hlast⟩ := ih hterms
          { st₁ with world := Query.afterRow u timing row st₁.world }
        rw [drain_of_next_some hnext]
        exact ⟨List.forall_mem_cons.2 ⟨hallows rfl, hrest⟩,
          (hconfined.trans (.afterRow (hallows rfl) st₁.world)).trans hlast⟩

end RowIterator

namespace RowCursor

variable {c : RowCursor} {st st' : FetchState}

/-- Fetching the current row does not tell apart what reading and rewriting do not. -/
theorem row_congr (hR : Indistinct p R)
    (hterms : p.AllowsAll (Term.allAccesses false c.query.terms)) (h : R st.world st'.world) :
    FetchState.Alike R (c.row st) (c.row st') := by
  rw [row, row]
  cases c.remaining with
  | nil => exact ⟨rfl, h⟩
  | cons e rest => exact (hR.semblance e).fetchRow h hterms

theorem allowsRow_of_row (hterms : p.AllowsAll (Term.allAccesses false c.query.terms)) {row : Row}
    (h : (c.row st).1 = some row) : p.AllowsRow row := by
  rw [RowCursor.row] at h
  cases hremaining : c.remaining with
  | nil =>
      rw [hremaining] at h
      cases h
  | cons e rest =>
      rw [hremaining] at h
      exact Footprint.allowsRow_of_fetchRow hterms h

theorem getAll_congr (hR : Indistinct p R)
    (hterms : p.AllowsAll (Term.allAccesses false c.query.terms)) (h : R st.world st'.world)
    (writes : List (Record → Record)) :
    R (c.getAll writes st).world (c.getAll writes st').world := by
  induction writes generalizing st st' with
  | nil => exact h
  | cons f rest ih =>
      obtain ⟨hrow, hleft⟩ := row_congr hR hterms h
      have hwritten := hR.writeThrough hleft f (c.row st).1 fun row => allowsRow_of_row hterms
      have hboth : R (writeThrough f (c.row st).1 (c.row st).2).world
          (writeThrough f (c.row st').1 (c.row st').2).world := by
        rw [← hrow]
        exact hwritten
      exact ih hboth

theorem seek_congr (hR : Indistinct p R)
    (hterms : p.AllowsAll (Term.allAccesses false c.query.terms)) (h : R w w') :
    c.seek w = c.seek w' := by
  have hmatch : (fun e => !Term.allHold w e c.query.terms) =
      fun e => !Term.allHold w' e c.query.terms := by
    funext e
    rw [(hR.semblance e).allHold h hterms]
  rw [seek, seek, hmatch]

theorem step_congr (hR : Indistinct p R)
    (hterms : p.AllowsAll (Term.allAccesses false c.query.terms)) (h : R w w') :
    c.step w = c.step w' := by
  rw [step, step]
  cases c.remaining with
  | nil => rfl
  | cons e rest => exact seek_congr (c := { c with remaining := rest }) hR hterms h

/-- **Neither does a walk**, however often rows are fetched and written at its stops. -/
theorem walk_congr (hR : Indistinct p R)
    (hterms : p.AllowsAll (Term.allAccesses false c.query.terms)) (h : R st.world st'.world)
    (visits : List (List (Record → Record))) :
    FetchState.Alike R (c.walk visits st) (c.walk visits st') := by
  induction visits generalizing c st st' with
  | nil => exact ⟨rfl, h⟩
  | cons writes rest ih =>
      have hget := getAll_congr hR hterms h writes
      rw [walk, walk, step_congr hR hterms hget]
      exact ih (by rwa [query_step]) hget

end RowCursor

namespace Query

variable {q : Query}

theorem candidates_congr (hterms : p.AllowsAll (Term.allAccesses false q.terms))
    (h : w.AgreeOn p w') : q.candidates w = q.candidates w' := by
  have hknown : ∀ c ∈ Term.allComponents q.terms, p.known c.id :=
    Footprint.known_of_mem_allComponents hterms
  rw [candidates, candidates, Term.allCandidates_congr h hknown]

/-- A pass over the same candidates gives the same in worlds that it does not tell apart. -/
theorem pass_congr (hR : Indistinct p R) (hterms : p.AllowsAll (Term.allAccesses false q.terms))
    (h : R w w') (hcandidates : q.candidates w = q.candidates w') :
    (q.pass u timing w).1 = (q.pass u timing w').1 ∧
      R (q.pass u timing w).2 (q.pass u timing w').2 := by
  have hstart : q.rows w = q.rows w' := congrArg (RowIterator.mk q) hcandidates
  have hstarted : p.AllowsAll (Term.allAccesses false (q.rows w').query.terms) := hterms
  obtain ⟨hrows, hlast⟩ := RowIterator.drain_congr hR u timing hstarted
    ((q.rows w').upperBound + 1) { world := w } { world := w' } h
  rw [pass, pass, hstart]
  refine ⟨hrows, ?_⟩
  show R (afterAll u timing _ _) (afterAll u timing _ _)
  rw [hrows]
  exact hR.afterAll hlast (RowIterator.confined_drain u timing hstarted _ _).1

theorem confined_pass (hterms : p.AllowsAll (Term.allAccesses false q.terms)) (w : World) :
    w.Confined p (q.pass u timing w).2 := by
  have hstarted : p.AllowsAll (Term.allAccesses false (q.rows w).query.terms) := hterms
  obtain ⟨hrows, hlast⟩ := RowIterator.confined_drain u timing hstarted
    ((q.rows w).upperBound + 1) { world := w }
  exact hlast.trans (.afterAll hrows _)

/-- **A turn depends on what is in sight.**  In worlds that agree within the footprint of its
query, a system is given the same rows with the same contents, and leaves worlds that agree. -/
theorem turn_congr (hterms : p.AllowsAll (Term.allAccesses false q.terms)) (h : w.AgreeOn p w') :
    (q.turn u timing w).1 = (q.turn u timing w').1 ∧
      (q.turn u timing w).2.AgreeOn p (q.turn u timing w').2 :=
  have htraced := h.traceAll (Term.allTraced q.terms)
  pass_congr (World.indistinct_agreeOn p) hterms htraced (candidates_congr hterms htraced)

/-- **A turn changes nothing outside of its footprint**, once tracing is switched on. -/
theorem confined_turn (hterms : p.AllowsAll (Term.allAccesses false q.terms)) (w : World) :
    (w.traceAll (Term.allTraced q.terms)).Confined p (q.turn u timing w).2 :=
  confined_pass hterms _

end Query

end InSight

end EntityStore
