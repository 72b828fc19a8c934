import EntityStore.Proofs.Traversal
import EntityStore.Proofs.Uncounted

/-!
# Conditions: the terms that both kinds of queries have

A condition asks that a component is present, absent, present or not, or changed.  It is a term
of a query over component types, and a term of an untyped query once its type is registered.
Where typed access finds the storages of the types, both terms match the same entities and offer
the same candidates.

* `Condition`, `Condition.term`, `UntypedQuery.ofConditions` — conditions and their two readings;
* `Condition.Fits` — the type is registered and typed access finds its storage;
* `Condition.map_prepare_eq_check` — both queries are accepted, or both refused for one reason;
* `Condition.holds_eq` — both terms match the same entities;
* `Condition.candidates_eq` — both queries look at the same entities in the same order;
* `Condition.traceAll_eq_trace` — both queries leave the same world when they start.
-/

namespace EntityStore

/-- What is asked of a component of a native type. -/
inductive Condition where
  | present (t : ComponentType) (mutable : Bool)
  | absent (t : ComponentType)
  | optional (t : ComponentType) (mutable : Bool)
  | changed (t : ComponentType) (mutable : Bool)

namespace Condition

/-! ### Two readings -/

def type : Condition → ComponentType
  | .present t _ | .absent t | .optional t _ | .changed t _ => t

def term : Condition → Term ComponentType
  | .present t m => .single (.component t m)
  | .absent t => .without (.single (.component t false))
  | .optional t m => .single (.maybe (.component t m))
  | .changed t m => .single (.changed (.component t m))

def addTo (r : Registry) (q : UntypedQuery) : Condition → UntypedQuery
  | .present t m => q.require (r.register t).1 m
  | .absent t => q.exclude (r.register t).1
  | .optional t m => q.allow (r.register t).1 m
  | .changed t m => q.requireChanged (r.register t).1 m

end Condition

/-- The untyped query that asks for conditions, in order. -/
def UntypedQuery.ofConditions (r : Registry) (cs : List Condition) : UntypedQuery :=
  cs.foldl (Condition.addTo r) {}

namespace Condition

def column (r : Registry) (c : Condition) : Column :=
  ⟨c.type, (r.register c.type).1⟩

def resolved (r : Registry) (c : Condition) : Term Column :=
  match c with
  | .present _ m => .single (.component (c.column r) m)
  | .absent _ => .without (.single (.component (c.column r) false))
  | .optional _ m => .single (.maybe (.component (c.column r) m))
  | .changed _ m => .single (.changed (.component (c.column r) m))

def untyped (r : Registry) (c : Condition) : UntypedTerm :=
  match c with
  | .present _ m => ⟨(c.column r).id, .present, m⟩
  | .absent _ => ⟨(c.column r).id, .absent, false⟩
  | .optional _ m => ⟨(c.column r).id, .optional, m⟩
  | .changed _ m => ⟨(c.column r).id, .changed, m⟩

theorem component_untyped {r : Registry} (c : Condition) :
    (c.untyped r).component = (c.column r).id := by
  cases c <;> rfl

theorem resolve_terms (r : Registry) (cs : List Condition) :
    r.resolve (cs.map term) = cs.map (resolved r) := by
  rw [Registry.resolve]
  rw [Term.mapAll_eq, List.map_map]
  apply List.map_congr_left
  intro c _
  cases c <;> rfl

theorem terms_ofConditions (r : Registry) (cs : List Condition) :
    (UntypedQuery.ofConditions r cs).terms = cs.map (untyped r) := by
  have hfold : ∀ q : UntypedQuery,
      (cs.foldl (addTo r) q).terms = q.terms ++ cs.map (untyped r) := by
    induction cs with
    | nil => intro q; simp
    | cons c rest ih =>
        intro q
        have hadd : (addTo r q c).terms = q.terms ++ [untyped r c] := by cases c <;> rfl
        rw [List.foldl_cons, ih, hadd, List.map_cons, List.append_assoc, List.singleton_append]
  exact hfold {}

theorem pattern_resolved (r : Registry) (c : Condition) :
    (c.resolved r).pattern = (c.untyped r).pattern := by
  cases c <;> rfl

theorem patterns_resolved (r : Registry) (cs : List Condition) :
    Term.patterns (cs.map (resolved r)) = (cs.map (untyped r)).map UntypedTerm.pattern := by
  rw [Term.patterns_eq, List.map_map, List.map_map]
  apply List.map_congr_left
  intro c _
  exact c.pattern_resolved r

theorem allComponents_terms (cs : List Condition) :
    Term.allComponents (cs.map term) = cs.map type := by
  induction cs with
  | nil => rfl
  | cons c rest ih =>
      have hfirst : Term.components c.term = [c.type] := by cases c <;> rfl
      rw [List.map_cons, Term.allComponents, hfirst, ih]
      rfl

/-! ### Acceptance -/

/-- The type is registered, and typed access finds the storage that it declares. -/
structure Fits (r : Registry) (c : Condition) : Prop where
  registered : (r.position? c.type).isSome = true
  opens : (Storage.empty c.type).opens c.type = true

variable {r : Registry} {cs : List Condition}

theorem position?_of_fits {c : Condition} (h : c.Fits r) :
    r.position? c.type = some (c.column r).id := by
  obtain ⟨id, hid⟩ := Option.isSome_iff_exists.1 h.registered
  rw [hid]
  show some id = some (r.register c.type).1
  rw [Registry.register_of_position? hid]

theorem registerAll_of_fits (h : ∀ c ∈ cs, c.Fits r) :
    r.registerAll (Term.allComponents (cs.map term)) = r := by
  rw [allComponents_terms]
  apply Registry.registerAll_of_registered
  intro t ht
  obtain ⟨c, hc, rfl⟩ := List.mem_map.1 ht
  exact (h c hc).registered

/-- A registered component passes the test of an untyped query, so only aliasing can fail. -/
theorem check_eq_refuseAliasing (hr : r.Valid) (hcs : cs ≠ []) (h : ∀ c ∈ cs, c.Fits r) :
    (UntypedQuery.ofConditions r cs).check r =
      refuseAliasing (Term.patterns (cs.map (resolved r))) := by
  have hfound : (cs.map (untyped r)).find? (fun t => !r.contains t.component) = none := by
    rw [List.find?_eq_none]
    intro t ht
    obtain ⟨c, hc, rfl⟩ := List.mem_map.1 ht
    have hentry := hr c.type _ (position?_of_fits (h c hc))
    have hcontains : r.contains (c.column r).id = true := by
      rw [Registry.contains]
      rw [hentry]
      rfl
    have hcomponent : (c.untyped r).component = (c.column r).id := by cases c <;> rfl
    rw [hcomponent, hcontains]
    exact Bool.false_ne_true
  rw [UntypedQuery.check, UntypedQuery.patterns]
  rw [terms_ofConditions, hfound, patterns_resolved]
  cases cs with
  | nil => exact absurd rfl hcs
  | cons c rest => rfl

/-- Both queries are accepted, or both are refused for the same reason. -/
theorem map_prepare_eq_check {s : Store} (hs : s.Valid) (hcs : cs ≠ [])
    (h : ∀ c ∈ cs, c.Fits s.registry) :
    ((s.prepare (cs.map term)).1.map fun _ => ()) =
      (UntypedQuery.ofConditions s.registry cs).check s.registry := by
  rw [check_eq_refuseAliasing hs.registry hcs h]
  rw [Store.prepare]
  simp only
  rw [registerAll_of_fits h, resolve_terms]
  cases refuseAliasing (Term.patterns (cs.map (resolved s.registry))) <;> rfl

end Condition

/-! ### Worlds in which the storages are found -/

/-- The world is valid, and typed access finds the storages of the conditions if they are
there. -/
structure Condition.Ready (r : Registry) (cs : List Condition) (w : World) : Prop where
  valid : w.Valid
  typed : ∀ c ∈ cs, w.typed? (c.column r) = w.storage? (c.column r).id

namespace Condition

variable {r : Registry} {cs : List Condition} {w : World}

theorem ready_of_valid {s : Store} (hs : s.Valid) (h : ∀ c ∈ cs, c.Fits s.registry) :
    Ready s.registry cs s.world where
  valid := hs.world
  typed c hc := by
    have hentry := hs.registry c.type _ (position?_of_fits (h c hc))
    rw [World.typed?]
    cases hstorage : s.world.storage? (c.column s.registry).id with
    | none => rfl
    | some storage =>
        obtain ⟨entry, hprescribed, hblank⟩ := hs.prescribed _ storage hstorage
        rw [hentry] at hprescribed
        cases hprescribed
        have hopens : storage.opens c.type = true := by
          rw [← storage.opens_blank, hblank]
          exact (h c hc).opens
        rw [Option.filter_some]
        show (if storage.opens c.type then _ else _) = _
        rw [hopens, if_pos rfl]

theorem Ready.within (h : Ready r cs w) {w' : World} (hwithin : w'.Within w) :
    Ready r cs w' where
  valid := hwithin.valid h.valid
  typed c hc := by
    have htyped := h.typed c hc
    rw [World.typed?] at htyped ⊢
    cases hstorage : w'.storage? (c.column r).id with
    | none => rfl
    | some storage =>
        obtain ⟨old, hold, hfrom⟩ := hwithin.storage _ storage hstorage
        rw [hold, Option.filter_eq_some_iff] at htyped
        rw [Option.filter_eq_some_iff]
        refine ⟨rfl, ?_⟩
        show storage.opens c.type = true
        rw [← storage.opens_blank, hfrom.blank, old.opens_blank]
        exact htyped.2

theorem Ready.tail {c : Condition} (h : Ready r (c :: cs) w) : Ready r cs w where
  valid := h.valid
  typed c' hc' := h.typed c' (List.mem_cons_of_mem c hc')

theorem Ready.head {c : Condition} (h : Ready r (c :: cs) w) :
    w.typed? (c.column r) = w.storage? (c.column r).id :=
  h.typed c List.mem_cons_self

/-! ### Tracing -/

/-- A storage that is not there is not traced either way. -/
theorem traceAll_cons {c : Column} (h : w.typed? c = w.storage? c.id) (rest : List Column) :
    w.traceAll (c :: rest) = (w.trace c.id).traceAll rest := by
  show World.traceAll (if (w.typed? c).isSome then w.trace c.id else w) rest = _
  rw [h]
  cases hstorage : w.storage? c.id with
  | some s => rfl
  | none =>
      have hsame : w.trace c.id = w := World.modifyStorage_of_eq_none hstorage _
      rw [hsame]
      rfl

/-- Both queries switch tracing on for the same storages. -/
theorem traceAll_eq_trace (h : Ready r cs w) :
    w.traceAll (Term.allTraced (cs.map (resolved r))) =
      (UntypedQuery.ofConditions r cs).trace w := by
  rw [UntypedQuery.trace]
  rw [terms_ofConditions]
  induction cs generalizing w with
  | nil => rfl
  | cons c rest ih =>
      rw [List.map_cons, List.map_cons, List.foldl_cons]
      cases c with
      | changed t m =>
          show w.traceAll (column r (.changed t m) :: Term.allTraced (rest.map (resolved r))) = _
          rw [traceAll_cons h.head]
          exact ih (h.tail.within (w.within_trace (column r (.changed t m)).id))
      | present t m => exact ih h.tail
      | absent t => exact ih h.tail
      | optional t m => exact ih h.tail

/-! ### Matching -/

/-- Both terms match the same entities. -/
theorem holds_eq {c : Condition} (h : w.typed? (c.column r) = w.storage? (c.column r).id)
    (e : Entity) : (c.untyped r).holds w e = (c.resolved r).holds w e := by
  have hfinds : ((w.storage? (c.column r).id).map (·.contains e)).getD false =
      w.holds (c.column r) e := by
    rw [World.holds]
    rw [h]
  cases c with
  | present t m => exact hfinds
  | absent t =>
      show (!((w.storage? (column r (.absent t)).id).map (·.contains e)).getD false) =
        !w.holds (column r (.absent t)) e
      rw [hfinds]
  | optional t m => rfl
  | changed t m =>
      show ((w.storage? (column r (.changed t m)).id).map fun s =>
          s.contains e && s.isMarked e).getD false =
        (w.holds (column r (.changed t m)) e && w.isMarked (column r (.changed t m)) e)
      rw [World.holds, World.isMarked]
      rw [h]
      cases w.storage? (column r (.changed t m)).id <;> rfl

theorem all_holds_eq (h : Ready r cs w) (e : Entity) :
    (cs.map (untyped r)).all (·.holds w e) = Term.allHold w e (cs.map (resolved r)) := by
  induction cs with
  | nil => rfl
  | cons c rest ih =>
      show ((c.untyped r).holds w e && (rest.map (untyped r)).all (·.holds w e)) =
        ((c.resolved r).holds w e && Term.allHold w e (rest.map (resolved r)))
      rw [holds_eq h.head, ih h.tail]

/-! ### Candidates -/

theorem isServed_resolved {c : Condition}
    (h : w.typed? (c.column r) = w.storage? (c.column r).id) :
    (c.resolved r).isServed w =
      (!(c.untyped r).anchors || (w.storage? (c.column r).id).isSome) := by
  rw [← h]
  cases c <;> rfl

theorem candidates_resolved {c : Condition} {storage : Storage}
    (h : w.typed? (c.column r) = w.storage? (c.column r).id)
    (hanchors : (c.untyped r).anchors = true)
    (hstorage : w.storage? (c.column r).id = some storage) :
    (c.resolved r).candidates w = some storage.entities := by
  rw [← h] at hstorage
  cases c with
  | present t m =>
      show some (((w.typed? (column r (.present t m))).map (·.entities)).getD []) = _
      rw [hstorage]
      rfl
  | changed t m =>
      show some (((w.typed? (column r (.changed t m))).map (·.entities)).getD []) = _
      rw [hstorage]
      rfl
  | absent t => cases hanchors
  | optional t m => cases hanchors

theorem candidates_resolved_of_not_anchors {c : Condition}
    (hanchors : (c.untyped r).anchors = false) : (c.resolved r).candidates w = none := by
  cases c with
  | present t m => cases hanchors
  | changed t m => cases hanchors
  | absent t => rfl
  | optional t m => rfl

theorem shorter_none_right (best : Option (List Entity)) : shorter best none = best := by
  cases best <;> rfl

theorem candidatesOf_eq (h : Ready r cs w) (best : Option (List Entity)) :
    UntypedQuery.candidatesOf w (cs.map (untyped r)) best =
      if (cs.map (resolved r)).all (Term.isServed w) then
        ((Term.allCandidates w (cs.map (resolved r))).foldl shorter best).getD []
      else [] := by
  induction cs generalizing best with
  | nil => rfl
  | cons c rest ih =>
      have hserved := isServed_resolved h.head
      rw [List.map_cons, List.map_cons, List.all_cons, Term.allCandidates, List.foldl_cons]
      rw [UntypedQuery.candidatesOf, component_untyped]
      cases hanchors : (c.untyped r).anchors with
      | false =>
          rw [hanchors] at hserved
          rw [candidates_resolved_of_not_anchors hanchors, shorter_none_right, hserved,
            if_neg Bool.false_ne_true]
          exact ih h.tail best
      | true =>
          rw [hanchors] at hserved
          cases hstorage : w.storage? (c.column r).id with
          | none =>
              rw [hstorage] at hserved
              rw [hserved]
              rfl
          | some storage =>
              rw [hstorage] at hserved
              rw [candidates_resolved h.head hanchors hstorage, hserved]
              exact ih h.tail _

/-- Conditions without an anchor have no candidates. -/
theorem smallest_of_unanchored (w : World)
    (h : unanchored (Term.patterns (cs.map (resolved r))) = true) :
    smallest (Term.allCandidates w (cs.map (resolved r))) = none := by
  rw [unanchored, patterns_resolved, Bool.not_eq_true', List.any_eq_false] at h
  have hnone : ∀ c ∈ cs, (c.resolved r).candidates w = none := by
    intro c hc
    have hc' := h (c.untyped r).pattern (List.mem_map_of_mem (List.mem_map_of_mem hc))
    rw [UntypedTerm.anchors_pattern] at hc'
    exact candidates_resolved_of_not_anchors (Bool.eq_false_iff.2 hc')
  clear h
  rw [Term.allCandidates_eq, smallest]
  induction cs with
  | nil => rfl
  | cons c rest ih =>
      rw [List.map_cons, List.map_cons, List.foldl_cons, hnone c List.mem_cons_self]
      exact ih fun c' hc' => hnone c' (List.mem_cons_of_mem c hc')

/-- Both queries look at the same entities, in the same order. -/
theorem candidates_eq (h : Ready r cs w) {q : Query} (hterms : q.terms = cs.map (resolved r))
    (hserved : q.served = q.terms.all (Term.isServed w))
    (hanchored : q.anchored = !unanchored q.patterns) :
    (UntypedQuery.ofConditions r cs).candidates w = q.candidates w := by
  rw [UntypedQuery.candidates, Query.candidates, Query.canMatch]
  rw [terms_ofConditions, candidatesOf_eq h none, ← hterms, ← hserved]
  cases q.served with
  | false => rfl
  | true =>
      rw [if_pos rfl, Bool.true_and]
      cases hanchor : q.anchored with
      | true => rfl
      | false =>
          rw [if_neg Bool.false_ne_true]
          -- without an anchor there is no list at all
          have hall : unanchored q.patterns = true := by simpa [hanchor] using hanchored
          rw [Query.patterns, hterms] at hall
          have hnone := smallest_of_unanchored w hall
          rw [smallest, ← hterms] at hnone
          rw [hnone]
          rfl

end Condition

end EntityStore
