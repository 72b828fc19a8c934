import EntityStore.Proofs.FixedMatches
import EntityStore.Proofs.Holding

/-!
# Accessors point at one entity together

The accessors of an untyped cursor are loaded one term after the other, by starting, by moving on
and by visiting, and all emptied when the walk ends.  What was loaded last is a matter of the calls
and the matches alone; every accessor points there if its term hands out a component that the
entity holds, and nowhere otherwise.

* `Loading` — what calls of a cursor load, told from the list of matches;
* `UntypedTerm.reaches`, `fst_pointAll` — which accessors a loaded entity has;
* `UntypedUse.finds_apply` — no call changes who holds what;
* `UntypedCursor.Loaded` — the invariant, `Loaded.apply`, `Loaded.run` — one call, any number;
* `Accessor.instance?_eq`, `Accessor.PointsAt` — what is read there is the first instance that the
  entity holds, and `Loaded.exists_pointsAt` — there is one;
* `Store.accessors_follow_loading` — the accessors of every cursor, at any time.
-/

namespace EntityStore

/-! ### What calls load -/

/-- How far a cursor has come along its matches, and the entity that it loaded last, unless the walk
has ended since then. -/
structure Loading where
  passed : Nat
  loaded : Option Entity
deriving DecidableEq, Repr

namespace Loading

/-- Starting loads the first match. -/
def start (matching : List Entity) : Loading :=
  ⟨0, matching[0]?⟩

/-- Moving on loads the next match, or ends the walk after the last one; a walk that has ended
stays as it is.  Visiting loads an entity that matches.  Counting ends the walk.  Writing loads
nothing. -/
def apply (matching : List Entity) (x : Loading) : UntypedUse → Loading
  | .next =>
    if x.passed < matching.length then ⟨x.passed + 1, matching[x.passed + 1]?⟩ else x
  | .visit e => if e ∈ matching then { x with loaded := some e } else x
  | .drain => ⟨matching.length, none⟩
  | .write .. => x

def run (matching : List Entity) (x : Loading) (uses : List UntypedUse) : Loading :=
  uses.foldl (apply matching) x

end Loading

/-! ### Which accessors an entity has -/

/-- There is a first instance of what is held. -/
theorem Storage.Valid.isSome_first?_eq {s : Storage} (h : s.Valid) (e : Entity) :
    (s.first? e).isSome = s.contains e := by
  rw [h.contains_eq, s.first?_eq]
  cases s with
  | batch t rows =>
      cases hget : rows.table.get? e with
      | none =>
          rw [holding?, hget]
          rfl
      | some l =>
          have hne := h.ne_nil l (SparseSet.mem_rows_of_get? hget)
          rw [holding?, hget]
          cases l with
          | nil => exact absurd rfl hne
          | cons first rest => rfl
  | dense t table =>
      rw [holding?]
      cases table.get? e <;> rfl
  | counting t table counts =>
      rw [holding?]
      cases table.get? e <;> rfl
  | hidden t table =>
      rw [holding?]
      cases table.get? e <;> rfl
  | script schema table =>
      rw [holding?]
      cases table.get? e <;> rfl

namespace UntypedTerm

/-- Whether the accessor of the term points at the entity when it is loaded: the term is not an
exclusion, and the entity holds the component. -/
def reaches (t : UntypedTerm) (w : World) (e : Entity) : Bool :=
  decide (t.requirement ≠ .absent) && t.finds w e

theorem reaches_iff (t : UntypedTerm) (w : World) (e : Entity) :
    t.reaches w e = true ↔ t.requirement ≠ .absent ∧ t.finds w e = true := by
  rw [reaches, Bool.and_eq_true, decide_eq_true_eq]

theorem reaches_congr {t : UntypedTerm} {w w' : World} {e : Entity}
    (h : t.finds w e = t.finds w' e) : t.reaches w e = t.reaches w' e := by
  rw [reaches, reaches, h]

theorem fst_point {st : FetchState} (h : st.world.Valid) (t : UntypedTerm) (e : Entity) :
    (t.point e st).1 = (some e).filter (t.reaches st.world) := by
  by_cases habsent : t.requirement = .absent
  · have hreaches : t.reaches st.world e = false := by
      rw [reaches, decide_eq_false (not_not_intro habsent), Bool.false_and]
    rw [point_of_absent habsent, Option.filter_some, hreaches]
    rfl
  · have hreaches : t.reaches st.world e = t.finds st.world e := by
      rw [reaches, decide_eq_true habsent, Bool.true_and]
    rw [Option.filter_some, hreaches, finds]
    cases hstorage : st.world.storage? t.component with
    | none =>
        rw [point_of_storage?_eq_none hstorage]
        rfl
    | some s =>
        have hfirst := (h.storage _ s hstorage).isSome_first?_eq e
        rw [point_of_storage?_eq_some habsent hstorage, Option.map_some, Option.getD_some, ← hfirst]
        cases s.first? e <;> rfl

end UntypedTerm

/-- **Loading an entity points at it where its component is handed out.** -/
theorem fst_pointAll {st : FetchState} (h : st.world.Valid) (e : Entity)
    (ts : List UntypedTerm) :
    (pointAll e ts st).1 = ts.map fun t => (some e).filter (t.reaches st.world) := by
  induction ts generalizing st with
  | nil => rfl
  | cons t rest ih =>
      have hlater := ih ((World.within_pointTerm e t st).valid h)
      obtain ⟨fs, hst, _⟩ := t.fetchesOnce_point e st
      have hsame : ∀ u : UntypedTerm, (some e).filter (u.reaches (t.point e st).2.world) =
          (some e).filter (u.reaches st.world) := by
        intro u
        rw [Option.filter_some, Option.filter_some, hst,
          UntypedTerm.reaches_congr (u.finds_perform st e fs e)]
      rw [List.map_cons, ← t.fst_point h e]
      simp only [hsame] at hlater
      exact congrArg _ hlater

/-! ### Calls change nobody's components -/

namespace UntypedTerm

variable (t : UntypedTerm) (c : UntypedCursor) (st : FetchState) (e : Entity)

theorem finds_pointAll (e' : Entity) (ts : List UntypedTerm) :
    t.finds (pointAll e' ts st).2.world e = t.finds st.world e := by
  obtain ⟨fs, hst, _⟩ := fetches_pointAll e' ts st
  rw [hst, finds_perform]

theorem finds_seek : t.finds (c.seek st).2.world e = t.finds st.world e := by
  rw [UntypedCursor.seek]
  split
  · rfl
  · exact t.finds_pointAll st e _ _

theorem finds_write (a : Accessor) (w : World) (field : String) (v : Value) :
    t.finds (a.write w field v).2 e = t.finds w e := by
  rw [finds_eq, finds_eq, a.facets_write]

/-- No call of a cursor changes who holds the component of a term. -/
theorem finds_apply (use : UntypedUse) :
    t.finds (use.apply c st).2.world e = t.finds st.world e := by
  cases use with
  | next =>
      show t.finds (c.next st).2.world e = _
      rw [UntypedCursor.next]
      split
      · rfl
      · exact t.finds_seek _ st e
      · exact t.finds_seek _ st e
  | visit e' =>
      show t.finds (c.visit e' st).2.2.world e = _
      rw [UntypedCursor.visit]
      split
      · exact t.finds_pointAll st e e' c.terms
      · rfl
  | drain => rfl
  | write index field v =>
      rw [UntypedUse.apply]
      split
      · exact t.finds_write e _ st.world field v
      · rfl

end UntypedTerm

/-! ### The invariant -/

namespace UntypedCursor

/-- The entity that the cursor stands on, unless it is closed. -/
def here? (c : UntypedCursor) : Option Entity :=
  if c.isOpen then some c.current else none

theorem StandsAt.here?_eq {c : UntypedCursor} {matching : List Entity} {k : Nat}
    (h : c.StandsAt matching k) : c.here? = matching[k]? := by
  rw [here?, isOpen, h.phase, h.current]
  by_cases hk : matching.length ≤ k
  · rw [if_pos hk, List.getElem?_eq_none hk]
    rfl
  · rw [if_neg hk, List.getElem?_eq_getElem (Nat.not_le.1 hk)]
    split <;> rfl

/-- The accessors point at what was loaded, and the cursor has come as far as that. -/
structure Loaded (q : UntypedQuery) (start : World) (x : Loading) (c : UntypedCursor)
    (w : World) : Prop where
  walking : Walking q start x.passed c
  targets : c.targets = q.terms.map fun t => x.loaded.filter (t.reaches w)

/-- After a search the accessors point at the match that was found, if there is one. -/
theorem targets_seek {c : UntypedCursor} {st : FetchState} (hvalid : st.world.Valid)
    (hphase : c.phase ≠ .ended) :
    (c.seek st).1.targets =
      c.terms.map fun t => (c.seek st).1.here?.filter (t.reaches (c.seek st).2.world) := by
  rw [seek]
  split
  · rfl
  · next e rest _ =>
    have hhere : ({ c with remaining := e :: rest, current := e }.point e st).1.here? = some e :=
      if_pos (bne_iff_ne.2 hphase)
    rw [hhere]
    refine (fst_pointAll hvalid e c.terms).trans (List.map_congr_left fun t _ => ?_)
    rw [Option.filter_some, Option.filter_some,
      UntypedTerm.reaches_congr (t.finds_pointAll st e e c.terms).symm]
    rfl

namespace Loaded

variable {q : UntypedQuery} {start : World} {x : Loading} {c : UntypedCursor} {st : FetchState}

/-- A search that comes to a position loads the match there. -/
theorem seek {k : Nat} (hsteady : Steady q start c st.world) (hphase : c.phase ≠ .ended)
    (hwalking : Walking q start k (c.seek st).1) :
    Loaded q start ⟨k, (q.matching start)[k]?⟩ (c.seek st).1 (c.seek st).2.world where
  walking := hwalking
  targets := by
    rw [targets_seek hsteady.valid hphase, hwalking.stands.here?_eq, hsteady.terms]

/-- Accessors stay where they are if neither they nor the components change. -/
theorem keep (h : Loaded q start x c st.world) {c' : UntypedCursor} {w' : World}
    (hwalking : Walking q start x.passed c') (htargets : c'.targets = c.targets)
    (hfinds : ∀ (t : UntypedTerm) (e : Entity), t.finds w' e = t.finds st.world e) :
    Loaded q start x c' w' where
  walking := hwalking
  targets := by
    have hreaches : ∀ t : UntypedTerm, t.reaches w' = t.reaches st.world :=
      fun t => funext fun e => UntypedTerm.reaches_congr (hfinds t e)
    simp only [htargets, h.targets, hreaches]

theorem next (h : Loaded q start x c st.world) (hsteady : Steady q start c st.world) :
    Loaded q start (x.apply (q.matching start) .next) (c.next st).1 (c.next st).2.world := by
  have hwalking := h.walking.next hsteady
  rw [Loading.apply]
  by_cases hk : x.passed < (q.matching start).length
  · rw [if_pos hk]
    rw [next_of_open (h.walking.open_of_lt hk)] at hwalking ⊢
    exact seek (hsteady.of_eq rfl rfl) nofun hwalking
  · rw [if_neg hk]
    rw [next_of_ended (h.walking.ended (Nat.not_lt.1 hk)).2]
    exact h

theorem visit (h : Loaded q start x c st.world) (hsteady : Steady q start c st.world)
    (hstart : start.Valid) (e : Entity) :
    Loaded q start (x.apply (q.matching start) (.visit e)) (c.visit e st).2.1
      (c.visit e st).2.2.world := by
  rw [Loading.apply, UntypedCursor.visit]
  by_cases he : c.selects st.world e = true
  · rw [if_pos he, if_pos ((hsteady.mem_matching_iff hstart e).1 he)]
    refine ⟨h.walking.point e st, ?_⟩
    refine (fst_pointAll hsteady.valid e c.terms).trans ?_
    rw [hsteady.terms]
    refine List.map_congr_left fun t _ => ?_
    rw [Option.filter_some, Option.filter_some,
      UntypedTerm.reaches_congr (t.finds_pointAll st e e c.terms).symm]
    rfl
  · rw [if_neg he, if_neg fun hmem => he ((hsteady.mem_matching_iff hstart e).2 hmem)]
    exact h

theorem drain (hsteady : Steady q start c st.world) :
    Loaded q start (x.apply (q.matching start) .drain) c.close st.world where
  walking := Walking.close c (Nat.le_refl _)
  targets := congrArg _ hsteady.terms

/-- **Every call keeps the accessors together.** -/
theorem apply (h : Loaded q start x c st.world) (hsteady : Steady q start c st.world)
    (hstart : start.Valid) (use : UntypedUse) :
    Loaded q start (x.apply (q.matching start) use) (use.apply c st).1
      (use.apply c st).2.world := by
  cases use with
  | next => exact h.next hsteady
  | visit e => exact h.visit hsteady hstart e
  | drain => exact drain hsteady
  | write index field v =>
      have hcursor : (UntypedUse.apply (.write index field v) c st).1 = c := by
        rw [UntypedUse.apply]
        split <;> rfl
      refine h.keep ?_ (congrArg UntypedCursor.targets hcursor) fun t e => t.finds_apply c st e _
      rw [hcursor]
      exact h.walking

/-- **The accessors stay together,** whatever is called. -/
theorem run (h : Loaded q start x c st.world) (hsteady : Steady q start c st.world)
    (hstart : start.Valid) (uses : List UntypedUse) :
    Loaded q start (x.run (q.matching start) uses) (UntypedUse.run uses c st).1
      (UntypedUse.run uses c st).2.world := by
  induction uses generalizing x c st with
  | nil => exact h
  | cons use rest ih => exact ih (h.apply hsteady hstart use) (hsteady.apply hstart use)

end Loaded

end UntypedCursor

/-! ### What accessors read -/

namespace Accessor

/-- What is read through an accessor is the first instance that its target holds. -/
theorem instance?_eq {a : Accessor} {e : Entity} (h : a.target = some e) (w : World) :
    a.instance? w = (w.holding? a.component e).bind Holding.first? := by
  rw [instance?, h, World.holding?, Option.bind_assoc]
  simp only [Storage.first?_eq]

/-- The accessor points at the instance: it is the first one that the target of the accessor
has. -/
def PointsAt (a : Accessor) (w : World) (e : Entity) (inst : Instance) : Prop :=
  a.target = some e ∧ (w.holding? a.component e).bind Holding.first? = some inst

theorem PointsAt.read?_eq {a : Accessor} {w : World} {e : Entity} {inst : Instance}
    (h : a.PointsAt w e inst) (field : String) : a.read? w field = inst.get? field := by
  rw [read?, instance?_eq h.1, h.2]
  rfl

/-- There is one if the target holds the component. -/
theorem exists_pointsAt {a : Accessor} {e : Entity} (h : a.target = some e) {w : World}
    (hw : w.Valid) {t : UntypedTerm} (hcomponent : a.component = t.component)
    (hfinds : t.finds w e = true) : ∃ inst, a.PointsAt w e inst := by
  rw [UntypedTerm.finds, ← hcomponent] at hfinds
  cases hstorage : w.storage? a.component with
  | none =>
      rw [hstorage] at hfinds
      cases hfinds
  | some s =>
      rw [hstorage] at hfinds
      have hsome := ((hw.storage _ s hstorage).isSome_first?_eq e).trans hfinds
      obtain ⟨inst, hinst⟩ := Option.isSome_iff_exists.1 hsome
      refine ⟨inst, h, ?_⟩
      rw [World.holding?_of_storage? hstorage, ← s.first?_eq, hinst]

end Accessor

namespace UntypedCursor.Loaded

variable {q : UntypedQuery} {start w : World} {x : Loading} {c : UntypedCursor}

theorem accessors_eq (h : Loaded q start x c w) (hterms : c.terms = q.terms) :
    c.accessors =
      q.terms.map fun t => ⟨t.component, t.mutable, x.loaded.filter (t.reaches w)⟩ := by
  rw [accessors, hterms, h.targets, List.map_zip_eq_zipWith, List.zipWith_map_right,
    List.zipWith_self]
  rfl

theorem accessor?_eq (h : Loaded q start x c w) (hterms : c.terms = q.terms) {i : Nat}
    {t : UntypedTerm} (ht : q.terms[i]? = some t) :
    c.accessor? i = some ⟨t.component, t.mutable, x.loaded.filter (t.reaches w)⟩ := by
  rw [accessor?, h.accessors_eq hterms, List.getElem?_map, ht]
  rfl

/-- An accessor that has a target points at an instance there. -/
theorem exists_pointsAt (h : Loaded q start x c w) (hterms : c.terms = q.terms) (hw : w.Valid)
    {i : Nat} {a : Accessor} (ha : c.accessor? i = some a) {e : Entity}
    (htarget : a.target = some e) : ∃ inst, a.PointsAt w e inst := by
  rw [accessor?, h.accessors_eq hterms, List.getElem?_map] at ha
  obtain ⟨t, _, rfl⟩ := Option.map_eq_some_iff.1 ha
  have hreaches := (Option.filter_eq_some_iff.1 htarget).2
  exact Accessor.exists_pointsAt htarget hw rfl ((t.reaches_iff w e).1 hreaches).2

end UntypedCursor.Loaded

/-! ### The end of a walk -/

/-- The call ends the walk: it counts the matches, or it moves on past the last one. -/
def UntypedUse.Ends (use : UntypedUse) (c : UntypedCursor) (st : FetchState) : Prop :=
  use = .drain ∨ use = .next ∧ c.isOpen = true ∧ (c.next st).1.isOpen = false

/-- Nothing is loaded after the end until a match is visited. -/
theorem Loading.loaded_run_of_ended {matching : List Entity} {x : Loading}
    (hpassed : matching.length ≤ x.passed) (hloaded : x.loaded = none) {uses : List UntypedUse}
    (hvisits : ∀ e ∈ matching, .visit e ∉ uses) : (x.run matching uses).loaded = none := by
  induction uses generalizing x with
  | nil => exact hloaded
  | cons use rest ih =>
      have hrest : ∀ e ∈ matching, .visit e ∉ rest :=
        fun e he hmem => hvisits e he (List.mem_cons_of_mem use hmem)
      show ((x.apply matching use).run matching rest).loaded = none
      cases use with
      | next =>
          rw [apply, if_neg (Nat.not_lt.2 hpassed)]
          exact ih hpassed hloaded hrest
      | visit e =>
          rw [apply, if_neg fun he => hvisits e he List.mem_cons_self]
          exact ih hpassed hloaded hrest
      | drain => exact ih (Nat.le_refl _) rfl hrest
      | write index field v => exact ih hpassed hloaded hrest

/-- A call that ends the walk leaves nothing loaded. -/
theorem UntypedUse.Ends.loading {q : UntypedQuery} {start : World} {x : Loading}
    {c : UntypedCursor} {st : FetchState} {use : UntypedUse} (h : use.Ends c st)
    (hwalking : Walking q start x.passed c) (hsteady : Steady q start c st.world) :
    (q.matching start).length ≤ (x.apply (q.matching start) use).passed ∧
      (x.apply (q.matching start) use).loaded = none := by
  rcases h with rfl | ⟨rfl, hopen, hclosed⟩
  · exact ⟨Nat.le_refl _, rfl⟩
  · have hlt : x.passed < (q.matching start).length := by
      refine Nat.not_le.1 fun hk => ?_
      rw [UntypedCursor.isOpen, (hwalking.ended hk).2] at hopen
      cases hopen
    have hpast : (q.matching start).length ≤ x.passed + 1 := by
      refine Nat.not_lt.1 fun hk => ?_
      have hphase := (hwalking.next hsteady).open_of_lt hk
      exact hphase (bne_eq_false_iff_eq.1 hclosed)
    rw [Loading.apply, if_pos hlt]
    exact ⟨hpast, List.getElem?_eq_none hpast⟩

/-! ### The theorem -/

/-- A query that was started has its accessors loaded with the first match. -/
theorem Store.Valid.loaded_of_startQuery {s : Store} (hs : s.Valid) {q : UntypedQuery}
    {c : UntypedCursor} {st : FetchState} (h : s.startQuery q = .ok (c, st)) :
    Steady q (q.trace s.world) c st.world ∧
      UntypedCursor.Loaded q (q.trace s.world) (.start (q.matching (q.trace s.world))) c
        st.world := by
  have hstart : (q.trace s.world).Valid := (within_traceTerms q s.world).valid hs.world
  have hrefl : Steady q (q.trace s.world) (q.start (q.trace s.world))
      ({ world := q.trace s.world } : FetchState).world := Steady.refl q hstart
  have hsteady := hrefl.seek hstart
  have hwalking : Walking q (q.trace s.world) 0
      ((q.start (q.trace s.world)).seek { world := q.trace s.world }).1 := by
    refine Walking.seek hrefl ?_ rfl
    rw [List.drop_zero]
    rfl
  have hloaded := UntypedCursor.Loaded.seek hrefl nofun hwalking
  rw [seek_of_startQuery h] at hsteady hloaded
  exact ⟨hsteady, hloaded⟩

/-- **Accessors follow what is loaded.**  Every query that passes its test can be started on every
reachable store.  After any number of calls, in any order, there is one accessor a term, in the
mode of the term, and they all point at the entity that was loaded last: by starting, by moving on
or by a visit that matched.  An accessor points there if its term is not an exclusion and the
entity holds the component, and then there is a first instance, which is what the accessor reads,
as it is by now.  Exactly the matches can be visited, and a visit of somebody else changes nothing
at all.  After the end of the walk no accessor points anywhere until a match is visited. -/
theorem Store.accessors_follow_loading {s : Store} (hs : s.Reachable) {q : UntypedQuery}
    (h : q.check s.registry = .ok ()) :
    ∃ c st matching, s.startQuery q = .ok (c, st) ∧ matching = q.matching (q.trace s.world) ∧
      ∀ uses c' st', UntypedUse.run uses c st = (c', st') →
        c'.accessors.length = q.terms.length ∧
        (∀ i t, q.terms[i]? = some t → ∃ a, c'.accessor? i = some a ∧
          a.component = t.component ∧ a.mutable = t.mutable ∧
          (∀ e, a.target = some e ↔ ((Loading.start matching).run matching uses).loaded = some e ∧
            t.requirement ≠ .absent ∧ t.finds st'.world e = true) ∧
          ∀ e, a.target = some e →
            ∃ inst, (st'.world.holding? t.component e).bind Holding.first? = some inst ∧
              ∀ field, a.read? st'.world field = inst.get? field) ∧
        (∀ e, (c'.visit e st').1 = true ↔ e ∈ matching) ∧
        (∀ e, (c'.visit e st').1 = false → (c'.visit e st').2 = (c', st')) ∧
        ∀ use, use.Ends c' st' → ∀ rest, (∀ e ∈ matching, .visit e ∉ rest) →
          ∀ a ∈ (UntypedUse.run (use :: rest) c' st').1.accessors, a.target = none := by
  have hstart : (q.trace s.world).Valid := (within_traceTerms q s.world).valid hs.valid.world
  obtain ⟨hsteady, hloaded⟩ := hs.valid.loaded_of_startQuery (startQuery_of_check h)
  refine ⟨_, _, _, startQuery_of_check h, rfl, ?_⟩
  intro uses c' st' hrun
  have hlater := hsteady.run hstart uses
  have hpointing := hloaded.run hsteady hstart uses
  rw [hrun] at hlater hpointing
  have hvisit : ∀ e, (c'.visit e st').1 = c'.selects st'.world e := by
    intro e
    rw [UntypedCursor.visit]
    cases c'.selects st'.world e <;> rfl
  refine ⟨?_, ?_, ?_, ?_, ?_⟩
  · rw [hpointing.accessors_eq hlater.terms, List.length_map]
  · intro i t ht
    have ha := hpointing.accessor?_eq hlater.terms ht
    refine ⟨_, ha, rfl, rfl, ?_, ?_⟩
    · intro e
      rw [Option.filter_eq_some_iff, UntypedTerm.reaches_iff]
    · intro e htarget
      obtain ⟨inst, hpoints⟩ := hpointing.exists_pointsAt hlater.terms hlater.valid ha htarget
      exact ⟨inst, hpoints.2, hpoints.read?_eq⟩
  · intro e
    rw [hvisit]
    exact hlater.mem_matching_iff hstart e
  · intro e hmisses
    rw [hvisit] at hmisses
    rw [UntypedCursor.visit_of_not_selects hmisses]
  · intro use hends rest hvisits a ha
    -- past the end nothing but a visit loads
    obtain ⟨hpassed, hnone⟩ := hends.loading hpointing.walking hlater
    have hrest := (hpointing.apply hlater hstart use).run (hlater.apply hstart use) hstart rest
    have hterms := ((hlater.apply hstart use).run hstart rest).terms
    rw [UntypedUse.run_cons, hrest.accessors_eq hterms] at ha
    obtain ⟨t, _, rfl⟩ := List.mem_map.1 ha
    simp only [Loading.loaded_run_of_ended hpassed hnone hvisits, Option.filter_none]

/-- In the sample store the cursor over two levels moves on, writes and then visits the first level
again: the accessor of the level points there, that of the excluded position nowhere.  Counting
empties both, and moving on does not load them again. -/
theorem Store.sample_accessors_follow :
    Store.sample.Reachable ∧ UntypedQuery.sample.check Store.sample.registry = .ok () ∧
      ∃ c st a b, Store.sample.startQuery UntypedQuery.sample = .ok (c, st) ∧
        (UntypedUse.run [.next, .write 0 "value" (.int 5), .visit ⟨1, 0⟩] c st).1.accessor? 0 =
          some a ∧ a.target = some ⟨1, 0⟩ ∧
        (UntypedUse.run [.next, .write 0 "value" (.int 5), .visit ⟨1, 0⟩] c st).1.accessor? 1 =
          some b ∧ b.target = none ∧
        ∀ x ∈ (UntypedUse.run [.drain, .next] c st).1.accessors, x.target = none := by
  have hchecked : UntypedQuery.sample.check Store.sample.registry = .ok () := rfl
  have hmatching : UntypedQuery.sample.matching (UntypedQuery.sample.trace Store.sample.world) =
      [⟨1, 0⟩, ⟨2, 0⟩] := by decide +kernel
  obtain ⟨c, st, matching, hstart, rfl, hcalls⟩ :=
    Store.accessors_follow_loading Store.reachable_sample hchecked
  rw [hmatching] at hcalls
  let uses : List UntypedUse := [.next, .write 0 "value" (.int 5), .visit ⟨1, 0⟩]
  have hloaded : ((Loading.start [⟨1, 0⟩, ⟨2, 0⟩]).run [⟨1, 0⟩, ⟨2, 0⟩] uses).loaded =
      some ⟨1, 0⟩ := by decide
  have hfinds : (⟨⟨0⟩, .present, true⟩ : UntypedTerm).finds (UntypedUse.run uses c st).2.world
      ⟨1, 0⟩ = true := by
    have hbegun := Except.ok.inj (hstart.symm.trans (startQuery_of_check hchecked))
    cases hbegun
    decide +kernel
  obtain ⟨_, haccessors, _⟩ := hcalls uses _ _ rfl
  obtain ⟨a, ha, _, _, htarget, _⟩ := haccessors 0 ⟨⟨0⟩, .present, true⟩ rfl
  obtain ⟨b, hb, _, _, hexcluded, _⟩ := haccessors 1 ⟨⟨2⟩, .absent, false⟩ rfl
  refine ⟨Store.reachable_sample, hchecked, c, st, a, b, hstart, ha, ?_, hb, ?_, ?_⟩
  · exact (htarget ⟨1, 0⟩).2 ⟨hloaded, nofun, hfinds⟩
  · refine Option.eq_none_iff_forall_ne_some.2 fun e he => ?_
    exact ((hexcluded e).1 he).2.1 rfl
  · exact (hcalls [] c st rfl).2.2.2.2 .drain (.inl rfl) [.next] (by simp)

end EntityStore
