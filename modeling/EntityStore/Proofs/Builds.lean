import EntityStore.Proofs.Acceptance
import EntityStore.Proofs.Registration
import EntityStore.Proofs.Shortcuts

/-!
# Building queries one after another

Building a query registers component types and switches change tracing on, and nothing else.
Neither shows in what another query matches: a type that is registered has no instances yet, and
what shows of a storage is the same whether it is traced or not.  So which entities a query matches
is settled by the store as it was and the terms as they were written, whatever was built before
and is built later.

* `Store.shown?` — what typed access shows of a component while nothing is written;
* `Store.Valid.shown?_prepare`, `shown?_prepareAll` — **building queries does not change it**;
* `Store.meets`, `Store.matched` — matching terms as they were written;
* `Store.Builds` — a query among others that are built one after another;
* `Builds.selects_eq`, `Builds.count_eq` — **it matches what its terms match in the store.**
-/

namespace EntityStore

/-! ### Terms that are resolved in different ways -/

section Resolved

variable {κ : Type} {f g : κ → Column} {w w' : World}

theorem BoundTerm.holds_map_eq
    (h : ∀ k, (w.typed? (f k)).map Storage.still = (w'.typed? (g k)).map Storage.still)
    (e : Entity) (q : BoundTerm κ) : (q.map f).holds w e = (q.map g).holds w' e := by
  induction q with
  | component k m =>
      exact congrArg (Option.getD · false)
        (World.map_typed?_eq_of_still (fun s => s.contains_still e) (h k))
  | maybe inner ih => rfl
  | changed inner ih =>
      have hmarked : w.isMarked (f inner.column) e = w'.isMarked (g inner.column) e :=
        congrArg (Option.getD · false)
          (World.map_typed?_eq_of_still (fun s => s.isMarked_still e) (h inner.column))
      rw [map, map, holds, holds, ih, column_map, column_map, hmarked]

namespace Term

mutual

/-- **Terms match alike if what shows of their components is alike**, whatever their positions. -/
theorem holds_map_eq
    (h : ∀ k, (w.typed? (f k)).map Storage.still = (w'.typed? (g k)).map Storage.still)
    (e : Entity) (t : Term κ) : (t.map f).holds w e = (t.map g).holds w' e := by
  cases t with
  | entity => rfl
  | single q => exact q.holds_map_eq h e
  | batch q => exact q.holds_map_eq h e
  | without inner => rw [map, map, holds, holds, holds_map_eq h e inner]
  | maybe inner => rfl
  | any children => rw [map, map, holds, holds, countHolds_mapAll_eq h e children]
  | join children => rw [map, map, holds, holds, countHolds_mapAll_eq h e children]

theorem countHolds_mapAll_eq
    (h : ∀ k, (w.typed? (f k)).map Storage.still = (w'.typed? (g k)).map Storage.still)
    (e : Entity) (ts : List (Term κ)) :
    countHolds w e (mapAll f ts) = countHolds w' e (mapAll g ts) := by
  cases ts with
  | nil => rfl
  | cons t rest =>
      rw [mapAll, mapAll, countHolds, countHolds, holds_map_eq h e t,
        countHolds_mapAll_eq h e rest]

end

end Term

end Resolved

/-! ### Registration does not show -/

namespace Store

variable {s : Store}

/-- A type that is not registered has no storage. -/
theorem Valid.storage?_column_of_unregistered (hs : s.Valid) {t : ComponentType}
    (h : s.registry.position? t = none) : s.world.storage? (s.column t).1.id = none := by
  rw [Option.eq_none_iff_forall_ne_some]
  intro storage hstorage
  obtain ⟨entry, hentry, -⟩ := hs.prescribed _ storage hstorage
  -- its position would be the one behind the last entry
  have hid : (s.column t).1.id = ⟨s.registry.size⟩ := by
    rw [Store.column, Registry.register_of_none h]
  have hlt := Registry.lt_size_of_some hentry
  rw [hid] at hlt
  exact Nat.lt_irrefl _ hlt

/-- Registering a type leaves every type with the storage that it had. -/
theorem Valid.storage?_column_column (hs : s.Valid) (t t' : ComponentType) :
    s.world.storage? ((s.column t).2.column t').1.id = s.world.storage? (s.column t').1.id := by
  cases hpos : s.registry.position? t' with
  | some id =>
      have hkept := (Registry.extends_register s.registry t).fst_register
        (Option.isSome_of_eq_some hpos)
      exact congrArg s.world.storage? hkept
  | none =>
      by_cases h : t' = t
      · subst h
        have hkept := Registry.register_of_position? (s.registry.position?_register t')
        exact congrArg (fun p => s.world.storage? p.1) hkept
      · have hpos' : (s.column t).2.registry.position? t' = none :=
          (s.registry.position?_register_of_ne h).trans hpos
        rw [hs.storage?_column_of_unregistered hpos]
        exact (hs.column t).storage?_column_of_unregistered hpos'

/-- What typed access shows of a component while nothing is written. -/
def shown? (s : Store) (t : ComponentType) : Option Storage :=
  (s.world.typed? (s.column t).1).map Storage.still

theorem Valid.shown?_column (hs : s.Valid) (t t' : ComponentType) :
    (s.column t).2.shown? t' = s.shown? t' := by
  have hsame := hs.storage?_column_column t t'
  show ((s.world.storage? ((s.column t).2.column t').1.id).filter (·.opens t')).map _ = _
  rw [hsame]
  rfl

theorem Valid.shown?_registerAll (hs : s.Valid) (ts : List ComponentType) (t : ComponentType) :
    ({ s with registry := s.registry.registerAll ts } : Store).shown? t = s.shown? t := by
  induction ts generalizing s with
  | nil => rfl
  | cons first rest ih => exact (ih (hs.column first)).trans (hs.shown?_column first t)

/-! ### Building does not show -/

theorem registry_prepare (s : Store) (ts : List (Term ComponentType)) :
    (s.prepare ts).2.registry = s.registry.registerAll (Term.allComponents ts) := by
  rw [prepare]
  simp only
  split <;> rfl

/-- Building a query changes the world only by tracing, and not at all if it is refused. -/
theorem exists_traceAll_prepare (s : Store) (ts : List (Term ComponentType)) :
    ∃ cs, (s.prepare ts).2.world = s.world.traceAll cs := by
  rw [prepare]
  simp only
  split
  · exact ⟨[], rfl⟩
  · exact ⟨_, rfl⟩

/-- **Building a query does not show.** -/
theorem Valid.shown?_prepare (hs : s.Valid) (ts : List (Term ComponentType)) (t : ComponentType) :
    (s.prepare ts).2.shown? t = s.shown? t := by
  obtain ⟨cs, hworld⟩ := s.exists_traceAll_prepare ts
  calc (s.prepare ts).2.shown? t
      = Store.shown? { s with registry := s.registry.registerAll (Term.allComponents ts) } t := by
        rw [shown?, Store.column, hworld, registry_prepare]
        exact World.map_still_typed?_traceAll ..
    _ = s.shown? t := hs.shown?_registerAll _ t

/-- The store after queries were built one after another. -/
def prepareAll (s : Store) (tss : List (List (Term ComponentType))) : Store :=
  tss.foldl (fun s ts => (s.prepare ts).2) s

theorem prepareAll_append (s : Store) (tss tss' : List (List (Term ComponentType))) :
    s.prepareAll (tss ++ tss') = (s.prepareAll tss).prepareAll tss' :=
  List.foldl_append

theorem Valid.prepareAll (hs : s.Valid) (tss : List (List (Term ComponentType))) :
    (s.prepareAll tss).Valid := by
  induction tss generalizing s with
  | nil => exact hs
  | cons ts rest ih => exact ih (hs.prepare ts)

theorem Valid.shown?_prepareAll (hs : s.Valid) (tss : List (List (Term ComponentType)))
    (t : ComponentType) : (s.prepareAll tss).shown? t = s.shown? t := by
  induction tss generalizing s with
  | nil => rfl
  | cons ts rest ih => exact (ih (hs.prepare ts)).trans (hs.shown?_prepare ts t)

theorem extends_prepareAll (s : Store) (tss : List (List (Term ComponentType))) :
    s.registry.Extends (s.prepareAll tss).registry := by
  induction tss generalizing s with
  | nil => exact .refl _
  | cons ts rest ih =>
      have hstep := Registry.extends_registerAll s.registry (Term.allComponents ts)
      rw [← registry_prepare] at hstep
      exact hstep.trans (ih (s.prepare ts).2)

/-- **What is accepted once is accepted after any builds.** -/
theorem Valid.accepts_prepareAll_iff (hs : s.Valid) (tss : List (List (Term ComponentType)))
    (ts : List (Term ComponentType)) : (s.prepareAll tss).Accepts ts ↔ s.Accepts ts := by
  rw [accepts_iff hs.registry, accepts_iff (hs.prepareAll tss).registry]

/-! ### Matching terms as they were written -/

/-- Whether the entity matches the term in the store as it is. -/
def meets (s : Store) (e : Entity) (t : Term ComponentType) : Bool :=
  (t.map fun k => (s.column k).1).holds s.world e

theorem Valid.meets_prepareAll (hs : s.Valid) (tss : List (List (Term ComponentType)))
    (e : Entity) (t : Term ComponentType) : (s.prepareAll tss).meets e t = s.meets e t :=
  Term.holds_map_eq (hs.shown?_prepareAll tss) e t

theorem allHold_resolve (s : Store) (e : Entity) (ts : List (Term ComponentType)) :
    Term.allHold s.world e (s.registry.resolve ts) = ts.all (s.meets e) := by
  rw [Term.allHold, Registry.resolve, Term.mapAll_eq, List.all_map]
  rfl

/-- The entities that match every term in the store as it is. -/
def matched (s : Store) (ts : List (Term ComponentType)) : Set Entity :=
  {e | ts.all (s.meets e) = true}

/-- Among queries that are built one after another in the store, the terms give the query, and the
world is as it is then or after some more were built. -/
def Builds (s : Store) (ts : List (Term ComponentType)) (q : Query) (w : World) : Prop :=
  ∃ earlier later, ((s.prepareAll earlier).prepare ts).1 = .ok q ∧
    w = (s.prepareAll (earlier ++ ts :: later)).world

section Builds

variable {ts : List (Term ComponentType)} {q : Query} {w : World}

/-- What is accepted after some builds is built then. -/
theorem exists_builds {earlier : List (List (Term ComponentType))}
    (h : (s.prepareAll earlier).Accepts ts) (later : List (List (Term ComponentType))) :
    ∃ q, s.Builds ts q (s.prepareAll (earlier ++ ts :: later)).world := by
  obtain ⟨q, s', hprepare⟩ := h
  exact ⟨q, earlier, later, congrArg Prod.fst hprepare, rfl⟩

/-- When the query was built, and what became of the store since. -/
theorem Builds.exists_prepared (h : s.Builds ts q w) :
    ∃ earlier s' later, (s.prepareAll earlier).Prepared ts q s' ∧
      s' = s.prepareAll (earlier ++ [ts]) ∧ w = (s'.prepareAll later).world := by
  obtain ⟨earlier, later, hq, rfl⟩ := h
  have hprepare : (s.prepareAll earlier).prepare ts =
      (.ok q, ((s.prepareAll earlier).prepare ts).2) := Prod.ext hq rfl
  refine ⟨earlier, _, later, prepared_of_prepare hprepare, ?_, ?_⟩
  · exact (s.prepareAll_append earlier [ts]).symm
  · rw [prepareAll_append]
    rfl

theorem Builds.anchored_eq (h : s.Builds ts q w) : q.anchored = ts.any Term.anchors := by
  obtain ⟨earlier, s', later, hprepared, -, -⟩ := h.exists_prepared
  exact hprepared.anchored_eq

theorem Builds.valid (hs : s.Valid) (h : s.Builds ts q w) : w.Valid := by
  obtain ⟨earlier, later, -, rfl⟩ := h
  exact (hs.prepareAll _).world

/-- The terms of the query match what they match in the store, then and later. -/
theorem allHold_later (hs : s.Valid) {earlier : List (List (Term ComponentType))} {s' : Store}
    (hprepared : (s.prepareAll earlier).Prepared ts q s')
    (hs' : s' = s.prepareAll (earlier ++ [ts])) (later : List (List (Term ComponentType)))
    (e : Entity) : Term.allHold (s'.prepareAll later).world e q.terms = ts.all (s.meets e) := by
  rw [← hprepared.resolve_eq (s'.extends_prepareAll later), allHold_resolve]
  congr 1
  funext t
  rw [hs', ← prepareAll_append, hs.meets_prepareAll]

/-- **A query matches what its terms match in the store**, whenever it is built and asked. -/
theorem Builds.selects_eq (hs : s.Valid) (h : s.Builds ts q w) (e : Entity) :
    q.selects w e = (ts.any Term.anchors && ts.all (s.meets e)) := by
  rw [← h.anchored_eq]
  obtain ⟨earlier, s', later, hprepared, hs', rfl⟩ := h.exists_prepared
  rw [Query.selects, Query.canMatch, allHold_later hs hprepared hs']
  cases hserved : q.served with
  | true => rw [Bool.true_and]
  | false =>
      -- a storage was missing when it was built, so nobody matched then, and nobody does later
      have hnobody : Term.allHold s'.world e q.terms = false :=
        Term.allHold_of_not_served (hprepared.served ▸ hserved) e
      have hthen : Term.allHold s'.world e q.terms = ts.all (s.meets e) :=
        allHold_later hs hprepared hs' [] e
      rw [← hthen, hnobody, Bool.and_false, Bool.and_false]

theorem Builds.setOf_selects (hs : s.Valid) (h : s.Builds ts q w)
    (hanchored : ts.any Term.anchors = true) : {e | q.selects w e = true} = s.matched ts := by
  ext e
  show q.selects w e = true ↔ ts.all (s.meets e) = true
  rw [h.selects_eq hs, hanchored, Bool.true_and]

/-- **Its count is the number of the entities that match.** -/
theorem Builds.count_eq (hs : s.Valid) (h : s.Builds ts q w)
    (hanchored : ts.any Term.anchors = true) : q.count w = (s.matched ts).ncard := by
  obtain ⟨earlier, s', later, hprepared, -, -⟩ := h.exists_prepared
  rw [Query.count_eq_ncard (h.valid hs) hprepared.anchored, h.setOf_selects hs hanchored]

theorem Builds.finite (hs : s.Valid) (h : s.Builds ts q w)
    (hanchored : ts.any Term.anchors = true) : (s.matched ts).Finite := by
  obtain ⟨earlier, s', later, hprepared, -, -⟩ := h.exists_prepared
  rw [← h.setOf_selects hs hanchored, Query.setOf_selects_eq (h.valid hs) hprepared.anchored]
  exact Finset.finite_toSet _

end Builds

end Store

end EntityStore
