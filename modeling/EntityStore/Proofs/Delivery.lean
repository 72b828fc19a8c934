import EntityStore.Proofs.Conditions

/-!
# Slots and accessors deliver the same

A condition delivers through a slot of a row when it is a term over component types, and through
an accessor when it is a term of an untyped query.  Fetched from the same world, both deliver the
same instance and leave the same world, up to access counts: the untyped term also asks for a
component that is optional and absent.

* `Slot.target?`, `Slot.record?`, `Accessor.Reads` — when a slot and an accessor deliver the same;
* `Condition.FetchesAlike`, `Condition.fetch_point` — both terms of a condition fetch alike;
* `Condition.fetchRow_pointAll` — and so do all terms together.
-/

namespace EntityStore

/-! ### Slots and accessors -/

namespace Slot

/-- The entity whose first instance the slot delivers. -/
def target? : Slot → Option Entity
  | .component _ _ e => some e
  | .present slot => slot.target?
  | .absent | .batch .. | .entity _ | .erased _ => none

/-- The first instance that the slot delivers. -/
def record? (w : World) : Slot → Option Record
  | .component c _ e => w.value? c e
  | .present slot => slot.record? w
  | .absent | .batch .. | .entity _ | .erased _ => none

end Slot

/-- The accessor points at what the slot delivers, and reads the same there. -/
structure Accessor.Reads (a : Accessor) (w : World) (slot : Slot) (w' : World) : Prop where
  target : a.target = slot.target?
  reads : a.instance? w = (slot.record? w').map Instance.native

theorem Accessor.Reads.present {a : Accessor} {w w' : World} {slot : Slot}
    (h : a.Reads w slot w') : a.Reads w (.present slot) w' :=
  ⟨h.target, h.reads⟩

theorem Storage.first?_of_opens {s : Storage} {t : ComponentType} (h : s.opens t = true)
    (e : Entity) : s.first? e = (s.records e).head?.map Instance.native := by
  cases s with
  | script schema table => cases h
  | _ => rfl

/-- Where typed access finds the storage, both ways of reading an instance give the same. -/
theorem World.first?_eq_value? {w : World} {c : Column} (h : w.typed? c = w.storage? c.id)
    (e : Entity) :
    (w.storage? c.id).bind (·.first? e) = (w.value? c e).map Instance.native := by
  rw [value?, values]
  rw [← h]
  cases htyped : w.typed? c with
  | none => rfl
  | some s =>
      obtain ⟨_, hopens⟩ := Option.filter_eq_some_iff.1 htyped
      exact Storage.first?_of_opens hopens e

/-! ### Fetching one term -/

namespace Condition

variable {r : Registry}

/-- The accessor of the condition that points at an entity, or at none. -/
def accessor (r : Registry) (c : Condition) (target : Option Entity) : Accessor :=
  ⟨(c.untyped r).component, (c.untyped r).mutable, target⟩

/-- An accessor without a target and an empty slot deliver nothing. -/
theorem reads_absent (c : Condition) (w w' : World) :
    (c.accessor r none).Reads w .absent w' :=
  ⟨rfl, rfl⟩

/-- An accessor and a slot for the same entity read the same. -/
theorem reads_component {c : Condition} {w w' : World}
    (h : w'.typed? (c.column r) = w'.storage? (c.column r).id)
    (hworlds : w.uncounted = w'.uncounted) (m : Bool) (e : Entity) :
    (c.accessor r (some e)).Reads w (.component (c.column r) m e) w' where
  target := rfl
  reads := by
    show (w.storage? (c.untyped r).component).bind (·.first? e) =
      (w'.value? (c.column r) e).map Instance.native
    rw [component_untyped, World.first?_congr_of_uncounted hworlds, World.first?_eq_value? h]

/-- What a fetch of a component does on both sides, if the entity holds it. -/
theorem fetch_of_holds {c : Condition} {st st' : FetchState} (hw : st.world.Valid)
    (h : st.world.typed? (c.column r) = st.world.storage? (c.column r).id)
    (hworlds : st.world.uncounted = st'.world.uncounted) {e : Entity}
    (hholds : st.world.holds (c.column r) e = true) (m : Bool) :
    ∃ storage, st'.world.storage? (c.column r).id = some storage ∧
      (storage.first? e).isSome = true ∧ (st.fetch (c.column r) m e).1 = true ∧
      (st.fetch (c.column r) m e).2.world.uncounted =
        (st'.perform e [⟨(c.column r).id, m⟩]).world.uncounted := by
  have hvalue : (st.world.value? (c.column r) e).isSome = true := by
    rw [hw.isSome_value?_eq, hholds]
  have hfirst := World.first?_eq_value? h e
  rw [World.first?_congr_of_uncounted hworlds] at hfirst
  have hsome : ((st'.world.storage? (c.column r).id).bind (·.first? e)).isSome = true := by
    rw [hfirst, Option.isSome_map, hvalue]
  cases hstorage : st'.world.storage? (c.column r).id with
  | none =>
      rw [hstorage] at hsome
      cases hsome
  | some storage =>
      rw [hstorage] at hsome
      refine ⟨storage, rfl, hsome, ?_, ?_⟩
      · rw [FetchState.fst_fetch, ← hw.holds_eq_found, hholds]
      · obtain ⟨old, hold, _⟩ := World.exists_typed?_of_holds hholds
        have hfetch : (st.fetch (c.column r) m e).2.world =
            st.world.fetch (c.column r).id m e := by
          rw [FetchState.fetch, hold]
        rw [hfetch]
        exact World.uncounted_fetch_congr hworlds (c.column r).id m e

/-- A condition that fetches its component delivers the same on both sides, if the entity holds
the component. -/
theorem fetch_point_of_holds {c : Condition} {st st' : FetchState} (hw : st.world.Valid)
    (h : st.world.typed? (c.column r) = st.world.storage? (c.column r).id)
    (hworlds : st.world.uncounted = st'.world.uncounted) {e : Entity}
    (hholds : st.world.holds (c.column r) e = true)
    (hrequirement : (c.untyped r).requirement ≠ .absent) :
    ((BoundTerm.component (c.column r) (c.untyped r).mutable).fetch e st).1 =
        some (.component (c.column r) (c.untyped r).mutable e) ∧
      ((BoundTerm.component (c.column r) (c.untyped r).mutable).fetch e st).2.world.uncounted =
        ((c.untyped r).point e st').2.world.uncounted ∧
      ((c.untyped r).point e st').1 = some e := by
  obtain ⟨storage, hstorage, hfirst, hfound, hleft⟩ :=
    fetch_of_holds hw h hworlds hholds (c.untyped r).mutable
  rw [← component_untyped] at hstorage
  rw [BoundTerm.fetch_component, hfound, if_pos rfl,
    UntypedTerm.point_of_storage?_eq_some hrequirement hstorage, component_untyped]
  obtain ⟨inst, hinst⟩ := Option.isSome_iff_exists.1 hfirst
  refine ⟨rfl, hleft, ?_⟩
  rw [hinst]
  rfl

/-- Pointing at an entity that does not hold an optional component only counts. -/
theorem point_of_not_holds {c : Condition} {st : FetchState}
    (h : st.world.typed? (c.column r) = st.world.storage? (c.column r).id) {e : Entity}
    (hholds : st.world.holds (c.column r) e = false) (hw : st.world.Valid) :
    ((c.untyped r).point e st).1 = none ∧
      ((c.untyped r).point e st).2.world.uncounted = st.world.uncounted := by
  by_cases hrequirement : (c.untyped r).requirement = .absent
  · rw [UntypedTerm.point_of_absent hrequirement]
    exact ⟨rfl, rfl⟩
  · cases hstorage : st.world.storage? (c.column r).id with
    | none =>
        rw [UntypedTerm.point_of_storage?_eq_none (by rw [component_untyped]; exact hstorage)]
        exact ⟨rfl, rfl⟩
    | some storage =>
        have huntyped : st.world.storage? (c.untyped r).component = some storage := by
          rw [component_untyped]
          exact hstorage
        rw [UntypedTerm.point_of_storage?_eq_some hrequirement huntyped]
        have hfirst := World.first?_eq_value? h e
        have hvalue : st.world.value? (c.column r) e = none := by
          rw [← Option.not_isSome_iff_eq_none, hw.isSome_value?_eq, hholds]
          exact Bool.false_ne_true
        rw [hvalue, hstorage] at hfirst
        have hnone : storage.first? e = none := hfirst
        refine ⟨by rw [hnone]; rfl, ?_⟩
        show (st.world.fetch (c.untyped r).component (c.untyped r).mutable e).uncounted = _
        rw [component_untyped]
        apply World.uncounted_fetch_of_not_held
        intro s hs
        rw [World.holds, h, hs] at hholds
        exact hholds

/-- Both terms of a condition deliver the same for an entity and leave the same world; and what
they deliver reads the same in any two worlds that agree. -/
def FetchesAlike (r : Registry) (c : Condition) (e : Entity) (st st' : FetchState) : Prop :=
  ∃ slot, ((c.resolved r).fetch e st).1 = some slot ∧
    ((c.resolved r).fetch e st).2.world.uncounted =
      ((c.untyped r).point e st').2.world.uncounted ∧
    ∀ w w', w'.typed? (c.column r) = w'.storage? (c.column r).id → w.uncounted = w'.uncounted →
      (c.accessor r ((c.untyped r).point e st').1).Reads w slot w'

/-- The entity holds the component, and the slot delivers it. -/
theorem fetchesAlike_of_held {c : Condition} {st st' : FetchState} {e : Entity} {slot : Slot}
    (hw : st.world.Valid) (h : st.world.typed? (c.column r) = st.world.storage? (c.column r).id)
    (hworlds : st.world.uncounted = st'.world.uncounted)
    (hheld : st.world.holds (c.column r) e = true)
    (hrequirement : (c.untyped r).requirement ≠ .absent)
    (hfetch : (c.resolved r).fetch e st =
      (some slot, ((BoundTerm.component (c.column r) (c.untyped r).mutable).fetch e st).2))
    (hreads : ∀ w w', w'.typed? (c.column r) = w'.storage? (c.column r).id →
      w.uncounted = w'.uncounted → (c.accessor r (some e)).Reads w slot w') :
    FetchesAlike r c e st st' := by
  obtain ⟨_, hleft, htarget⟩ := fetch_point_of_holds hw h hworlds hheld hrequirement
  rw [FetchesAlike, hfetch, htarget]
  exact ⟨slot, rfl, hleft, hreads⟩

/-- The entity does not hold the component, and the slot is empty. -/
theorem fetchesAlike_of_not_held {c : Condition} {st st' : FetchState} {e : Entity}
    (hw' : st'.world.Valid)
    (h' : st'.world.typed? (c.column r) = st'.world.storage? (c.column r).id)
    (hworlds : st.world.uncounted = st'.world.uncounted)
    (hheld : st.world.holds (c.column r) e = false)
    (hfetch : (c.resolved r).fetch e st = (some .absent, st)) : FetchesAlike r c e st st' := by
  have hheld' : st'.world.holds (c.column r) e = false := by
    rw [← World.holds_congr (World.facets_congr_of_uncounted hworlds e), hheld]
  obtain ⟨htarget, hleft⟩ := point_of_not_holds h' hheld' hw'
  rw [FetchesAlike, hfetch, htarget]
  refine ⟨.absent, rfl, hworlds.trans hleft.symm, ?_⟩
  intro w w' _ _
  exact reads_absent c w w'

/-- **Both terms of a condition fetch alike.** -/
theorem fetch_point {c : Condition} {st st' : FetchState} (hw : st.world.Valid)
    (hw' : st'.world.Valid)
    (h : st.world.typed? (c.column r) = st.world.storage? (c.column r).id)
    (h' : st'.world.typed? (c.column r) = st'.world.storage? (c.column r).id)
    (hworlds : st.world.uncounted = st'.world.uncounted) {e : Entity}
    (hholds : (c.resolved r).holds st.world e = true) : FetchesAlike r c e st st' := by
  have hdelivered : st.world.holds (c.column r) e = true →
      (c.untyped r).requirement ≠ .absent →
        ((BoundTerm.component (c.column r) (c.untyped r).mutable).fetch e st).1 =
          some (.component (c.column r) (c.untyped r).mutable e) := by
    intro hheld hrequirement
    exact (fetch_point_of_holds hw h hworlds hheld hrequirement).1
  cases c with
  | present t m =>
      have hslot := hdelivered hholds nofun
      refine fetchesAlike_of_held hw h hworlds hholds nofun (Prod.ext hslot rfl) ?_
      intro w w' hopen hsame
      exact reads_component hopen hsame m e
  | absent t =>
      have hnot : (!st.world.holds (column r (.absent t)) e) = true := hholds
      rw [Bool.not_eq_true'] at hnot
      have hfetch : (resolved r (.absent t)).fetch e st = (some .absent, st) := by
        show (if st.world.holds (column r (.absent t)) e then none else some Slot.absent, st) = _
        rw [hnot, if_neg Bool.false_ne_true]
      exact fetchesAlike_of_not_held hw' h' hworlds hnot hfetch
  | optional t m =>
      have hmaybe := BoundTerm.fetch_maybe e (.component (column r (.optional t m)) m) st
      cases hheld : st.world.holds (column r (.optional t m)) e with
      | true =>
          have hslot : ((BoundTerm.component (column r (.optional t m)) m).fetch e st).1 =
              some (.component (column r (.optional t m)) m e) := hdelivered hheld nofun
          have hinner : (BoundTerm.component (column r (.optional t m)) m).holds st.world e =
              true := hheld
          rw [if_pos hinner, hslot] at hmaybe
          refine fetchesAlike_of_held hw h hworlds hheld nofun hmaybe ?_
          intro w w' hopen hsame
          exact (reads_component hopen hsame m e).present
      | false =>
          have hinner : ¬ (BoundTerm.component (column r (.optional t m)) m).holds st.world e =
              true := Bool.eq_false_iff.1 hheld
          rw [if_neg hinner] at hmaybe
          exact fetchesAlike_of_not_held hw' h' hworlds hheld hmaybe
  | changed t m =>
      obtain ⟨hheld, _⟩ := BoundTerm.holds_changed_iff.1 hholds
      have hslot := hdelivered hheld nofun
      have hfetch : (resolved r (.changed t m)).fetch e st =
          (BoundTerm.component (column r (.changed t m)) m).fetch e st := if_pos hholds
      refine fetchesAlike_of_held hw h hworlds hheld nofun (hfetch.trans (Prod.ext hslot rfl)) ?_
      intro w w' hopen hsame
      exact reads_component hopen hsame m e

/-! ### Fetching a row -/

/-- The accessors that point at the given targets. -/
def accessors (r : Registry) : List Condition → List (Option Entity) → List Accessor
  | c :: cs, target :: targets => c.accessor r target :: accessors r cs targets
  | _, _ => []

/-- **Rows and accessors deliver the same.**  If the typed query delivers a row, then the untyped
query, started on the same world up to counts, points its accessors at what the slots deliver. -/
theorem fetchRow_pointAll {cs : List Condition} {st st' : FetchState} {e : Entity} {row : Row}
    (h : Ready r cs st.world) (h' : Ready r cs st'.world)
    (hworlds : st.world.uncounted = st'.world.uncounted)
    (hrow : (fetchRow e (cs.map (resolved r)) st).1 = some row) :
    (fetchRow e (cs.map (resolved r)) st).2.world.uncounted =
        (pointAll e (cs.map (untyped r)) st').2.world.uncounted ∧
      ∀ w w', Ready r cs w' → w.uncounted = w'.uncounted →
        List.Forall₂ (fun a slot => Accessor.Reads a w slot w')
          (accessors r cs (pointAll e (cs.map (untyped r)) st').1) row := by
  induction cs generalizing st st' row with
  | nil =>
      cases hrow
      refine ⟨hworlds, ?_⟩
      intro w w' _ _
      exact .nil
  | cons c rest ih =>
      rw [List.map_cons] at hrow ⊢
      have hboth := isSome_fetchRow_cons e (c.resolved r) (rest.map (resolved r)) st
      rw [hrow, Term.isSome_fetch h.valid, Option.isSome_some, eq_comm,
        Bool.and_eq_true] at hboth
      obtain ⟨slot, hslot, hleft, hreads⟩ :=
        fetch_point h.valid h'.valid h.head h'.head hworlds hboth.1
      have hfetch : (c.resolved r).fetch e st = (some slot, ((c.resolved r).fetch e st).2) :=
        Prod.ext hslot rfl
      rw [fetchRow_cons_of_some hfetch] at hrow ⊢
      obtain ⟨row', hrow', rfl⟩ := Option.map_eq_some_iff.1 hrow
      have hready := h.tail.within (World.within_fetchTerm e (c.resolved r) st)
      have hready' := h'.tail.within (World.within_pointTerm e (c.untyped r) st')
      obtain ⟨hlast, hlater⟩ := ih hready hready' hleft hrow'
      refine ⟨hlast, ?_⟩
      intro w w' hw' hsame
      exact .cons (hreads w w' hw'.head hsame) (hlater w w' hw'.tail hsame)

theorem accessors_eq (cs : List Condition) (targets : List (Option Entity)) :
    ((cs.map (untyped r)).zip targets).map
        (fun (t, target) => (⟨t.component, t.mutable, target⟩ : Accessor)) =
      accessors r cs targets := by
  induction cs generalizing targets with
  | nil => rfl
  | cons c rest ih =>
      cases targets with
      | nil => rfl
      | cons target targets => exact congrArg _ (ih targets)

end Condition

end EntityStore
