import EntityStore.Query.Row
import EntityStore.Query.Untyped.Cursor

/-!
# The fetches of a row

Every function that fetches for an entity only ever performs fetches of that entity, one after
the other, and notes each of them.  A term performs at most one, and only one that its pattern
allows; what it hands out is what it fetched.

* `FetchState.perform` — performing a list of fetches;
* `Fetch.AllowedBy` — the aliasing test has seen the fetch;
* `Place`, `Slot.places` — the places that a row hands out;
* `FetchState.FetchesOnce` — what one term does, whatever it is made of;
* `Term.fetchesOnce_fetch` — every term does that;
* `fetches_fetchRow`, `fetches_pointAll` — what a whole row does.
-/

namespace EntityStore

/-! ### Performing fetches -/

namespace FetchState

/-- The state after fetches of one entity. -/
def perform (st : FetchState) (e : Entity) (fs : List Fetch) : FetchState :=
  { world := fs.foldl (fun w f => w.fetch f.component f.mutable e) st.world
    made := st.made ++ fs }

theorem perform_nil (st : FetchState) (e : Entity) : st.perform e [] = st := by
  simp only [perform, List.foldl_nil, List.append_nil]

theorem perform_append (st : FetchState) (e : Entity) (fs gs : List Fetch) :
    st.perform e (fs ++ gs) = (st.perform e fs).perform e gs := by
  simp only [perform, List.foldl_append, List.append_assoc]

theorem perform_cons (st : FetchState) (e : Entity) (f : Fetch) (fs : List Fetch) :
    st.perform e (f :: fs) = (st.perform e [f]).perform e fs :=
  st.perform_append e [f] fs

end FetchState

/-! ### Allowed fetches -/

namespace Fetch

/-- The list has a fetch of the component that is for writing if this one is. -/
def AllowedBy (f : Fetch) (gs : List Fetch) : Prop :=
  ∃ g ∈ gs, g.component = f.component ∧ (f.mutable = true → g.mutable = true)

theorem AllowedBy.mono {f : Fetch} {gs gs' : List Fetch} (h : f.AllowedBy gs)
    (hsub : gs ⊆ gs') : f.AllowedBy gs' := by
  obtain ⟨g, hg, hfg⟩ := h
  exact ⟨g, hsub hg, hfg⟩

theorem allowedBy_singleton (f : Fetch) : f.AllowedBy [f] :=
  ⟨f, List.mem_singleton_self f, rfl, id⟩

theorem AllowedBy.mergeInto {f : Fetch} {gs : List Fetch} (h : f.AllowedBy gs) (new : Fetch) :
    f.AllowedBy (new.mergeInto gs) := by
  induction gs with
  | nil =>
      obtain ⟨g, hg, _⟩ := h
      cases hg
  | cons first rest ih =>
      obtain ⟨g, hg, hcomponent, hmutable⟩ := h
      rw [Fetch.mergeInto]
      split
      · rcases List.mem_cons.1 hg with rfl | hg
        · refine ⟨_, List.mem_cons_self, hcomponent, ?_⟩
          intro hf
          show (g.mutable || new.mutable) = true
          rw [hmutable hf, Bool.true_or]
        · exact ⟨g, List.mem_cons_of_mem _ hg, hcomponent, hmutable⟩
      · rcases List.mem_cons.1 hg with rfl | hg
        · exact ⟨g, List.mem_cons_self, hcomponent, hmutable⟩
        · exact (ih ⟨g, hg, hcomponent, hmutable⟩).mono (List.subset_cons_self _ _)

theorem allowedBy_mergeInto_self (f : Fetch) (gs : List Fetch) :
    f.AllowedBy (f.mergeInto gs) := by
  induction gs with
  | nil => exact allowedBy_singleton f
  | cons first rest ih =>
      rw [Fetch.mergeInto]
      split
      · next hsame =>
        refine ⟨_, List.mem_cons_self, hsame, ?_⟩
        intro hf
        show (first.mutable || f.mutable) = true
        rw [hf, Bool.or_true]
      · exact ih.mono (List.subset_cons_self _ _)

/-- Merging keeps what a list allows, and allows what it merges. -/
theorem allowedBy_foldl_mergeInto {f : Fetch} (fs gs : List Fetch)
    (h : f.AllowedBy gs ∨ f ∈ fs) :
    f.AllowedBy (fs.foldl (fun merged g => g.mergeInto merged) gs) := by
  induction fs generalizing gs with
  | nil =>
      rcases h with h | h
      · exact h
      · cases h
  | cons first rest ih =>
      rw [List.foldl_cons]
      apply ih
      rcases h with h | h
      · exact .inl (h.mergeInto first)
      · rcases List.mem_cons.1 h with rfl | h
        · exact .inl (allowedBy_mergeInto_self f gs)
        · exact .inr h

/-- **Alternatives are merged without loss.** -/
theorem AllowedBy.alternatives {f : Fetch} {fs : List Fetch} (h : f.AllowedBy fs) :
    f.AllowedBy (alternatives fs) := by
  obtain ⟨g, hg, hcomponent, hmutable⟩ := h
  obtain ⟨g', hg', hcomponent', hmutable'⟩ :=
    allowedBy_foldl_mergeInto (f := g) fs [] (.inr hg)
  refine ⟨g', hg', hcomponent'.trans hcomponent, ?_⟩
  intro hf
  exact hmutable' (hmutable hf)

/-- What two lists without conflicts between them allow does not conflict either. -/
theorem AllowedBy.conflicts_eq_false {f f' : Fetch} {gs gs' : List Fetch} (h : f.AllowedBy gs)
    (h' : f'.AllowedBy gs') (hgs : ∀ g ∈ gs, ∀ g' ∈ gs', g.conflicts g' = false) :
    f.conflicts f' = false := by
  obtain ⟨g, hg, hcomponent, hmutable⟩ := h
  obtain ⟨g', hg', hcomponent', hmutable'⟩ := h'
  have hclash := hgs g hg g' hg'
  rw [conflicts] at hclash ⊢
  rw [hcomponent, hcomponent'] at hclash
  cases hf : f.mutable <;> cases hf' : f'.mutable <;> simp_all

end Fetch

/-! ### Places -/

/-- A component of an entity, as it was handed out. -/
structure Place where
  component : ComponentId
  entity : Entity
  mutable : Bool
deriving DecidableEq, Repr

namespace Place

def ofFetch (e : Entity) (f : Fetch) : Place :=
  ⟨f.component, e, f.mutable⟩

/-- Whether two places must not both be handed out. -/
def conflicts (p q : Place) : Bool :=
  p.entity == q.entity && (p.component == q.component && (p.mutable || q.mutable))

theorem conflicts_ofFetch (e : Entity) (f g : Fetch) :
    (ofFetch e f).conflicts (ofFetch e g) = f.conflicts g := by
  simp only [conflicts, ofFetch, Fetch.conflicts, beq_self_eq_true, Bool.true_and]

theorem conflicts_of_entity_ne {p q : Place} (h : p.entity ≠ q.entity) :
    p.conflicts q = false := by
  simp only [conflicts, beq_eq_false_iff_ne.2 h, Bool.false_and]

end Place

def EntityPayload.places : EntityPayload → List Place
  | .null => []
  | .one id _ m e | .many id _ m e _ => [⟨id, e, m⟩]

/-- The places that a slot hands out. -/
def Slot.places : Slot → List Place
  | .component c m e | .batch c m (some e) => [⟨c.id, e, m⟩]
  | .absent | .entity _ | .batch _ _ none => []
  | .present slot => slot.places
  | .erased p => EntityPayload.places p

def Row.places (row : Row) : List Place :=
  row.flatMap Slot.places

/-! ### What a term does -/

/-- What is held is held by a storage. -/
theorem World.exists_typed?_of_holds {w : World} {c : Column} {e : Entity}
    (h : w.holds c e = true) : ∃ s, w.typed? c = some s ∧ s.contains e = true := by
  rw [World.holds] at h
  cases htyped : w.typed? c with
  | none =>
      rw [htyped] at h
      cases h
  | some s =>
      rw [htyped] at h
      exact ⟨s, rfl, h⟩

namespace FetchState

/-- At most one fetch was made, of the given entity and allowed by the given list, and the places
come from it. -/
def FetchesOnce (e : Entity) (gs : List Fetch) (places : List Place) (st st' : FetchState) :
    Prop :=
  ∃ fs : List Fetch, st' = st.perform e fs ∧ fs.length ≤ 1 ∧ (∀ f ∈ fs, f.AllowedBy gs) ∧
    places.Sublist (fs.map (Place.ofFetch e))

variable {e : Entity} {gs : List Fetch} {places : List Place} {st st' : FetchState}

theorem fetchesOnce_refl (e : Entity) (gs : List Fetch) (st : FetchState) :
    st.FetchesOnce e gs [] st :=
  ⟨[], (perform_nil st e).symm, by simp, by simp, List.nil_sublist _⟩

theorem FetchesOnce.mono (h : FetchesOnce e gs places st st') {gs' : List Fetch}
    (hsub : ∀ f : Fetch, f.AllowedBy gs → f.AllowedBy gs') :
    FetchesOnce e gs' places st st' := by
  obtain ⟨fs, hst, hlength, hallowed, hplaces⟩ := h
  refine ⟨fs, hst, hlength, ?_, hplaces⟩
  intro f hf
  exact hsub f (hallowed f hf)

theorem FetchesOnce.forget (h : FetchesOnce e gs places st st') :
    FetchesOnce e gs [] st st' := by
  obtain ⟨fs, hst, hlength, hallowed, _⟩ := h
  exact ⟨fs, hst, hlength, hallowed, List.nil_sublist _⟩

/-- Whichever of two ways is gone. -/
theorem fetchesOnce_ite {α : Type} {f : α → List Place} {b : Bool} {x y : α × FetchState}
    (hx : st.FetchesOnce e gs (f x.1) x.2) (hy : st.FetchesOnce e gs (f y.1) y.2) :
    st.FetchesOnce e gs (f (if b then x else y).1) (if b then x else y).2 := by
  cases b with
  | true => exact hx
  | false => exact hy

/-- A fetch from a storage that is there leads to the place that it fetched. -/
theorem fetchesOnce_fetch_of_typed? {c : Column} {s : Storage} (h : st.world.typed? c = some s)
    (m : Bool) (e : Entity) :
    st.FetchesOnce e [⟨c.id, m⟩] [⟨c.id, e, m⟩] (st.fetch c m e).2 := by
  rw [fetch, h]
  refine ⟨[⟨c.id, m⟩], rfl, Nat.le_refl 1, ?_, List.Sublist.refl _⟩
  intro f hf
  rw [List.mem_singleton.1 hf]
  exact Fetch.allowedBy_singleton _

/-- A fetch that finds an instance leads to it, and one that finds none leads nowhere. -/
theorem fetchesOnce_fetch (st : FetchState) (c : Column) (m : Bool) (e : Entity) :
    st.FetchesOnce e [⟨c.id, m⟩] (if (st.fetch c m e).1 then [⟨c.id, e, m⟩] else [])
      (st.fetch c m e).2 := by
  cases hstorage : st.world.typed? c with
  | none =>
      rw [fetch, hstorage]
      exact fetchesOnce_refl e _ st
  | some storage =>
      have honce := fetchesOnce_fetch_of_typed? hstorage m e
      cases (st.fetch c m e).1 with
      | true => exact honce
      | false => exact honce.forget

end FetchState

open FetchState

/-- The places of what a term delivers, if it delivers something. -/
def Slot.placesOf (delivered : Option Slot) : List Place :=
  delivered.elim [] Slot.places

/-- An optional slot hands out what is in it. -/
theorem Slot.placesOf_present (delivered : Option Slot) :
    placesOf (some ((delivered.map Slot.present).getD .absent)) = placesOf delivered := by
  cases delivered <;> rfl

theorem Slot.placesOf_batch (delivered : Option Slot) (c : Column) (m : Bool) :
    placesOf (some (delivered.getD (.batch c m none))) = placesOf delivered := by
  cases delivered <;> rfl

namespace BoundTerm

theorem fetchesOnce_fetch (e : Entity) (q : BoundTerm Column) (st : FetchState) :
    st.FetchesOnce e q.pattern.fetches (Slot.placesOf (q.fetch e st).1) (q.fetch e st).2 := by
  induction q with
  | component c m =>
      rw [fetch_component]
      show st.FetchesOnce e _ (Slot.placesOf (if (st.fetch c m e).1 then _ else _)) _
      rw [apply_ite Slot.placesOf]
      exact FetchState.fetchesOnce_fetch st c m e
  | maybe inner ih =>
      rw [fetch_maybe]
      refine fetchesOnce_ite ?_ (fetchesOnce_refl e _ st)
      show st.FetchesOnce e _ (Slot.placesOf (some _)) _
      rw [Slot.placesOf_present]
      exact ih
  | changed inner ih =>
      rw [fetch_changed]
      exact fetchesOnce_ite ih (fetchesOnce_refl e _ st)

theorem fetchesOnce_fetchPayload (e : Entity) (q : BoundTerm Column) (st : FetchState) :
    st.FetchesOnce e q.pattern.fetches (EntityPayload.places (q.fetchPayload e st).1)
      (q.fetchPayload e st).2 := by
  induction q with
  | component c m =>
      rw [fetchPayload_component]
      show st.FetchesOnce e _ (EntityPayload.places (if (st.fetch c m e).1 then _ else _)) _
      rw [apply_ite EntityPayload.places]
      exact FetchState.fetchesOnce_fetch st c m e
  | maybe inner ih =>
      rw [fetchPayload_maybe]
      exact fetchesOnce_ite ih (fetchesOnce_refl e _ st)
  | changed inner ih =>
      rw [fetchPayload_changed]
      exact fetchesOnce_ite ih (fetchesOnce_refl e _ st)

/-- A batch of a component that is held leads to the place of the fetch. -/
theorem fetchesOnce_of_holds {α : Type} {places : α → List Place} {st : FetchState} {c : Column}
    {m : Bool} {e : Entity} {x : α × FetchState} {y : α} (hleft : x.2 = (st.fetch c m e).2)
    (hplaces : places x.1 = [⟨c.id, e, m⟩]) (hnone : places y = []) :
    st.FetchesOnce e [⟨c.id, m⟩] (places (if st.world.holds c e then x else (y, st)).1)
      (if st.world.holds c e then x else (y, st)).2 := by
  cases hholds : st.world.holds c e with
  | true =>
      obtain ⟨s, htyped, _⟩ := World.exists_typed?_of_holds hholds
      rw [if_pos rfl, hleft, hplaces]
      exact fetchesOnce_fetch_of_typed? htyped m e
  | false =>
      rw [if_neg Bool.false_ne_true, hnone]
      exact fetchesOnce_refl e _ st

theorem fetchesOnce_fetchAll (e : Entity) (q : BoundTerm Column) (st : FetchState) :
    st.FetchesOnce e q.pattern.fetches (Slot.placesOf (q.fetchAll e st).1)
      (q.fetchAll e st).2 := by
  induction q with
  | component c m =>
      rw [fetchAll_component]
      exact fetchesOnce_of_holds rfl rfl rfl
  | maybe inner ih =>
      rw [fetchAll_maybe]
      refine fetchesOnce_ite ?_ (fetchesOnce_refl e _ st)
      show st.FetchesOnce e _ (Slot.placesOf (some _)) _
      rw [Slot.placesOf_batch]
      exact ih
  | changed inner ih =>
      rw [fetchAll_changed]
      exact fetchesOnce_ite ih (fetchesOnce_refl e _ st)

theorem fetchesOnce_fetchAllPayload (e : Entity) (q : BoundTerm Column) (st : FetchState) :
    st.FetchesOnce e q.pattern.fetches (EntityPayload.places (q.fetchAllPayload e st).1)
      (q.fetchAllPayload e st).2 := by
  induction q with
  | component c m =>
      rw [fetchAllPayload_component]
      exact fetchesOnce_of_holds rfl rfl rfl
  | maybe inner ih =>
      rw [fetchAllPayload_maybe]
      exact fetchesOnce_ite ih (fetchesOnce_refl e _ st)
  | changed inner ih =>
      rw [fetchAllPayload_changed]
      exact fetchesOnce_ite ih (fetchesOnce_refl e _ st)

end BoundTerm

namespace Term

mutual

theorem fetchesOnce_fetchPayload (e : Entity) (t : Term Column) (st : FetchState) :
    st.FetchesOnce e t.pattern.fetches (EntityPayload.places (t.fetchPayload e st).1)
      (t.fetchPayload e st).2 := by
  cases t with
  | entity => exact fetchesOnce_refl e _ st
  | single q => exact q.fetchesOnce_fetchPayload e st
  | batch q => exact q.fetchesOnce_fetchAllPayload e st
  | without inner => exact fetchesOnce_refl e _ st
  | maybe inner =>
      rw [fetchPayload_maybe]
      exact fetchesOnce_ite (fetchesOnce_fetchPayload e inner st) (fetchesOnce_refl e _ st)
  | any children =>
      exact (fetchesOnce_fetchFirstPayload e children st).mono fun f => Fetch.AllowedBy.alternatives
  | join children =>
      have hfirst := fetchesOnce_fetchFirstPayload e children st
      rw [fetchPayload_join]
      exact fetchesOnce_ite (hfirst.mono fun f => Fetch.AllowedBy.alternatives)
        (fetchesOnce_refl e _ st)

/-- Only the first child that matches is fetched. -/
theorem fetchesOnce_fetchFirstPayload (e : Entity) (ts : List (Term Column)) (st : FetchState) :
    st.FetchesOnce e (Pattern.allFetches (patterns ts))
      (EntityPayload.places (fetchFirstPayload e ts st).1) (fetchFirstPayload e ts st).2 := by
  cases ts with
  | nil => exact fetchesOnce_refl e _ st
  | cons t rest =>
      rw [fetchFirstPayload_cons]
      apply fetchesOnce_ite
      · refine (fetchesOnce_fetchPayload e t st).mono ?_
        intro f hf
        exact hf.mono (List.subset_append_left _ _)
      · refine (fetchesOnce_fetchFirstPayload e rest st).mono ?_
        intro f hf
        exact hf.mono (List.subset_append_right _ _)

end

/-- **A term fetches once.**  Whatever it is made of, a term makes at most one fetch, which the
aliasing test has seen, and hands out no place but that of the fetch. -/
theorem fetchesOnce_fetch (e : Entity) (t : Term Column) (st : FetchState) :
    st.FetchesOnce e t.pattern.fetches (Slot.placesOf (t.fetch e st).1) (t.fetch e st).2 := by
  cases t with
  | entity => exact fetchesOnce_refl e _ st
  | single q => exact q.fetchesOnce_fetch e st
  | batch q => exact q.fetchesOnce_fetchAll e st
  | without inner =>
      show st.FetchesOnce e _ (Slot.placesOf (if inner.holds st.world e then _ else _)) st
      rw [apply_ite Slot.placesOf]
      split
      · exact fetchesOnce_refl e _ st
      · exact fetchesOnce_refl e _ st
  | maybe inner =>
      rw [fetch_maybe]
      refine fetchesOnce_ite ?_ (fetchesOnce_refl e _ st)
      show st.FetchesOnce e _ (Slot.placesOf (some _)) _
      rw [Slot.placesOf_present]
      exact fetchesOnce_fetch e inner st
  | any children =>
      have hfirst := fetchesOnce_fetchFirstPayload e children st
      rw [fetch_any]
      exact fetchesOnce_ite (hfirst.mono fun f => Fetch.AllowedBy.alternatives)
        (fetchesOnce_refl e _ st)
  | join children =>
      have hfirst := fetchesOnce_fetchFirstPayload e children st
      rw [fetch_join]
      exact fetchesOnce_ite (hfirst.mono fun f => Fetch.AllowedBy.alternatives)
        (fetchesOnce_refl e _ st)

end Term

/-! ### What an untyped term does -/

namespace UntypedTerm

theorem point_of_absent {t : UntypedTerm} (h : t.requirement = .absent) (e : Entity)
    (st : FetchState) : t.point e st = (none, st) := by
  simp only [point, h]

theorem point_of_storage?_eq_none {t : UntypedTerm} {st : FetchState}
    (h : st.world.storage? t.component = none) (e : Entity) : t.point e st = (none, st) := by
  rw [point]
  rw [h]
  cases t.requirement <;> rfl

theorem point_of_storage?_eq_some {t : UntypedTerm} {st : FetchState} {storage : Storage}
    (hrequirement : t.requirement ≠ .absent)
    (h : st.world.storage? t.component = some storage) (e : Entity) :
    t.point e st =
      ((storage.first? e).map fun _ => e, st.perform e [⟨t.component, t.mutable⟩]) := by
  rw [point]
  rw [h]
  cases hr : t.requirement with
  | absent => exact absurd hr hrequirement
  | _ => rfl

theorem fetches_pattern {t : UntypedTerm} (h : t.requirement ≠ .absent) :
    t.pattern.fetches = [⟨t.component, t.mutable⟩] := by
  rw [pattern]
  cases hr : t.requirement with
  | absent => exact absurd hr h
  | _ => rfl

/-- A term of an untyped query that points at its component fetches it once. -/
theorem fetchesOnce_point (t : UntypedTerm) (e : Entity) (st : FetchState) :
    st.FetchesOnce e t.pattern.fetches
      ((t.point e st).1.elim [] fun target => [⟨t.component, target, t.mutable⟩])
      (t.point e st).2 := by
  by_cases hrequirement : t.requirement = .absent
  · rw [point_of_absent hrequirement]
    exact fetchesOnce_refl e _ st
  · cases hstorage : st.world.storage? t.component with
    | none =>
        rw [point_of_storage?_eq_none hstorage]
        exact fetchesOnce_refl e _ st
    | some storage =>
        rw [point_of_storage?_eq_some hrequirement hstorage, fetches_pattern hrequirement]
        have honce : st.FetchesOnce e [⟨t.component, t.mutable⟩] [⟨t.component, e, t.mutable⟩]
            (st.perform e [⟨t.component, t.mutable⟩]) := by
          refine ⟨_, rfl, Nat.le_refl 1, ?_, List.Sublist.refl _⟩
          intro f hf
          rw [List.mem_singleton.1 hf]
          exact Fetch.allowedBy_singleton _
        cases storage.first? e with
        | none => exact honce.forget
        | some inst => exact honce

end UntypedTerm

/-! ### What a row does -/

namespace FetchState

/-- Fetches of the given entity were made, each allowed by the list; if no two of the list
conflict, then no two that were made do; and the places come from them. -/
def Fetches (e : Entity) (gs : List Fetch) (places : List Place) (st st' : FetchState) : Prop :=
  ∃ fs : List Fetch, st' = st.perform e fs ∧ (∀ f ∈ fs, f.AllowedBy gs) ∧
    (gs.Pairwise (fun f g => f.conflicts g = false) →
      fs.Pairwise fun f g => f.conflicts g = false) ∧
    places.Sublist (fs.map (Place.ofFetch e))

theorem fetches_refl (e : Entity) (gs : List Fetch) (st : FetchState) :
    st.Fetches e gs [] st :=
  ⟨[], (perform_nil st e).symm, by simp, by simp, List.nil_sublist _⟩

/-- **The aliasing test carries over to what is fetched.**  What one term may fetch and what the
terms after it may fetch stand side by side in the list of the row, so the single fetch of the
term conflicts with none of theirs. -/
theorem FetchesOnce.fetches {e : Entity} {gs gs' : List Fetch} {places places' : List Place}
    {st st₁ st₂ : FetchState} (h : FetchesOnce e gs places st st₁)
    (h' : Fetches e gs' places' st₁ st₂) :
    Fetches e (gs ++ gs') (places ++ places') st st₂ := by
  obtain ⟨fs, rfl, hlength, hallowed, hplaces⟩ := h
  obtain ⟨fs', rfl, hallowed', hpairwise, hplaces'⟩ := h'
  refine ⟨fs ++ fs', (perform_append st e fs fs').symm, ?_, ?_, ?_⟩
  · intro f hf
    rcases List.mem_append.1 hf with hf | hf
    · exact (hallowed f hf).mono (List.subset_append_left _ _)
    · exact (hallowed' f hf).mono (List.subset_append_right _ _)
  · intro hgs
    obtain ⟨_, hgs', hacross⟩ := List.pairwise_append.1 hgs
    refine List.pairwise_append.2 ⟨?_, hpairwise hgs', ?_⟩
    · -- a list with at most one member has no pair
      match fs, hlength with
      | [], _ => exact List.Pairwise.nil
      | [f], _ => exact List.pairwise_singleton _ f
    · intro f hf f' hf'
      exact (hallowed f hf).conflicts_eq_false (hallowed' f' hf') hacross
  · rw [List.map_append]
    exact hplaces.append hplaces'

theorem Fetches.forget {e : Entity} {gs : List Fetch} {places : List Place}
    {st st' : FetchState} (h : Fetches e gs places st st') : Fetches e gs [] st st' := by
  obtain ⟨fs, hst, hallowed, hpairwise, _⟩ := h
  exact ⟨fs, hst, hallowed, hpairwise, List.nil_sublist _⟩

theorem FetchesOnce.fetches_append {e : Entity} {gs : List Fetch} {places : List Place}
    {st st' : FetchState} (h : FetchesOnce e gs places st st') (gs' : List Fetch) :
    Fetches e (gs ++ gs') places st st' := by
  have hall := h.fetches (fetches_refl e gs' st')
  rw [List.append_nil] at hall
  exact hall

end FetchState

/-- The places of a row that was fetched, if it was. -/
def Row.placesOf (delivered : Option Row) : List Place :=
  delivered.elim [] Row.places

theorem fetchRow_cons_of_none {e : Entity} {t : Term Column} {st st' : FetchState}
    (h : t.fetch e st = (none, st')) (rest : List (Term Column)) :
    fetchRow e (t :: rest) st = (none, st') := by
  rw [fetchRow]
  rw [h]

theorem fetchRow_cons_of_some {e : Entity} {t : Term Column} {st st' : FetchState} {slot : Slot}
    (h : t.fetch e st = (some slot, st')) (rest : List (Term Column)) :
    fetchRow e (t :: rest) st =
      ((fetchRow e rest st').1.map (slot :: ·), (fetchRow e rest st').2) := by
  rw [fetchRow, h]
  rcases hrest : fetchRow e rest st' with ⟨row, st''⟩
  simp only [hrest]
  cases row <;> rfl

/-- **A row fetches without conflicts.**  The fetches of a row are those of its terms, also when
one of them ends the row. -/
theorem fetches_fetchRow (e : Entity) (ts : List (Term Column)) (st : FetchState) :
    st.Fetches e (Pattern.allFetches (Term.patterns ts)) (Row.placesOf (fetchRow e ts st).1)
      (fetchRow e ts st).2 := by
  induction ts generalizing st with
  | nil => exact fetches_refl e _ st
  | cons t rest ih =>
      have honce := t.fetchesOnce_fetch e st
      show st.Fetches e (t.pattern.fetches ++ Pattern.allFetches (Term.patterns rest)) _ _
      rcases hfetch : t.fetch e st with ⟨delivered, st₁⟩
      rw [hfetch] at honce
      cases delivered with
      | none =>
          rw [fetchRow_cons_of_none hfetch]
          exact honce.fetches_append _
      | some slot =>
          rw [fetchRow_cons_of_some hfetch]
          have hall := honce.fetches (ih st₁)
          cases hrow : (fetchRow e rest st₁).1 with
          | none => exact hall.forget
          | some row =>
              rw [hrow] at hall
              exact hall

/-- The places that accessors point at. -/
def UntypedTerm.placesOf : List UntypedTerm → List (Option Entity) → List Place
  | t :: ts, target :: targets =>
    (target.elim [] fun e => [⟨t.component, e, t.mutable⟩]) ++ placesOf ts targets
  | _, _ => []

/-- The accessors of an untyped query are loaded without conflicts. -/
theorem fetches_pointAll (e : Entity) (ts : List UntypedTerm) (st : FetchState) :
    st.Fetches e (Pattern.allFetches (ts.map UntypedTerm.pattern))
      (UntypedTerm.placesOf ts (pointAll e ts st).1) (pointAll e ts st).2 := by
  induction ts generalizing st with
  | nil => exact fetches_refl e _ st
  | cons t rest ih =>
      have honce := t.fetchesOnce_point e st
      show st.Fetches e
        (t.pattern.fetches ++ Pattern.allFetches (rest.map UntypedTerm.pattern)) _ _
      rw [pointAll]
      rcases hpoint : t.point e st with ⟨target, st₁⟩
      rw [hpoint] at honce
      exact honce.fetches (ih st₁)

end EntityStore
