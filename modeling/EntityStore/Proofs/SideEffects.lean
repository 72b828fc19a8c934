import EntityStore.Proofs.RowLayout
import EntityStore.Proofs.Uncounted
import EntityStore.Proofs.Watching

/-!
# The side effects of fetching

Producing a row changes nothing but flags: those of its entity, in storages that hold it and trace
changes, of components that the query says it fetches for writing.  A `without` fetches nothing,
and of the children of an `any` or a `join` only the one that wins is fetched.

* `Storage.OnlyFlags`, `World.OnlyFlags` — an entity was flagged where it was found, and nothing
  else happened, up to access counts;
* `World.onlyFlags_fetch`, `World.OnlyFlags.facets_eq`, `World.OnlyFlags.uncounted_eq` — one fetch,
  what others see of it, and when nothing happened at all;
* `Term.found?` — the fetch of a term that finds an instance, `Term.finds_fetch` — a term does
  that fetch and no other;
* `Term.allowedBy_of_found?`, `Pattern.readOnly_of_not_writable` — that fetch is one that the query
  declares;
* `FindsForWriting`, `onlyFlags_fetchRow` — the fetches of a row, one term after the other;
* `Query.Produces`, `Query.rows_flag_what_they_declare` — **every way to come by a row.**
-/

namespace EntityStore

/-! ### Flags of a storage -/

namespace Storage

/-- Up to access counts, the second storage is the first one, with the entity flagged if it was
found; and it is found only if it is held.  Where changes are not traced, flagging does nothing. -/
structure OnlyFlags (e : Entity) (found : Prop) (s s' : Storage) : Prop where
  held : found → s.contains e = true
  flagged : found → s'.uncounted = s.uncounted.mapFlags (·.mark e)
  same : ¬found → s'.uncounted = s.uncounted

/-- A fetch of somebody who is held flags if it is for writing. -/
theorem onlyFlags_fetch {s : Storage} {e : Entity} (hheld : s.contains e = true)
    (mutable : Bool) : OnlyFlags e (mutable = true) s (s.fetch mutable e) where
  held _ := hheld
  flagged hmutable := by
    have hfacet := s.facet_uncounted e
    rw [uncounted_fetch, if_pos hmutable]
    exact touch_of_held ((congrArg Facet.held hfacet).trans hheld)
  same hshared := by
    rw [uncounted_fetch, if_neg hshared]

namespace OnlyFlags

variable {e : Entity} {found found' : Prop} {s s' s'' : Storage}

theorem of_not_found (hnot : ¬found) (h : s'.uncounted = s.uncounted) :
    OnlyFlags e found s s' where
  held hfound := absurd hfound hnot
  flagged hfound := absurd hfound hnot
  same _ := h

theorem congr (h : OnlyFlags e found s s') (hiff : found' ↔ found) :
    OnlyFlags e found' s s' where
  held hfound := h.held (hiff.1 hfound)
  flagged hfound := h.flagged (hiff.1 hfound)
  same hnot := h.same fun hfound => hnot (hiff.2 hfound)

theorem facet_of_found (h : OnlyFlags e found s s') (hfound : found) (e' : Entity) :
    s'.facet e' = (s.mapFlags (·.mark e)).facet e' := by
  have hflagged := h.flagged hfound
  rw [← uncounted_mapFlags] at hflagged
  exact facet_congr_of_uncounted hflagged e'

theorem facet_of_not_found (h : OnlyFlags e found s s') (hnot : ¬found) (e' : Entity) :
    s'.facet e' = s.facet e' :=
  facet_congr_of_uncounted (h.same hnot) e'

/-- The same entities are held. -/
theorem held_eq (h : OnlyFlags e found s s') (e' : Entity) : s'.contains e' = s.contains e' := by
  by_cases hfound : found
  · have hfacet := h.facet_of_found hfound e'
    rw [facet_mapFlags] at hfacet
    exact congrArg Facet.held hfacet
  · exact congrArg Facet.held (h.facet_of_not_found hfound e')

theorem trans (h : OnlyFlags e found s s') (h' : OnlyFlags e found' s' s'') :
    OnlyFlags e (found ∨ found') s s'' where
  held := by
    rintro (hfound | hfound')
    · exact h.held hfound
    · exact (h.held_eq e).symm.trans (h'.held hfound')
  flagged := by
    intro heither
    by_cases hfound : found
    · by_cases hfound' : found'
      · rw [h'.flagged hfound', h.flagged hfound, mark_mark]
      · rw [h'.same hfound', h.flagged hfound]
    · rw [h'.flagged (heither.resolve_left hfound), h.same hfound]
  same hneither := by
    rw [h'.same fun hfound' => hneither (.inr hfound'), h.same fun hfound => hneither (.inl hfound)]

/-- Where changes are not traced, nothing happens. -/
theorem uncounted_eq_of_not_tracing (h : OnlyFlags e found s s') (htracing : s.isTracing = false) :
    s'.uncounted = s.uncounted := by
  by_cases hfound : found
  · have huncounted := congrArg Facet.tracing (s.facet_uncounted e)
    rw [h.flagged hfound]
    exact mark_of_not_tracing (huncounted.trans htracing) e
  · exact h.same hfound

/-- Somebody whose slot is not that of a held entity sees nothing. -/
theorem facet_eq (h : OnlyFlags e found s s') {e' : Entity}
    (hother : s.contains e = true → e.slot ≠ e'.slot) : s'.facet e' = s.facet e' := by
  by_cases hfound : found
  · rw [h.facet_of_found hfound e', facet_mapFlags, ChangeFlags.isMarked_mark,
      decide_eq_false (hother (h.held hfound)), Bool.and_false, Bool.or_false,
      ChangeFlags.enabled_mark]
    rfl
  · exact h.facet_of_not_found hfound e'

end OnlyFlags

end Storage

/-! ### Flags of a world -/

namespace World

/-- The second world is the first one, up to access counts, with the entity flagged in the storages
of the components that were found. -/
structure OnlyFlags (e : Entity) (found : ComponentId → Prop) (w w' : World) : Prop where
  entities : w'.entities = w.entities
  slots : w'.storages.size = w.storages.size
  storage : ∀ id, Option.Rel (Storage.OnlyFlags e (found id)) (w.storage? id) (w'.storage? id)

namespace OnlyFlags

variable {e : Entity} {found found' : ComponentId → Prop} {w w' w'' : World}

theorem of_not_found (hnot : ∀ id, ¬found id) (h : w'.uncounted = w.uncounted) :
    w.OnlyFlags e found w' where
  entities := by
    have hentities := congrArg World.entities h
    exact hentities
  slots := by
    have hsizes := congrArg (fun w : World => w.storages.size) h
    simp only [uncounted, Array.size_map] at hsizes
    exact hsizes
  storage id := by
    have hslot := congrArg (·.storage? id) h
    simp only [storage?_uncounted] at hslot
    cases hs : w.storage? id with
    | none =>
        rw [hs, Option.map_none, Option.map_eq_none_iff] at hslot
        rw [hslot]
        exact .none
    | some s =>
        rw [hs, Option.map_some, Option.map_eq_some_iff] at hslot
        obtain ⟨s', hs', hsame⟩ := hslot
        rw [hs']
        exact .some (.of_not_found (hnot id) hsame)

theorem congr (h : w.OnlyFlags e found w') (hiff : ∀ id, found' id ↔ found id) :
    w.OnlyFlags e found' w' where
  entities := h.entities
  slots := h.slots
  storage id := by
    have hstorage := h.storage id
    generalize w.storage? id = slot at hstorage
    generalize w'.storage? id = slot' at hstorage
    cases hstorage with
    | none => exact .none
    | some hflags => exact .some (hflags.congr (hiff id))

theorem trans (h : w.OnlyFlags e found w') (h' : w'.OnlyFlags e found' w'') :
    w.OnlyFlags e (fun id => found id ∨ found' id) w'' where
  entities := h'.entities.trans h.entities
  slots := h'.slots.trans h.slots
  storage id := by
    have hfirst := h.storage id
    have hsecond := h'.storage id
    generalize w.storage? id = slot at hfirst
    generalize w'.storage? id = slot' at hfirst hsecond
    generalize w''.storage? id = slot'' at hsecond
    cases hfirst with
    | none =>
        cases hsecond with
        | none => exact .none
    | some hflags =>
        cases hsecond with
        | some hflags' => exact .some (hflags.trans hflags')

/-- **A storage that does not trace changes is as it was,** up to access counts. -/
theorem uncounted_eq_of_not_tracing (h : w.OnlyFlags e found w') {id : ComponentId} {s : Storage}
    (hs : w.storage? id = some s) (htracing : s.isTracing = false) :
    (w'.storage? id).map Storage.uncounted = some s.uncounted := by
  have hstorage := h.storage id
  rw [hs] at hstorage
  generalize w'.storage? id = slot' at hstorage
  cases hstorage with
  | some hflags => exact congrArg some (hflags.uncounted_eq_of_not_tracing htracing)

/-- An entity in another slot sees nothing, and neither does anybody if the entity is not held. -/
theorem facets_eq_of_slot_ne (h : w.OnlyFlags e found w') {e' : Entity}
    (hother : ∀ id s, w.storage? id = some s → s.contains e = true → e.slot ≠ e'.slot) :
    w'.facets e' = w.facets e' := by
  funext id
  have hstorage := h.storage id
  rw [facets, facets]
  generalize hs : w.storage? id = slot at hstorage
  generalize w'.storage? id = slot' at hstorage
  cases hstorage with
  | none => rfl
  | some hflags => exact congrArg some (hflags.facet_eq (hother id _ hs))

/-- **Nobody else who is alive sees anything.** -/
theorem facets_eq (h : w.OnlyFlags e found w') (hw : w.Valid) {e' : Entity}
    (halive : w.isAlive e' = true) (hne : e ≠ e') : w'.facets e' = w.facets e' := by
  refine h.facets_eq_of_slot_ne fun id s hs hheld hslot => hne ?_
  exact Allocator.eq_of_slot_eq (hw.alive id s hs e hheld) halive hslot

/-- **Where nothing is found, nothing happens,** up to access counts. -/
theorem uncounted_eq (h : w.OnlyFlags e found w') (hnone : ∀ id, ¬found id) :
    w'.uncounted = w.uncounted := by
  refine uncounted_ext h.entities h.slots fun id => ?_
  have hstorage := h.storage id
  generalize w.storage? id = slot at hstorage
  generalize w'.storage? id = slot' at hstorage
  cases hstorage with
  | none => rfl
  | some hflags => exact congrArg some (hflags.same (hnone id))

end OnlyFlags

/-- A fetch for writing flags the entity, if its storage holds it. -/
theorem onlyFlags_fetch {w : World} {id : ComponentId} {e : Entity}
    (hheld : ∀ s, w.storage? id = some s → s.contains e = true) (mutable : Bool) :
    w.OnlyFlags e (fun id' => id = id' ∧ mutable = true) (w.fetch id mutable e) where
  entities := rfl
  slots := Array.size_modify
  storage id' := by
    rw [World.fetch, storage?_modifyStorage]
    cases hs : w.storage? id' with
    | none =>
        rw [Option.map_none, ite_self]
        exact .none
    | some s =>
        split
        · next hid =>
          subst hid
          refine .some ((Storage.onlyFlags_fetch (hheld s hs) mutable).congr ?_)
          exact ⟨And.right, fun hmutable => ⟨rfl, hmutable⟩⟩
        · next hid => exact .some (.of_not_found (fun hboth => hid hboth.1) rfl)

end World

/-! ### What a term finds -/

/-- The fetch of a bound term that finds an instance of the entity. -/
def BoundTerm.found? (w : World) (e : Entity) : BoundTerm Column → Option Fetch
  | .component c m => if w.holds c e then some ⟨c.id, m⟩ else none
  | .maybe inner => if inner.holds w e then found? w e inner else none
  | .changed inner => if (BoundTerm.changed inner).holds w e then found? w e inner else none

namespace Term

mutual

/-- The fetch of a term that finds an instance of the entity.  A `without` has none; for `any` and
`join` it is that of the first child that matches, and `join` wants it to be the only one. -/
def found? (w : World) (e : Entity) : Term Column → Option Fetch
  | .entity | .without _ => none
  | .single q | .batch q => q.found? w e
  | .maybe inner => if inner.holds w e then found? w e inner else none
  | .any children => firstFound? w e children
  | .join children => if (Term.join children).holds w e then firstFound? w e children else none

/-- The fetch of the first term that matches. -/
def firstFound? (w : World) (e : Entity) : List (Term Column) → Option Fetch
  | [] => none
  | t :: rest => if t.holds w e then found? w e t else firstFound? w e rest

end

theorem firstFound?_eq (w : World) (e : Entity) (ts : List (Term Column)) :
    firstFound? w e ts = (ts.find? (holds w e)).bind (found? w e) := by
  induction ts with
  | nil => rfl
  | cons t rest ih =>
      rw [firstFound?, List.find?_cons, ih]
      cases holds w e t <;> rfl

/-- The winner of an `any` or a `join` is the first child that matches. -/
theorem winner_of_found? {w : World} {e : Entity} {children : List (Term Column)} {f : Fetch}
    (h : (Term.any children).found? w e = some f ∨ (Term.join children).found? w e = some f) :
    ∃ child, children.find? (holds w e) = some child ∧ child.found? w e = some f := by
  have hfirst : firstFound? w e children = some f := by
    rcases h with hany | hjoin
    · rw [found?] at hany
      exact hany
    · rw [found?] at hjoin
      split at hjoin
      · exact hjoin
      · cases hjoin
  rw [firstFound?_eq] at hfirst
  exact Option.bind_eq_some_iff.1 hfirst

end Term

/-! ### A fetch that is found is declared -/

theorem BoundTerm.allowedBy_of_found? {w : World} {e : Entity} {q : BoundTerm Column} {f : Fetch}
    (h : q.found? w e = some f) : f.AllowedBy q.pattern.fetches := by
  induction q with
  | component c m =>
      rw [found?] at h
      split at h
      · cases h
        exact Fetch.allowedBy_singleton _
      · cases h
  | maybe inner ih =>
      rw [found?] at h
      split at h
      · exact ih h
      · cases h
  | changed inner ih =>
      rw [found?] at h
      split at h
      · exact ih h
      · cases h

namespace Term

mutual

/-- **What a term finds, its pattern declares.** -/
theorem allowedBy_of_found? {w : World} {e : Entity} (t : Term Column) {f : Fetch}
    (h : t.found? w e = some f) : f.AllowedBy t.pattern.fetches := by
  cases t with
  | entity => cases h
  | single q => exact BoundTerm.allowedBy_of_found? h
  | batch q => exact BoundTerm.allowedBy_of_found? h
  | without inner => cases h
  | maybe inner =>
      rw [found?] at h
      split at h
      · exact allowedBy_of_found? inner h
      · cases h
  | any children =>
      rw [found?] at h
      exact (allowedBy_of_firstFound? children h).alternatives
  | join children =>
      rw [found?] at h
      split at h
      · exact (allowedBy_of_firstFound? children h).alternatives
      · cases h

theorem allowedBy_of_firstFound? {w : World} {e : Entity} (ts : List (Term Column)) {f : Fetch}
    (h : firstFound? w e ts = some f) : f.AllowedBy (Pattern.allFetches (patterns ts)) := by
  cases ts with
  | nil => cases h
  | cons t rest =>
      rw [firstFound?] at h
      split at h
      · exact (allowedBy_of_found? t h).mono (List.subset_append_left _ _)
      · exact (allowedBy_of_firstFound? rest h).mono (List.subset_append_right _ _)

end

end Term

/-- A fetch for writing is listed as such by what allows it. -/
theorem Fetch.AllowedBy.mem {id : ComponentId} {gs : List Fetch}
    (h : (⟨id, true⟩ : Fetch).AllowedBy gs) : ⟨id, true⟩ ∈ gs := by
  obtain ⟨⟨id', mutable⟩, hg, hcomponent, hmutable⟩ := h
  cases hcomponent
  cases hmutable rfl
  exact hg

/-! ### A term does the fetch that finds an instance, and no other -/

namespace FetchState

/-- The second state came from the first one by the given fetch, if there is one. -/
def Finds (e : Entity) (found : Option Fetch) (st st' : FetchState) : Prop :=
  st.world.OnlyFlags e (fun id => found = some ⟨id, true⟩) st'.world

variable {e : Entity} {st : FetchState}

theorem finds_refl (e : Entity) (st : FetchState) : Finds e none st st :=
  .of_not_found (fun _ => nofun) rfl

/-- Whichever of two ways is gone. -/
theorem finds_ite {α : Type} {b : Bool} {f g : Option Fetch} {x y : α × FetchState}
    (hx : b = true → Finds e f st x.2) (hy : Finds e g st y.2) :
    Finds e (if b then f else g) st (if b then x else y).2 := by
  cases b with
  | true => exact hx rfl
  | false => exact hy

theorem finds_fetch (st : FetchState) (c : Column) (m : Bool) (e : Entity) :
    Finds e (if st.world.holds c e then some ⟨c.id, m⟩ else none) st (st.fetch c m e).2 := by
  rw [fetch, World.holds]
  cases htyped : st.world.typed? c with
  | none => exact finds_refl e st
  | some storage =>
      obtain ⟨hstorage, -⟩ := Option.filter_eq_some_iff.1 htyped
      have hat : ∀ s, st.world.storage? c.id = some s → s.contains e = storage.contains e := by
        intro s hs
        rw [hstorage] at hs
        cases hs
        rfl
      rw [Option.map_some, Option.getD_some]
      cases hheld : storage.contains e with
      | true =>
          rw [if_pos rfl]
          refine (World.onlyFlags_fetch (fun s hs => (hat s hs).trans hheld) m).congr fun id => ?_
          rw [Option.some.injEq, Fetch.mk.injEq]
      | false =>
          -- a fetch that finds nothing only counts
          rw [if_neg Bool.false_ne_true]
          have hcounts := World.uncounted_fetch_of_not_held (fun s hs => (hat s hs).trans hheld) m
          refine .of_not_found ?_ hcounts
          intro id hfound
          cases hfound

theorem finds_fetch_of_holds {c : Column} (h : st.world.holds c e = true) (m : Bool) :
    Finds e (some ⟨c.id, m⟩) st (st.fetch c m e).2 := by
  have hfinds := finds_fetch st c m e
  rw [h, if_pos rfl] at hfinds
  exact hfinds

end FetchState

open FetchState

namespace BoundTerm

theorem finds_fetch (e : Entity) (q : BoundTerm Column) (st : FetchState) :
    Finds e (q.found? st.world e) st (q.fetch e st).2 := by
  induction q with
  | component c m =>
      rw [fetch_component]
      exact FetchState.finds_fetch st c m e
  | maybe inner ih =>
      rw [fetch_maybe, found?]
      exact finds_ite (fun _ => ih) (finds_refl e st)
  | changed inner ih =>
      rw [fetch_changed, found?]
      exact finds_ite (fun _ => ih) (finds_refl e st)

theorem finds_fetchPayload (e : Entity) (q : BoundTerm Column) (st : FetchState) :
    Finds e (q.found? st.world e) st (q.fetchPayload e st).2 := by
  rw [snd_fetchPayload]
  exact q.finds_fetch e st

theorem finds_fetchAll (e : Entity) (q : BoundTerm Column) (st : FetchState) :
    Finds e (q.found? st.world e) st (q.fetchAll e st).2 := by
  induction q with
  | component c m =>
      rw [fetchAll_component, found?]
      exact finds_ite (fun hholds => finds_fetch_of_holds hholds m) (finds_refl e st)
  | maybe inner ih =>
      rw [fetchAll_maybe, found?]
      exact finds_ite (fun _ => ih) (finds_refl e st)
  | changed inner ih =>
      rw [fetchAll_changed, found?]
      exact finds_ite (fun _ => ih) (finds_refl e st)

theorem finds_fetchAllPayload (e : Entity) (q : BoundTerm Column) (st : FetchState) :
    Finds e (q.found? st.world e) st (q.fetchAllPayload e st).2 := by
  rw [snd_fetchAllPayload]
  exact q.finds_fetchAll e st

end BoundTerm

namespace Term

mutual

theorem finds_fetchPayload (e : Entity) (t : Term Column) (st : FetchState) :
    Finds e (t.found? st.world e) st (t.fetchPayload e st).2 := by
  cases t with
  | entity => exact finds_refl e st
  | single q => exact q.finds_fetchPayload e st
  | batch q => exact q.finds_fetchAllPayload e st
  | without inner => exact finds_refl e st
  | maybe inner =>
      rw [fetchPayload_maybe, found?]
      exact finds_ite (fun _ => finds_fetchPayload e inner st) (finds_refl e st)
  | any children =>
      rw [fetchPayload, found?]
      exact finds_fetchFirstPayload e children st
  | join children =>
      rw [fetchPayload_join, found?]
      exact finds_ite (fun _ => finds_fetchFirstPayload e children st) (finds_refl e st)

theorem finds_fetchFirstPayload (e : Entity) (ts : List (Term Column)) (st : FetchState) :
    Finds e (firstFound? st.world e ts) st (fetchFirstPayload e ts st).2 := by
  cases ts with
  | nil => exact finds_refl e st
  | cons t rest =>
      rw [fetchFirstPayload_cons, firstFound?]
      exact finds_ite (fun _ => finds_fetchPayload e t st) (finds_fetchFirstPayload e rest st)

end

/-- Where no child matches, none is fetched. -/
theorem found?_any_eq_ite (w : World) (e : Entity) (children : List (Term Column)) :
    (Term.any children).found? w e =
      if (Term.any children).holds w e then firstFound? w e children else none := by
  rw [found?]
  split
  · rfl
  · next hmiss =>
    rw [holds, decide_eq_true_eq, countHolds_eq, List.countP_pos_iff] at hmiss
    rw [firstFound?_eq, List.find?_eq_none.2 fun t ht hholds => hmiss ⟨t, ht, hholds⟩]
    rfl

/-- **A term does the fetch that finds an instance, and no other,** up to access counts. -/
theorem finds_fetch (e : Entity) (t : Term Column) (st : FetchState) :
    Finds e (t.found? st.world e) st (t.fetch e st).2 := by
  cases t with
  | entity => exact finds_refl e st
  | single q => exact q.finds_fetch e st
  | batch q => exact q.finds_fetchAll e st
  | without inner => exact finds_refl e st
  | maybe inner =>
      rw [fetch_maybe, found?]
      exact finds_ite (fun _ => finds_fetch e inner st) (finds_refl e st)
  | any children =>
      rw [fetch_any, found?_any_eq_ite]
      exact finds_ite (fun _ => finds_fetchFirstPayload e children st) (finds_refl e st)
  | join children =>
      rw [fetch_join, found?]
      exact finds_ite (fun _ => finds_fetchFirstPayload e children st) (finds_refl e st)

end Term

/-! ### Rows -/

/-- Some term of a row finds an instance of the component to write, when its turn comes. -/
def FindsForWriting (ts : List (Term Column)) (st : FetchState) (e : Entity)
    (id : ComponentId) : Prop :=
  ∃ before t after, ts = before ++ t :: after ∧ (fetchRow e before st).1.isSome = true ∧
    t.found? (fetchRow e before st).2.world e = some ⟨id, true⟩

/-- What is found for writing is declared. -/
theorem FindsForWriting.mem {ts : List (Term Column)} {st : FetchState} {e : Entity}
    {id : ComponentId} (h : FindsForWriting ts st e id) :
    ⟨id, true⟩ ∈ Pattern.allFetches (Term.patterns ts) := by
  obtain ⟨before, t, after, rfl, -, hfound⟩ := h
  rw [Term.patterns_eq, Pattern.allFetches_eq]
  refine List.mem_flatMap.2 ⟨t.pattern, ?_, (t.allowedBy_of_found? hfound).mem⟩
  exact List.mem_map_of_mem (List.mem_append_right _ List.mem_cons_self)

section

variable {t : Term Column} {rest : List (Term Column)} {st st' : FetchState} {e : Entity}

/-- If the first term is not delivered, the row finds what it found. -/
theorem findsForWriting_cons_of_none (hfetch : t.fetch e st = (none, st')) (id : ComponentId) :
    FindsForWriting (t :: rest) st e id ↔ t.found? st.world e = some ⟨id, true⟩ := by
  constructor
  · rintro ⟨before, u, after, hsplit, hdelivered, hfound⟩
    cases before with
    | nil =>
        cases hsplit
        exact hfound
    | cons first before =>
        cases hsplit
        rw [fetchRow_cons_of_none hfetch] at hdelivered
        cases hdelivered
  · intro hfound
    exact ⟨[], t, rest, rfl, rfl, hfound⟩

/-- If it is delivered, the row also finds what the later terms find. -/
theorem findsForWriting_cons_of_some {slot : Slot} (hfetch : t.fetch e st = (some slot, st'))
    (id : ComponentId) : FindsForWriting (t :: rest) st e id ↔
      t.found? st.world e = some ⟨id, true⟩ ∨ FindsForWriting rest st' e id := by
  constructor
  · rintro ⟨before, u, after, hsplit, hdelivered, hfound⟩
    cases before with
    | nil =>
        cases hsplit
        exact .inl hfound
    | cons first before =>
        cases hsplit
        rw [fetchRow_cons_of_some hfetch] at hdelivered hfound
        exact .inr ⟨before, u, after, rfl, Option.isSome_map.symm.trans hdelivered, hfound⟩
  · rintro (hfound | ⟨before, u, after, rfl, hdelivered, hfound⟩)
    · exact ⟨[], t, rest, rfl, rfl, hfound⟩
    · refine ⟨t :: before, u, after, rfl, ?_, ?_⟩
      · rw [fetchRow_cons_of_some hfetch]
        exact Option.isSome_map.trans hdelivered
      · rw [fetchRow_cons_of_some hfetch]
        exact hfound

end

/-- **A row flags its entity in the components that its terms find for writing.** -/
theorem onlyFlags_fetchRow (e : Entity) (ts : List (Term Column)) (st : FetchState) :
    st.world.OnlyFlags e (FindsForWriting ts st e) (fetchRow e ts st).2.world := by
  induction ts generalizing st with
  | nil =>
      refine .of_not_found ?_ rfl
      rintro id ⟨before, t, after, hsplit, -⟩
      cases before <;> cases hsplit
  | cons t rest ih =>
      have hfirst := t.finds_fetch e st
      rcases hfetch : t.fetch e st with ⟨delivered, st'⟩
      rw [hfetch] at hfirst
      cases delivered with
      | none =>
          rw [fetchRow_cons_of_none hfetch]
          exact hfirst.congr (findsForWriting_cons_of_none hfetch)
      | some slot =>
          rw [fetchRow_cons_of_some hfetch]
          exact (hfirst.trans (ih st')).congr (findsForWriting_cons_of_some hfetch)

/-! ### Terms that write nothing -/

/-- Everything may be looked at and nothing written. -/
def Footprint.readOnly : Footprint where
  known _ := True
  written _ := False

namespace Pattern

mutual

/-- A term that hands out nothing for writing declares no fetch for writing. -/
theorem readOnly_of_not_writable (p : Pattern) (h : p.isWritable = false) :
    ∀ f ∈ p.fetches, Footprint.readOnly.Allows f.component f.mutable := by
  cases p with
  | entity => exact nofun
  | component id m =>
      intro f hf
      cases List.mem_singleton.1 hf
      exact ⟨trivial, fun hm => Bool.false_ne_true (h.symm.trans hm)⟩
  | without child => exact nofun
  | maybe child => exact readOnly_of_not_writable child h
  | changed child => exact readOnly_of_not_writable child h
  | batch child => exact readOnly_of_not_writable child h
  | any children => exact Footprint.allows_alternatives (readOnly_of_none_writable children h)
  | join children => exact Footprint.allows_alternatives (readOnly_of_none_writable children h)

theorem readOnly_of_none_writable (ps : List Pattern) (h : anyWritable ps = false) :
    ∀ f ∈ allFetches ps, Footprint.readOnly.Allows f.component f.mutable := by
  cases ps with
  | nil => exact nofun
  | cons p rest =>
      obtain ⟨hfirst, hrest⟩ := Bool.or_eq_false_iff.1 h
      exact List.forall_mem_append.2
        ⟨readOnly_of_not_writable p hfirst, readOnly_of_none_writable rest hrest⟩

end

end Pattern

/-! ### Every way to come by a row -/

namespace Query

/-- A query that was used in any way, from a given world on, produces a row.  The relation gives the
entity that the row is for, unless there is none, and the states before and after. -/
inductive Produces (q : Query) (start : World) :
    Option Entity → FetchState → FetchState → Prop where
  | get (uses : List QueryUse) (e : Entity) {w : World}
      (hw : w = uses.foldl (fun w use => use.apply q w) start) (hselects : q.selects w e = true) :
      Produces q start (some e) { world := w } (q.rowOf e { world := w }).2
  | miss (uses : List QueryUse) (e : Entity) {w : World}
      (hw : w = uses.foldl (fun w use => use.apply q w) start) (hmisses : q.selects w e = false) :
      Produces q start none { world := w } (q.rowOf e { world := w }).2
  | next (uses : List QueryUse) (writes : List (Record → Record)) {it : RowIterator}
      {st : FetchState} {w : World} (hw : w = uses.foldl (fun w use => use.apply q w) start)
      (hrun : ((q.rows w).run writes { world := w }).2 = (it, st)) :
      Produces q start (it.upcoming? st.world) st (it.next st).2.2
  | row (uses : List QueryUse) (visits : List (List (Record → Record)))
      (writes : List (Record → Record)) {c : RowCursor} {st st' : FetchState} {w : World}
      (hw : w = uses.foldl (fun w use => use.apply q w) start)
      (hwalk : (q.cursor w).walk visits { world := w } = (c, st))
      (hgets : c.getAll writes st = st') :
      Produces q start c.current? st' (c.row st').2

end Query

/-- A call of an iterator fetches the row of the upcoming entity, if there is one. -/
theorem RowIterator.snd_next (it : RowIterator) (st : FetchState) :
    (it.next st).2.2 =
      (it.upcoming? st.world).elim st fun e => (fetchRow e it.query.terms st).2 := by
  have hhead := List.find?_eq_head?_dropWhile_not
    (Term.allHold st.world · it.query.terms) it.remaining
  rw [upcoming?, hhead, next_eq]
  cases it.remaining.dropWhile fun e => !Term.allHold st.world e it.query.terms <;> rfl

/-- A fetch of a cursor fetches the row of its entity, if there is one. -/
theorem RowCursor.snd_row (c : RowCursor) (st : FetchState) :
    (c.row st).2 = c.current?.elim st fun e => (fetchRow e c.query.terms st).2 := by
  rw [row, current?]
  cases c.remaining <;> rfl

namespace Query

/-- However a row is produced, nothing was inserted before, and the terms are fetched for its
entity. -/
theorem Produces.fetches {q : Query} {start : World} {target : Option Entity} {st st' : FetchState}
    (h : q.Produces start target st st') :
    st.world.Within start ∧ st' = target.elim st fun e => (fetchRow e q.terms st).2 := by
  cases h with
  | get uses e hw hselects =>
      refine ⟨hw ▸ QueryUse.within_applyAll uses q start, ?_⟩
      rw [rowOf, if_pos hselects]
      rfl
  | miss uses e hw hmisses =>
      refine ⟨hw ▸ QueryUse.within_applyAll uses q start, ?_⟩
      rw [rowOf_of_not_selects hmisses]
      rfl
  | @next uses writes it st used hw hrun =>
      have hused : used.Within start := hw ▸ QueryUse.within_applyAll uses q start
      have hquery := RowIterator.query_run (q.rows used) writes { world := used }
      have hpass := RowIterator.within_run (q.rows used) writes { world := used }
      rw [hrun] at hquery hpass
      refine ⟨hpass.trans hused, ?_⟩
      rw [it.snd_next, show it.query = q from hquery]
  | @row uses visits writes c st st' used hw hwalk hgets =>
      have hused : used.Within start := hw ▸ QueryUse.within_applyAll uses q start
      have hquery := RowCursor.query_walk (q.cursor used) visits { world := used }
      have hpass := RowCursor.within_walk (q.cursor used) visits { world := used }
      have hfetched := c.within_getAll writes st
      rw [hwalk] at hquery hpass
      rw [hgets] at hfetched
      refine ⟨hfetched.trans (hpass.trans hused), ?_⟩
      rw [c.snd_row, show c.query = q from hquery]

theorem Produces.onlyFlags {q : Query} {start : World} {e : Entity} {st st' : FetchState}
    (h : q.Produces start (some e) st st') :
    st.world.OnlyFlags e (FindsForWriting q.terms st e) st'.world := by
  rw [h.fetches.2]
  exact onlyFlags_fetchRow e q.terms st

/-- **A query whose terms hand out nothing for writing finds nothing for writing.** -/
theorem not_findsForWriting {q : Query} (h : q.patterns.any Pattern.isWritable = false)
    (st : FetchState) (e : Entity) (id : ComponentId) : ¬FindsForWriting q.terms st e id := by
  intro hfinds
  rw [← Pattern.anyWritable_eq] at h
  exact (Pattern.readOnly_of_none_writable _ h _ hfinds.mem).2 rfl

/-- **Rows have the declared side effects, and no others.**  Let a query be prepared in a reachable
store and then, used in any way, produce a row, or none.  Without an entity to fetch for, nothing
happens.  Otherwise nothing happens, up to access counts, but that the entity of the row is flagged
in the components that a term finds for writing when its turn comes.  A storage that does not trace
changes stays as it is, nobody else who is alive sees anything, and nothing at all happens if the
terms hand out nothing for writing.  What is found for writing is declared to be fetched for
writing.  A `without` finds nothing, and an `any` or a `join` finds what its winner finds, the first
child that matches, among the fetches that this child declares. -/
theorem rows_flag_what_they_declare {s s' : Store} {ts : List (Term ComponentType)} {q : Query}
    (hs : s.Reachable) (h : s.prepare ts = (.ok q, s')) :
    (∀ st st', q.Produces s'.world none st st' → st' = st) ∧
    (∀ e st st', q.Produces s'.world (some e) st st' →
      st.world.OnlyFlags e (FindsForWriting q.terms st e) st'.world ∧
      (∀ id storage, st.world.storage? id = some storage → storage.isTracing = false →
        (st'.world.storage? id).map Storage.uncounted = some storage.uncounted) ∧
      (∀ e', st.world.isAlive e' = true → e ≠ e' →
        st'.world.facets e' = st.world.facets e') ∧
      (q.patterns.any Pattern.isWritable = false → st'.world.uncounted = st.world.uncounted)) ∧
    (∀ st e id, FindsForWriting q.terms st e id → ⟨id, true⟩ ∈ Pattern.allFetches q.patterns) ∧
    ∀ w e, (∀ t, (Term.without t).found? w e = none) ∧
      ∀ children f, (Term.any children).found? w e = some f ∨
          (Term.join children).found? w e = some f →
        ∃ winner, children.find? (Term.holds w e) = some winner ∧ winner.found? w e = some f ∧
          f.AllowedBy winner.pattern.fetches := by
  refine ⟨fun st st' hproduces => hproduces.fetches.2, ?_, fun st e id hfinds => hfinds.mem, ?_⟩
  · intro e st st' hproduces
    have hflags := hproduces.onlyFlags
    have hvalid : st.world.Valid :=
      hproduces.fetches.1.valid (Store.valid_of_prepare hs.valid h).world
    refine ⟨hflags, ?_, ?_, ?_⟩
    · intro id storage hstorage htracing
      exact hflags.uncounted_eq_of_not_tracing hstorage htracing
    · intro e' halive hother
      exact hflags.facets_eq hvalid halive hother
    · intro hreadOnly
      exact hflags.uncounted_eq (not_findsForWriting hreadOnly st e)
  · intro w e
    refine ⟨fun t => rfl, ?_⟩
    intro children f hfound
    obtain ⟨winner, hwinner, hfinds⟩ := Term.winner_of_found? hfound
    exact ⟨winner, hwinner, hfinds, winner.allowedBy_of_found? hfinds⟩

/-- A row of the query for unchanged levels is not delivered in the sample store, but its entity is
flagged, in the storage of levels, and nobody else is. -/
theorem unchangedLevels_flags_level :
    ∃ s', Store.sample.prepare
        [.single (.component Catalogue.level true),
          .without (.single (.changed (.component Catalogue.level false)))] =
        (.ok unchangedLevels, s') ∧
      ∃ st : FetchState, unchangedLevels.rowOf ⟨1, 0⟩ { world := s'.world } = (none, st) ∧
        unchangedLevels.Produces s'.world (some ⟨1, 0⟩) { world := s'.world } st ∧
        s'.world.isMarked ⟨Catalogue.level, ⟨0⟩⟩ ⟨1, 0⟩ = false ∧
        st.world.isMarked ⟨Catalogue.level, ⟨0⟩⟩ ⟨1, 0⟩ = true ∧
        ⟨⟨0⟩, true⟩ ∈ Pattern.allFetches unchangedLevels.patterns ∧
        s'.world.isAlive ⟨2, 0⟩ = true ∧ st.world.facets ⟨2, 0⟩ = s'.world.facets ⟨2, 0⟩ := by
  let ts : List (Term ComponentType) :=
    [.single (.component Catalogue.level true),
      .without (.single (.changed (.component Catalogue.level false)))]
  let start : FetchState := { world := (Store.sample.prepare ts).2.world }
  have hprepared : Store.sample.prepare ts = (.ok unchangedLevels, (Store.sample.prepare ts).2) :=
    rfl
  have hdeclared := rows_flag_what_they_declare Store.reachable_sample hprepared
  have hproduces : unchangedLevels.Produces start.world (some ⟨1, 0⟩) start
      (unchangedLevels.rowOf ⟨1, 0⟩ start).2 := .get [] ⟨1, 0⟩ rfl (by decide +kernel)
  have hnone : (unchangedLevels.rowOf ⟨1, 0⟩ start).1 = none := by decide +kernel
  have halive : start.world.isAlive ⟨2, 0⟩ = true := by decide +kernel
  refine ⟨_, hprepared, _, ?_, hproduces, by decide +kernel, by decide +kernel, ?_, halive, ?_⟩
  · rw [← hnone]
  · exact hdeclared.2.2.1 start ⟨1, 0⟩ ⟨0⟩ ⟨[], _, _, rfl, rfl, by decide +kernel⟩
  · exact (hdeclared.2.1 _ _ _ hproduces).2.2.1 ⟨2, 0⟩ halive (by decide)

end Query

end EntityStore
