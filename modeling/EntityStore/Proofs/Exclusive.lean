import EntityStore.Proofs.Traversal

/-!
# Exclusive access

What was accepted by the aliasing test never gets hold of an instance twice if one of the holds
is for writing: neither within a row nor across the rows of a pass.

* `Query.pairwise_made`, `UntypedQuery.pairwise_made` — the fetches for one entity;
* `Row.entity_of_mem_placesOf` — a row hands out places of its own entity;
* `Query.exists_entities_of_rowsGiven` — the rows of a pass belong to different matches;
* `Store.accepted_queries_never_alias` — all of it, for every query on a reachable store.
-/

namespace EntityStore

/-! ### The fetches of one row -/

theorem FetchState.Fetches.pairwise_made {e : Entity} {gs : List Fetch} {places : List Place}
    {w : World} {st : FetchState} (h : Fetches e gs places { world := w } st)
    (hgs : gs.Pairwise fun f g => f.conflicts g = false) :
    (st.made.Pairwise fun f g => f.conflicts g = false) ∧
      places.Sublist (st.made.map (Place.ofFetch e)) := by
  obtain ⟨fs, rfl, _, hpairwise, hplaces⟩ := h
  exact ⟨hpairwise hgs, hplaces⟩

theorem Query.pairwise_made {q : Query} (h : refuseAliasing q.patterns = .ok ()) (e : Entity)
    (w : World) :
    ((fetchRow e q.terms { world := w }).2.made.Pairwise fun f g => f.conflicts g = false) ∧
      (Row.placesOf (fetchRow e q.terms { world := w }).1).Sublist
        ((fetchRow e q.terms { world := w }).2.made.map (Place.ofFetch e)) :=
  (fetches_fetchRow e q.terms { world := w }).pairwise_made ((refuseAliasing_eq_ok_iff _).1 h)

theorem UntypedQuery.pairwise_made {q : UntypedQuery} {r : Registry} (h : q.check r = .ok ())
    (e : Entity) (w : World) :
    ((pointAll e q.terms { world := w }).2.made.Pairwise fun f g => f.conflicts g = false) ∧
      (UntypedTerm.placesOf q.terms (pointAll e q.terms { world := w }).1).Sublist
        ((pointAll e q.terms { world := w }).2.made.map (Place.ofFetch e)) := by
  have haccepted : refuseAliasing q.patterns = .ok () := by
    rw [UntypedQuery.check] at h
    split at h
    · cases h
    · split at h
      · cases h
      · exact h
  exact (fetches_pointAll e q.terms { world := w }).pairwise_made
    ((refuseAliasing_eq_ok_iff _).1 haccepted)

/-! ### The places of one row -/

theorem Row.entity_of_mem_placesOf {e : Entity} {ts : List (Term Column)} {st : FetchState}
    {p : Place} (h : p ∈ Row.placesOf (fetchRow e ts st).1) : p.entity = e := by
  obtain ⟨fs, _, _, _, hplaces⟩ := fetches_fetchRow e ts st
  obtain ⟨f, _, rfl⟩ := List.mem_map.1 (hplaces.subset h)
  rfl

theorem Query.pairwise_placesOf {q : Query} (h : refuseAliasing q.patterns = .ok ()) (e : Entity)
    (w : World) :
    (Row.placesOf (fetchRow e q.terms { world := w }).1).Pairwise fun p p' =>
      p.conflicts p' = false := by
  obtain ⟨hmade, hplaces⟩ := q.pairwise_made h e w
  refine List.Pairwise.sublist hplaces (List.pairwise_map.2 (hmade.imp ?_))
  intro f g hfg
  rw [Place.conflicts_ofFetch]
  exact hfg

/-! ### The rows of a pass -/

theorem filterMap_range_bind {α β : Type} (l : List α) (f : α → Option β) (n : Nat) :
    ((List.range n).map fun i => l[i]?.bind f).filterMap id = (l.take n).filterMap f := by
  induction n generalizing l with
  | zero => rfl
  | succ n ih =>
      rw [List.range_succ_eq_map, List.map_cons, List.map_map]
      cases l with
      | nil => simp
      | cons a rest =>
          have hrest := ih rest
          rw [List.take_succ_cons]
          cases hf : f a with
          | none =>
              rw [List.filterMap_cons_none (by simpa using hf), List.filterMap_cons_none hf]
              exact hrest
          | some b =>
              rw [List.filterMap_cons_some (b := b) (by simpa using hf),
                List.filterMap_cons_some hf]
              exact congrArg _ hrest

theorem map_filter_isSome {α β : Type} (l : List α) (f : α → Option β) :
    (l.filter fun a => (f a).isSome).map f = (l.filterMap f).map some := by
  induction l with
  | nil => rfl
  | cons a rest ih =>
      rw [List.filter_cons]
      cases hf : f a with
      | none =>
          rw [List.filterMap_cons_none hf]
          exact ih
      | some b =>
          rw [List.filterMap_cons_some hf, Option.isSome_some, if_pos rfl, List.map_cons,
            List.map_cons, hf, ih]

namespace Query

/-- The rows that a pass gives. -/
def rowsGiven (q : Query) (w : World) (writes : List (Record → Record)) : List Row :=
  (q.answers w writes).filterMap id

/-- **The rows of a pass belong to different matches.** -/
theorem exists_entities_of_rowsGiven {q : Query} {w : World} (hw : w.Valid)
    (hanchored : q.anchored = !unanchored q.patterns) (writes : List (Record → Record)) :
    ∃ es : List Entity, es.Sublist (q.matching w) ∧
      es.map (fun e => (fetchRow e q.terms { world := w }).1) =
        (q.rowsGiven w writes).map some := by
  have hrun : q.answers w writes = (List.range writes.length).map fun i =>
      (q.matching w)[i]?.bind fun e => (fetchRow e q.terms { world := w }).1 :=
    RowIterator.fst_run (q.rows w) { world := w } (ahead hw hanchored) writes
  refine ⟨((q.matching w).take writes.length).filter fun e =>
    (fetchRow e q.terms { world := w }).1.isSome, ?_, ?_⟩
  · exact List.filter_sublist.trans (List.take_sublist _ _)
  · rw [rowsGiven]
    rw [hrun, filterMap_range_bind, map_filter_isSome]

theorem flatMap_places_eq {q : Query} {w : World} {es : List Entity} {rows : List Row}
    (h : es.map (fun e => (fetchRow e q.terms { world := w }).1) = rows.map some) :
    rows.flatMap Row.places =
      es.flatMap fun e => Row.placesOf (fetchRow e q.terms { world := w }).1 := by
  calc rows.flatMap Row.places
      = (rows.map some).flatMap Row.placesOf := by rw [List.flatMap_map]; rfl
    _ = (es.map fun e => (fetchRow e q.terms { world := w }).1).flatMap Row.placesOf := by rw [h]
    _ = es.flatMap fun e => Row.placesOf (fetchRow e q.terms { world := w }).1 := by
        rw [List.flatMap_map]

theorem pairwise_places_of_nodup {q : Query} (h : refuseAliasing q.patterns = .ok ())
    {w : World} {es : List Entity} (hes : es.Nodup) :
    (es.flatMap fun e => Row.placesOf (fetchRow e q.terms { world := w }).1).Pairwise
      fun p p' => p.conflicts p' = false := by
  rw [List.pairwise_flatMap]
  refine ⟨fun e _ => q.pairwise_placesOf h e w, ?_⟩
  refine (List.nodup_iff_pairwise_ne.1 hes).imp ?_
  intro e e' hne p hp p' hp'
  apply Place.conflicts_of_entity_ne
  rw [Row.entity_of_mem_placesOf hp, Row.entity_of_mem_placesOf hp']
  exact hne

end Query

/-- **Accepted queries never alias.**  On a reachable store: the fetches that are made for a row
of an accepted query, for any entity and in any world, never include two of one component of
which one is for writing, and the places that the row hands out come from these fetches; the same
holds when an accepted untyped query loads its accessors; and the rows of one pass belong to
different entities, so that no place handed out for writing is handed out again. -/
theorem Store.accepted_queries_never_alias {s : Store} (hs : s.Reachable) :
    (∀ (ts : List (Term ComponentType)) (q : Query) (s' : Store),
      s.prepare ts = (.ok q, s') →
        (∀ (e : Entity) (w : World),
          ((fetchRow e q.terms { world := w }).2.made.Pairwise fun f g => f.conflicts g = false) ∧
            (Row.placesOf (fetchRow e q.terms { world := w }).1).Sublist
              ((fetchRow e q.terms { world := w }).2.made.map (Place.ofFetch e))) ∧
        ∀ writes : List (Record → Record),
          (∃ es : List Entity, es.Nodup ∧
            es.map (fun e => (fetchRow e q.terms { world := s'.world }).1) =
              (q.rowsGiven s'.world writes).map some) ∧
          ((q.rowsGiven s'.world writes).flatMap Row.places).Pairwise fun p p' =>
            p.conflicts p' = false) ∧
      ∀ q : UntypedQuery, q.check s.registry = .ok () → ∀ (e : Entity) (w : World),
        ((pointAll e q.terms { world := w }).2.made.Pairwise fun f g => f.conflicts g = false) ∧
          (UntypedTerm.placesOf q.terms (pointAll e q.terms { world := w }).1).Sublist
            ((pointAll e q.terms { world := w }).2.made.map (Place.ofFetch e)) := by
  constructor
  · intro ts q s' h
    have hprepared := Store.prepared_of_prepare h
    have hvalid := (Store.valid_of_prepare hs.valid h).world
    refine ⟨q.pairwise_made hprepared.accepted, ?_⟩
    intro writes
    -- within a row by the aliasing test, across rows because the entities differ
    obtain ⟨es, hsub, hrows⟩ := q.exists_entities_of_rowsGiven hvalid hprepared.anchored writes
    have hnodup := (Query.nodup_matching hvalid hprepared.anchored).sublist hsub
    refine ⟨⟨es, hnodup, hrows⟩, ?_⟩
    rw [Query.flatMap_places_eq hrows]
    exact Query.pairwise_places_of_nodup hprepared.accepted hnodup
  · intro q h e w
    exact q.pairwise_made h e w

/-- The rows that an iterator gives for the levels of the sample store hand out one level each, to
write, and the accessors of the untyped query for them are loaded with one fetch. -/
theorem Store.sample_queries_never_alias :
    Store.sample.Reachable ∧
      (∃ s', Store.sample.prepare [.single (.component Catalogue.level true)] =
          (.ok Query.levels, s') ∧
        (Query.levels.rowsGiven s'.world [id, id, id]).flatMap Row.places =
          [⟨⟨0⟩, ⟨1, 0⟩, true⟩, ⟨⟨0⟩, ⟨2, 0⟩, true⟩] ∧
        ((Query.levels.rowsGiven s'.world [id, id, id]).flatMap Row.places).Pairwise
          fun p p' => p.conflicts p' = false) ∧
      (({} : UntypedQuery).require ⟨0⟩ true).check Store.sample.registry = .ok () ∧
      (pointAll ⟨1, 0⟩ (({} : UntypedQuery).require ⟨0⟩ true).terms
        { world := Store.sample.world }).2.made.Pairwise fun f g => f.conflicts g = false := by
  let ts : List (Term ComponentType) := [.single (.component Catalogue.level true)]
  have hprepared : Store.sample.prepare ts = (.ok Query.levels, (Store.sample.prepare ts).2) := rfl
  have hplaces : (Query.levels.rowsGiven (Store.sample.prepare ts).2.world [id, id, id]).flatMap
      Row.places = [⟨⟨0⟩, ⟨1, 0⟩, true⟩, ⟨⟨0⟩, ⟨2, 0⟩, true⟩] := by decide +kernel
  have hnever := Store.accepted_queries_never_alias Store.reachable_sample
  obtain ⟨hrows, hloads⟩ := hnever
  refine ⟨Store.reachable_sample, ⟨_, hprepared, hplaces, ?_⟩, rfl, ?_⟩
  · exact ((hrows ts Query.levels _ hprepared).2 [id, id, id]).2
  · exact (hloads (({} : UntypedQuery).require ⟨0⟩ true) rfl ⟨1, 0⟩ Store.sample.world).1

end EntityStore
