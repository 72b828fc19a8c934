import EntityStore.Proofs.Candidates
import EntityStore.Proofs.Reachable
import EntityStore.Proofs.Systems

/-!
# Systems without a conflict commute

Two systems whose access reports do not conflict may take their turns in either order: each is
given the same rows with the same contents, and the same world is left, up to access counts.  The
report says nothing of tracing that is switched on by one system for a component that the other
one reads; that is not seen by the other one.

* `Query.agreeOn_turn`, `Query.storage?_turn_of_unknown`, `Query.storage?_turn_of_unwritten` — what
  a turn does to what it only reads, and to what it does not know;
* `Query.uncounted_turn_comm` — the worlds that are left;
* `Store.turn`, `Store.compatible_systems_commute` — the same from preparing the queries on.
-/

namespace EntityStore

/-! ### Turns on a world -/

namespace Query

variable {p p' : Footprint} {q q' : Query} {u u' : RowUpdate} {timing timing' : Timing}

/-- What is traced for a query is known. -/
theorem known_of_mem_traced (hterms : p.AllowsAll (Term.allAccesses false q.terms)) :
    ∀ c ∈ Term.allTraced q.terms, p.known c.id :=
  fun c hc => Footprint.known_of_mem_allComponents hterms c (Term.allTraced_subset q.terms hc)

/-- **A turn is not seen by what keeps apart.** -/
theorem agreeOn_turn (hterms : p.AllowsAll (Term.allAccesses false q.terms)) (hapart : p.Apart p')
    (w : World) : w.AgreeOn p' (q.turn u timing w).2 :=
  (World.AgreeOn.traceAll_self hapart w (known_of_mem_traced hterms)).trans
    ((confined_turn hterms w).agreeOn hapart)

theorem entities_turn (hterms : p.AllowsAll (Term.allAccesses false q.terms)) (w : World) :
    (q.turn u timing w).2.entities = w.entities :=
  (confined_turn hterms w).entities.trans (w.entities_traceAll _)

theorem size_turn (hterms : p.AllowsAll (Term.allAccesses false q.terms)) (w : World) :
    (q.turn u timing w).2.storages.size = w.storages.size :=
  (confined_turn hterms w).size.trans (w.size_traceAll _)

theorem storage?_turn_of_unknown (hterms : p.AllowsAll (Term.allAccesses false q.terms))
    {id : ComponentId} (hid : ¬p.known id) (w : World) :
    (q.turn u timing w).2.storage? id = w.storage? id := by
  have huntraced : ∀ c ∈ Term.allTraced q.terms, c.id ≠ id := by
    intro c hc hsame
    exact hid (hsame ▸ known_of_mem_traced hterms c hc)
  have hidentity : Storage.traceFor (Term.allTraced q.terms) id = fun s => s :=
    funext (Storage.traceFor_of_not_mem huntraced)
  rw [(confined_turn hterms w).unknown id hid, World.storage?_traceAll, hidentity, Option.map_id']

/-- Of what is not written, only tracing may change. -/
theorem storage?_turn_of_unwritten (hterms : p.AllowsAll (Term.allAccesses false q.terms))
    {id : ComponentId} (hid : ¬p.written id) (w : World) :
    ((q.turn u timing w).2.storage? id).map Storage.uncounted =
      ((w.storage? id).map Storage.uncounted).map
        (Storage.traceFor (Term.allTraced q.terms) id) := by
  rw [(confined_turn hterms w).unwritten id hid, World.storage?_traceAll, Option.map_map,
    Option.map_map]
  congr 1
  funext s
  exact s.uncounted_traceFor _ id

/-- Of what the first of two systems writes, the second one does not change anything, and the first
one does the same after the second. -/
theorem storage?_turn_comm_of_written (hterms : p.AllowsAll (Term.allAccesses false q.terms))
    (hterms' : p'.AllowsAll (Term.allAccesses false q'.terms)) (hapart : p.Apart p')
    {id : ComponentId} (hid : p.written id) (w : World) :
    ((q'.turn u' timing' (q.turn u timing w).2).2.storage? id).map Storage.uncounted =
      ((q.turn u timing (q'.turn u' timing' w).2).2.storage? id).map Storage.uncounted := by
  rw [storage?_turn_of_unknown hterms' (hapart.here id hid)]
  exact (turn_congr hterms (agreeOn_turn hterms' hapart.symm w)).2.same id hid

/-- **The worlds that two systems leave**, in the one order and in the other. -/
theorem uncounted_turn_comm (hterms : p.AllowsAll (Term.allAccesses false q.terms))
    (hterms' : p'.AllowsAll (Term.allAccesses false q'.terms)) (hapart : p.Apart p') (w : World) :
    (q'.turn u' timing' (q.turn u timing w).2).2.uncounted =
      (q.turn u timing (q'.turn u' timing' w).2).2.uncounted := by
  apply World.uncounted_ext
  · rw [entities_turn hterms', entities_turn hterms, entities_turn hterms, entities_turn hterms']
  · rw [size_turn hterms', size_turn hterms, size_turn hterms, size_turn hterms']
  · intro id
    by_cases hid : p.written id
    · exact storage?_turn_comm_of_written hterms hterms' hapart hid w
    · by_cases hid' : p'.written id
      · exact (storage?_turn_comm_of_written hterms' hterms hapart.symm hid' w).symm
      · rw [storage?_turn_of_unwritten hterms' hid', storage?_turn_of_unwritten hterms hid,
          storage?_turn_of_unwritten hterms hid, storage?_turn_of_unwritten hterms' hid',
          Option.map_map, Option.map_map _ _ (Option.map _ _)]
        congr 1
        funext s
        exact s.traceFor_comm _ _ id

end Query

/-! ### Turns on a store -/

namespace Store

/-- A turn of a system, from preparing its query on. -/
def turn (s : Store) (ts : List (Term ComponentType)) (u : RowUpdate) (timing : Timing) :
    Except StoreError Reading × Store :=
  match s.prepare ts with
  | (.ok q, s) =>
    let (rows, world) := q.pass u timing s.world
    (.ok rows, { s with world })
  | (.error err, s) => (.error err, s)

theorem turn_of_prepare {s s' : Store} {ts : List (Term ComponentType)} {q : Query}
    (h : s.prepare ts = (.ok q, s')) (u : RowUpdate) (timing : Timing) :
    s.turn ts u timing =
      (.ok (q.turn u timing s.world).1, { s' with world := (q.turn u timing s.world).2 }) := by
  rw [turn, h, Query.turn, ← (prepared_of_prepare h).world]

theorem Prepared.prepare_eq {s s' : Store} {ts : List (Term ComponentType)} {q : Query}
    (h : s.Prepared ts q s') : s.prepare ts = (.ok q, s') := by
  obtain ⟨terms, served, anchored⟩ := q
  obtain ⟨registry, world⟩ := s'
  have hregistry : registry = s.registry.registerAll (Term.allComponents ts) := h.registry
  have hterms : terms = registry.resolve ts := h.terms
  have haccepted : refuseAliasing (Term.patterns terms) = .ok () := h.accepted
  have hworld : world = s.world.traceAll (Term.allTraced terms) := h.world
  have hserved : served = terms.all (Term.isServed world) := h.served
  have hanchored : anchored = !unanchored (Term.patterns terms) := h.anchored
  subst hregistry hterms hworld hserved hanchored
  rw [prepare]
  simp only
  rw [haccepted]

/-- A query is prepared alike on stores that it does not tell apart. -/
theorem prepare_congr {s s₁ : Store} {ts : List (Term ComponentType)} {q : Query}
    (h : s.prepare ts = (.ok q, s₁)) (s' : Store) (hregistry : s'.registry = s.registry)
    {p : Footprint} (hterms : p.AllowsAll (Term.allAccesses false q.terms))
    (hagree : s.world.AgreeOn p s'.world) :
    s'.prepare ts = (.ok q,
      { registry := s₁.registry, world := s'.world.traceAll (Term.allTraced q.terms) }) := by
  have hprepared := prepared_of_prepare h
  have htraced := hagree.traceAll (Term.allTraced q.terms)
  apply Prepared.prepare_eq
  exact {
    registry := by rw [hprepared.registry, hregistry]
    terms := hprepared.terms
    accepted := hprepared.accepted
    world := rfl
    served := by
      rw [hprepared.served, hprepared.world]
      exact Term.allServed_congr htraced (Footprint.known_of_mem_allComponents hterms)
    anchored := hprepared.anchored }

/-- **Systems without a conflict commute.**  If two queries over registered components are accepted
and their reports do not conflict, each system is given the same rows with the same contents
whether it takes its turn first or second, whatever it makes of them and whenever it writes; and
either order leaves the same entities, instances, flags and tracing switches. -/
theorem compatible_systems_commute {s s₁ s₂ : Store} {ts₁ ts₂ : List (Term ComponentType)}
    {q₁ q₂ : Query}
    (hregistered₁ : ∀ t ∈ Term.allComponents ts₁, (s.registry.position? t).isSome = true)
    (hregistered₂ : ∀ t ∈ Term.allComponents ts₂, (s.registry.position? t).isSome = true)
    (h₁ : s.prepare ts₁ = (.ok q₁, s₁)) (h₂ : s.prepare ts₂ = (.ok q₂, s₂))
    (hparallel : q₁.accessReport.compatible q₂.accessReport = true)
    (u₁ u₂ : RowUpdate) (timing₁ timing₂ : Timing) :
    ∃ rows₁ rows₂ : Reading,
      (s.turn ts₁ u₁ timing₁).1 = .ok rows₁ ∧
      ((s.turn ts₁ u₁ timing₁).2.turn ts₂ u₂ timing₂).1 = .ok rows₂ ∧
      (s.turn ts₂ u₂ timing₂).1 = .ok rows₂ ∧
      ((s.turn ts₂ u₂ timing₂).2.turn ts₁ u₁ timing₁).1 = .ok rows₁ ∧
      ((s.turn ts₁ u₁ timing₁).2.turn ts₂ u₂ timing₂).2.registry =
        ((s.turn ts₂ u₂ timing₂).2.turn ts₁ u₁ timing₁).2.registry ∧
      ((s.turn ts₁ u₁ timing₁).2.turn ts₂ u₂ timing₂).2.world.uncounted =
        ((s.turn ts₂ u₂ timing₂).2.turn ts₁ u₁ timing₁).2.world.uncounted := by
  have hapart := AccessReport.apart_of_compatible hparallel
  have hterms₁ := q₁.allows_accessReport
  have hterms₂ := q₂.allows_accessReport
  have hregistry₁ : s₁.registry = s.registry :=
    (prepared_of_prepare h₁).registry.trans (Registry.registerAll_of_registered hregistered₁)
  have hregistry₂ : s₂.registry = s.registry :=
    (prepared_of_prepare h₂).registry.trans (Registry.registerAll_of_registered hregistered₂)
  have hagree₁ : s.world.AgreeOn _ (q₂.turn u₂ timing₂ s.world).2 :=
    Query.agreeOn_turn hterms₂ hapart.symm s.world
  have hagree₂ : s.world.AgreeOn _ (q₁.turn u₁ timing₁ s.world).2 :=
    Query.agreeOn_turn hterms₁ hapart s.world
  -- after a turn of the other system each query is prepared as before
  have hlater₁ := prepare_congr h₁ { s₂ with world := (q₂.turn u₂ timing₂ s.world).2 }
    hregistry₂ hterms₁ hagree₁
  have hlater₂ := prepare_congr h₂ { s₁ with world := (q₁.turn u₁ timing₁ s.world).2 }
    hregistry₁ hterms₂ hagree₂
  rw [turn_of_prepare h₁, turn_of_prepare h₂]
  simp only
  rw [turn_of_prepare hlater₁, turn_of_prepare hlater₂]
  refine ⟨_, _, rfl, rfl, ?_, ?_, hregistry₂.trans hregistry₁.symm, ?_⟩
  · exact congrArg Except.ok (Query.turn_congr hterms₂ hagree₂).1
  · exact congrArg Except.ok (Query.turn_congr hterms₁ hagree₁).1.symm
  · exact Query.uncounted_turn_comm hterms₁ hterms₂ hapart s.world

/-! ### An example -/

/-- A query that writes every hit of an entity and reads its level. -/
def hitWriters : List (Term ComponentType) :=
  [.batch (.component Catalogue.hit true), .single (.component Catalogue.level false)]

/-- A query that reads levels that did not change. -/
def levelReaders : List (Term ComponentType) :=
  [.single (.component Catalogue.level false),
    .without (.single (.changed (.component Catalogue.level false)))]

/-- Every hit gets the number of hits of its entity. -/
def countHits : RowUpdate := fun _ contents _ _ record =>
  (record.write? "v" (.int (.ofNat (contents.headD []).length))).getD record

/-- In the sample store a system that writes hits and one that watches levels commute: the one is
given one row, the other one two, and in either order the hit is written. -/
theorem hits_and_levels_commute :
    ∃ rows₁ rows₂ : Reading, rows₁.length = 1 ∧ rows₂.length = 2 ∧
      (sample.turn hitWriters countHits .atOnce).1 = .ok rows₁ ∧
      ((sample.turn hitWriters countHits .atOnce).2.turn levelReaders countHits .atEnd).1 =
        .ok rows₂ ∧
      ((sample.turn hitWriters countHits .atOnce).2.turn levelReaders countHits .atEnd
          ).2.world.uncounted =
        ((sample.turn levelReaders countHits .atEnd).2.turn hitWriters countHits .atOnce
          ).2.world.uncounted ∧
      ((((sample.turn levelReaders countHits .atEnd).2.turn hitWriters countHits .atOnce
          ).2.world.value? ⟨Catalogue.hit, ⟨1⟩⟩ ⟨2, 0⟩).bind (·.get? "v") == some (.int 1)) =
        true := by
  let level : Column := ⟨Catalogue.level, ⟨0⟩⟩
  let q₁ : Query :=
    { terms := [.batch (.component ⟨Catalogue.hit, ⟨1⟩⟩ true), .single (.component level false)]
      served := true
      anchored := true }
  let q₂ : Query :=
    { terms :=
        [.single (.component level false), .without (.single (.changed (.component level false)))]
      served := true
      anchored := true }
  have hprepared₁ : sample.prepare hitWriters = (.ok q₁, (sample.prepare hitWriters).2) := rfl
  have hprepared₂ : sample.prepare levelReaders = (.ok q₂, (sample.prepare levelReaders).2) := rfl
  have hparallel : q₁.accessReport.compatible q₂.accessReport = true := by decide +kernel
  obtain ⟨rows₁, rows₂, h₁, h₁₂, h₂, h₂₁, hregistry, hworld⟩ :=
    compatible_systems_commute (by decide +kernel) (by decide +kernel) hprepared₁ hprepared₂
      hparallel countHits countHits .atOnce .atEnd
  have hlength₁ : (sample.turn hitWriters countHits .atOnce).1.toOption.map List.length =
      some 1 := by
    decide +kernel
  have hlength₂ : (sample.turn levelReaders countHits .atEnd).1.toOption.map List.length =
      some 2 := by
    decide +kernel
  rw [h₁] at hlength₁
  rw [h₂] at hlength₂
  exact ⟨rows₁, rows₂, Option.some.inj hlength₁, Option.some.inj hlength₂, h₁, h₁₂, hworld,
    by decide +kernel⟩

end Store

end EntityStore
