import EntityStore.Proofs.Candidates
import EntityStore.Proofs.Uncounted

/-!
# Locality

Two worlds compared within a footprint, and a world compared with what became of it.  Of a
component that is known only what shows while nothing is written has to be the same: whether
changes are traced does not show.  Of a component that is written everything has to be the same but
the access counts.

* `Storage.still` — what shows of a storage while nothing is written;
* `Storage.traceFor`, `World.storage?_traceAll` — what switching tracing on does to a storage;
* `World.AgreeOn`, `World.sight_agreeOn` — worlds that agree within a footprint look the same;
* `World.Confined` — nothing was changed outside of a footprint;
* `World.Confined.agreeOn` — what keeps apart is not affected.
-/

namespace EntityStore

/-! ### What shows of a storage -/

namespace Storage

/-- The storage with its counts at zero and tracing switched off. -/
def still (s : Storage) : Storage :=
  s.uncounted.switchTracing false

theorem entities_still (s : Storage) : s.still.entities = s.entities := by
  cases s <;> rfl

theorem contains_still (s : Storage) (e : Entity) : s.still.contains e = s.contains e := by
  cases s <;> rfl

theorem records_still (s : Storage) (e : Entity) : s.still.records e = s.records e := by
  cases s <;> rfl

theorem isMarked_still (s : Storage) (e : Entity) : s.still.isMarked e = s.isMarked e := by
  cases s <;> rfl

theorem opens_still (s : Storage) (t : ComponentType) : s.still.opens t = s.opens t := by
  cases s <;> rfl

theorem opens_uncounted (s : Storage) (t : ComponentType) : s.uncounted.opens t = s.opens t := by
  cases s <;> rfl

theorem uncounted_fetch_shared (s : Storage) (e : Entity) :
    (s.fetch false e).uncounted = s.uncounted := by
  rw [uncounted_fetch, if_neg Bool.false_ne_true]

theorem map_still_congr {o o' : Option Storage} (h : o.map uncounted = o'.map uncounted) :
    o.map still = o'.map still := by
  have hstill : ∀ o : Option Storage, o.map still = (o.map uncounted).map (·.switchTracing false) :=
    fun o => (Option.map_map ..).symm
  rw [hstill, hstill, h]

theorem map_uncounted_congr {o o' : Option Storage} (h : o.map uncounted = o'.map uncounted)
    {f : Storage → Storage}
    (hf : ∀ s s' : Storage, s.uncounted = s'.uncounted → (f s).uncounted = (f s').uncounted) :
    (o.map f).map uncounted = (o'.map f).map uncounted := by
  cases o with
  | none =>
      cases o' with
      | none => rfl
      | some s' => cases h
  | some s =>
      cases o' with
      | none => cases h
      | some s' => exact congrArg some (hf s s' (Option.some.inj h))

/-! ### Switching tracing on -/

/-- Whether tracing is switched on for the storage of a component: a column names it and finds it
by typed access. -/
def isTracedBy (cs : List Column) (id : ComponentId) (s : Storage) : Bool :=
  cs.any fun c => c.id == id && s.opens c.type

/-- The storage of a component after tracing was switched on for some columns. -/
def traceFor (cs : List Column) (id : ComponentId) (s : Storage) : Storage :=
  if s.isTracedBy cs id then s.switchTracing true else s

theorem opens_switchTracing (s : Storage) (enabled : Bool) (t : ComponentType) :
    (s.switchTracing enabled).opens t = s.opens t := by
  cases s <;> rfl

theorem opens_traceFor (cs : List Column) (id : ComponentId) (s : Storage) (t : ComponentType) :
    (s.traceFor cs id).opens t = s.opens t := by
  rw [traceFor]
  split
  · exact s.opens_switchTracing true t
  · rfl

/-- Only typed access decides. -/
theorem isTracedBy_congr {s s' : Storage} (h : ∀ t, s.opens t = s'.opens t) (cs : List Column)
    (id : ComponentId) : s.isTracedBy cs id = s'.isTracedBy cs id := by
  simp only [isTracedBy, h]

theorem uncounted_switchTracing (s : Storage) (enabled : Bool) :
    (s.switchTracing enabled).uncounted = s.uncounted.switchTracing enabled := by
  cases s <;> rfl

theorem uncounted_traceFor (cs : List Column) (id : ComponentId) (s : Storage) :
    (s.traceFor cs id).uncounted = s.uncounted.traceFor cs id := by
  have htraced := isTracedBy_congr s.opens_uncounted cs id
  rw [traceFor, traceFor, htraced, apply_ite uncounted, uncounted_switchTracing]

theorem still_traceFor (cs : List Column) (id : ComponentId) (s : Storage) :
    (s.traceFor cs id).still = s.still := by
  rw [traceFor]
  split
  · cases s <;> rfl
  · rfl

/-- The order in which tracing is asked for does not matter. -/
theorem traceFor_comm (cs cs' : List Column) (id : ComponentId) (s : Storage) :
    (s.traceFor cs id).traceFor cs' id = (s.traceFor cs' id).traceFor cs id := by
  have hhere := isTracedBy_congr (s.opens_traceFor cs' id) cs id
  have hthere := isTracedBy_congr (s.opens_traceFor cs id) cs' id
  rw [traceFor, hthere, traceFor, traceFor, hhere, traceFor]
  cases s.isTracedBy cs id <;> cases s.isTracedBy cs' id <;> rfl

/-- Asking for it again changes nothing. -/
theorem traceFor_traceFor (cs : List Column) (id : ComponentId) (s : Storage) :
    (s.traceFor cs id).traceFor cs id = s.traceFor cs id := by
  have hagain := isTracedBy_congr (s.opens_traceFor cs id) cs id
  rw [traceFor, hagain, traceFor]
  cases s.isTracedBy cs id <;> cases s <;> rfl

theorem traceFor_of_not_mem {cs : List Column} {id : ComponentId} (h : ∀ c ∈ cs, c.id ≠ id)
    (s : Storage) : s.traceFor cs id = s := by
  have huntraced : s.isTracedBy cs id = false := by
    rw [isTracedBy, List.any_eq_false]
    intro c hc hnamed
    exact h c hc (eq_of_beq (Bool.and_eq_true_iff.1 hnamed).1)
  rw [traceFor, huntraced, if_neg Bool.false_ne_true]

theorem traceFor_cons (c : Column) (cs : List Column) (id : ComponentId) (s : Storage) :
    s.traceFor (c :: cs) id = (s.traceFor [c] id).traceFor cs id := by
  have hlater := isTracedBy_congr (s.opens_traceFor [c] id) cs id
  have hboth : s.isTracedBy (c :: cs) id = (s.isTracedBy [c] id || s.isTracedBy cs id) := by
    simp only [isTracedBy, List.any_cons, List.any_nil, Bool.or_false]
  rw [traceFor, hboth, traceFor, hlater, traceFor]
  cases s.isTracedBy [c] id with
  | false => rfl
  | true =>
      cases s.isTracedBy cs id with
      | false => rfl
      | true => cases s <;> rfl

end Storage

namespace World

theorem storage?_trace_typed (w : World) (c : Column) (id : ComponentId) :
    (if (w.typed? c).isSome then w.trace c.id else w).storage? id =
      (w.storage? id).map (Storage.traceFor [c] id) := by
  by_cases hid : c.id = id
  · subst hid
    have htraced : ∀ s : Storage, s.isTracedBy [c] c.id = s.opens c.type := by
      intro s
      simp only [Storage.isTracedBy, List.any_cons, List.any_nil, beq_self_eq_true, Bool.true_and,
        Bool.or_false]
    cases hs : w.storage? c.id with
    | none =>
        rw [typed?, hs]
        exact hs
    | some s =>
        rw [Option.map_some, Storage.traceFor, htraced, typed?, hs, Option.filter_some]
        cases s.opens c.type with
        | true =>
            show (w.trace c.id).storage? c.id = _
            rw [trace, storage?_modifyStorage, if_pos rfl, hs]
            rfl
        | false => exact hs
  · have hsame : (w.storage? id).map (Storage.traceFor [c] id) = w.storage? id := by
      have hidentity : Storage.traceFor [c] id = fun s => s :=
        funext (Storage.traceFor_of_not_mem (by simpa using hid))
      rw [hidentity, Option.map_id']
    rw [hsame]
    split
    · rw [trace, storage?_modifyStorage, if_neg hid]
    · rfl

/-- **What switching tracing on does to a storage.** -/
theorem storage?_traceAll (w : World) (cs : List Column) (id : ComponentId) :
    (w.traceAll cs).storage? id = (w.storage? id).map (Storage.traceFor cs id) := by
  induction cs generalizing w with
  | nil => exact (Option.map_id' ..).symm
  | cons c rest ih =>
      have hstep : w.traceAll (c :: rest) =
          (if (w.typed? c).isSome then w.trace c.id else w).traceAll rest := rfl
      rw [hstep, ih, storage?_trace_typed, Option.map_map]
      congr 1
      funext s
      exact (Storage.traceFor_cons c rest id s).symm

theorem entities_traceAll (w : World) (cs : List Column) :
    (w.traceAll cs).entities = w.entities :=
  (within_traceAll w cs).entities

theorem size_traceAll (w : World) (cs : List Column) :
    (w.traceAll cs).storages.size = w.storages.size :=
  (within_traceAll w cs).slots

/-! ### What typed access shows -/

section Shown

variable {w w' : World}

/-- Typed access shows what shows of the storage. -/
theorem map_still_typed?_congr {c : Column}
    (h : (w.storage? c.id).map Storage.still = (w'.storage? c.id).map Storage.still) :
    (w.typed? c).map Storage.still = (w'.typed? c).map Storage.still := by
  have hfilter : ∀ o : Option Storage, (o.filter (·.opens c.type)).map Storage.still =
      (o.map Storage.still).filter (·.opens c.type) := by
    intro o
    cases o with
    | none => rfl
    | some s =>
        rw [Option.map_some, Option.filter_some, Option.filter_some, Storage.opens_still]
        split <;> rfl
  rw [typed?, typed?, hfilter, h, hfilter]

/-- What only depends on what shows is the same if that is. -/
theorem map_typed?_eq_of_still {c c' : Column} {β : Type} {g : Storage → β}
    (hg : ∀ s : Storage, g s.still = g s)
    (h : (w.typed? c).map Storage.still = (w'.typed? c').map Storage.still) :
    (w.typed? c).map g = (w'.typed? c').map g := by
  have hmap : ∀ o : Option Storage, o.map g = (o.map Storage.still).map g := by
    intro o
    rw [Option.map_map]
    exact congrArg (o.map ·) (funext fun s => (hg s).symm)
  rw [hmap, h, ← hmap]

/-- Tracing does not show. -/
theorem map_still_typed?_traceAll (w : World) (cs : List Column) (c : Column) :
    ((w.traceAll cs).typed? c).map Storage.still = (w.typed? c).map Storage.still := by
  apply map_still_typed?_congr
  rw [storage?_traceAll, Option.map_map]
  exact congrArg ((w.storage? c.id).map ·) (funext (Storage.still_traceFor cs c.id))

end Shown

/-! ### Worlds that agree within a footprint -/

/-- What is known shows the same, and what is written is the same up to access counts. -/
structure AgreeOn (p : Footprint) (w w' : World) : Prop where
  seen : ∀ id, p.known id → (w.storage? id).map Storage.still = (w'.storage? id).map Storage.still
  same : ∀ id, p.written id →
    (w.storage? id).map Storage.uncounted = (w'.storage? id).map Storage.uncounted

namespace AgreeOn

variable {p : Footprint} {w w' w'' : World}

theorem symm (h : AgreeOn p w w') : AgreeOn p w' w :=
  ⟨fun id hid => (h.seen id hid).symm, fun id hid => (h.same id hid).symm⟩

theorem trans (h : AgreeOn p w w') (h' : AgreeOn p w' w'') : AgreeOn p w w'' :=
  ⟨fun id hid => (h.seen id hid).trans (h'.seen id hid),
    fun id hid => (h.same id hid).trans (h'.same id hid)⟩

/-- Typed access tells the same of what shows of a storage. -/
theorem map_typed?_eq (h : AgreeOn p w w') {c : Column} (hc : p.known c.id) {β : Type}
    {g : Storage → β} (hg : ∀ s : Storage, g s.still = g s) :
    (w.typed? c).map g = (w'.typed? c).map g :=
  map_typed?_eq_of_still hg (map_still_typed?_congr (h.seen c.id hc))

theorem isSome_typed?_eq (h : AgreeOn p w w') {c : Column} (hc : p.known c.id) :
    (w.typed? c).isSome = (w'.typed? c).isSome := by
  have hmap := h.map_typed?_eq hc (g := fun _ => ()) fun _ => rfl
  rw [← Option.isSome_map (f := fun _ => ()), hmap, Option.isSome_map]

theorem values_eq (h : AgreeOn p w w') {c : Column} (hc : p.known c.id) (e : Entity) :
    w.values c e = w'.values c e :=
  congrArg (Option.getD · []) (h.map_typed?_eq hc fun s => s.records_still e)

/-- Changing what is written alike keeps worlds together. -/
theorem modifyStorage (h : AgreeOn p w w') {id : ComponentId} (hid : p.written id)
    {f : Storage → Storage}
    (hf : ∀ s s' : Storage, s.uncounted = s'.uncounted → (f s).uncounted = (f s').uncounted) :
    AgreeOn p (w.modifyStorage id f) (w'.modifyStorage id f) := by
  have hself : ((w.storage? id).map f).map Storage.uncounted =
      ((w'.storage? id).map f).map Storage.uncounted :=
    Storage.map_uncounted_congr (h.same id hid) hf
  constructor
  · intro id' hknown
    rw [storage?_modifyStorage, storage?_modifyStorage]
    split
    · next hsame =>
      subst hsame
      exact Storage.map_still_congr hself
    · exact h.seen id' hknown
  · intro id' hwritten
    rw [storage?_modifyStorage, storage?_modifyStorage]
    split
    · next hsame =>
      subst hsame
      exact hself
    · exact h.same id' hwritten

/-- What only counts is not seen. -/
theorem modifyStorage_self (p : Footprint) (w : World) (id : ComponentId) {f : Storage → Storage}
    (hf : ∀ s : Storage, (f s).uncounted = s.uncounted) : AgreeOn p w (w.modifyStorage id f) := by
  have hself : ∀ id', (w.storage? id').map Storage.uncounted =
      ((w.modifyStorage id f).storage? id').map Storage.uncounted := by
    intro id'
    rw [storage?_modifyStorage]
    split
    · rw [Option.map_map]
      congr 1
      funext s
      exact (hf s).symm
    · rfl
  exact ⟨fun id' _ => Storage.map_still_congr (hself id'), fun id' _ => hself id'⟩

theorem fetch (h : AgreeOn p w w') {id : ComponentId} {mutable : Bool}
    (hallows : p.Allows id mutable) (e : Entity) :
    AgreeOn p (w.fetch id mutable e) (w'.fetch id mutable e) := by
  cases mutable with
  | true =>
      refine h.modifyStorage (hallows.2 rfl) ?_
      intro s s' hs
      rw [Storage.uncounted_fetch, Storage.uncounted_fetch, hs]
  | false =>
      have hcounted : ∀ w : World, AgreeOn p w (w.fetch id false e) :=
        fun w => modifyStorage_self p w id fun s => s.uncounted_fetch_shared e
      exact (hcounted w).symm.trans (h.trans (hcounted w'))

theorem traceAll (h : AgreeOn p w w') (cs : List Column) :
    AgreeOn p (w.traceAll cs) (w'.traceAll cs) := by
  constructor
  · intro id hid
    rw [storage?_traceAll, storage?_traceAll, Option.map_map, Option.map_map]
    have hstill : Storage.still ∘ Storage.traceFor cs id = Storage.still :=
      funext (Storage.still_traceFor cs id)
    rw [hstill]
    exact h.seen id hid
  · intro id hid
    rw [storage?_traceAll, storage?_traceAll, Option.map_map, Option.map_map]
    have huncounted : Storage.uncounted ∘ Storage.traceFor cs id =
        Storage.traceFor cs id ∘ Storage.uncounted :=
      funext (Storage.uncounted_traceFor cs id)
    rw [huncounted, ← Option.map_map, h.same id hid, Option.map_map]

/-- Tracing does not show, where it is only asked for by what keeps apart. -/
theorem traceAll_self {p' : Footprint} (hapart : p'.Apart p) (w : World) {cs : List Column}
    (hcs : ∀ c ∈ cs, p'.known c.id) : AgreeOn p w (w.traceAll cs) := by
  constructor
  · intro id hid
    rw [storage?_traceAll, Option.map_map]
    congr 1
    funext s
    exact (s.still_traceFor cs id).symm
  · intro id hid
    have huntraced : ∀ c ∈ cs, c.id ≠ id := by
      intro c hc hsame
      exact hapart.there id hid (hsame ▸ hcs c hc)
    rw [storage?_traceAll, Option.map_map]
    congr 1
    funext s
    exact congrArg _ (Storage.traceFor_of_not_mem huntraced s).symm

end AgreeOn

/-- Worlds that agree within a footprint look the same there. -/
theorem sight_agreeOn (p : Footprint) (e : Entity) : Sight e p (AgreeOn p) where
  found h hc := h.isSome_typed?_eq hc
  held h hc := congrArg (Option.getD · false) (h.map_typed?_eq hc fun s => s.contains_still e)
  marked h hc := congrArg (Option.getD · false) (h.map_typed?_eq hc fun s => s.isMarked_still e)
  count h hc := congrArg List.length (h.values_eq hc e)
  fetch h hallows := h.fetch hallows e

end World

/-! ### What a query starts from -/

section Candidates

variable {p : Footprint} {w w' : World}

theorem BoundTerm.isServed_congr (h : w.AgreeOn p w') {q : BoundTerm Column}
    (hq : p.known q.column.id) : q.isServed w = q.isServed w' := by
  induction q with
  | component c m => exact h.isSome_typed?_eq hq
  | maybe inner ih => rfl
  | changed inner ih => exact ih hq

namespace Term

theorem allCandidates_congr (h : w.AgreeOn p w') {ts : List (Term Column)}
    (hts : ∀ c ∈ allComponents ts, p.known c.id) : allCandidates w ts = allCandidates w' ts :=
  allCandidates_congr_of_listed fun c hc =>
    congrArg (Option.getD · []) (h.map_typed?_eq (hts c hc) Storage.entities_still)

mutual

theorem isServed_congr (h : w.AgreeOn p w') {t : Term Column}
    (ht : ∀ c ∈ t.components, p.known c.id) : t.isServed w = t.isServed w' := by
  cases t with
  | entity => rfl
  | single q => exact BoundTerm.isServed_congr h (ht _ List.mem_cons_self)
  | batch q => exact BoundTerm.isServed_congr h (ht _ List.mem_cons_self)
  | without inner => rfl
  | maybe inner => rfl
  | any children => exact anyServed_congr h ht
  | join children => exact anyServed_congr h ht

theorem anyServed_congr (h : w.AgreeOn p w') {ts : List (Term Column)}
    (hts : ∀ c ∈ allComponents ts, p.known c.id) : anyServed w ts = anyServed w' ts := by
  cases ts with
  | nil => rfl
  | cons t rest =>
      obtain ⟨ht, hrest⟩ := List.forall_mem_append.1 hts
      rw [anyServed, anyServed, isServed_congr h ht, anyServed_congr h hrest]

end

theorem allServed_congr (h : w.AgreeOn p w') {ts : List (Term Column)}
    (hts : ∀ c ∈ allComponents ts, p.known c.id) :
    ts.all (isServed w) = ts.all (isServed w') := by
  induction ts with
  | nil => rfl
  | cons t rest ih =>
      obtain ⟨ht, hrest⟩ := List.forall_mem_append.1 hts
      rw [List.all_cons, List.all_cons, isServed_congr h ht, ih hrest]

end Term

end Candidates

/-! ### Worlds changed within a footprint -/

namespace World

/-- The second world is the first one but for what is written, and for access counts of what is
known. -/
structure Confined (p : Footprint) (w w' : World) : Prop where
  entities : w'.entities = w.entities
  size : w'.storages.size = w.storages.size
  unknown : ∀ id, ¬p.known id → w'.storage? id = w.storage? id
  unwritten : ∀ id, ¬p.written id →
    (w'.storage? id).map Storage.uncounted = (w.storage? id).map Storage.uncounted

namespace Confined

variable {p : Footprint} {w w' w'' : World}

theorem refl (p : Footprint) (w : World) : w.Confined p w :=
  ⟨rfl, rfl, fun _ _ => rfl, fun _ _ => rfl⟩

theorem trans (h : Confined p w w') (h' : Confined p w' w'') : Confined p w w'' where
  entities := h'.entities.trans h.entities
  size := h'.size.trans h.size
  unknown id hid := (h'.unknown id hid).trans (h.unknown id hid)
  unwritten id hid := (h'.unwritten id hid).trans (h.unwritten id hid)

/-- Changing what is known is confined, if no more than counts change of what is not written. -/
theorem modifyStorage (w : World) {id : ComponentId} (hknown : p.known id) {f : Storage → Storage}
    (hf : ¬p.written id → ∀ s : Storage, (f s).uncounted = s.uncounted) :
    Confined p w (w.modifyStorage id f) where
  entities := rfl
  size := Array.size_modify
  unknown id' hid' := by
    rw [storage?_modifyStorage, if_neg]
    intro hsame
    exact hid' (hsame ▸ hknown)
  unwritten id' hid' := by
    rw [storage?_modifyStorage]
    split
    · next hsame =>
      subst hsame
      rw [Option.map_map]
      congr 1
      funext s
      exact hf hid' s
    · rfl

theorem fetch (w : World) {id : ComponentId} {mutable : Bool} (hallows : p.Allows id mutable)
    (e : Entity) : Confined p w (w.fetch id mutable e) := by
  refine modifyStorage w hallows.1 ?_
  intro hunwritten s
  cases mutable with
  | true => exact absurd (hallows.2 rfl) hunwritten
  | false => exact s.uncounted_fetch_shared e

theorem perform (st : FetchState) (e : Entity) {fs : List Fetch}
    (h : ∀ f ∈ fs, p.Allows f.component f.mutable) :
    Confined p st.world (st.perform e fs).world := by
  induction fs generalizing st with
  | nil =>
      rw [FetchState.perform_nil]
      exact refl p st.world
  | cons f rest ih =>
      obtain ⟨hfirst, hrest⟩ := List.forall_mem_cons.1 h
      rw [FetchState.perform_cons]
      exact trans (fetch st.world hfirst e) (ih (st.perform e [f]) hrest)

/-- **A row changes nothing outside of what its terms look at.** -/
theorem fetchRow (e : Entity) {ts : List (Term Column)} (st : FetchState)
    (hts : p.AllowsAll (Term.allAccesses false ts)) :
    Confined p st.world (fetchRow e ts st).2.world := by
  obtain ⟨fs, hst, hallowed, _⟩ := fetches_fetchRow e ts st
  rw [hst]
  refine perform st e ?_
  intro f hf
  exact Footprint.allows_of_allowedBy (hallowed f hf) (Footprint.allows_allFetches ts hts)

/-- **What keeps apart is not affected.** -/
theorem agreeOn (h : Confined p w w') {p' : Footprint} (hapart : p.Apart p') :
    AgreeOn p' w w' where
  seen id hid := by
    refine Storage.map_still_congr (h.unwritten id ?_).symm
    exact fun hwritten => hapart.here id hwritten hid
  same id hid := by rw [h.unknown id (hapart.there id hid)]

end Confined

end World

end EntityStore
