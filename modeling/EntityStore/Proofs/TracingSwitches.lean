import EntityStore.Proofs.AccessReports
import EntityStore.Proofs.FixedMatches
import EntityStore.Proofs.Locality
import EntityStore.Proofs.SideEffects

/-!
# Starting a query switches tracing on

A `changed` term needs the changes of its component traced.  The access report says so, going
through the patterns, and preparing or starting the query switches tracing on, going through the
terms.  Both come to the same, and apart from the flags of the first match of an untyped query that
is all that starting a query does to a world.

* `Term.traced_pattern`, `UntypedTerm.traced_pattern` — the terms ask for the components that their
  report needs traced;
* `World.TracedBy`, `Store.tracedBy_prepare`, `UntypedQuery.tracedBy_trace` — what is switched on;
* `onlyFlags_pointAll`, `UntypedCursor.onlyFlags_seek` — the flags of the first match;
* `Storage.Started`, `World.Started` — what starting a query leaves;
* `Store.starting_traces_what_is_reported` — the effect of starting a query on the world.
-/

namespace EntityStore

/-! ### What terms ask to be traced -/

namespace BoundTerm

theorem components_pattern (q : BoundTerm Column) : q.pattern.components = [q.column.id] := by
  induction q with
  | component c m => rfl
  | maybe inner ih => exact ih
  | changed inner ih => exact ih

theorem traced_pattern (q : BoundTerm Column) : q.pattern.traced = q.traced.map (·.id) := by
  induction q with
  | component c m => rfl
  | maybe inner ih => exact ih
  | changed inner ih =>
      rw [pattern, Pattern.traced, ih, inner.components_pattern, traced, List.map_append]
      rfl

end BoundTerm

namespace Term

mutual

/-- **A term asks for the components that its pattern needs traced.** -/
theorem traced_pattern (t : Term Column) : t.pattern.traced = t.traced.map (·.id) := by
  cases t with
  | entity => rfl
  | single q => exact q.traced_pattern
  | batch q => exact q.traced_pattern
  | without inner => exact traced_pattern inner
  | maybe inner => exact traced_pattern inner
  | any children => exact allTraced_patterns children
  | join children => exact allTraced_patterns children

theorem allTraced_patterns (ts : List (Term Column)) :
    Pattern.allTraced (patterns ts) = (allTraced ts).map (·.id) := by
  cases ts with
  | nil => rfl
  | cons t rest =>
      rw [patterns, Pattern.allTraced, traced_pattern t, allTraced_patterns rest, allTraced,
        List.map_append]

end

end Term

theorem Query.contains_traced_accessReport (q : Query) (id : ComponentId) :
    q.accessReport.traced.contains id = true ↔ ∃ c ∈ Term.allTraced q.terms, c.id = id := by
  rw [accessReport, AccessReport.contains_traced_ofPatterns, patterns, Term.allTraced_patterns,
    List.mem_map]

theorem UntypedTerm.traced_pattern (t : UntypedTerm) :
    t.pattern.traced = if t.requirement = .changed then [t.component] else [] := by
  obtain ⟨component, requirement, mutable⟩ := t
  cases requirement <;> rfl

theorem UntypedQuery.contains_traced_accessReport (q : UntypedQuery) (id : ComponentId) :
    q.accessReport.traced.contains id = true ↔
      ∃ t ∈ q.terms, t.requirement = .changed ∧ t.component = id := by
  rw [accessReport, AccessReport.contains_traced_ofPatterns, patterns, Pattern.allTraced_eq,
    List.flatMap_map, List.mem_flatMap]
  refine exists_congr fun t => and_congr_right fun _ => ?_
  rw [t.traced_pattern]
  split
  · next hchanged => simp [hchanged, eq_comm]
  · next hchanged => simp [hchanged]

/-! ### Switching tracing on -/

/-- The storage, with tracing switched on if that is asked for. -/
def Storage.traceIf (asked : Bool) (s : Storage) : Storage :=
  if asked then s.switchTracing true else s

namespace Storage

theorem traceIf_traceIf (a b : Bool) (s : Storage) :
    (s.traceIf a).traceIf b = s.traceIf (a || b) := by
  cases a with
  | false => rfl
  | true =>
      cases b with
      | false => rfl
      | true => cases s <;> rfl

/-- Where typed access opens the storage, naming it is enough. -/
theorem traceFor_eq_traceIf {cs : List Column} {id : ComponentId} {s : Storage}
    (hopens : ∀ c ∈ cs, c.id = id → s.opens c.type = true) :
    s.traceFor cs id = s.traceIf (cs.any (·.id == id)) := by
  have htraced : s.isTracedBy cs id = cs.any (·.id == id) := by
    rw [isTracedBy, Bool.eq_iff_iff, List.any_eq_true, List.any_eq_true]
    refine exists_congr fun c => and_congr_right fun hc => ?_
    rw [Bool.and_eq_true, beq_iff_eq]
    exact ⟨And.left, fun hid => ⟨hid, hopens c hc hid⟩⟩
  rw [traceFor, htraced, traceIf]

end Storage

namespace World

/-- Tracing was switched on where the report needs it, and nothing else was done. -/
structure TracedBy (r : AccessReport) (w w' : World) : Prop where
  entities : w'.entities = w.entities
  slots : w'.storages.size = w.storages.size
  storage : ∀ id, w'.storage? id = (w.storage? id).map (·.traceIf (r.traced.contains id))

theorem storage?_trace (w : World) (id id' : ComponentId) :
    (w.trace id).storage? id' = (w.storage? id').map (·.traceIf (decide (id = id'))) := by
  rw [trace, storage?_modifyStorage]
  by_cases hid : id = id'
  · rw [if_pos hid, decide_eq_true hid]
    rfl
  · rw [if_neg hid, decide_eq_false hid]
    exact (Option.map_id' ..).symm

end World

/-- **Preparing a query traces what its report needs,** where typed access opens the storages. -/
theorem Store.tracedBy_prepare {s s' : Store} {ts : List (Term ComponentType)} {q : Query}
    (h : s.prepare ts = (.ok q, s'))
    (hopens : ∀ c ∈ Term.allComponents q.terms, ∀ storage, s.world.storage? c.id = some storage →
      storage.opens c.type = true) :
    s.world.TracedBy q.accessReport s'.world := by
  rw [(prepared_of_prepare h).world]
  refine ⟨World.entities_traceAll _ _, World.size_traceAll _ _, ?_⟩
  intro id
  rw [World.storage?_traceAll]
  cases hstorage : s.world.storage? id with
  | none => rfl
  | some storage =>
      have hasked : (Term.allTraced q.terms).any (·.id == id) =
          q.accessReport.traced.contains id := by
        rw [Bool.eq_iff_iff, q.contains_traced_accessReport, List.any_eq_true]
        simp only [beq_iff_eq]
      rw [Option.map_some, Option.map_some, Storage.traceFor_eq_traceIf, hasked]
      rintro c hc rfl
      exact hopens c (Term.allTraced_subset q.terms hc) storage hstorage

/-- What tracing the terms of an untyped query does to a storage. -/
theorem storage?_traceTerms (ts : List UntypedTerm) (w : World) (id : ComponentId) :
    (UntypedQuery.trace ⟨ts⟩ w).storage? id = (w.storage? id).map
      (·.traceIf (ts.any fun t => decide (t.requirement = .changed ∧ t.component = id))) := by
  induction ts generalizing w with
  | nil => exact (Option.map_id' ..).symm
  | cons t rest ih =>
      have hstep : UntypedQuery.trace ⟨t :: rest⟩ w = UntypedQuery.trace ⟨rest⟩
          (if t.requirement = .changed then w.trace t.component else w) := rfl
      rw [hstep, ih, List.any_cons]
      by_cases hchanged : t.requirement = .changed
      · rw [if_pos hchanged, World.storage?_trace, Option.map_map]
        congr 1
        funext s
        simp only [Function.comp_apply, Storage.traceIf_traceIf, hchanged, true_and]
      · rw [if_neg hchanged]
        simp only [hchanged, false_and, decide_false, Bool.false_or]

theorem size_traceTerms (ts : List UntypedTerm) (w : World) :
    (UntypedQuery.trace ⟨ts⟩ w).storages.size = w.storages.size := by
  induction ts generalizing w with
  | nil => rfl
  | cons t rest ih =>
      have hstep : UntypedQuery.trace ⟨t :: rest⟩ w = UntypedQuery.trace ⟨rest⟩
          (if t.requirement = .changed then w.trace t.component else w) := rfl
      rw [hstep, ih]
      split
      · exact Array.size_modify
      · rfl

/-- **Starting an untyped query traces what its report needs.** -/
theorem UntypedQuery.tracedBy_trace (q : UntypedQuery) (w : World) :
    w.TracedBy q.accessReport (q.trace w) where
  entities := (Store.within_traceTerms q w).entities
  slots := size_traceTerms q.terms w
  storage id := by
    have hasked : (q.terms.any fun t => decide (t.requirement = .changed ∧ t.component = id)) =
        q.accessReport.traced.contains id := by
      rw [Bool.eq_iff_iff, q.contains_traced_accessReport, List.any_eq_true]
      simp only [decide_eq_true_eq]
    rw [← hasked]
    exact storage?_traceTerms q.terms w id

/-! ### The flags of the first match -/

/-- The term hands out the component of the entity for writing. -/
structure UntypedTerm.FindsForWriting (t : UntypedTerm) (w : World) (e : Entity)
    (id : ComponentId) : Prop where
  component : t.component = id
  mutable : t.mutable = true
  requirement : t.requirement ≠ .absent
  finds : t.finds w e = true

theorem UntypedTerm.finds_of_storage? {t : UntypedTerm} {w : World} {s : Storage}
    (h : w.storage? t.component = some s) (e : Entity) : t.finds w e = s.contains e := by
  rw [finds]
  rw [h]
  rfl

/-- Pointing at an entity flags it, if the term finds the component to write. -/
theorem UntypedTerm.onlyFlags_point (t : UntypedTerm) (e : Entity) (st : FetchState) :
    st.world.OnlyFlags e (t.FindsForWriting st.world e) (t.point e st).2.world := by
  by_cases habsent : t.requirement = .absent
  · rw [t.point_of_absent habsent]
    exact .of_not_found (fun id hfinds => hfinds.requirement habsent) rfl
  cases hstorage : st.world.storage? t.component with
  | none =>
      rw [t.point_of_storage?_eq_none hstorage]
      refine .of_not_found (fun id hfinds => ?_) rfl
      have hfound := hfinds.finds
      rw [finds, hstorage] at hfound
      cases hfound
  | some s =>
      rw [t.point_of_storage?_eq_some habsent hstorage]
      have hheld : ∀ s', st.world.storage? t.component = some s' →
          s'.contains e = t.finds st.world e := fun s' hs' => (finds_of_storage? hs' e).symm
      cases hfinds : t.finds st.world e with
      | false =>
          rw [hfinds] at hheld
          refine .of_not_found (fun id hwrites => ?_) (World.uncounted_fetch_of_not_held hheld _)
          exact absurd hwrites.finds (Bool.eq_false_iff.1 hfinds)
      | true =>
          rw [hfinds] at hheld
          refine (World.onlyFlags_fetch hheld t.mutable).congr fun id => ?_
          exact ⟨fun hwrites => ⟨hwrites.component, hwrites.mutable⟩,
            fun hasked => ⟨hasked.1, hasked.2, habsent, hfinds⟩⟩

/-- What a term finds to write does not depend on what was fetched before. -/
theorem UntypedTerm.findsForWriting_perform_iff (t : UntypedTerm) (st : FetchState) (e : Entity)
    (fs : List Fetch) (id : ComponentId) :
    t.FindsForWriting (st.perform e fs).world e id ↔ t.FindsForWriting st.world e id := by
  have hfinds := t.finds_perform st e fs e
  exact ⟨fun h => ⟨h.component, h.mutable, h.requirement, hfinds.symm.trans h.finds⟩,
    fun h => ⟨h.component, h.mutable, h.requirement, hfinds.trans h.finds⟩⟩

/-- **Pointing at an entity flags it where a term finds the component to write.** -/
theorem onlyFlags_pointAll (e : Entity) (ts : List UntypedTerm) (st : FetchState) :
    st.world.OnlyFlags e (fun id => ∃ t ∈ ts, t.FindsForWriting st.world e id)
      (pointAll e ts st).2.world := by
  induction ts generalizing st with
  | nil => exact .of_not_found (by simp) rfl
  | cons t rest ih =>
      refine ((t.onlyFlags_point e st).trans (ih (t.point e st).2)).congr fun id => ?_
      obtain ⟨fs, hst, _⟩ := t.fetchesOnce_point e st
      simp only [List.exists_mem_cons_iff, hst, UntypedTerm.findsForWriting_perform_iff]

namespace UntypedCursor

/-- **A search flags the match that it stops at,** where a term finds the component to write. -/
theorem onlyFlags_seek (c : UntypedCursor) (hphase : c.phase ≠ .ended) (st : FetchState) :
    st.world.OnlyFlags (c.seek st).1.current
      (fun id => (c.seek st).1.isOpen = true ∧
        ∃ t ∈ c.terms, t.FindsForWriting st.world (c.seek st).1.current id)
      (c.seek st).2.world := by
  rw [seek]
  split
  · exact .of_not_found (fun id hopen => Bool.false_ne_true hopen.1) rfl
  · next e rest _ =>
    have hopen : ({ c with remaining := e :: rest, current := e }.point e st).1.isOpen = true :=
      bne_iff_ne.2 hphase
    refine (onlyFlags_pointAll e c.terms st).congr fun id => ?_
    exact ⟨And.right, fun hfinds => ⟨hopen, hfinds⟩⟩

end UntypedCursor

/-! ### What starting a query leaves -/

/-- A query was started: changes are traced if that was asked for, or was so before; flags were
set where changes are traced, for the given entities; and nothing else has changed. -/
structure Storage.Started (asked : Bool) (flags : Entity → Prop) (s s' : Storage) : Prop where
  tracing : s'.isTracing = (asked || s.isTracing)
  flagged : ∀ e, s'.isMarked e = true ↔
    s.isMarked e = true ∨ s'.isTracing = true ∧ flags e
  entities : s'.entities = s.entities
  holding? : ∀ e, s'.holding? e = s.holding? e
  blank : s'.blank = s.blank

/-- A query was started: tracing was switched on where its report needs it, flags were set as
given, and nothing else has changed. -/
structure World.Started (r : AccessReport) (flags : ComponentId → Entity → Prop) (w w' : World) :
    Prop where
  entities : w'.entities = w.entities
  slots : w'.storages.size = w.storages.size
  storage : ∀ id, Option.Rel (Storage.Started (r.traced.contains id) (flags id))
    (w.storage? id) (w'.storage? id)

namespace Storage

theorem isTracing_switchTracing (s : Storage) (enabled : Bool) :
    (s.switchTracing enabled).isTracing = enabled := by
  rw [isTracing, switchTracing, flags_mapFlags, ChangeFlags.enabled_switch]

theorem isTracing_traceIf (asked : Bool) (s : Storage) :
    (s.traceIf asked).isTracing = (asked || s.isTracing) := by
  cases asked with
  | false => rfl
  | true => exact s.isTracing_switchTracing true

/-- What does not look at whether changes are traced is the same once they are. -/
theorem congr_traceIf {α : Type} {f : Storage → α}
    (hf : ∀ s : Storage, f (s.switchTracing true) = f s) (asked : Bool) (s : Storage) :
    f (s.traceIf asked) = f s := by
  cases asked with
  | false => rfl
  | true => exact hf s

namespace OnlyFlags

variable {e : Entity} {found : Prop} {s s' : Storage}

/-- What looks neither at counts nor at the flag is the same. -/
theorem congr_unflagged (h : OnlyFlags e found s s') {α : Type} {f : Storage → α}
    (hcounts : ∀ s : Storage, f s.uncounted = f s)
    (hmark : ∀ s : Storage, f (s.mapFlags (·.mark e)) = f s) : f s' = f s := by
  by_cases hfound : found
  · rw [← hcounts s', h.flagged hfound, hmark, hcounts]
  · rw [← hcounts s', h.same hfound, hcounts]

theorem isTracing_eq (h : OnlyFlags e found s s') : s'.isTracing = s.isTracing := by
  refine h.congr_unflagged (fun s => by cases s <;> rfl) fun s => ?_
  rw [isTracing, flags_mapFlags, ChangeFlags.enabled_mark, isTracing]

/-- Whoever is found is flagged where changes are traced. -/
theorem isMarked_iff (h : OnlyFlags e found s s') (e' : Entity) :
    s'.isMarked e' = true ↔
      s.isMarked e' = true ∨ s.isTracing = true ∧ found ∧ e.slot = e'.slot := by
  by_cases hfound : found
  · have hfacet := congrArg Facet.marked (h.facet_of_found hfound e')
    rw [facet_mapFlags] at hfacet
    rw [show s'.isMarked e' = _ from hfacet, s.flags.isMarked_mark e e', Bool.or_eq_true,
      Bool.and_eq_true, decide_eq_true_eq]
    simp only [hfound, true_and]
    rfl
  · rw [show s'.isMarked e' = _ from congrArg Facet.marked (h.facet_of_not_found hfound e')]
    simp only [hfound, false_and, and_false, or_false]
    rfl

/-- **Switching tracing on and flagging who is found is starting a query.** -/
theorem started {asked : Bool} (h : OnlyFlags e found (s.traceIf asked) s') :
    Started asked (fun e' => found ∧ e.slot = e'.slot) s s' where
  tracing := h.isTracing_eq.trans (s.isTracing_traceIf asked)
  flagged e' := by
    have hmarked : (s.traceIf asked).isMarked e' = s.isMarked e' :=
      congr_traceIf (f := (·.isMarked e')) (fun s => by cases s <;> rfl) asked s
    rw [h.isMarked_iff, hmarked, h.isTracing_eq]
  entities := by
    refine (h.congr_unflagged (fun s => by cases s <;> rfl) fun s => s.entities_mapFlags _).trans ?_
    exact congr_traceIf (fun s => s.entities_mapFlags _) asked s
  holding? e' := by
    refine (h.congr_unflagged (f := (·.holding? e')) (fun s => by cases s <;> rfl)
      fun s => s.holding?_mapFlags _ e').trans ?_
    exact congr_traceIf (f := (·.holding? e')) (fun s => s.holding?_mapFlags _ e') asked s
  blank := by
    refine (h.congr_unflagged (fun s => by cases s <;> rfl) fun s => by cases s <;> rfl).trans ?_
    exact congr_traceIf (fun s => by cases s <;> rfl) asked s

end OnlyFlags

end Storage

/-- **A world where tracing was switched on and an entity was flagged** is one where a query was
started. -/
theorem World.TracedBy.started {r : AccessReport} {w traced w' : World} (h : w.TracedBy r traced)
    {e : Entity} {found : ComponentId → Prop} (hflags : traced.OnlyFlags e found w') :
    w.Started r (fun id e' => found id ∧ e.slot = e'.slot) w' where
  entities := hflags.entities.trans h.entities
  slots := hflags.slots.trans h.slots
  storage id := by
    have hstorage := hflags.storage id
    rw [h.storage] at hstorage
    generalize w.storage? id = slot at hstorage
    generalize w'.storage? id = slot' at hstorage
    cases slot with
    | none =>
        cases hstorage with
        | none => exact .none
    | some s =>
        cases hstorage with
        | some honly => exact .some honly.started

theorem World.Started.congr {r : AccessReport} {flags flags' : ComponentId → Entity → Prop}
    {w w' : World} (h : w.Started r flags w') (hiff : ∀ id e, flags' id e ↔ flags id e) :
    w.Started r flags' w' := by
  have hsame : flags' = flags := funext fun id => funext fun e => propext (hiff id e)
  rw [hsame]
  exact h

/-- Tracing does not change what a term finds. -/
theorem World.TracedBy.findsForWriting_iff {r : AccessReport} {w traced : World}
    (h : w.TracedBy r traced) (t : UntypedTerm) (e : Entity) (id : ComponentId) :
    t.FindsForWriting traced e id ↔ t.FindsForWriting w e id := by
  have hfinds : t.finds traced e = t.finds w e := by
    rw [UntypedTerm.finds, h.storage, UntypedTerm.finds]
    cases w.storage? t.component with
    | none => rfl
    | some s =>
        exact Storage.congr_traceIf (f := (·.contains e)) (fun s => s.contains_mapFlags _ e) _ s
  exact ⟨fun hw => ⟨hw.component, hw.mutable, hw.requirement, hfinds.symm.trans hw.finds⟩,
    fun hw => ⟨hw.component, hw.mutable, hw.requirement, hfinds.trans hw.finds⟩⟩

/-! ### Starting queries -/

namespace Store

theorem started_of_prepare {s s' : Store} {ts : List (Term ComponentType)} {q : Query}
    (h : s.prepare ts = (.ok q, s'))
    (hopens : ∀ c ∈ Term.allComponents q.terms, ∀ storage, s.world.storage? c.id = some storage →
      storage.opens c.type = true) :
    s.world.Started q.accessReport (fun _ _ => False) s'.world := by
  have hnothing : s'.world.OnlyFlags .null (fun _ => False) s'.world :=
    .of_not_found (fun _ => id) rfl
  refine ((tracedBy_prepare h hopens).started hnothing).congr fun id e => ?_
  rw [false_and]

theorem world_of_prepare_error {s s' : Store} {ts : List (Term ComponentType)} {err : StoreError}
    (h : s.prepare ts = (.error err, s')) : s'.world = s.world := by
  rw [prepare] at h
  simp only at h
  split at h
  · cases h
    rfl
  · cases h

theorem started_of_startQuery {s : Store} {q : UntypedQuery} {c : UntypedCursor}
    {st : FetchState} (h : s.startQuery q = .ok (c, st)) :
    s.world.Started q.accessReport
      (fun id e => (c.isOpen = true ∧ ∃ t ∈ q.terms, t.FindsForWriting s.world c.current id) ∧
        c.current.slot = e.slot) st.world := by
  have htraced := q.tracedBy_trace s.world
  have hseek := (q.start (q.trace s.world)).onlyFlags_seek nofun { world := q.trace s.world }
  rw [seek_of_startQuery h] at hseek
  refine (htraced.started hseek).congr fun id e => ?_
  simp only [htraced.findsForWriting_iff]
  rfl

theorem useUntyped_of_error {s : Store} {q : UntypedQuery} {err : StoreError}
    (h : s.startQuery q = .error err) (uses : List UntypedUse) : s.useUntyped q uses = s := by
  rw [useUntyped]
  rw [h]

/-- **Starting a query traces what its report says.**  Preparing a query over component types whose
storages typed access opens, and starting an untyped query, switch tracing on in exactly the
storages that are there of the components that the access report needs traced, those of the
`changed` terms at any depth.  All other switches, what is stored and the flags stay as they are,
except that an untyped query that starts on a match flags it, in the storages that trace changes,
where a term finds the component to write.  A query that is refused leaves the world as it is. -/
theorem starting_traces_what_is_reported (s : Store) :
    (∀ ts q s', s.prepare ts = (.ok q, s') →
      (∀ c ∈ Term.allComponents q.terms, ∀ storage, s.world.storage? c.id = some storage →
        storage.opens c.type = true) →
      s.world.Started q.accessReport (fun _ _ => False) s'.world ∧
      ∀ id, q.accessReport.traced.contains id = true ↔
        ∃ c ∈ Term.allTraced q.terms, c.id = id) ∧
    (∀ ts err s', s.prepare ts = (.error err, s') → s'.world = s.world) ∧
    (∀ q c st, s.startQuery q = .ok (c, st) →
      s.world.Started q.accessReport
        (fun id e => (c.isOpen = true ∧ ∃ t ∈ q.terms, t.FindsForWriting s.world c.current id) ∧
          c.current.slot = e.slot) st.world ∧
      ∀ id, q.accessReport.traced.contains id = true ↔
        ∃ t ∈ q.terms, t.requirement = .changed ∧ t.component = id) ∧
    ∀ q err, s.startQuery q = .error err → ∀ uses, s.useUntyped q uses = s := by
  refine ⟨?_, ?_, ?_, ?_⟩
  · intro ts q s' hprepare hopens
    exact ⟨started_of_prepare hprepare hopens, q.contains_traced_accessReport⟩
  · intro ts err s' hprepare
    exact world_of_prepare_error hprepare
  · intro q c st hstart
    exact ⟨started_of_startQuery hstart, q.contains_traced_accessReport⟩
  · intro q err hstart uses
    exact useUntyped_of_error hstart uses

/-- Asking in the sample store for hits without a changed level traces the levels, although the
term is excluded.  An untyped query that then starts on the first level to write flags it, which it
would not without the tracing.  Two terms for levels to write are refused, and so is no term. -/
theorem sample_start_traces_levels :
    ∃ q s' q' c st err s'' err',
      sample.prepare [.single (.component Catalogue.hit false),
          .without (.maybe (.single (.changed (.component Catalogue.level false))))] =
        (.ok q, s') ∧
      sample.world.Started q.accessReport (fun _ _ => False) s'.world ∧
      q.accessReport.traced.contains ⟨0⟩ = true ∧
      (s'.world.storage? ⟨0⟩).any (·.isTracing) = true ∧
      q' = UntypedQuery.require {} ⟨0⟩ true ∧ s'.startQuery q' = .ok (c, st) ∧
      s'.world.Started q'.accessReport
        (fun id e => (c.isOpen = true ∧ ∃ t ∈ q'.terms,
          t.FindsForWriting s'.world c.current id) ∧ c.current.slot = e.slot) st.world ∧
      c.current = ⟨1, 0⟩ ∧ (st.world.storage? ⟨0⟩).any (·.isMarked ⟨1, 0⟩) = true ∧
      sample.prepare [.single (.component Catalogue.level true),
          .single (.component Catalogue.level true)] = (.error err, s'') ∧
      s''.world = sample.world ∧
      sample.startQuery {} = .error err' ∧ sample.useUntyped {} [.next] = sample := by
  let ts : List (Term ComponentType) := [.single (.component Catalogue.hit false),
    .without (.maybe (.single (.changed (.component Catalogue.level false))))]
  let level : Column := ⟨Catalogue.level, ⟨0⟩⟩
  let hit : Column := ⟨Catalogue.hit, ⟨1⟩⟩
  let q : Query :=
    { terms := [.single (.component hit false),
        .without (.maybe (.single (.changed (.component level false))))]
      served := true, anchored := true }
  let levels : UntypedQuery := UntypedQuery.require {} ⟨0⟩ true
  have hprepared : sample.prepare ts = (.ok q, (sample.prepare ts).2) := rfl
  have hchecked : levels.check (sample.prepare ts).2.registry = .ok () := rfl
  have hbegun := startQuery_of_check hchecked
  obtain ⟨s', hs'⟩ : ∃ s', s' = (sample.prepare ts).2 := ⟨_, rfl⟩
  obtain ⟨x, hx⟩ : ∃ x, x = (levels.start (levels.trace (sample.prepare ts).2.world)).seek
      { world := levels.trace (sample.prepare ts).2.world } := ⟨_, rfl⟩
  have hstates : (s'.world.storage? ⟨0⟩).any (·.isTracing) = true ∧ x.1.current = ⟨1, 0⟩ ∧
      (x.2.world.storage? ⟨0⟩).any (·.isMarked ⟨1, 0⟩) = true := by
    rw [hs', hx]
    decide +kernel
  rw [← hs'] at hprepared
  rw [← hx, ← hs'] at hbegun
  obtain ⟨htracing, hcurrent, hmarked⟩ := hstates
  obtain ⟨err, s'', hrefused⟩ : ∃ err s'',
      sample.prepare [.single (.component Catalogue.level true),
        .single (.component Catalogue.level true)] = (.error err, s'') := ⟨_, _, rfl⟩
  obtain ⟨err', hempty⟩ : ∃ err, sample.startQuery {} = .error err := ⟨_, rfl⟩
  have hopens : ∀ c ∈ Term.allComponents q.terms, ∀ storage,
      sample.world.storage? c.id = some storage → storage.opens c.type = true := by
    intro c hc storage hstorage
    have hboth : ∀ c ∈ [hit, level],
        (sample.world.storage? c.id).all (·.opens c.type) = true := by decide +kernel
    have hopen := hboth c hc
    rw [hstorage] at hopen
    exact hopen
  obtain ⟨hprepare, herror, _, hvoid⟩ := starting_traces_what_is_reported sample
  obtain ⟨hstarted, htraced⟩ := hprepare ts q s' hprepared hopens
  obtain ⟨_, _, hstart, _⟩ := starting_traces_what_is_reported s'
  exact ⟨q, s', levels, x.1, x.2, err, s'', err', hprepared, hstarted,
    (htraced ⟨0⟩).2 ⟨level, List.mem_singleton_self level, rfl⟩, htracing, rfl, hbegun,
    (hstart levels x.1 x.2 hbegun).1, hcurrent, hmarked, hrefused, herror _ err s'' hrefused,
    hempty, hvoid {} err' hempty [.next]⟩

end Store

end EntityStore
