import EntityStore.Proofs.World

/-!
# Facets: what matching and fetching see of an entity

Of an entity a query only sees which storages are there, whether they hold it, how many
instances they have of it, and whether it is flagged.  Fetching an entity changes at most flags,
and only flags of its own slot; writing to instances changes nothing of this at all.

* `Facet`, `World.facets` — what is seen of an entity;
* `facets_fetch_self`, `facets_perform_of_slot_ne` — what fetches do to the facets of an entity,
  and of any other;
* `facets_updateRow` — writing leaves all facets as they are;
* `holds_perform`, `isMarked_perform` — fetches change no presence and only flags that they set;
* `typed?_facets`, `holds_eq`, `isMarked_eq` — what typed access sees is in the facets.
-/

namespace EntityStore

/-! ### Reading behind a write -/

namespace SparseSet

variable {α : Type}

theorem get?_modify (s : SparseSet α) (e : Entity) (f : α → α) (e' : Entity) :
    (s.modify e f).get? e' = s.get? e' ∨ (s.modify e f).get? e' = (s.get? e').map f := by
  rw [get?, get?]
  rw [row?_modify]
  cases hrow : s.row? e with
  | none =>
      rw [modify_of_row?_eq_none hrow]
      exact .inl rfl
  | some row =>
      cases hrow' : s.row? e' with
      | none => exact .inl rfl
      | some row' =>
          simp only [modify, hrow, Option.bind_some, Array.getElem?_modify]
          split
          · exact .inr rfl
          · exact .inl rfl

end SparseSet

/-! ### Facets of a storage -/

/-- What a storage tells of one entity, apart from the instances themselves. -/
structure Facet where
  make : Storage
  held : Bool
  count : Nat
  marked : Bool
  tracing : Bool

def Facet.flag (flagged : Bool) (x : Facet) : Facet :=
  { x with marked := x.marked || flagged }

theorem Facet.flag_false (x : Facet) : x.flag false = x := by
  simp [flag]

theorem Facet.flag_flag (a b : Bool) (x : Facet) : (x.flag a).flag b = x.flag (a || b) := by
  simp [flag, Bool.or_assoc]

def Facet.fetch (mutable : Bool) (x : Facet) : Facet :=
  { x with marked := x.marked || (mutable && (x.held && x.tracing)) }

theorem Table.isMarked_touch {α : Type} (t : Table α) (e e' : Entity) :
    (t.touch e).flags.isMarked e' =
      (t.flags.isMarked e' || (t.contains e && t.flags.enabled && decide (e.slot = e'.slot))) := by
  rw [touch, Table.contains]
  rw [SparseSet.contains_eq_isSome_row?]
  split
  · next hheld =>
    rw [hheld, Bool.true_and]
    exact t.flags.isMarked_mark e e'
  · next hheld =>
    simp only [Bool.eq_false_iff.2 hheld, Bool.false_and, Bool.or_false]

theorem Table.enabled_touch {α : Type} (t : Table α) (e : Entity) :
    (t.touch e).flags.enabled = t.flags.enabled := by
  rw [touch]
  split
  · exact ChangeFlags.enabled_mark t.flags e
  · rfl

namespace Storage

/-- What the storage tells of an entity. -/
def facet (s : Storage) (e : Entity) : Facet :=
  { make := s.blank
    held := s.contains e
    count := (s.records e).length
    marked := s.isMarked e
    tracing := s.isTracing }

theorem facet_count (s : Storage) (mutable : Bool) (e : Entity) :
    (s.count mutable).facet e = s.facet e := by
  cases s <;> rfl

/-- What is done to the flags is seen in the flag and in tracing only. -/
theorem facet_mapFlags (s : Storage) (f : ChangeFlags → ChangeFlags) (e : Entity) :
    (s.mapFlags f).facet e =
      { s.facet e with marked := (f s.flags).isMarked e, tracing := (f s.flags).enabled } := by
  cases s <;> rfl

/-- A fetch for writing flags the slot of the entity if the storage holds it and traces. -/
theorem facet_touch (s : Storage) (e e' : Entity) :
    (s.mapTable (·.touch e)).facet e' =
      { s.facet e' with
        marked :=
          s.isMarked e' || (s.contains e && s.isTracing && decide (e.slot = e'.slot)) } := by
  have hmarked : (s.mapTable (·.touch e)).isMarked e' =
      (s.isMarked e' || (s.contains e && s.isTracing && decide (e.slot = e'.slot))) := by
    cases s <;> exact Table.isMarked_touch _ e e'
  have htracing : (s.mapTable (·.touch e)).isTracing = s.isTracing := by
    cases s <;> exact Table.enabled_touch _ e
  have hheld : (s.mapTable (·.touch e)).contains e' = s.contains e' := by
    cases s <;> simp [mapTable, contains, view, Table.contains]
  have hrecords : (s.mapTable (·.touch e)).records e' = s.records e' := by
    cases s <;> simp [mapTable, records, Table.get?, BatchTable.instances]
  rw [facet, facet]
  rw [hmarked, htracing, hheld, hrecords, (s.within_touch e).blank]

theorem facet_fetch (s : Storage) (mutable : Bool) (e e' : Entity) :
    (s.fetch mutable e).facet e' =
      { s.facet e' with
        marked := s.isMarked e' ||
          (mutable && (s.contains e && s.isTracing && decide (e.slot = e'.slot))) } := by
  have hcount := s.facet_count mutable
  rw [fetch_eq]
  cases mutable with
  | true =>
      rw [if_pos rfl, facet_touch, Bool.true_and]
      have he := hcount e
      have he' := hcount e'
      rw [facet, facet] at he he'
      simp only [Facet.mk.injEq] at he he'
      rw [facet, facet]
      simp only [he, he']
  | false =>
      rw [if_neg Bool.false_ne_true, hcount]
      simp only [facet, Bool.false_and, Bool.or_false]

theorem facet_fetch_self (s : Storage) (mutable : Bool) (e : Entity) :
    (s.fetch mutable e).facet e = (s.facet e).fetch mutable := by
  rw [facet_fetch]
  simp only [Facet.fetch, facet, decide_true, Bool.and_true]

theorem facet_fetch_of_slot_ne (s : Storage) (mutable : Bool) {e e' : Entity}
    (h : e.slot ≠ e'.slot) : (s.fetch mutable e).facet e' = s.facet e' := by
  rw [facet_fetch, decide_eq_false h]
  simp only [facet, Bool.and_false, Bool.or_false]

/-! ### Writing changes no facet -/

theorem length_toList_get?_write {α : Type} (t : Table α) (e : Entity) (f : α → α) (e' : Entity) :
    ((t.write e f).get? e').toList.length = (t.get? e').toList.length := by
  have hget : (t.write e f).get? e' = t.get? e' ∨ (t.write e f).get? e' = (t.get? e').map f :=
    SparseSet.get?_modify t.set e f e'
  rcases hget with h | h
  · rw [h]
  · rw [h]
    cases t.get? e' <;> rfl

theorem length_instances_write {α : Type} (rows : BatchTable α) (e : Entity)
    {f : List α → List α} (hf : ∀ l, (f l).length = l.length) (e' : Entity) :
    (BatchTable.instances { rows with table := rows.table.write e f } e').length =
      (rows.instances e').length := by
  have hget : (rows.table.write e f).get? e' = rows.table.get? e' ∨
      (rows.table.write e f).get? e' = (rows.table.get? e').map f :=
    SparseSet.get?_modify rows.table.set e f e'
  rw [BatchTable.instances, BatchTable.instances]
  rcases hget with h | h
  · rw [h]
  · rw [h]
    cases rows.table.get? e' with
    | none => rfl
    | some l => exact hf l

theorem contains_write {α : Type} (t : Table α) (e : Entity) (f : α → α) (e' : Entity) :
    (t.write e f).contains e' = t.contains e' := by
  simp only [Table.contains, Table.write, SparseSet.contains_modify]

theorem facet_writeAll (s : Storage) (e : Entity) (f : Record → Record) (e' : Entity) :
    (s.writeAll e f).facet e' = s.facet e' := by
  have hheld : (s.writeAll e f).contains e' = s.contains e' := by
    cases s with
    | script schema table => rfl
    | _ => exact contains_write _ e _ e'
  have hrecords : ((s.writeAll e f).records e').length = (s.records e').length := by
    cases s with
    | script schema table => rfl
    | batch t rows => exact length_instances_write rows e (fun l => List.length_map f) e'
    | _ => exact length_toList_get?_write _ e f e'
  have hflags : (s.writeAll e f).flags = s.flags := by
    cases s <;> rfl
  rw [facet, facet, isMarked, isMarked, isTracing, isTracing]
  rw [hheld, hrecords, hflags, (s.within_writeAll e f).blank]

theorem facet_writeFirst (s : Storage) (e : Entity) (f : Record → Record) (e' : Entity) :
    (s.writeFirst e f).facet e' = s.facet e' := by
  cases s with
  | batch t rows =>
      have hheld := contains_write rows.table e (List.modifyHead f) e'
      have hrecords := length_instances_write rows e (fun l => List.length_modifyHead (f := f)) e'
      rw [facet]
      rw [(within_writeFirst (.batch t rows) e f).blank]
      rw [Facet.mk.injEq]
      exact ⟨rfl, hheld, hrecords, rfl, rfl⟩
  | dense t table => exact facet_writeAll (.dense t table) e f e'
  | counting t table counts => exact facet_writeAll (.counting t table counts) e f e'
  | hidden t table => exact facet_writeAll (.hidden t table) e f e'
  | script schema table => rfl

theorem facet_writeScript (s : Storage) (e : Entity) (f : ScriptRecord → ScriptRecord)
    (e' : Entity) : (s.writeScript e f).facet e' = s.facet e' := by
  cases s with
  | script schema table =>
      have hheld := contains_write table e f e'
      rw [facet, (within_writeScript (.script schema table) e f).blank, Facet.mk.injEq]
      exact ⟨rfl, hheld, rfl, rfl, rfl⟩
  | _ => rfl

theorem facet_writeField (s : Storage) (e : Entity) (name : String) (v : Value) (e' : Entity) :
    (s.writeField e name v).2.facet e' = s.facet e' := by
  rw [writeField]
  split
  · exact s.facet_writeFirst e _ e'
  · exact s.facet_writeScript e _ e'
  · rfl

end Storage

/-! ### Facets of a world -/

/-- What the storages tell of one entity. -/
abbrev Facets := ComponentId → Option Facet

namespace Facets

def fetch (x : Facets) (id : ComponentId) (mutable : Bool) : Facets :=
  fun id' => if id = id' then (x id').map (Facet.fetch mutable) else x id'

/-- The facet that typed access finds. -/
def typed? (x : Facets) (c : Column) : Option Facet :=
  (x c.id).filter (·.make.opens c.type)

end Facets

namespace World

/-- What the storages of the world tell of an entity. -/
def facets (w : World) (e : Entity) : Facets :=
  fun id => (w.storage? id).map (·.facet e)

theorem facets_modifyStorage {w : World} {id : ComponentId} {f : Storage → Storage} {e : Entity}
    (h : ∀ s, (f s).facet e = s.facet e) : (w.modifyStorage id f).facets e = w.facets e := by
  funext id'
  rw [facets]
  rw [storage?_modifyStorage]
  split
  · rw [Option.map_map]
    congr 1
    funext s
    exact h s
  · rfl

theorem facets_fetch_self (w : World) (id : ComponentId) (mutable : Bool) (e : Entity) :
    (w.fetch id mutable e).facets e = (w.facets e).fetch id mutable := by
  funext id'
  unfold facets World.fetch Facets.fetch
  rw [storage?_modifyStorage]
  split
  · rw [Option.map_map, Option.map_map]
    congr 1
    funext s
    exact s.facet_fetch_self mutable e
  · rfl

theorem facets_fetch_of_slot_ne (w : World) (id : ComponentId) (mutable : Bool) {e e' : Entity}
    (h : e.slot ≠ e'.slot) : (w.fetch id mutable e).facets e' = w.facets e' :=
  facets_modifyStorage fun s => s.facet_fetch_of_slot_ne mutable h

/-- **Fetching touches nobody else.**  Whatever is fetched for an entity, the facets of an entity
in another slot stay as they are. -/
theorem facets_perform_of_slot_ne (st : FetchState) (fs : List Fetch) {e e' : Entity}
    (h : e.slot ≠ e'.slot) : (st.perform e fs).world.facets e' = st.world.facets e' := by
  induction fs generalizing st with
  | nil => rw [FetchState.perform_nil]
  | cons f rest ih =>
      rw [FetchState.perform_cons, ih]
      exact facets_fetch_of_slot_ne st.world f.component f.mutable h

theorem facets_fetchRow_of_slot_ne (ts : List (Term Column)) (st : FetchState) {e e' : Entity}
    (h : e.slot ≠ e'.slot) : (fetchRow e ts st).2.world.facets e' = st.world.facets e' := by
  obtain ⟨fs, hst, _⟩ := fetches_fetchRow e ts st
  rw [hst]
  exact facets_perform_of_slot_ne st fs h

theorem facets_update (f : Record → Record) (slot : Slot) (w : World) (e : Entity) :
    (slot.update f w).facets e = w.facets e := by
  fun_induction Slot.update f slot w with
  | case1 c e' w => exact facets_modifyStorage fun s => s.facet_writeFirst e' f e
  | case2 slot w ih => exact ih
  | case3 c e' w => exact facets_modifyStorage fun s => s.facet_writeAll e' f e
  | case4 id _ e' w => exact facets_modifyStorage fun s => s.facet_writeFirst e' f e
  | case5 id _ e' _ w => exact facets_modifyStorage fun s => s.facet_writeAll e' f e
  | case6 _ w => rfl

/-- Writing through a row changes instances only. -/
theorem facets_updateRow (f : Record → Record) (row : Row) (w : World) (e : Entity) :
    (updateRow f row w).facets e = w.facets e := by
  induction row generalizing w with
  | nil => rfl
  | cons slot rest ih =>
      show (updateRow f rest (slot.update f w)).facets e = w.facets e
      rw [ih, facets_update]

/-! ### What typed access sees -/

theorem typed?_facets (w : World) (c : Column) (e : Entity) :
    (w.typed? c).map (·.facet e) = (w.facets e).typed? c := by
  have hcolumn : w.facets e c.id = (w.storage? c.id).map (·.facet e) := rfl
  rw [typed?, Facets.typed?]
  rw [hcolumn]
  cases w.storage? c.id with
  | none => rfl
  | some s =>
      have hopens : (s.facet e).make.opens c.type = s.opens c.type := s.opens_blank c.type
      rw [Option.map_some, Option.filter_some, Option.filter_some, hopens]
      split <;> rfl

theorem isSome_typed?_eq (w : World) (c : Column) (e : Entity) :
    (w.typed? c).isSome = ((w.facets e).typed? c).isSome := by
  rw [← typed?_facets, Option.isSome_map]

theorem holds_eq (w : World) (c : Column) (e : Entity) :
    w.holds c e = (((w.facets e).typed? c).map (·.held)).getD false := by
  rw [← typed?_facets, Option.map_map]
  rfl

theorem isMarked_eq (w : World) (c : Column) (e : Entity) :
    w.isMarked c e = (((w.facets e).typed? c).map (·.marked)).getD false := by
  rw [← typed?_facets, Option.map_map]
  rfl

theorem length_values_eq (w : World) (c : Column) (e : Entity) :
    (w.values c e).length = (((w.facets e).typed? c).map (·.count)).getD 0 := by
  rw [← typed?_facets]
  rw [values]
  cases w.typed? c <;> rfl

/-! ### What fetches can change -/

/-- A fetch sets at most one flag of an entity, that of its component, and only for writing. -/
theorem facets_fetch (w : World) (id : ComponentId) (mutable : Bool) (e e' : Entity)
    (id' : ComponentId) :
    ∃ flagged, (flagged = true → id = id' ∧ mutable = true) ∧
      (w.fetch id mutable e).facets e' id' = (w.facets e' id').map (Facet.flag flagged) := by
  unfold facets World.fetch
  rw [storage?_modifyStorage]
  split
  · next hid =>
    cases w.storage? id' with
    | none => exact ⟨false, by simp, rfl⟩
    | some s =>
        refine ⟨mutable && (s.contains e && s.isTracing && decide (e.slot = e'.slot)), ?_, ?_⟩
        · intro hflagged
          exact ⟨hid, (Bool.and_eq_true_iff.1 hflagged).1⟩
        · exact congrArg some (s.facet_fetch mutable e e')
  · cases w.storage? id' with
    | none => exact ⟨false, by simp, rfl⟩
    | some s => exact ⟨false, by simp, congrArg some (s.facet e').flag_false.symm⟩

/-- **Fetches only set flags.**  Of a component they set the flag of an entity only if one of
them is for writing it. -/
theorem facets_perform (st : FetchState) (e : Entity) (fs : List Fetch) (e' : Entity)
    (id : ComponentId) :
    ∃ flagged, (flagged = true → ∃ f ∈ fs, f.component = id ∧ f.mutable = true) ∧
      (st.perform e fs).world.facets e' id =
        (st.world.facets e' id).map (Facet.flag flagged) := by
  induction fs generalizing st with
  | nil =>
      rw [FetchState.perform_nil]
      refine ⟨false, by simp, ?_⟩
      rw [show Facet.flag false = fun x => x from funext Facet.flag_false, Option.map_id']
  | cons f rest ih =>
      obtain ⟨flagged, hfirst, hfetch⟩ :=
        facets_fetch st.world f.component f.mutable e e' id
      obtain ⟨flagged', hrest, hlater⟩ := ih (st.perform e [f])
      refine ⟨flagged || flagged', ?_, ?_⟩
      · intro heither
        rcases Bool.or_eq_true_iff.1 heither with h | h
        · exact ⟨f, List.mem_cons_self, hfirst h⟩
        · obtain ⟨g, hg, hwrites⟩ := hrest h
          exact ⟨g, List.mem_cons_of_mem f hg, hwrites⟩
      · have hstep : (st.perform e [f]).world.facets e' id =
            (st.world.facets e' id).map (Facet.flag flagged) := hfetch
        rw [FetchState.perform_cons, hlater, hstep, Option.map_map]
        congr 1
        funext x
        exact x.flag_flag flagged flagged'

/-- Flags do not decide what typed access finds. -/
theorem typed?_perform (st : FetchState) (e : Entity) (fs : List Fetch) (e' : Entity)
    (c : Column) :
    ∃ flagged, (flagged = true → ∃ f ∈ fs, f.component = c.id ∧ f.mutable = true) ∧
      ((st.perform e fs).world.facets e').typed? c =
        ((st.world.facets e').typed? c).map (Facet.flag flagged) := by
  obtain ⟨flagged, hwrites, hfacet⟩ := facets_perform st e fs e' c.id
  refine ⟨flagged, hwrites, ?_⟩
  rw [Facets.typed?, Facets.typed?]
  rw [hfacet]
  cases st.world.facets e' c.id with
  | none => rfl
  | some x =>
      rw [Option.map_some, Option.filter_some, Option.filter_some]
      show (if x.make.opens c.type then _ else _) = _
      split <;> rfl

theorem holds_perform (st : FetchState) (e : Entity) (fs : List Fetch) (c : Column)
    (e' : Entity) : (st.perform e fs).world.holds c e' = st.world.holds c e' := by
  obtain ⟨flagged, _, htyped⟩ := typed?_perform st e fs e' c
  rw [holds_eq, holds_eq, htyped, Option.map_map]
  rfl

theorem isMarked_perform {st : FetchState} {fs : List Fetch} {c : Column}
    (h : ∀ f ∈ fs, f.component = c.id → f.mutable = false) (e e' : Entity) :
    (st.perform e fs).world.isMarked c e' = st.world.isMarked c e' := by
  obtain ⟨flagged, hwrites, htyped⟩ := typed?_perform st e fs e' c
  have hunflagged : flagged = false := by
    by_contra hflagged
    obtain ⟨f, hf, hcomponent, hmutable⟩ := hwrites (by simpa using hflagged)
    rw [h f hf hcomponent] at hmutable
    cases hmutable
  rw [hunflagged, show Facet.flag false = fun x => x from funext Facet.flag_false,
    Option.map_id'] at htyped
  rw [isMarked_eq, isMarked_eq, htyped]

end World

end EntityStore
