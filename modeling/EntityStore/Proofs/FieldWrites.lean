import EntityStore.Proofs.Accessors
import EntityStore.Proofs.Fields

/-!
# Writes through accessors

An accessor writes a field of the first instance that its target holds.  The write goes through if
the accessor is mutable, the target is there, and the instance has a reflected field of that name
that takes the value.  Then the field reads as the value, a single float as the nearest one, and
nothing else is changed anywhere.  A write that does not go through changes nothing at all.

* `Holding.withFirst`, `Storage.exchange` — one instance takes the place of another;
* `World.Exchanged`, `World.Valid.exchanged` — all that this changes in a world;
* `Accessor.write_cases` — a write exchanges the instance pointed at, or does nothing;
* `Accessor.PointsAt.exchanged` — what is there and what is read afterwards;
* `Store.accessor_writes_are_exact` — the writes of every cursor, at any time.
-/

namespace EntityStore

/-! ### One instance takes the place of another -/

namespace Holding

/-- What is held with the given instance in the first place. -/
def withFirst (inst : Instance) (h : Holding) : Holding :=
  match inst with
  | .native record => h.writeFirst fun _ => record
  | .script inst => h.writeScript fun _ => inst

/-- The instance is then the first one, if it is of the sort of the one before. -/
theorem first?_withFirst {h : Holding} {i : Nat} {v : Value} {inst inst' : Instance}
    (hfirst : h.first? = some inst) (hset : inst.SetAt i v inst') :
    (h.withFirst inst').first? = some inst' := by
  cases hset with
  | native decl type value =>
      cases h with
      | one record => rfl
      | many records =>
          cases records with
          | nil => cases hfirst
          | cons first rest => rfl
      | script inst => cases hfirst
  | script =>
      cases h with
      | one record => cases hfirst
      | many records =>
          cases records with
          | nil => cases hfirst
          | cons first rest => cases hfirst
      | script inst => rfl

end Holding

namespace Storage

/-- Puts an instance in the place of the first one of an entity. -/
def exchange (s : Storage) (e : Entity) : Instance → Storage
  | .native record => s.writeFirst e fun _ => record
  | .script inst => s.writeScript e fun _ => inst

theorem writeField_of_eq_some {s : Storage} {e : Entity} {name : String} {v : Value}
    {inst : Instance} (h : (s.first? e).bind (·.write? name v) = some inst) :
    s.writeField e name v = (true, s.exchange e inst) := by
  rw [writeField]
  rw [h]
  cases inst <;> rfl

theorem writeField_of_eq_none {s : Storage} {e : Entity} {name : String} {v : Value}
    (h : (s.first? e).bind (·.write? name v) = none) : s.writeField e name v = (false, s) := by
  rw [writeField]
  rw [h]

theorem flags_exchange (s : Storage) (e : Entity) (inst : Instance) :
    (s.exchange e inst).flags = s.flags := by
  cases inst <;> cases s <;> rfl

theorem entities_exchange (s : Storage) (e : Entity) (inst : Instance) :
    (s.exchange e inst).entities = s.entities := by
  cases inst <;> cases s <;> first | rfl | exact Table.entities_write _ e _

/-- Only the named entity has another instance. -/
theorem Valid.holding?_exchange {s : Storage} (h : s.Valid) (e : Entity) (inst : Instance)
    (e' : Entity) :
    (s.exchange e inst).holding? e' =
      if e = e' then (s.holding? e').map (Holding.withFirst inst) else s.holding? e' := by
  cases inst with
  | native record => exact h.holding?_writeFirst e (fun _ => record) e'
  | script inst => exact h.holding?_writeScript e (fun _ => inst) e'

end Storage

namespace World

/-- In the second world an entity has the given instance in the first place of a component, and
everything else is as in the first world. -/
structure Exchanged (w : World) (id : ComponentId) (e : Entity) (inst : Instance) (w' : World) :
    Prop where
  entities : w'.entities = w.entities
  storages : ∀ id', id' ≠ id → w'.storage? id' = w.storage? id'
  listed : (w'.storage? id).map (·.entities) = (w.storage? id).map (·.entities)
  flags : (w'.storage? id).map (·.flags) = (w.storage? id).map (·.flags)
  others : ∀ e', e' ≠ e → w'.holding? id e' = w.holding? id e'
  held : w'.holding? id e = (w.holding? id e).map (Holding.withFirst inst)

theorem Valid.exchanged {w : World} (h : w.Valid) (id : ComponentId) (e : Entity)
    (inst : Instance) :
    w.Exchanged id e inst (w.modifyStorage id (·.exchange e inst)) where
  entities := rfl
  storages id' hne := by rw [storage?_modifyStorage, if_neg hne.symm]
  listed := by
    rw [storage?_modifyStorage, if_pos rfl, Option.map_map]
    simp only [Function.comp_def, Storage.entities_exchange]
  flags := by
    rw [storage?_modifyStorage, if_pos rfl, Option.map_map]
    simp only [Function.comp_def, Storage.flags_exchange]
  others e' hne := by
    rw [holding?_modifyStorage, if_pos rfl, holding?]
    cases hs : w.storage? id with
    | none => rfl
    | some s => exact ((h.storage id s hs).holding?_exchange e inst e').trans (if_neg hne.symm)
  held := by
    rw [holding?_modifyStorage, if_pos rfl, holding?]
    cases hs : w.storage? id with
    | none => rfl
    | some s => exact ((h.storage id s hs).holding?_exchange e inst e).trans (if_pos rfl)

/-- A first instance that is found in a world of fitting script instances fits. -/
theorem Fitting.fits {w : World} (h : w.Fitting) {id : ComponentId} {e : Entity}
    {inst : Instance} (hinst : (w.holding? id e).bind Holding.first? = some inst) :
    inst.Fits := by
  obtain ⟨held, hheld, hfirst⟩ := Option.bind_eq_some_iff.1 hinst
  obtain ⟨s, hs, hholding⟩ := Option.bind_eq_some_iff.1 hheld
  cases s with
  | script schema table =>
      obtain ⟨record, hrecord, rfl⟩ := Option.map_eq_some_iff.1 hholding
      cases hfirst
      have hfits := h id _ hs record (SparseSet.mem_rows_of_get? hrecord)
      exact ⟨rfl, hfits.shape ▸ hfits.kinds⟩
  | batch t rows =>
      obtain ⟨records, _, rfl⟩ := Option.map_eq_some_iff.1 hholding
      obtain ⟨_, _, rfl⟩ := Option.map_eq_some_iff.1 hfirst
      trivial
  | _ =>
      obtain ⟨record, _, rfl⟩ := Option.map_eq_some_iff.1 hholding
      cases hfirst
      trivial

end World

/-! ### Writes of an accessor -/

namespace Accessor

variable {a : Accessor} {w : World} {field : String} {v : Value}

/-- A write without an instance that may be written and takes the value changes nothing. -/
theorem write_of_eq_none (h : (a.instanceMut? w).bind (·.write? field v) = none) :
    a.write w field v = (false, w) := by
  rw [write]
  rw [instanceMut?] at h
  split
  · next hmutable =>
    rw [if_pos hmutable, instance?] at h
    cases htarget : a.target with
    | none => rfl
    | some e =>
        cases hs : w.storage? a.component with
        | none => rfl
        | some s =>
            simp only [htarget, hs, Option.bind_some] at h
            simp only [Storage.writeField_of_eq_none h, World.modifyStorage_const_self hs]
  · rfl

/-- A write that the instance takes exchanges it. -/
theorem PointsAt.write_of_eq_some {e : Entity} {inst inst' : Instance} (h : a.PointsAt w e inst)
    (hmutable : a.mutable = true) (hwrite : inst.write? field v = some inst') :
    a.write w field v = (true, w.modifyStorage a.component (·.exchange e inst')) := by
  obtain ⟨htarget, hinst⟩ := h
  rw [← instance?_eq htarget, instance?, htarget] at hinst
  obtain ⟨s, hs, hfirst⟩ := Option.bind_eq_some_iff.1 hinst
  have hfield : s.writeField e field v = (true, s.exchange e inst') :=
    Storage.writeField_of_eq_some (by rw [hfirst]; exact hwrite)
  rw [write, if_pos hmutable]
  simp only [htarget, hs, hfield]
  rw [World.modifyStorage_const hs (·.exchange e inst')]

/-- **A write either exchanges an instance for what a write makes of it, or changes nothing.** -/
theorem write_cases (a : Accessor) (w : World) (field : String) (v : Value) :
    a.write w field v = (false, w) ∨
      a.mutable = true ∧ ∃ e inst inst', a.PointsAt w e inst ∧ inst.write? field v = some inst' ∧
        a.write w field v = (true, w.modifyStorage a.component (·.exchange e inst')) := by
  cases hwrite : (a.instanceMut? w).bind (·.write? field v) with
  | none => exact .inl (write_of_eq_none hwrite)
  | some inst' =>
      obtain ⟨inst, hinst, hnew⟩ := Option.bind_eq_some_iff.1 hwrite
      rw [instanceMut?, Option.ite_none_right_eq_some] at hinst
      obtain ⟨hmutable, hinst⟩ := hinst
      have hpoints : ∃ e, a.PointsAt w e inst := by
        cases htarget : a.target with
        | none =>
            rw [instance?, htarget] at hinst
            cases hinst
        | some e => exact ⟨e, htarget, (instance?_eq htarget w).symm.trans hinst⟩
      obtain ⟨e, hpoints⟩ := hpoints
      exact .inr ⟨hmutable, e, inst, inst', hpoints, hnew, hpoints.write_of_eq_some hmutable hnew⟩

/-- The effect of a write that went through: the instance has what the field keeps of the value at
the position of the field, the accessor points at it and reads that, and it reads every other field
as before. -/
theorem PointsAt.exchanged {e : Entity} {inst inst' : Instance} (h : a.PointsAt w e inst)
    (hw : w.Valid) (hfits : inst.Fits) (hwrite : inst.write? field v = some inst') :
    ∃ i w', w' = w.modifyStorage a.component (·.exchange e inst') ∧
      inst.indexOf? field = some i ∧ inst.SetAt i (inst.keepsAt i v) inst' ∧
      w.Exchanged a.component e inst' w' ∧ a.PointsAt w' e inst' ∧
      a.read? w' field = some (inst.keepsAt i v) ∧
      ∀ other, other ≠ field → a.read? w' other = a.read? w other := by
  obtain ⟨i, hi, hset⟩ := Instance.setAt_of_write? hwrite
  have hexchanged := hw.exchanged a.component e inst'
  have hpoints : a.PointsAt (w.modifyStorage a.component (·.exchange e inst')) e inst' := by
    obtain ⟨htarget, hinst⟩ := h
    obtain ⟨held, hheld, hfirst⟩ := Option.bind_eq_some_iff.1 hinst
    refine ⟨htarget, ?_⟩
    rw [hexchanged.held, hheld]
    exact Holding.first?_withFirst hfirst hset
  refine ⟨i, _, rfl, hi, hset, hexchanged, hpoints, ?_, ?_⟩
  · rw [hpoints.read?_eq]
    exact hset.get?_self hi (hfits.lt_length hi)
  · intro other hne
    rw [hpoints.read?_eq, h.read?_eq]
    exact hset.get?_of_ne hi hne

end Accessor

/-! ### The theorem -/

namespace Store

/-- What a cursor leaves is reachable. -/
theorem Reachable.useUntyped {s : Store} (h : s.Reachable) (q : UntypedQuery)
    (uses : List UntypedUse) : (s.useUntyped q uses).Reachable := by
  obtain ⟨ops, rfl⟩ := h
  refine ⟨ops ++ [.untyped q uses], ?_⟩
  rw [run, run, List.foldl_append]
  rfl

/-- **Writes through accessors are exact or void.**  Take a cursor that was started on a reachable
store, after any calls, and one of its accessors.  If it has a target, then it points at the first
instance that the target holds.  A write says that it went through exactly if the accessor is
mutable and points at an instance that has a reflected field of that name which takes the value: a
value of its kind, in range where the field is narrow.  Then the instance has what the field keeps
of the value at the position of the field and is the same at every other; it takes the place of the
one before, the accessor reads there what was kept, and everything else in the world stays: other
fields and instances, other entities and components, and all flags.  A write that does not go
through leaves the world as it is. -/
theorem accessor_writes_are_exact {s : Store} (hs : s.Reachable) {q : UntypedQuery}
    {c : UntypedCursor} {st : FetchState} (h : s.startQuery q = .ok (c, st)) :
    ∀ uses c' st', UntypedUse.run uses c st = (c', st') → ∀ i a, c'.accessor? i = some a →
      (∀ e, a.target = some e → ∃ inst, a.PointsAt st'.world e inst) ∧
      ∀ field v written w', a.write st'.world field v = (written, w') →
        (written = true ↔
          a.mutable = true ∧ ∃ e inst, a.PointsAt st'.world e inst ∧ inst.Takes field v) ∧
        (written = true → ∃ e inst inst' k, a.PointsAt st'.world e inst ∧
          inst.indexOf? field = some k ∧ inst.SetAt k (inst.keepsAt k v) inst' ∧
          st'.world.Exchanged a.component e inst' w' ∧ a.PointsAt w' e inst' ∧
          a.read? w' field = some (inst.keepsAt k v) ∧
          ∀ other, other ≠ field → a.read? w' other = a.read? st'.world other) ∧
        (written = false → w' = st'.world) := by
  intro uses c' st' hrun i a ha
  have hstart : (q.trace s.world).Valid := (within_traceTerms q s.world).valid hs.valid.world
  obtain ⟨hbegun, hloaded⟩ := hs.valid.loaded_of_startQuery h
  have hsteady := hbegun.run hstart uses
  have hpointing := hloaded.run hbegun hstart uses
  rw [hrun] at hsteady hpointing
  have hfitting : st'.world.Fitting := by
    have hafter := (hs.useUntyped q uses).fitting
    rw [useUntyped, h] at hafter
    simpa only [hrun] using hafter
  refine ⟨?_, ?_⟩
  · exact fun e => hpointing.exists_pointsAt hsteady.terms hsteady.valid ha
  · intro field v written w' hwrite
    have htaken : ∀ e inst, a.PointsAt st'.world e inst →
        ((inst.write? field v).isSome = true ↔ inst.Takes field v) :=
      fun e inst hpoints => (hfitting.fits hpoints.2).isSome_write?_iff field v
    -- a write does nothing at all or goes through, and `htaken` tells which
    rcases a.write_cases st'.world field v with
      hvoid | ⟨hmutable, e, inst, inst', hpoints, hnew, hthrough⟩
    · rw [hvoid] at hwrite
      cases hwrite
      have hneither : ∀ {p : Prop}, false = true → p := fun h => absurd h Bool.false_ne_true
      refine ⟨⟨hneither, ?_⟩, hneither, fun _ => rfl⟩
      rintro ⟨hmutable, e, inst, hpoints, htakes⟩
      obtain ⟨inst', hnew⟩ := Option.isSome_iff_exists.1 ((htaken e inst hpoints).2 htakes)
      rw [hpoints.write_of_eq_some hmutable hnew] at hvoid
      cases hvoid
    · rw [hthrough] at hwrite
      cases hwrite
      have htakes := (htaken e inst hpoints).1 (Option.isSome_of_eq_some hnew)
      refine ⟨⟨fun _ => ⟨hmutable, e, inst, hpoints, htakes⟩, fun _ => rfl⟩, fun _ => ?_,
        fun h => absurd h.symm Bool.false_ne_true⟩
      obtain ⟨k, _, rfl, heffect⟩ :=
        hpoints.exchanged hsteady.valid (hfitting.fits hpoints.2) hnew
      exact ⟨e, inst, inst', k, hpoints, heffect⟩

/-- A store for examples: one entity with narrow integers. -/
def narrowSample : Store :=
  run {} [.spawn [.default Catalogue.stats]]

/-- In the example a health that fits in 32 bits is written and read back; one that does not fit, a
negative shield and a flag are refused, and a name that no field has. -/
theorem narrow_writes_are_exact :
    narrowSample.Reachable ∧
      ∃ c st a, narrowSample.startQuery (UntypedQuery.require {} ⟨0⟩ true) = .ok (c, st) ∧
        c.accessor? 0 = some a ∧
        (a.write st.world "hp" (.int 7)).1 = true ∧
        a.read? (a.write st.world "hp" (.int 7)).2 "hp" = some (.int 7) ∧
        ∀ x ∈ [("hp", .int 2147483648), ("shield", .int (-1)), ("hp", .bool true), ("mp", .int 7)],
          (a.write st.world x.1 x.2).2 = st.world := by
  have hreachable : narrowSample.Reachable := ⟨_, rfl⟩
  have hbegun : narrowSample.startQuery (UntypedQuery.require {} ⟨0⟩ true) = .ok _ :=
    startQuery_of_check rfl
  obtain ⟨c, st, hstart⟩ : ∃ c st,
      narrowSample.startQuery (UntypedQuery.require {} ⟨0⟩ true) = .ok (c, st) := ⟨_, _, hbegun⟩
  let a : Accessor := ⟨⟨0⟩, true, some ⟨1, 0⟩⟩
  let refused := [("hp", Value.int 2147483648), ("shield", .int (-1)), ("hp", .bool true),
    ("mp", .int 7)]
  have hanswers : c.accessor? 0 = some a ∧ (a.write st.world "hp" (.int 7)).1 = true ∧
      ∀ x ∈ refused, (a.write st.world x.1 x.2).1 = false := by
    cases Except.ok.inj (hstart.symm.trans hbegun)
    decide +kernel
  obtain ⟨haccessor, hwritten, hrefused⟩ := hanswers
  obtain ⟨_, hcalls⟩ := accessor_writes_are_exact hreachable hstart [] c st rfl 0 a haccessor
  refine ⟨hreachable, c, st, a, hstart, haccessor, hwritten, ?_, ?_⟩
  · obtain ⟨_, heffect, _⟩ := hcalls "hp" (.int 7) _ _ (Prod.eta _).symm
    obtain ⟨_, inst, _, k, _, _, _, _, _, hread, _⟩ := heffect hwritten
    have hkept : inst.keepsAt k (.int 7) = .int 7 := by
      cases inst with
      | native record =>
          rw [Instance.keepsAt]
          cases record.type.fields[k]? with
          | none => rfl
          | some d => exact d.type.keeps_int 7
      | script inst => rfl
    rw [hread, hkept]
  · exact fun x hx => (hcalls x.1 x.2 _ _ (Prod.eta _).symm).2.2 (hrefused x hx)

end Store

end EntityStore
