import EntityStore.Proofs.Schemas

/-!
# Fields of instances

The fields of an instance have positions, one after the other, and names, of which only the
reflected ones can be used.  A field is read at the position of its name.  A write finds the
position, converts the value to the type of the field and sets it there, or is refused.

* `FieldType.Takes`, `FieldType.keeps` — the values that a field takes, and what it keeps of them;
* `FieldType.isSome_ofValue?_iff`, `FieldType.toValue_of_ofValue?` — conversion does just that;
* `Record.get?_eq`, `Record.write?_eq`, `ScriptRecord.write?_eq` — reading and writing by position;
* `Instance.indexOf?`, `Instance.Takes`, `Instance.keepsAt` — the same for instances of either sort;
* `Instance.SetAt` — another value at one position, `SetAt.get?_self`, `SetAt.get?_of_ne`;
* `Instance.setAt_of_write?`, `Instance.Fits.isSome_write?_iff` — what a write does, and when.
-/

namespace EntityStore

/-! ### Values that a field takes -/

/-- A 64-bit integer in the range of the narrow ones is narrowed without loss. -/
theorem toInt64_toInt32 {n : Int64} (hleast : -2147483648 ≤ n.toInt)
    (hgreatest : n.toInt < 2147483648) : n.toInt32.toInt64 = n := by
  apply Int64.toInt_inj.1
  rw [Int32.toInt_toInt64, Int64.toInt_toInt32]
  exact Int.bmod_eq_of_le hleast hgreatest

/-- The same without a sign. -/
theorem ofNat_toNat_ofInt {n : Int64} (hleast : 0 ≤ n.toInt) (hgreatest : n.toInt < 4294967296) :
    Int64.ofNat (UInt32.ofInt n.toInt).toNat = n := by
  have hnarrow : (UInt32.ofInt n.toInt).toNat = n.toInt.toNat := by
    have hmod : n.toInt % 2 ^ 32 = n.toInt := Int.emod_eq_of_lt hleast hgreatest
    have hlt : n.toInt.toNat < UInt32.size := (Int.toNat_lt hleast).2 hgreatest
    rw [UInt32.ofInt, hmod, UInt32.toNat_ofNat_of_lt' hlt]
  apply Int64.toInt_inj.1
  rw [hnarrow, Int64.toInt_ofNat_of_lt (by omega), Int.toNat_of_nonneg hleast]

namespace FieldType

/-- What a field of the type takes: values of its kind, and of integers only those in range. -/
structure Takes (t : FieldType) (v : Value) : Prop where
  kind : v.kind = t.kind
  int32 : ∀ n, t = .int32 → v = .int n → -2147483648 ≤ n.toInt ∧ n.toInt < 2147483648
  nat32 : ∀ n, t = .nat32 → v = .int n → 0 ≤ n.toInt ∧ n.toInt < 4294967296

/-- What a field of the type keeps of a value: a double float is rounded to a single one where the
field is one, and everything else stays itself. -/
def keeps (t : FieldType) (v : Value) : Value :=
  match t, v with
  | .float32, .float x => .float x.toFloat32.toFloat
  | _, v => v

/-- Integers are kept as they are. -/
theorem keeps_int (t : FieldType) (n : Int64) : t.keeps (.int n) = .int n := by
  cases t <;> rfl

/-- Exactly the values that a field takes are converted. -/
theorem isSome_ofValue?_iff (t : FieldType) (v : Value) :
    (t.ofValue? v).isSome = true ↔ t.Takes v := by
  constructor
  · intro h
    obtain ⟨f, hf⟩ := Option.isSome_iff_exists.1 h
    refine ⟨kind_of_ofValue? hf, ?_, ?_⟩
    · rintro n rfl rfl
      exact (Option.ite_none_right_eq_some.1 hf).1
    · rintro n rfl rfl
      exact (Option.ite_none_right_eq_some.1 hf).1
  · intro h
    have hkind := h.kind
    cases t with
    | int32 =>
        cases v with
        | int n =>
            rw [ofValue?, if_pos (h.int32 n rfl rfl)]
            rfl
        | _ => cases hkind
    | nat32 =>
        cases v with
        | int n =>
            rw [ofValue?, if_pos (h.nat32 n rfl rfl)]
            rfl
        | _ => cases hkind
    | _ => cases v <;> first | rfl | cases hkind

/-- What is converted reads as what the field keeps. -/
theorem toValue_of_ofValue? {t : FieldType} {v : Value} {f : FieldValue}
    (h : t.ofValue? v = some f) : f.toValue = t.keeps v := by
  cases t with
  | int32 =>
      cases v with
      | int n =>
          obtain ⟨⟨hleast, hgreatest⟩, hf⟩ := Option.ite_none_right_eq_some.1 h
          cases hf
          exact congrArg Value.int (toInt64_toInt32 hleast hgreatest)
      | _ => cases h
  | nat32 =>
      cases v with
      | int n =>
          obtain ⟨⟨hleast, hgreatest⟩, hf⟩ := Option.ite_none_right_eq_some.1 h
          cases hf
          exact congrArg Value.int (ofNat_toNat_ofInt hleast hgreatest)
      | _ => cases h
  | _ => cases v <;> first | (cases h; rfl) | cases h

end FieldType

/-! ### Fields of native instances -/

namespace Record

/-- Position of the reflected field with the given name. -/
def indexOf? (r : Record) (name : String) : Option Nat :=
  (r.type.fields.take r.cells.length).findIdx? fun d => d.reflected && d.name == name

/-- A position found has a declaration and a cell, and the declaration is that of the name. -/
theorem exists_of_indexOf? {r : Record} {name : String} {i : Nat}
    (h : r.indexOf? name = some i) :
    i < r.cells.length ∧ ∃ d, r.type.fields[i]? = some d ∧ d.name = name := by
  rw [indexOf?, List.findIdx?_eq_some_iff_getElem] at h
  obtain ⟨hlt, hfound, _⟩ := h
  rw [List.length_take] at hlt
  rw [List.getElem_take, Bool.and_eq_true, beq_iff_eq] at hfound
  exact ⟨by omega, _, List.getElem?_eq_getElem (by omega), hfound.2⟩

/-- Reading looks for the name among the reflected fields. -/
theorem find?_reflected (name : String) (ds : List FieldDecl) (cs : List FieldValue) :
    (((ds.zip cs).filter (·.1.reflected)).find? (·.1.name == name)).map (·.2.toValue) =
      ((ds.take cs.length).findIdx? fun d => d.reflected && d.name == name).bind
        ((cs.map (·.toValue))[·]?) := by
  induction ds generalizing cs with
  | nil =>
      rw [List.take_nil]
      rfl
  | cons d ds ih =>
      cases cs with
      | nil => rfl
      | cons c cs =>
          have hlater := ih cs
          rw [List.zip_cons_cons, List.length_cons, List.take_succ_cons, List.findIdx?_cons]
          cases hreflected : d.reflected with
          | false =>
              rw [List.filter_cons_of_neg (by simp [hreflected]), Bool.false_and,
                if_neg Bool.false_ne_true, Option.bind_map, hlater]
              rfl
          | true =>
              rw [List.filter_cons_of_pos (by simp [hreflected]), List.find?_cons, Bool.true_and]
              cases hname : d.name == name with
              | true => rfl
              | false =>
                  rw [if_neg Bool.false_ne_true, Option.bind_map]
                  exact hlater

theorem get?_eq (r : Record) (name : String) :
    r.get? name = (r.indexOf? name).bind ((r.cells.map (·.toValue))[·]?) :=
  find?_reflected name r.type.fields r.cells

theorem writeCells?_eq (name : String) (v : Value) (ds : List FieldDecl) (cs : List FieldValue) :
    writeCells? name v ds cs =
      ((ds.take cs.length).findIdx? fun d => d.reflected && d.name == name).bind fun i =>
        (ds[i]?.bind (·.type.ofValue? v)).map (cs.set i ·) := by
  induction ds generalizing cs with
  | nil =>
      rw [List.take_nil]
      rfl
  | cons d ds ih =>
      cases cs with
      | nil => rfl
      | cons c cs =>
          rw [writeCells?, List.length_cons, List.take_succ_cons, List.findIdx?_cons]
          split
          · rfl
          · rw [ih cs, Option.bind_map, Option.map_bind]
            congr 1
            funext i
            rw [Function.comp_apply, Option.map_map]
            rfl

/-- Writing sets the cell at the position of the field. -/
theorem write?_eq (r : Record) (name : String) (v : Value) :
    r.write? name v = (r.indexOf? name).bind fun i =>
      (r.type.fields[i]?.bind (·.type.ofValue? v)).map fun f =>
        { r with cells := r.cells.set i f } := by
  rw [write?, writeCells?_eq, Option.map_bind]
  congr 1
  funext i
  rw [Function.comp_apply, Option.map_map]
  rfl

end Record

/-! ### Fields of instances of either sort -/

namespace ScriptRecord

/-- Writing sets the value at the position of the field, if the kinds agree. -/
theorem write?_eq (inst : ScriptRecord) (name : String) (v : Value) :
    inst.write? name v = (inst.schema.indexOf? name).bind fun i =>
      inst.values[i]?.bind fun old =>
        if old.sameKind v then some { inst with values := inst.values.set i v } else none := by
  rw [write?, write]
  cases inst.schema.indexOf? name with
  | none => rfl
  | some i =>
      simp only [Option.bind_some]
      cases inst.values[i]? with
      | none => rfl
      | some old =>
          simp only [Option.bind_some]
          split <;> rfl

end ScriptRecord

namespace Instance

/-- Position of the reflected field with the given name.  All fields of script instances are
reflected. -/
def indexOf? : Instance → String → Option Nat
  | .native record, name => record.indexOf? name
  | .script inst, name => inst.schema.indexOf? name

/-- The values of the fields, in order, reflected or not. -/
def values : Instance → List Value
  | .native record => record.cells.map (·.toValue)
  | .script inst => inst.values

/-- A field is read at its position. -/
theorem get?_eq (inst : Instance) (name : String) :
    inst.get? name = (inst.indexOf? name).bind (inst.values[·]?) := by
  cases inst with
  | native record => exact record.get?_eq name
  | script inst => rfl

/-- Fields at one position have one name. -/
theorem name_eq_of_indexOf? {inst : Instance} {name other : String} {i : Nat}
    (h : inst.indexOf? name = some i) (h' : inst.indexOf? other = some i) : name = other := by
  cases inst with
  | native record =>
      obtain ⟨_, d, hd, rfl⟩ := Record.exists_of_indexOf? h
      obtain ⟨_, d', hd', rfl⟩ := Record.exists_of_indexOf? h'
      rw [hd] at hd'
      cases hd'
      rfl
  | script inst =>
      rw [indexOf?, Schema.indexOf?, List.findIdx?_eq_some_iff_getElem] at h h'
      obtain ⟨_, hname, _⟩ := h
      obtain ⟨_, hother, _⟩ := h'
      exact (beq_iff_eq.1 hname).symm.trans (beq_iff_eq.1 hother)

/-- Whether the field at a position takes the value: a native field by its type, and a script field
by the kind of its default. -/
def TakesAt : Instance → Nat → Value → Prop
  | .native record, i, v => ∃ d, record.type.fields[i]? = some d ∧ d.type.Takes v
  | .script inst, i, v => ∃ field, inst.schema.fields[i]? = some field ∧
      v.kind = field.default.kind

/-- The instance has a reflected field of the given name, and the field takes the value. -/
def Takes (inst : Instance) (name : String) (v : Value) : Prop :=
  ∃ i, inst.indexOf? name = some i ∧ inst.TakesAt i v

/-- What the field at a position keeps of a value. -/
def keepsAt : Instance → Nat → Value → Value
  | .native record, i, v => record.type.fields[i]?.elim v (·.type.keeps v)
  | .script _, _, v => v

/-- The second instance is the first one with the given value in the field at the given position,
and a native field with a value of its type. -/
inductive SetAt (i : Nat) (v : Value) : Instance → Instance → Prop where
  | native {record : Record} {d : FieldDecl} {f : FieldValue}
      (decl : record.type.fields[i]? = some d) (type : f.type = d.type) (value : f.toValue = v) :
      SetAt i v (.native record) (.native { record with cells := record.cells.set i f })
  | script {inst : ScriptRecord} :
      SetAt i v (.script inst) (.script { inst with values := inst.values.set i v })

namespace SetAt

variable {i : Nat} {v : Value} {inst inst' : Instance}

/-- Fields stay where they are. -/
theorem indexOf?_eq (h : SetAt i v inst inst') (name : String) :
    inst'.indexOf? name = inst.indexOf? name := by
  cases h with
  | native decl type value =>
      rw [indexOf?, Record.indexOf?, List.length_set]
      rfl
  | script => rfl

theorem values_eq (h : SetAt i v inst inst') : inst'.values = inst.values.set i v := by
  cases h with
  | native decl type value =>
      rw [values, List.map_set, value]
      rfl
  | script => rfl

/-- The field reads as the value. -/
theorem get?_self (h : SetAt i v inst inst') {name : String} (hi : inst.indexOf? name = some i)
    (hlt : i < inst.values.length) : inst'.get? name = some v := by
  rw [get?_eq, h.indexOf?_eq, hi, h.values_eq, Option.bind_some]
  exact List.getElem?_set_self hlt

/-- Every other field reads as before. -/
theorem get?_of_ne (h : SetAt i v inst inst') {name other : String}
    (hi : inst.indexOf? name = some i) (hne : other ≠ name) :
    inst'.get? other = inst.get? other := by
  rw [get?_eq, get?_eq, h.indexOf?_eq, h.values_eq]
  cases hj : inst.indexOf? other with
  | none => rfl
  | some j =>
      refine List.getElem?_set_ne ?_
      rintro rfl
      exact hne (name_eq_of_indexOf? hj hi)

end SetAt

/-- **What a write does.** -/
theorem setAt_of_write? {inst inst' : Instance} {name : String} {v : Value}
    (h : inst.write? name v = some inst') :
    ∃ i, inst.indexOf? name = some i ∧ SetAt i (inst.keepsAt i v) inst inst' := by
  cases inst with
  | native record =>
      rw [write?, record.write?_eq, Option.map_eq_some_iff] at h
      obtain ⟨_, hwrite, rfl⟩ := h
      obtain ⟨i, hi, hcell⟩ := Option.bind_eq_some_iff.1 hwrite
      obtain ⟨f, hf, rfl⟩ := Option.map_eq_some_iff.1 hcell
      obtain ⟨d, hd, hvalue⟩ := Option.bind_eq_some_iff.1 hf
      refine ⟨i, hi, .native hd (FieldType.type_of_ofValue? hvalue) ?_⟩
      rw [keepsAt, hd]
      exact FieldType.toValue_of_ofValue? hvalue
  | script inst =>
      rw [write?, inst.write?_eq, Option.map_eq_some_iff] at h
      obtain ⟨_, hwrite, rfl⟩ := h
      obtain ⟨i, hi, hset⟩ := Option.bind_eq_some_iff.1 hwrite
      obtain ⟨old, _, hkind⟩ := Option.bind_eq_some_iff.1 hset
      rw [Option.ite_none_right_eq_some] at hkind
      obtain ⟨_, hsome⟩ := hkind
      cases hsome
      exact ⟨i, hi, .script⟩

/-- A script instance fits its own schema. -/
def Fits : Instance → Prop
  | .native _ => True
  | .script inst => inst.Fits inst.schema

/-- The position of a field leads to a value. -/
theorem Fits.lt_length {inst : Instance} (h : inst.Fits) {name : String} {i : Nat}
    (hi : inst.indexOf? name = some i) : i < inst.values.length := by
  cases inst with
  | native record =>
      rw [values, List.length_map]
      exact (Record.exists_of_indexOf? hi).1
  | script inst => exact ScriptRecord.Fits.lt_length h hi

/-- **When a write goes through:** exactly when the instance takes the value. -/
theorem Fits.isSome_write?_iff {inst : Instance} (h : inst.Fits) (name : String) (v : Value) :
    (inst.write? name v).isSome = true ↔ inst.Takes name v := by
  cases inst with
  | native record =>
      rw [write?, Option.isSome_map, record.write?_eq, Takes, indexOf?]
      cases hi : record.indexOf? name with
      | none => simp
      | some i =>
          obtain ⟨_, d, hd, _⟩ := Record.exists_of_indexOf? hi
          rw [Option.bind_some, Option.isSome_map, hd, Option.bind_some, d.type.isSome_ofValue?_iff]
          simp [TakesAt, hd]
  | script inst =>
      rw [write?, Option.isSome_map, inst.write?_eq, Takes, indexOf?]
      cases hi : inst.schema.indexOf? name with
      | none => simp
      | some i =>
          have hlt := Schema.lt_of_indexOf? hi
          have hlt' := ScriptRecord.Fits.lt_length h hi
          have hfield := List.getElem?_eq_getElem hlt
          have hold := List.getElem?_eq_getElem hlt'
          have hdefault := (Value.sameKind_iff _ _).1 (ScriptRecord.Fits.sameKind h hfield hold)
          rw [Option.bind_some, hold, Option.bind_some]
          have hkinds : inst.values[i].sameKind v = true ↔
              v.kind = inst.schema.fields[i].default.kind := by
            rw [Value.sameKind_iff, hdefault, eq_comm]
          simp [TakesAt, hfield, hkinds]

end Instance

end EntityStore
