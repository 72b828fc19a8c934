import EntityStore.Schema
import Mathlib.Data.List.Induction

/-!
# What named values make of a schema

A script instance begins with the defaults of its schema and takes named values one after the
other, up to the first that does not fit.  Seen from the list of values, it has for each field the
last value that is listed for its name, or else the default, and there is no instance at all if one
of the values fits no field.

* `Schema.Takes`, `Schema.refusal` — which values fit, and what is said of one that does not;
* `ScriptRecord.Fits` — an instance that fits a schema, `fits_fresh`, `Fits.write`, `Fits.writeAll`;
* `Fits.length_values`, `Fits.lt_length`, `Fits.isSome_get?` — what follows for its values;
* `ScriptRecord.filled` — the instance that a list stands for: the last value of each name;
* `writeAll_of_takes`, `writeAll_of_refused` — writing a list, up to its end or its first misfit;
* `Schema.instantiate`, `writeAll_fresh` — **the list read at once is the list written in order.**
-/

namespace EntityStore

/-! ### Positions of fields -/

namespace Schema

theorem lt_of_indexOf? {schema : Schema} {name : String} {i : Nat}
    (h : schema.indexOf? name = some i) : i < schema.fields.length := by
  rw [indexOf?, List.findIdx?_eq_some_iff_getElem] at h
  exact h.1

theorem isSome_indexOf?_iff (schema : Schema) (name : String) :
    (schema.indexOf? name).isSome = true ↔ name ∈ schema.fields.map (·.name) := by
  rw [indexOf?, List.findIdx?_isSome, List.any_eq_true, List.mem_map]
  simp only [beq_iff_eq]

/-- The position of a name is that of a field with the name. -/
theorem name_of_indexOf? {schema : Schema} {name : String} {i : Nat}
    (h : schema.indexOf? name = some i) :
    ∃ field, schema.fields[i]? = some field ∧ field.name = name := by
  obtain ⟨hlt, hname, -⟩ := List.findIdx?_eq_some_iff_getElem.1 h
  exact ⟨schema.fields[i], List.getElem?_eq_getElem hlt, by simpa using hname⟩

/-- Different names are at different positions, so each field is found at its own. -/
theorem indexOf?_of_getElem? {schema : Schema} (hnames : (schema.fields.map (·.name)).Nodup)
    {i : Nat} {field : SchemaField} (hfield : schema.fields[i]? = some field) :
    schema.indexOf? field.name = some i := by
  have hmem : field.name ∈ schema.fields.map (·.name) :=
    List.mem_map_of_mem (List.mem_of_getElem? hfield)
  obtain ⟨j, hj⟩ := Option.isSome_iff_exists.1 ((schema.isSome_indexOf?_iff _).2 hmem)
  obtain ⟨other, hother, hname⟩ := name_of_indexOf? hj
  have hsame : (schema.fields.map (·.name))[j]? = (schema.fields.map (·.name))[i]? := by
    simp [hother, hfield, hname]
  have hlt : j < (schema.fields.map (·.name)).length := by
    simpa using lt_of_indexOf? hj
  rw [hj, (List.getElem?_inj hlt hnames).1 hsame]

/-! ### Values that fit -/

/-- A field of the schema has the name, and its default is of the kind of the value. -/
def Takes (schema : Schema) (name : String) (v : Value) : Prop :=
  ∃ field ∈ schema.fields, field.name = name ∧ v.kind = field.default.kind

instance (schema : Schema) (name : String) (v : Value) : Decidable (schema.Takes name v) :=
  inferInstanceAs (Decidable (∃ field ∈ schema.fields, _ ∧ _))

/-- What is said of a value that does not fit: that no field has its name, or else that the kind is
wrong. -/
def refusal (schema : Schema) (name : String) : StoreError :=
  if name ∈ schema.fields.map (·.name) then .fieldTypeMismatch name else .unknownField name

/-- The position of a value that fits, where the default is of its kind. -/
theorem takes_iff {schema : Schema} (hnames : (schema.fields.map (·.name)).Nodup) (name : String)
    (v : Value) :
    schema.Takes name v ↔ ∃ i field, schema.indexOf? name = some i ∧
      schema.fields[i]? = some field ∧ v.kind = field.default.kind := by
  constructor
  · rintro ⟨field, hmem, rfl, hkind⟩
    obtain ⟨i, hi⟩ := List.getElem?_of_mem hmem
    exact ⟨i, field, indexOf?_of_getElem? hnames hi, hi, hkind⟩
  · rintro ⟨i, field, hi, hfield, hkind⟩
    obtain ⟨other, hother, hname⟩ := name_of_indexOf? hi
    cases hfield.symm.trans hother
    exact ⟨field, List.mem_of_getElem? hfield, hname, hkind⟩

end Schema

/-! ### Instances -/

namespace ScriptRecord

/-- The instance is one of the schema, and has a value of the right kind for each field. -/
structure Fits (inst : ScriptRecord) (schema : Schema) : Prop where
  shape : inst.schema = schema
  kinds : inst.values.map Value.kind = schema.fields.map fun field => field.default.kind

theorem fits_fresh (schema : Schema) : (fresh schema).Fits schema where
  shape := rfl
  kinds := by
    rw [fresh, List.map_map]
    rfl

namespace Fits

variable {inst inst' : ScriptRecord} {schema : Schema}

/-- A value that is written takes the place of one of its kind. -/
theorem write (h : inst.Fits schema) {name : String} {v : Value}
    (hwrite : inst.write name v = .ok inst') : inst'.Fits schema where
  shape := (schema_of_write hwrite).trans h.shape
  kinds := by
    rw [← h.kinds]
    rw [ScriptRecord.write] at hwrite
    split at hwrite
    · cases hwrite
    · next i _ =>
      split at hwrite
      · cases hwrite
      · next old hold =>
        split at hwrite
        · next hkind =>
          cases hwrite
          obtain ⟨hlt, rfl⟩ := List.getElem?_eq_some_iff.1 hold
          rw [List.map_set, ← (Value.sameKind_iff _ _).1 hkind, ← List.getElem_map Value.kind,
            List.set_getElem_self]
          rwa [List.length_map]
        · cases hwrite

theorem write? (h : inst.Fits schema) {name : String} {v : Value}
    (hwrite : inst.write? name v = some inst') : inst'.Fits schema := by
  rw [ScriptRecord.write?] at hwrite
  cases houtcome : inst.write name v with
  | error err =>
      rw [houtcome] at hwrite
      cases hwrite
  | ok written =>
      rw [houtcome] at hwrite
      cases hwrite
      exact h.write houtcome

theorem writeAll (h : inst.Fits schema) {values : List (String × Value)}
    (hwrite : inst.writeAll values = .ok inst') : inst'.Fits schema := by
  induction values generalizing inst with
  | nil =>
      cases hwrite
      exact h
  | cons value rest ih =>
      obtain ⟨name, v⟩ := value
      rw [ScriptRecord.writeAll] at hwrite
      split at hwrite
      · next written houtcome => exact ih (h.write houtcome) hwrite
      · cases hwrite

/-- There is exactly one value for each field. -/
theorem length_values (h : inst.Fits schema) :
    inst.values.length = schema.fields.length := by
  have hlengths := congrArg List.length h.kinds
  rwa [List.length_map, List.length_map] at hlengths

/-- A value is of the kind of its field's default. -/
theorem sameKind (h : inst.Fits schema) {i : Nat} {field : SchemaField} {v : Value}
    (hfield : schema.fields[i]? = some field) (hv : inst.values[i]? = some v) :
    field.default.sameKind v = true := by
  have hkinds := congrArg (·[i]?) h.kinds
  simp only [List.getElem?_map, hfield, hv, Option.map_some, Option.some.injEq] at hkinds
  exact (Value.sameKind_iff _ _).2 hkinds.symm

/-- The position of a field leads to a value. -/
theorem lt_length (h : inst.Fits schema) {name : String} {i : Nat}
    (hi : schema.indexOf? name = some i) : i < inst.values.length := by
  rw [h.length_values]
  exact Schema.lt_of_indexOf? hi

/-- Exactly the fields of the schema can be read. -/
theorem isSome_get? (h : inst.Fits schema) (name : String) :
    (inst.get? name).isSome = true ↔ name ∈ schema.fields.map (·.name) := by
  rw [← schema.isSome_indexOf?_iff, ScriptRecord.get?, h.shape]
  cases hposition : schema.indexOf? name with
  | none => exact Iff.rfl
  | some i =>
      rw [Option.bind_some, List.getElem?_eq_getElem (h.lt_length hposition)]
      exact Iff.rfl

end Fits

end ScriptRecord

/-! ### The instance that a list stands for -/

/-- The last of the values that the list has for the name. -/
def lastValue? (values : List (String × Value)) (name : String) : Option Value :=
  values.reverse.lookup name

theorem lastValue?_append (before after : List (String × Value)) (name : String) :
    lastValue? (before ++ after) name = (lastValue? after name).or (lastValue? before name) := by
  rw [lastValue?, List.reverse_append, List.lookup_append]
  rfl

theorem lastValue?_concat (values : List (String × Value)) (name : String) (v : Value)
    (other : String) :
    lastValue? (values ++ [(name, v)]) other =
      if other = name then some v else lastValue? values other := by
  rw [lastValue?, List.reverse_append, List.reverse_singleton, List.singleton_append,
    List.lookup_cons]
  by_cases h : other = name
  · simp [h]
  · rw [if_neg h, beq_eq_false_iff_ne.2 h, lastValue?]

namespace ScriptRecord

variable {schema : Schema}

/-- The instance with the last value of each name, and the default where a name is not listed. -/
def filled (schema : Schema) (values : List (String × Value)) : ScriptRecord :=
  ⟨schema, schema.fields.map fun field => (lastValue? values field.name).getD field.default⟩

/-- One more value takes the place of the one that its name had. -/
theorem values_filled_concat (hnames : (schema.fields.map (·.name)).Nodup)
    (values : List (String × Value)) {name : String} {i : Nat} {field : SchemaField}
    (hi : schema.indexOf? name = some i) (hfield : schema.fields[i]? = some field) (v : Value) :
    (filled schema values).values.set i v = (filled schema (values ++ [(name, v)])).values := by
  obtain ⟨named, hnamed, hname⟩ := Schema.name_of_indexOf? hi
  cases hfield.symm.trans hnamed
  have hlt := Schema.lt_of_indexOf? hi
  apply List.ext_getElem?
  intro j
  simp only [filled, List.getElem?_map, List.getElem?_set, List.length_map, lastValue?_concat]
  by_cases hj : i = j
  · subst hj
    rw [if_pos rfl, if_pos hlt, hfield, Option.map_some, hname, if_pos rfl, Option.getD_some]
  · rw [if_neg hj]
    cases hother : schema.fields[j]? with
    | none => rfl
    | some other =>
        have hne : other.name ≠ name := by
          intro hsame
          have hindex := Schema.indexOf?_of_getElem? hnames hother
          rw [hsame, hi] at hindex
          exact hj (Option.some.inj hindex)
        simp [hne]

/-- A value that fits is written. -/
theorem write_of_takes (hnames : (schema.fields.map (·.name)).Nodup)
    {values : List (String × Value)} (hfits : (filled schema values).Fits schema) {name : String}
    {v : Value} (htakes : schema.Takes name v) :
    (filled schema values).write name v = .ok (filled schema (values ++ [(name, v)])) := by
  obtain ⟨i, field, hi, hfield, hkind⟩ := (Schema.takes_iff hnames name v).1 htakes
  obtain ⟨old, hold⟩ : ∃ old, (filled schema values).values[i]? = some old :=
    ⟨_, List.getElem?_eq_getElem (hfits.lt_length hi)⟩
  have hsame : old.sameKind v = true := by
    rw [Value.sameKind_iff, hkind]
    exact ((Value.sameKind_iff _ _).1 (hfits.sameKind hfield hold)).symm
  have hposition : (filled schema values).schema.indexOf? name = some i := hi
  simp only [write, hposition, hold, hsame, if_true,
    values_filled_concat hnames values hi hfield v]
  rfl

/-- A value that does not fit is refused, and it is said why. -/
theorem Fits.write_of_not_takes {inst : ScriptRecord} (hfits : inst.Fits schema)
    (hnames : (schema.fields.map (·.name)).Nodup) {name : String} {v : Value}
    (hrefused : ¬schema.Takes name v) : inst.write name v = .error (schema.refusal name) := by
  rw [ScriptRecord.write, hfits.shape]
  cases hi : schema.indexOf? name with
  | none =>
      have hunknown : name ∉ schema.fields.map (·.name) := by
        rw [← schema.isSome_indexOf?_iff, hi]
        exact Bool.false_ne_true
      rw [Schema.refusal, if_neg hunknown]
  | some i =>
      have hknown : name ∈ schema.fields.map (·.name) := by
        rw [← schema.isSome_indexOf?_iff, hi]
        rfl
      obtain ⟨field, hfield, -⟩ := Schema.name_of_indexOf? hi
      have hlt := hfits.lt_length hi
      have hold := List.getElem?_eq_getElem hlt
      have hkind := (Value.sameKind_iff _ _).1 (hfits.sameKind hfield hold)
      have hother : ¬inst.values[i].sameKind v = true := by
        rw [Value.sameKind_iff, ← hkind]
        intro hsame
        exact hrefused ((Schema.takes_iff hnames name v).2 ⟨i, field, hi, hfield, hsame.symm⟩)
      simp only [hold, hother, Schema.refusal, if_pos hknown]
      rfl

/-! ### Lists of values -/

theorem writeAll_append {inst inst' : ScriptRecord} {before : List (String × Value)}
    (h : inst.writeAll before = .ok inst') (after : List (String × Value)) :
    inst.writeAll (before ++ after) = inst'.writeAll after := by
  induction before generalizing inst with
  | nil =>
      cases h
      rfl
  | cons x rest ih =>
      obtain ⟨name, v⟩ := x
      rw [List.cons_append, writeAll]
      rw [writeAll] at h
      cases hwrite : inst.write name v with
      | ok next =>
          rw [hwrite] at h
          exact ih h
      | error err =>
          rw [hwrite] at h
          cases h

/-- If all values fit they are all written, the later ones over the earlier ones. -/
theorem writeAll_of_takes (hnames : (schema.fields.map (·.name)).Nodup)
    {values : List (String × Value)} (htakes : ∀ x ∈ values, schema.Takes x.1 x.2) :
    (fresh schema).writeAll values = .ok (filled schema values) := by
  induction values using List.reverseRecOn with
  | nil => rfl
  | append_singleton rest x ih =>
      have hrest := ih fun y hy => htakes y (by simp [hy])
      have hfits := (fits_fresh schema).writeAll hrest
      rw [writeAll_append hrest, writeAll, write_of_takes hnames hfits (htakes x (by simp))]
      rfl

/-- Writing stops at the first value that does not fit. -/
theorem writeAll_of_refused (hnames : (schema.fields.map (·.name)).Nodup)
    {before : List (String × Value)} (htakes : ∀ y ∈ before, schema.Takes y.1 y.2)
    {x : String × Value} (hrefused : ¬schema.Takes x.1 x.2) (after : List (String × Value)) :
    (fresh schema).writeAll (before ++ x :: after) = .error (schema.refusal x.1) := by
  have hbefore := writeAll_of_takes hnames htakes
  have hfits := (fits_fresh schema).writeAll hbefore
  rw [writeAll_append hbefore, writeAll, hfits.write_of_not_takes hnames hrefused]

end ScriptRecord

/-! ### Lists read at once -/

/-- The instance that a list of named values describes, unless one of them does not fit.  Then the
first of these is refused. -/
def Schema.instantiate (schema : Schema) (values : List (String × Value)) :
    Except StoreError ScriptRecord :=
  match values.find? fun x => !decide (schema.Takes x.1 x.2) with
  | none => .ok (.filled schema values)
  | some x => .error (schema.refusal x.1)

/-- **Values written one after the other make the instance that their list describes.** -/
theorem ScriptRecord.writeAll_fresh {schema : Schema}
    (hnames : (schema.fields.map (·.name)).Nodup) (values : List (String × Value)) :
    (fresh schema).writeAll values = schema.instantiate values := by
  rw [Schema.instantiate]
  cases hfind : values.find? fun x => !decide (schema.Takes x.1 x.2) with
  | none =>
      refine writeAll_of_takes hnames fun x hx => ?_
      simpa using List.find?_eq_none.1 hfind x hx
  | some x =>
      obtain ⟨hx, before, after, rfl, hbefore⟩ := List.find?_eq_some_iff_append.1 hfind
      have htakes : ∀ y ∈ before, schema.Takes y.1 y.2 := by
        intro y hy
        simpa using hbefore y hy
      exact writeAll_of_refused hnames htakes (by simpa using hx) after

end EntityStore
