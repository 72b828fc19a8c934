import EntityStore.Proofs.OrderedMap
import EntityStore.Proofs.Schemas

/-!
# Instances made from named values

A script storage takes an instance as a list of names and values.  The instance begins with the
defaults of the schema and takes the values one after the other, so a name may stand in the list
several times.  If a value does not fit, nothing of the list is kept, and the storage never sees
the instance.

* `takes_of_filter_eq`, `filled_congr` — only the order of the values of one name matters;
* `ScriptRecord.Gathers`, `gathers_filled` — what can be read from the instance of a list;
* `Table.Placed` — all that an insertion changes in a table;
* `Storage.named_values_go_in_together` — **all values of the list or none.**
-/

namespace EntityStore

/-! ### Lists with the same values for each name -/

/-- Lists that have the same values for each name have the same values that fit. -/
theorem Schema.takes_of_filter_eq {schema : Schema} {values values' : List (String × Value)}
    (h : ∀ name, values'.filter (·.1 == name) = values.filter (·.1 == name))
    (htakes : ∀ x ∈ values, schema.Takes x.1 x.2) : ∀ x ∈ values', schema.Takes x.1 x.2 := by
  intro x hx
  have hfiltered : x ∈ values'.filter (·.1 == x.1) := by simp [hx]
  rw [h] at hfiltered
  exact htakes x (List.mem_of_mem_filter hfiltered)

theorem lastValue?_eq_none {values : List (String × Value)} {name : String}
    (h : ∀ x ∈ values, x.1 ≠ name) : lastValue? values name = none := by
  rw [lastValue?, List.lookup_eq_none_iff]
  intro x hx
  exact bne_iff_ne.2 (h x (List.mem_reverse.1 hx)).symm

theorem lastValue?_eq_some {before after : List (String × Value)} {name : String} {v : Value}
    (h : ∀ x ∈ after, x.1 ≠ name) :
    lastValue? (before ++ (name, v) :: after) name = some v := by
  rw [← List.singleton_append, ← List.append_assoc, lastValue?_append, lastValue?_eq_none h,
    Option.none_or, lastValue?_concat, if_pos rfl]

/-- The last value of a name depends only on the values that the list has for that name. -/
theorem lastValue?_filter (values : List (String × Value)) (name : String) :
    lastValue? (values.filter (·.1 == name)) name = lastValue? values name := by
  induction values using List.reverseRecOn with
  | nil => rfl
  | append_singleton rest x ih =>
      rw [List.filter_append, lastValue?_concat]
      by_cases h : x.1 = name
      · rw [List.filter_cons_of_pos (by simpa using h), List.filter_nil, lastValue?_concat,
          if_pos h.symm, if_pos h.symm]
      · rw [List.filter_cons_of_neg (by simpa using h), List.filter_nil, List.append_nil,
          if_neg (Ne.symm h), ih]

namespace ScriptRecord

variable {schema : Schema}

/-- Lists that have the same values for each name make the same instance. -/
theorem filled_congr {values values' : List (String × Value)}
    (h : ∀ name, values'.filter (·.1 == name) = values.filter (·.1 == name)) :
    filled schema values' = filled schema values := by
  have hlast : ∀ name, lastValue? values' name = lastValue? values name := by
    intro name
    rw [← lastValue?_filter values', h, lastValue?_filter]
  simp only [filled, hlast]

theorem get?_filled (hnames : (schema.fields.map (·.name)).Nodup)
    (values : List (String × Value)) {field : SchemaField} (hmem : field ∈ schema.fields) :
    (filled schema values).get? field.name =
      some ((lastValue? values field.name).getD field.default) := by
  obtain ⟨i, hi⟩ := List.getElem?_of_mem hmem
  have hposition : (filled schema values).schema.indexOf? field.name = some i :=
    Schema.indexOf?_of_getElem? hnames hi
  rw [get?, hposition, Option.bind_some, filled, List.getElem?_map, hi, Option.map_some]

/-- An instance of the schema in which each field has the last value that the list has for its
name, or else its default. -/
structure Gathers (inst : ScriptRecord) (schema : Schema) (values : List (String × Value)) :
    Prop where
  shape : inst.schema = schema
  length : inst.values.length = schema.fields.length
  listed : ∀ before name v after, values = before ++ (name, v) :: after →
    (∀ x ∈ after, x.1 ≠ name) → inst.get? name = some v
  unlisted : ∀ field ∈ schema.fields, (∀ x ∈ values, x.1 ≠ field.name) →
    inst.get? field.name = some field.default

theorem gathers_filled (hnames : (schema.fields.map (·.name)).Nodup)
    {values : List (String × Value)} (htakes : ∀ x ∈ values, schema.Takes x.1 x.2) :
    (filled schema values).Gathers schema values where
  shape := rfl
  length := List.length_map _
  listed := by
    rintro before name v after rfl hlast
    obtain ⟨field, hmem, rfl, -⟩ := htakes (name, v) (by simp)
    rw [get?_filled hnames _ hmem, lastValue?_eq_some hlast, Option.getD_some]
  unlisted field hmem hunlisted := by
    rw [get?_filled hnames values hmem, lastValue?_eq_none hunlisted, Option.getD_none]

end ScriptRecord

/-! ### Insertions -/

/-- In the second table an entity has the given instance, and is flagged if it was or if changes are
traced.  Nothing else is changed. -/
structure Table.Placed {α : Type} (table : Table α) (e : Entity) (a : α) (table' : Table α) :
    Prop where
  valid : table'.set.Valid
  held : table'.get? e = some a
  others : ∀ e', e' ≠ e → table'.get? e' = table.get? e'
  entities : table'.entities = if e ∈ table.entities then table.entities else table.entities ++ [e]
  tracing : table'.flags.enabled = table.flags.enabled
  flags : ∀ e', table'.flags.isMarked e' =
    (table.flags.isMarked e' || (table.flags.enabled && decide (e.slot = e'.slot)))

theorem SparseSet.Valid.placed {α : Type} {table : Table α} (h : table.set.Valid) (e : Entity)
    (a : α) : table.Placed e a (table.insert e a) where
  valid := h.insert e a
  held := (h.get?_insert e a e).trans (if_pos rfl)
  others e' hne := (h.get?_insert e a e').trans (if_neg hne.symm)
  entities := congrArg OrderedMap.keys (h.toMap_insert e a)
  tracing := table.flags.enabled_mark e
  flags e' := table.flags.isMarked_mark e e'

namespace Storage

/-- Whatever a script storage is called for, it stays one of its schema with its parts in step. -/
theorem exists_foldl_apply_script (schema : Schema) (calls : List Call) :
    ∃ table, calls.foldl (fun s c => c.apply s) (.emptyScript schema) = .script schema table ∧
      table.set.Valid := by
  suffices hrun : ∀ s : Storage, s.blank = .emptyScript schema → s.Valid →
      ∃ table, calls.foldl (fun s c => c.apply s) s = .script schema table ∧ table.set.Valid from
    hrun (.emptyScript schema) rfl SparseSet.valid_empty
  induction calls with
  | nil =>
      intro s hblank hvalid
      cases s with
      | script other table =>
          cases hblank
          exact ⟨table, rfl, hvalid⟩
      | _ => cases hblank
  | cons c rest ih =>
      intro s hblank hvalid
      exact ih (c.apply s) ((c.blank_apply s).trans hblank) (c.valid_apply hvalid)

variable {schema : Schema}

theorem insertNamed_of_takes (hnames : (schema.fields.map (·.name)).Nodup)
    {values : List (String × Value)} (htakes : ∀ x ∈ values, schema.Takes x.1 x.2)
    (table : Table ScriptRecord) (e : Entity) :
    (script schema table).insertNamed e values =
      (.ok (), .script schema (table.insert e (.filled schema values))) := by
  rw [insertNamed, ScriptRecord.writeAll_of_takes hnames htakes]

theorem insertNamed_of_refused (hnames : (schema.fields.map (·.name)).Nodup)
    {before : List (String × Value)} (htakes : ∀ y ∈ before, schema.Takes y.1 y.2)
    {x : String × Value} (hrefused : ¬schema.Takes x.1 x.2) (after : List (String × Value))
    (table : Table ScriptRecord) (e : Entity) :
    (script schema table).insertNamed e (before ++ x :: after) =
      (.error (schema.refusal x.1), .script schema table) := by
  rw [insertNamed, ScriptRecord.writeAll_of_refused hnames htakes hrefused]

/-- If not all values fit there is a first one that does not. -/
theorem exists_first_refused {values : List (String × Value)}
    (h : ¬∀ x ∈ values, schema.Takes x.1 x.2) :
    ∃ before x after, values = before ++ x :: after ∧
      (∀ y ∈ before, schema.Takes y.1 y.2) ∧ ¬schema.Takes x.1 x.2 := by
  cases hfind : values.find? (fun x => !decide (schema.Takes x.1 x.2)) with
  | none =>
      refine absurd (fun x hx => ?_) h
      simpa using List.find?_eq_none.1 hfind x hx
  | some x =>
      obtain ⟨hx, before, after, rfl, hbefore⟩ := List.find?_eq_some_iff_append.1 hfind
      refine ⟨before, x, after, rfl, fun y hy => ?_, by simpa using hx⟩
      simpa using hbefore y hy

/-- **Named values go in together or not at all.**  Take a schema that was accepted.  Its storage,
whatever it was called for, is a table of instances with its parts in step.  Take any such table,
an entity and a list of named values.

The values are accepted exactly if each of them has the name of a field and the kind of the field's
default.  Then they make one instance, whatever the storage held before: each field has the last
value that is listed for its name, or its default, and the entity has this instance and is flagged
if it was or if changes are traced; the instances of the others, the order and the other flags stay.
A list that has the same values for each name does the same, in whatever order the names come.
Otherwise the error is that of the first value which does not fit, and the storage is the very one
that was there before. -/
theorem named_values_go_in_together (hcheck : schema.check = .ok ()) :
    (∀ calls : List Call, ∃ table,
      calls.foldl (fun s c => c.apply s) (.emptyScript schema) = .script schema table ∧
        table.set.Valid) ∧
    ∀ values : List (String × Value),
      (∀ table e, ((script schema table).insertNamed e values).1 = .ok () ↔
        ∀ x ∈ values, schema.Takes x.1 x.2) ∧
      ((∀ x ∈ values, schema.Takes x.1 x.2) →
        (∃ inst : ScriptRecord, inst.Gathers schema values ∧
          ∀ table e, table.set.Valid → ∃ table',
            (script schema table).insertNamed e values = (.ok (), .script schema table') ∧
              table.Placed e inst table') ∧
        ∀ values', (∀ name, values'.filter (·.1 == name) = values.filter (·.1 == name)) →
          ∀ table e, (script schema table).insertNamed e values' =
            (script schema table).insertNamed e values) ∧
      ((¬∀ x ∈ values, schema.Takes x.1 x.2) →
        ∃ before x after, values = before ++ x :: after ∧
          (∀ y ∈ before, schema.Takes y.1 y.2) ∧ ¬schema.Takes x.1 x.2 ∧
          ∀ table e, (script schema table).insertNamed e values =
            (.error (schema.refusal x.1), .script schema table)) := by
  have hnames := (schema.check_eq_ok_iff.1 hcheck).2
  refine ⟨exists_foldl_apply_script schema, fun values => ⟨?_, ?_, ?_⟩⟩
  · intro table e
    constructor
    · intro hok
      -- the first pair that does not fit would have been refused
      by_contra hnot
      obtain ⟨before, x, after, rfl, htakes, hrefused⟩ := exists_first_refused hnot
      rw [insertNamed_of_refused hnames htakes hrefused] at hok
      cases hok
    · intro htakes
      rw [insertNamed_of_takes hnames htakes]
  · intro htakes
    refine ⟨⟨.filled schema values, ScriptRecord.gathers_filled hnames htakes, ?_⟩, ?_⟩
    · intro table e hvalid
      exact ⟨_, insertNamed_of_takes hnames htakes table e, hvalid.placed e _⟩
    · intro values' hsame table e
      have htakes' := Schema.takes_of_filter_eq hsame htakes
      rw [insertNamed_of_takes hnames htakes', insertNamed_of_takes hnames htakes,
        ScriptRecord.filled_congr hsame]
  · intro hnot
    obtain ⟨before, x, after, rfl, htakes, hrefused⟩ := exists_first_refused hnot
    exact ⟨before, x, after, rfl, htakes, hrefused,
      insertNamed_of_refused hnames htakes hrefused after⟩

/-- A name that is listed twice ends with its second value, and a list with an unknown name leaves
the storage alone. -/
theorem stats_go_in_together :
    Worlds.stats.check = .ok () ∧
    (∃ table' inst,
      (emptyScript Worlds.stats).insertNamed ⟨1, 0⟩ [("health", .int 40), ("health", .int 7)] =
        (.ok (), .script Worlds.stats table') ∧
      table'.get? ⟨1, 0⟩ = some inst ∧ inst.get? "health" = some (.int 7) ∧
        inst.get? "title" = some (.string "none")) ∧
    ((emptyScript Worlds.stats).insertNamed ⟨1, 0⟩ [("health", .int 40), ("mana", .int 7)]).1 ≠
      .ok () := by
  have hcheck : Worlds.stats.check = .ok () := rfl
  obtain ⟨-, hlists⟩ := named_values_go_in_together hcheck
  refine ⟨hcheck, ?_, ?_⟩
  · obtain ⟨-, htaken, -⟩ := hlists [("health", .int 40), ("health", .int 7)]
    obtain ⟨⟨inst, hgathers, hinsert⟩, -⟩ := htaken (by decide)
    obtain ⟨table', houtcome, hplaced⟩ := hinsert {} ⟨1, 0⟩ SparseSet.valid_empty
    refine ⟨table', inst, houtcome, hplaced.held, ?_, ?_⟩
    · exact hgathers.listed [("health", .int 40)] "health" (.int 7) [] rfl (by simp)
    · exact hgathers.unlisted ⟨"title", .string "none"⟩ (by simp [Worlds.stats]) (by decide)
  · obtain ⟨hiff, -, -⟩ := hlists [("health", .int 40), ("mana", .int 7)]
    intro hok
    exact absurd ((hiff {} ⟨1, 0⟩).1 hok) (by decide)

end Storage

end EntityStore
