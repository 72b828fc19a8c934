import EntityStore.Proofs.Reporting
import EntityStore.Proofs.ScriptValues
import EntityStore.Proofs.SlotTable

/-!
# Script instances keep their schema

A script instance begins with the defaults of its schema.  Values reach it by lists that may stop
at one that does not fit, and by single writes, through a storage or through the accessor of a
query; some of them are refused.  Whatever is written, in whatever order, an instance has one value
for each field of the schema, of the kind of the field's default, so the position of a field always
leads to a value.

* `Storage.Fitting`, `Storage.Fitting.call` — a script storage holds fitting instances, whatever it
  is called for;
* `World.Fitting`, `Worlds.Fitting` — the same for worlds, and for all that can be done there;
* `Store.Reachable.fitting` — on every reachable store script instances fit their schema;
* `Worlds.instances_keep_schema` — **any run over any number of worlds.**
-/

namespace EntityStore

/-! ### Storages -/

namespace Storage

/-- A script storage holds instances that fit its schema. -/
def Fitting (s : Storage) : Prop :=
  match s with
  | .script schema table => ∀ inst ∈ table.set.rows, inst.Fits schema
  | _ => True

theorem fitting_of_not_script {s : Storage} (h : s.isScript = false) : s.Fitting := by
  cases s with
  | script schema table => cases h
  | _ => trivial

theorem fitting_blank (s : Storage) : s.blank.Fitting := by
  cases s with
  | script schema table =>
      intro inst hinst
      cases Array.not_mem_empty inst hinst
  | _ => trivial

theorem isScript_blank (s : Storage) : s.blank.isScript = s.isScript := by
  cases s <;> rfl

theorem Fitting.mapFlags {s : Storage} (h : s.Fitting) (f : ChangeFlags → ChangeFlags) :
    (s.mapFlags f).Fitting := by
  cases s with
  | script schema table => exact h
  | _ => trivial

section Script

variable {schema : Schema} {table : Table ScriptRecord}

/-- Named values that fit make an instance that fits, and others make none. -/
theorem Fitting.insertNamed (h : (script schema table).Fitting) (e : Entity)
    (values : List (String × Value)) : ((script schema table).insertNamed e values).2.Fitting := by
  rw [Storage.insertNamed]
  cases houtcome : (ScriptRecord.fresh schema).writeAll values with
  | error err => exact h
  | ok new =>
      intro inst hinst
      rcases SparseSet.mem_rows_insert hinst with rfl | hold
      · exact (ScriptRecord.fits_fresh schema).writeAll houtcome
      · exact h inst hold

/-- A field is written with a value of its kind, or not at all. -/
theorem Fitting.writeField (h : (script schema table).Fitting) (e : Entity) (name : String)
    (v : Value) : ((script schema table).writeField e name v).2.Fitting := by
  rw [Storage.writeField, first?]
  cases hold : table.get? e with
  | none => exact h
  | some old =>
      rw [Option.map_some, Option.bind_some, Instance.write?]
      cases houtcome : old.write? name v with
      | none => exact h
      | some new =>
          intro inst hinst
          rcases SparseSet.mem_rows_modify hinst with hkept | ⟨_, _, rfl⟩
          · exact h inst hkept
          · exact (h old (SparseSet.mem_rows_of_get? hold)).write? houtcome

/-- Whatever a script storage is used for, its instances fit. -/
theorem Fitting.use (h : (script schema table).Fitting) (u : StorageUse) :
    (u.apply (script schema table)).Fitting := by
  cases u with
  | erase e => exact fun inst hinst => h inst (SparseSet.mem_rows_erase hinst)
  | clear => exact fun inst hinst => absurd hinst (Array.not_mem_empty inst)
  | mark e =>
      show ∀ inst ∈ (table.mark e).set.rows, inst.Fits schema
      rwa [Table.set_mark]
  | unmarkAll => exact h.mapFlags _
  | switchTracing enabled => exact h.mapFlags _
  | fetch mutable e =>
      cases mutable with
      | false => exact h
      | true =>
          show ∀ inst ∈ (table.touch e).set.rows, inst.Fits schema
          rwa [Table.set_touch]
  | writeAt e i f =>
      show (if i = 0 then script schema table else script schema table).Fitting
      rwa [ite_self]
  | writeField e name v => exact h.writeField e name v

end Script

/-- **Whatever a storage is called for, its instances fit.** -/
theorem Fitting.call {s : Storage} (h : s.Fitting) (c : Call) : (c.apply s).Fitting := by
  cases hscript : s.isScript with
  | false =>
      apply fitting_of_not_script
      rw [← isScript_blank, c.blank_apply, isScript_blank, hscript]
  | true =>
      cases s with
      | script schema table =>
          cases c with
          | insert e record => exact h
          | insertNamed e values => exact h.insertNamed e values
          | writeFirst e f => exact h
          | writeAll e f => exact h
          | use u => exact h.use u
      | _ => cases hscript

end Storage

/-! ### Worlds -/

/-- Every script storage holds instances that fit its schema. -/
def World.Fitting (w : World) : Prop :=
  ∀ id s, w.storage? id = some s → s.Fitting

namespace World.Fitting

variable {w w' : World}

theorem initial : World.Fitting {} := by
  intro id s hs
  simp [storage?] at hs

/-- Steps that make storages empty keep instances fitting. -/
theorem of_replays (h : w.Fitting) {steps : List Step} (hreplays : Replays steps w w')
    (hmakes : ∀ id fresh, .make id fresh ∈ steps → fresh.blank = fresh) : w'.Fitting := by
  intro id s' hs'
  rw [hreplays id] at hs'
  refine replay_invariant ?_ (fun _ _ c _ s hs => hs.call c) (h id) hs'
  rintro step hstep fresh rfl
  rw [← hmakes id fresh hstep]
  exact fresh.fitting_blank

theorem action {s : Store} (h : s.world.Fitting) (action : Action) :
    (action.apply s).world.Fitting := by
  cases action with
  | operation op =>
      exact h.of_replays (s.replays_apply op) fun id fresh hmake => Operation.makes_blank hmake
  | notify id e =>
      intro id' s' hs'
      change (s.world.modifyStorage id _).storage? id' = some s' at hs'
      rw [storage?_modifyStorage] at hs'
      split at hs'
      · obtain ⟨old, hold, rfl⟩ := Option.map_eq_some_iff.1 hs'
        exact (h id' old hold).mapFlags _
      · exact h id' s' hs'

end World.Fitting

theorem World.Fitting.run {s : Store} (h : s.world.Fitting) (ops : List Operation) :
    (s.run ops).world.Fitting := by
  induction ops generalizing s with
  | nil => exact h
  | cons op rest ih => exact ih (World.Fitting.action h (.operation op))

/-- On every reachable store script instances fit their schema. -/
theorem Store.Reachable.fitting {s : Store} (h : s.Reachable) : s.world.Fitting := by
  obtain ⟨ops, rfl⟩ := h
  have hinitial : (({} : Store).world).Fitting := World.Fitting.initial
  exact hinitial.run ops

namespace Worlds

/-- In every world the instances of script components fit. -/
def Fitting (ws : Worlds) : Prop :=
  ∀ i, (ws.world i).Fitting

theorem Fitting.put {ws : Worlds} (h : ws.Fitting) (i : Nat) {s : Store}
    (hs : s.world.Fitting) : (ws.put i s).Fitting := by
  intro j
  show (Function.update ws.world i s.world j).Fitting
  by_cases hj : j = i
  · rwa [hj, Function.update_self]
  · rw [Function.update_of_ne hj]
    exact h j

theorem Fitting.apply {ws : Worlds} (h : ws.Fitting) (deed : Deed) : (ws.apply deed).Fitting := by
  cases deed with
  | act i action => exact h.put i (World.Fitting.action (h i) action)
  | call i id c =>
      exact h.put i ((h i).of_replays (.modifyStorage (ws.world i) id c)
        fun id fresh hmake => by cases List.mem_singleton.1 hmake)
  | renew i => exact h.put i World.Fitting.initial

theorem Fitting.run {ws : Worlds} (h : ws.Fitting) (deeds : List Deed) :
    (ws.run deeds).Fitting := by
  induction deeds generalizing ws with
  | nil => exact h
  | cons deed rest ih => exact ih (h.apply deed)

/-- **Script instances keep their schema.**  After any deeds in any number of worlds, whether what
was asked for was done or refused, take a script storage, and an instance that it holds or makes
from named values on the way to holding it: the instance is one of the storage's schema and has
exactly one value for each field; each value is of the kind of its field's default; the position
of a field leads to a value, so a write by name never misses; and exactly the fields of the schema
can be read. -/
theorem instances_keep_schema (deeds : List Deed) (i : Nat) (id : ComponentId) :
    ∀ schema table, ((run {} deeds).world i).storage? id = some (.script schema table) →
    ∀ inst, (inst ∈ table.set.rows ∨
        ∃ values, (ScriptRecord.fresh schema).writeAll values = .ok inst) →
      inst.schema = schema ∧
      inst.values.length = schema.fields.length ∧
      (∀ (k : Nat) field v, schema.fields[k]? = some field → inst.values[k]? = some v →
        field.default.sameKind v = true) ∧
      (∀ name k, schema.indexOf? name = some k → k < inst.values.length) ∧
      ∀ name, (inst.get? name).isSome = true ↔ name ∈ schema.fields.map (·.name) := by
  intro schema table hstorage inst hinst
  have hfits : inst.Fits schema := by
    rcases hinst with hheld | ⟨values, hmade⟩
    · have hinitial : Fitting {} := fun _ => World.Fitting.initial
      exact hinitial.run deeds i id (.script schema table) hstorage inst hheld
    · exact (ScriptRecord.fits_fresh schema).writeAll hmade
  exact ⟨hfits.shape, hfits.length_values, fun _ _ _ => hfits.sameKind, fun _ _ => hfits.lt_length,
    hfits.isSome_get?⟩

def stats : Schema :=
  { name := "Stats", fields := [⟨"health", .int 100⟩, ⟨"title", .string "none"⟩] }

/-- Deeds for examples: an instance is refused at its second value and made by another list, one
write is refused and one goes through the accessor of a query. -/
def statsDeeds : List Deed :=
  [.act 0 (.operation (.registerSchema stats)), .act 0 (.operation .spawnBare),
    .act 0 (.operation (.attachNamed ⟨1, 0⟩ ⟨0⟩ [("health", .int 40), ("title", .int 1)])),
    .act 0 (.operation (.attachNamed ⟨1, 0⟩ ⟨0⟩ [("health", .int 40)])),
    .call 0 ⟨0⟩ (.use (.writeField ⟨1, 0⟩ "health" (.string "none"))),
    .act 0 (.operation (.untyped ⟨[⟨⟨0⟩, .present, true⟩]⟩ [.write 0 "health" (.int 7)]))]

/-- The instance of the example was written, has a value for each field and can be read where the
schema has a field. -/
theorem stats_keep_schema :
    ∃ schema table inst, ((run {} statsDeeds).world 0).storage? ⟨0⟩ = some (.script schema table) ∧
      table.get? ⟨1, 0⟩ = some inst ∧ (inst.get? "health" == some (.int 7)) = true ∧
      inst.values.length = schema.fields.length ∧
      ((inst.get? "mana").isSome = true ↔ "mana" ∈ schema.fields.map (·.name)) := by
  have hwritten : (((run {} statsDeeds).world 0).storage? ⟨0⟩).any (fun storage =>
      storage.isScript && (storage.first? ⟨1, 0⟩).any fun inst =>
        inst.get? "health" == some (.int 7)) = true := by decide +kernel
  obtain ⟨storage, hstorage, hboth⟩ := (Option.any_eq_true _ _).1 hwritten
  obtain ⟨hscript, hfirst⟩ := Bool.and_eq_true_iff.1 hboth
  cases storage with
  | script schema table =>
      obtain ⟨_, hinst, hhealth⟩ := (Option.any_eq_true _ _).1 hfirst
      obtain ⟨inst, hget, rfl⟩ := Option.map_eq_some_iff.1 hinst
      obtain ⟨-, hlength, -, -, hread⟩ := instances_keep_schema statsDeeds 0 ⟨0⟩ schema table
        hstorage inst (.inl (SparseSet.mem_rows_of_get? hget))
      exact ⟨schema, table, inst, hstorage, hget, hhealth, hlength, hread "mana"⟩
  | _ => cases hscript

end Worlds

end EntityStore
