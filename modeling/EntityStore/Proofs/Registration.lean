import EntityStore.Proofs.Registry
import Std.Data.TreeMap.Lemmas

/-!
# Registrations keep the registry consistent

A registry has three parts that have to agree: the entries, the positions of the native types and
the first positions of the names.  Native types and script components are registered by different
rules — native types may share a name with what is there, script components may not — and
whatever the order, the parts agree and entries stay as they are.

* `Registration`, `Registry.perform`, `Registry.run` — registrations, one after the other;
* `Registry.Consistent` — how the parts agree;
* `entry?_append`, `find?_append`, `first?_append` — what one more entry does to each part;
* `Consistent.append` — so they agree afterwards, `Consistent.register`,
  `Consistent.registerSchema` — one registration, `Consistent.run` — any number of them;
* `Consistent.perform_native` — what registering a native type answers and leaves;
* `registerSchema_eq_error_iff` — when a script component is refused;
* `registrations_stay_consistent` — all of it, from the empty registry on.
-/

namespace EntityStore

/-- One registration. -/
inductive Registration where
  | native (type : ComponentType)
  | script (schema : Schema)

namespace Registry

/-- What a registration answers, and what it leaves. -/
def perform (r : Registry) (call : Registration) : Except StoreError ComponentId × Registry :=
  match call with
  | .native t => (.ok (r.register t).1, (r.register t).2)
  | .script schema =>
    match r.registerSchema schema with
    | .ok (id, r') => (.ok id, r')
    | .error err => (.error err, r)

def run (r : Registry) (calls : List Registration) : Registry :=
  calls.foldl (fun r call => (r.perform call).2) r

/-- The parts of the registry agree. -/
structure Consistent (r : Registry) : Prop where
  contains : ∀ id, r.contains id = true ↔ id.raw < r.size
  id : ∀ id entry, r.entry? id = some entry → entry.id = id
  /-- A type leads to the entry that was made for it, and to no other. -/
  position : ∀ t id, r.position? t = some id ↔
    ∃ entry, r.entry? id = some entry ∧ entry.source = .native t
  find : ∀ name id, r.find? name = some id ↔
    (∃ entry, r.entry? id = some entry ∧ entry.name = name) ∧
      ∀ id' entry', r.entry? id' = some entry' → entry'.name = name → id.raw ≤ id'.raw
  native : ∀ id entry t, r.entry? id = some entry → entry.source = .native t →
    entry.name = t.name
  /-- An entry of a script component has its name, which is not empty and new among the earlier
  ones, and its fields have different names. -/
  script : ∀ id entry schema, r.entry? id = some entry → entry.source = .script schema →
    entry.name = schema.name ∧ entry.name ≠ "" ∧ (schema.fields.map (·.name)).Nodup ∧
      ∀ id' entry', id'.raw < id.raw → r.entry? id' = some entry' → entry'.name ≠ entry.name

/-! ### One more entry -/

theorem lt_size_of_some {r : Registry} {id : ComponentId} {entry : Entry}
    (h : r.entry? id = some entry) : id.raw < r.size :=
  (Array.getElem?_eq_some_iff.1 h).1

theorem contains_iff (r : Registry) (id : ComponentId) :
    r.contains id = true ↔ id.raw < r.size := by
  rw [contains, entry?, size]
  simp

theorem entry?_initial (id : ComponentId) : Registry.entry? {} id = none :=
  Array.getElem?_empty

/-- The new entry is at the end, and the others stay. -/
theorem entry?_append (r : Registry) (name : String) (source : Source) (id : ComponentId) :
    Registry.entry? (r.append name source).2 id =
      if id.raw = r.size then some ⟨⟨r.size⟩, name, source⟩ else r.entry? id :=
  Array.getElem?_push

/-- An entry of the longer registry is the new one or an old one. -/
theorem eq_or_of_entry?_append {r : Registry} {name : String} {source : Source}
    {id : ComponentId} {entry : Entry}
    (h : Registry.entry? (r.append name source).2 id = some entry) :
    id = ⟨r.size⟩ ∧ entry = ⟨⟨r.size⟩, name, source⟩ ∨ r.entry? id = some entry := by
  rw [entry?_append] at h
  split at h
  · next hid =>
    cases id
    cases hid
    exact .inl ⟨rfl, (Option.some.inj h).symm⟩
  · exact .inr h

/-- What stands for something in the longer registry is the new entry, or an old one. -/
theorem exists_source_append_iff (r : Registry) (name : String) (source source' : Source)
    (id : ComponentId) :
    (∃ entry, Registry.entry? (r.append name source).2 id = some entry ∧
        entry.source = source') ↔
      (id = ⟨r.size⟩ ∧ source = source') ∨
        ∃ entry, r.entry? id = some entry ∧ entry.source = source' := by
  constructor
  · rintro ⟨entry, hentry, hsource⟩
    rcases eq_or_of_entry?_append hentry with ⟨rfl, rfl⟩ | hold
    · exact .inl ⟨rfl, hsource⟩
    · exact .inr ⟨entry, hold, hsource⟩
  · rintro (⟨rfl, hsource⟩ | ⟨entry, hold, hsource⟩)
    · exact ⟨_, entry?_append_self r name source, hsource⟩
    · exact ⟨entry, entry?_append_of_some hold name source, hsource⟩

/-- The position of the first entry with the given name, as the entries have it. -/
def first? (r : Registry) (name : String) : Option ComponentId :=
  (r.entries.findIdx? (·.name == name)).map ComponentId.mk

theorem first?_eq_some_iff (r : Registry) (name : String) (id : ComponentId) :
    r.first? name = some id ↔
      (∃ entry, r.entry? id = some entry ∧ entry.name = name) ∧
        ∀ id' entry', r.entry? id' = some entry' → entry'.name = name → id.raw ≤ id'.raw := by
  have hindex : r.first? name = some id ↔
      r.entries.findIdx? (·.name == name) = some id.raw := by
    rw [first?, Option.map_eq_some_iff]
    constructor
    · rintro ⟨i, hi, rfl⟩
      exact hi
    · intro hi
      exact ⟨id.raw, hi, rfl⟩
  rw [hindex, Array.findIdx?_eq_some_iff_getElem]
  constructor
  · rintro ⟨hlt, hname, hleast⟩
    refine ⟨⟨r.entries[id.raw], Array.getElem?_eq_getElem hlt, eq_of_beq hname⟩, ?_⟩
    intro id' entry' hentry' hname'
    obtain ⟨hlt', rfl⟩ := Array.getElem?_eq_some_iff.1 hentry'
    apply Nat.le_of_not_lt
    intro hless
    exact hleast id'.raw hless (beq_iff_eq.2 hname')
  · rintro ⟨⟨entry, hentry, hname⟩, hleast⟩
    obtain ⟨hlt, rfl⟩ := Array.getElem?_eq_some_iff.1 hentry
    refine ⟨hlt, beq_iff_eq.2 hname, ?_⟩
    intro j hj hname'
    have hle := hleast ⟨j⟩ _ (Array.getElem?_eq_getElem (Nat.lt_trans hj hlt)) (eq_of_beq hname')
    exact Nat.not_lt.2 hle hj

theorem first?_append (r : Registry) (name : String) (source : Source) (name' : String) :
    Registry.first? (r.append name source).2 name' =
      (r.first? name').or (if name = name' then some ⟨r.size⟩ else none) := by
  rw [first?, first?]
  show ((r.entries.push ⟨⟨r.size⟩, name, source⟩).findIdx? _).map ComponentId.mk = _
  rw [Array.findIdx?_push, Option.map_or]
  by_cases h : name = name'
  · simp [h, size]
  · simp [h]

/-- A name that is taken keeps its position. -/
theorem find?_append (r : Registry) (name : String) (source : Source) (name' : String) :
    Registry.find? (r.append name source).2 name' =
      (r.find? name').or (if name = name' then some ⟨r.size⟩ else none) := by
  show (r.byName.insertIfNew name ⟨r.size⟩)[name']? = _
  simp only [Std.TreeMap.getElem?_insertIfNew, Std.compare_eq_iff_eq,
    Std.TreeMap.mem_iff_isSome_getElem?]
  show _ = (r.byName[name']?).or _
  by_cases h : name = name'
  · subst h
    cases r.byName[name]? with
    | none => simp
    | some id => simp
  · simp [h]

/-! ### One registration -/

namespace Consistent

variable {r : Registry}

theorem initial : Consistent ({} : Registry) where
  contains := contains_iff {}
  id id entry h := by simp [entry?_initial] at h
  position t id := by simp [entry?_initial, position?]
  find name id := by
    rw [← first?_eq_some_iff]
    simp [find?, first?]
  native id entry t h := by simp [entry?_initial] at h
  script id entry schema h := by simp [entry?_initial] at h

/-- A type leads to its own entry. -/
theorem valid (h : r.Consistent) : r.Valid := by
  intro t id hposition
  obtain ⟨⟨id', name, source⟩, hentry, hsource⟩ := (h.position t id).1 hposition
  cases hsource
  have hid : id' = id := h.id id _ hentry
  have hname : name = t.name := h.native id _ t hentry rfl
  rw [hentry, hid, hname]

theorem find?_eq (h : r.Consistent) (name : String) : r.find? name = r.first? name :=
  Option.ext fun id => (h.find name id).trans (r.first?_eq_some_iff name id).symm

/-- Names keep leading to their first entries when an entry is added. -/
theorem find_append (h : r.Consistent) (name : String) (source : Source) (name' : String)
    (id : ComponentId) :
    Registry.find? (r.append name source).2 name' = some id ↔
      (∃ entry, Registry.entry? (r.append name source).2 id = some entry ∧ entry.name = name') ∧
        ∀ id' entry', Registry.entry? (r.append name source).2 id' = some entry' →
          entry'.name = name' → id.raw ≤ id'.raw := by
  rw [find?_append, h.find?_eq, ← first?_append]
  exact first?_eq_some_iff _ name' id

/-- **One more entry keeps the parts in agreement**, if the types lead to their entries afterwards
and the new entry has what an entry of its kind must have. -/
theorem append (h : r.Consistent) {name : String} {source : Source}
    {byType : List (ComponentType × ComponentId)}
    (hposition : ∀ t id, byType.lookup t = some id ↔
      ∃ entry, Registry.entry? (r.append name source).2 id = some entry ∧
        entry.source = .native t)
    (hnative : ∀ t, source = .native t → name = t.name)
    (hscript : ∀ schema, source = .script schema →
      name = schema.name ∧ name ≠ "" ∧ (schema.fields.map (·.name)).Nodup ∧
        ¬∃ id entry, r.entry? id = some entry ∧ entry.name = name) :
    Consistent { (r.append name source).2 with byType } where
  contains := contains_iff _
  id id entry hentry := by
    rcases eq_or_of_entry?_append hentry with ⟨rfl, rfl⟩ | hold
    · rfl
    · exact h.id id entry hold
  position := hposition
  find := h.find_append name source
  native id entry t hentry hsource := by
    rcases eq_or_of_entry?_append hentry with ⟨rfl, rfl⟩ | hold
    · exact hnative t hsource
    · exact h.native id entry t hold hsource
  script id entry schema hentry hsource := by
    rcases eq_or_of_entry?_append hentry with ⟨rfl, rfl⟩ | hold
    · obtain ⟨hname, hnonempty, hfields, hnew⟩ := hscript schema hsource
      refine ⟨hname, hnonempty, hfields, ?_⟩
      -- nothing earlier has the name: the last position is not earlier, and the old names differ
      intro id' entry' hless hentry' hsame
      rcases eq_or_of_entry?_append hentry' with ⟨rfl, rfl⟩ | hold'
      · exact Nat.lt_irrefl _ hless
      · exact hnew ⟨id', entry', hold', hsame⟩
    · -- the new entry is not among the earlier ones
      obtain ⟨hname, hnonempty, hfields, hearlier⟩ := h.script id entry schema hold hsource
      refine ⟨hname, hnonempty, hfields, ?_⟩
      intro id' entry' hless hentry'
      rcases eq_or_of_entry?_append hentry' with ⟨rfl, rfl⟩ | hold'
      · exact absurd (Nat.lt_trans hless (lt_size_of_some hold)) (Nat.lt_irrefl r.size)
      · exact hearlier id' entry' hless hold'

/-- **Registering a native type keeps the parts in agreement.** -/
theorem register (h : r.Consistent) (t : ComponentType) : (r.register t).2.Consistent := by
  cases hpos : r.position? t with
  | some id =>
      rw [register_of_position? hpos]
      exact h
  | none =>
      rw [register_of_none hpos]
      refine h.append ?_ ?_ ?_
      · intro t' id
        rw [position?_cons, exists_source_append_iff, ← h.position, Source.native.injEq]
        by_cases ht : t' = t
        · subst ht
          simp [hpos, eq_comm]
        · simp [ht, Ne.symm ht]
      · intro t' ht'
        cases ht'
        rfl
      · intro schema hschema
        cases hschema

/-- A name is taken exactly if an entry has it. -/
theorem contains_byName (h : r.Consistent) (name : String) :
    r.byName.contains name = true ↔ ∃ id entry, r.entry? id = some entry ∧ entry.name = name := by
  have hfind : r.byName.contains name = (r.first? name).isSome := by
    rw [Std.TreeMap.contains_eq_isSome_getElem?, ← h.find?_eq]
    rfl
  rw [hfind]
  constructor
  · intro hsome
    obtain ⟨id, hid⟩ := Option.isSome_iff_exists.1 hsome
    exact ⟨id, ((r.first?_eq_some_iff name id).1 hid).1⟩
  · rintro ⟨id, entry, hentry, hname⟩
    rw [first?, Option.isSome_map, Array.findIdx?_isSome, Array.any_eq_true]
    obtain ⟨hlt, rfl⟩ := Array.getElem?_eq_some_iff.1 hentry
    exact ⟨id.raw, hlt, beq_iff_eq.2 hname⟩

/-- What registering a script component gives: a new name and a schema that keeps the rules make
a new entry at the end. -/
theorem registerSchema_eq_ok_iff (h : r.Consistent) {schema : Schema} {id : ComponentId}
    {r' : Registry} :
    r.registerSchema schema = .ok (id, r') ↔
      (¬∃ id entry, r.entry? id = some entry ∧ entry.name = schema.name) ∧
        (schema.name ≠ "" ∧ (schema.fields.map (·.name)).Nodup) ∧
        (id, r') = r.append schema.name (.script schema) := by
  rw [← h.contains_byName, ← schema.check_eq_ok_iff, registerSchema]
  split
  · next htaken => simp [htaken]
  · next htaken =>
    split
    · next err herr => simp [herr]
    · next hok =>
      rw [Except.ok.injEq, eq_comm]
      simp [htaken, hok]

/-- **Registering a script component keeps the parts in agreement.** -/
theorem registerSchema (h : r.Consistent) {schema : Schema} {id : ComponentId} {r' : Registry}
    (hok : r.registerSchema schema = .ok (id, r')) : r'.Consistent := by
  obtain ⟨hnew, ⟨hnonempty, hfields⟩, happend⟩ := h.registerSchema_eq_ok_iff.1 hok
  cases happend
  refine h.append ?_ ?_ ?_
  · intro t id
    rw [exists_source_append_iff, ← h.position]
    show r.position? t = some id ↔ _
    simp
  · intro t ht
    cases ht
  · intro schema' hschema
    cases hschema
    exact ⟨rfl, hnonempty, hfields, hnew⟩

theorem perform (h : r.Consistent) (call : Registration) : (r.perform call).2.Consistent := by
  cases call with
  | native t => exact h.register t
  | script schema =>
      rw [Registry.perform]
      split
      · next id r' hok => exact h.registerSchema hok
      · exact h

/-- **Any number of registrations keeps the parts in agreement.** -/
theorem run (h : r.Consistent) (calls : List Registration) : (r.run calls).Consistent := by
  induction calls generalizing r with
  | nil => exact h
  | cons call rest ih => exact ih (h.perform call)

end Consistent

/-! ### What stays, what is new, and what is refused -/

theorem extends_perform (r : Registry) (call : Registration) : r.Extends (r.perform call).2 := by
  cases call with
  | native t => exact extends_register r t
  | script schema =>
      rw [perform]
      split
      · next id r' hok =>
        rw [registerSchema_eq_append hok]
        exact extends_append r _ _
      · exact .refl r

/-- **Entries stay.** -/
theorem extends_run (r : Registry) (calls : List Registration) : r.Extends (r.run calls) := by
  induction calls generalizing r with
  | nil => exact .refl r
  | cons call rest ih => exact (extends_perform r call).trans (ih _)

/-- **Registering a native type answers where its entry is.**  A type that has a position keeps it;
otherwise one entry is added, at the end. -/
theorem Consistent.perform_native {r : Registry} (h : r.Consistent) (t : ComponentType) :
    ∃ id r', r.perform (.native t) = (.ok id, r') ∧ r.register t = (id, r') ∧
      r'.position? t = some id ∧ r'.entry? id = some ⟨id, t.name, .native t⟩ ∧
      (r.position? t = some id ∧ r' = r ∨
        r.position? t = none ∧ id = ⟨r.size⟩ ∧ r'.size = r.size + 1) := by
  refine ⟨_, _, rfl, rfl, position?_register r t, entry?_register h.valid t, ?_⟩
  cases hpos : r.position? t with
  | some id =>
      rw [register_of_position? hpos]
      exact .inl ⟨rfl, rfl⟩
  | none =>
      rw [register_of_none hpos]
      exact .inr ⟨rfl, rfl, Array.size_push _⟩

/-- A script component is refused exactly if its name is taken or its schema breaks a rule. -/
theorem Consistent.registerSchema_eq_error_iff {r : Registry} (h : r.Consistent)
    (schema : Schema) :
    (∃ err, (r.perform (.script schema)).1 = .error err) ↔
      (∃ id entry, r.entry? id = some entry ∧ entry.name = schema.name) ∨
        ¬(schema.name ≠ "" ∧ (schema.fields.map (·.name)).Nodup) := by
  rw [Registry.perform]
  cases hresult : r.registerSchema schema with
  | ok result =>
      obtain ⟨hnew, hrules, _⟩ := h.registerSchema_eq_ok_iff.1 hresult
      refine iff_of_false ?_ ?_
      · rintro ⟨err, herr⟩
        cases herr
      · rintro (htaken | hbroken)
        · exact hnew htaken
        · exact hbroken hrules
  | error err =>
      refine iff_of_true ⟨err, rfl⟩ ?_
      apply Classical.byContradiction
      intro hneither
      rw [not_or, Classical.not_not] at hneither
      have hok := h.registerSchema_eq_ok_iff.2 ⟨hneither.1, hneither.2, rfl⟩
      rw [hresult] at hok
      cases hok

/-- **Registrations stay consistent.**  After any registrations, native and script in any order,
starting from the empty registry: entries, types and names agree; a native type that is registered
is never refused, its entry stands at the position that is answered, and the type leads there, as it
did before or by an entry that is added at the end; a type that is registered again, however much
later, keeps its position and changes nothing; entries never change; and a script component is
refused exactly if its name is taken or its schema breaks a rule, in which case the registry stays
as it is, and is otherwise found at the position that is given for it. -/
theorem registrations_stay_consistent (calls : List Registration) :
    (run {} calls).Consistent ∧
    (∀ t, ∃ id r', (run {} calls).perform (.native t) = (.ok id, r') ∧
      (run {} calls).register t = (id, r') ∧
      r'.position? t = some id ∧ r'.entry? id = some ⟨id, t.name, .native t⟩ ∧
      ((run {} calls).position? t = some id ∧ r' = run {} calls ∨
        (run {} calls).position? t = none ∧ id = ⟨(run {} calls).size⟩ ∧
          r'.size = (run {} calls).size + 1)) ∧
    (∀ t later, Registry.register (((run {} calls).register t).2.run later) t =
      (((run {} calls).register t).1, ((run {} calls).register t).2.run later)) ∧
    (∀ later id entry, Registry.entry? (run {} calls) id = some entry →
      Registry.entry? ((run {} calls).run later) id = some entry) ∧
    ∀ schema,
      ((∃ err, ((run {} calls).perform (.script schema)).1 = .error err) ↔
        (∃ id entry, Registry.entry? (run {} calls) id = some entry ∧ entry.name = schema.name) ∨
          ¬(schema.name ≠ "" ∧ (schema.fields.map (·.name)).Nodup)) ∧
      (∀ err, ((run {} calls).perform (.script schema)).1 = .error err →
        ((run {} calls).perform (.script schema)).2 = run {} calls) ∧
      ∀ id, ((run {} calls).perform (.script schema)).1 = .ok id →
        Registry.entry? ((run {} calls).perform (.script schema)).2 id =
          some ⟨id, schema.name, .script schema⟩ := by
  have hconsistent := Consistent.initial.run calls
  -- the rest needs no more of the registry than that it is consistent
  generalize run {} calls = r at hconsistent ⊢
  refine ⟨hconsistent, hconsistent.perform_native, ?_, ?_, ?_⟩
  · intro t later
    have hposition := (extends_run (r.register t).2 later).position t _ (position?_register r t)
    exact register_of_position? hposition
  · intro later id entry hentry
    exact (extends_run r later).entry id entry hentry
  · intro schema
    refine ⟨hconsistent.registerSchema_eq_error_iff schema, ?_, ?_⟩
    · intro err herr
      rw [perform] at herr ⊢
      split at herr
      · cases herr
      · rfl
    · intro id hid
      rw [perform] at hid ⊢
      split at hid
      · next id' r' hok =>
        cases hid
        obtain ⟨_, _, happend⟩ := hconsistent.registerSchema_eq_ok_iff.1 hok
        cases happend
        exact entry?_append_self r schema.name (.script schema)
      · cases hid

end Registry

end EntityStore
