import EntityStore.Registry

/-!
# The registry: types lead to their entries

Registration only ever adds entries, and what a type leads to is the entry that was made for it.

* `Registry.Valid` — the position of a type has the entry of that type;
* `Registry.Extends` — every entry and every position of the one registry is in the other;
* `valid_register`, `extends_register`, `registerSchema_eq_append` — what registration keeps;
* `registerAll_of_registered` — registering what is registered changes nothing.
-/

namespace EntityStore.Registry

/-- A type leads to its own entry. -/
def Valid (r : Registry) : Prop :=
  ∀ t id, r.position? t = some id → r.entry? id = some ⟨id, t.name, .native t⟩

/-- What one registry has, the other has too. -/
structure Extends (r r' : Registry) : Prop where
  entry : ∀ id entry, r.entry? id = some entry → r'.entry? id = some entry
  position : ∀ t id, r.position? t = some id → r'.position? t = some id

theorem valid_initial : Valid ({} : Registry) := by
  intro t id h
  simp [position?] at h

theorem Extends.refl (r : Registry) : r.Extends r := ⟨fun _ _ => id, fun _ _ => id⟩

theorem Extends.trans {r₁ r₂ r₃ : Registry} (h : r₁.Extends r₂) (h' : r₂.Extends r₃) :
    r₁.Extends r₃ where
  entry id entry he := h'.entry id entry (h.entry id entry he)
  position t id hp := h'.position t id (h.position t id hp)

/-! ### Appending an entry -/

theorem entry?_append_of_some {r : Registry} {id : ComponentId} {entry : Entry}
    (h : r.entry? id = some entry) (name : String) (source : Source) :
    Registry.entry? (r.append name source).2 id = some entry := by
  have hlt : id.raw < r.entries.size := (Array.getElem?_eq_some_iff.1 h).1
  show (r.entries.push ⟨⟨r.size⟩, name, source⟩)[id.raw]? = some entry
  rw [Array.getElem?_push, if_neg (Nat.ne_of_lt hlt)]
  exact h

theorem entry?_append_self (r : Registry) (name : String) (source : Source) :
    Registry.entry? (r.append name source).2 ⟨r.size⟩ = some ⟨⟨r.size⟩, name, source⟩ :=
  Array.getElem?_push_size

theorem extends_append (r : Registry) (name : String) (source : Source) :
    r.Extends (r.append name source).2 where
  entry _ _ h := entry?_append_of_some h name source
  position _ _ h := h

theorem valid_append {r : Registry} (h : r.Valid) (name : String) (source : Source) :
    (r.append name source).2.Valid := by
  intro t id hp
  exact entry?_append_of_some (h t id hp) name source

/-! ### Registration -/

theorem register_of_none {r : Registry} {t : ComponentType} (h : r.position? t = none) :
    r.register t =
      (⟨r.size⟩,
        { (r.append t.name (.native t)).2 with byType := (t, ⟨r.size⟩) :: r.byType }) := by
  simp only [register, h]
  rfl

theorem position?_cons (r : Registry) (t t' : ComponentType) (id : ComponentId) :
    ((t, id) :: r.byType).lookup t' = if t' = t then some id else r.position? t' := by
  rw [List.lookup_cons, position?]
  by_cases h : t' = t
  · simp [h]
  · rw [beq_eq_false_iff_ne.2 h, if_neg h]

/-- Registering one type gives no position to another. -/
theorem position?_register_of_ne (r : Registry) {t t' : ComponentType} (h : t' ≠ t) :
    (r.register t).2.position? t' = r.position? t' := by
  cases hpos : r.position? t with
  | some id => rw [register_of_position? hpos]
  | none =>
      rw [register_of_none hpos]
      exact (position?_cons r t t' ⟨r.size⟩).trans (if_neg h)

theorem extends_register (r : Registry) (t : ComponentType) : r.Extends (r.register t).2 := by
  cases hpos : r.position? t with
  | some id =>
      rw [register_of_position? hpos]
      exact .refl r
  | none =>
      constructor
      · rw [register_of_none hpos]
        exact (extends_append r t.name (.native t)).entry
      · intro t' id h
        have hne : t' ≠ t := by
          intro ht
          rw [ht, hpos] at h
          cases h
        rw [position?_register_of_ne r hne]
        exact h

theorem valid_register {r : Registry} (h : r.Valid) (t : ComponentType) :
    (r.register t).2.Valid := by
  cases hpos : r.position? t with
  | some id =>
      rw [register_of_position? hpos]
      exact h
  | none =>
      rw [register_of_none hpos]
      intro t' id hp
      have hlookup : ((t, (⟨r.size⟩ : ComponentId)) :: r.byType).lookup t' = some id := hp
      rw [position?_cons] at hlookup
      split at hlookup
      · next ht =>
        cases hlookup
        rw [ht]
        exact entry?_append_self r t.name (.native t)
      · exact entry?_append_of_some (h t' id hlookup) t.name (.native t)

/-- The position that registration gives has the entry of the type. -/
theorem entry?_register {r : Registry} (h : r.Valid) (t : ComponentType) :
    Registry.entry? (r.register t).2 (r.register t).1 =
      some ⟨(r.register t).1, t.name, .native t⟩ :=
  valid_register h t t _ (position?_register r t)

theorem registerSchema_eq_append {r r' : Registry} {schema : Schema} {id : ComponentId}
    (h : r.registerSchema schema = .ok (id, r')) :
    r' = (r.append schema.name (.script schema)).2 := by
  rw [registerSchema] at h
  split at h
  · cases h
  · split at h
    · cases h
    · cases h
      rfl

/-! ### Several types -/

theorem extends_registerAll (r : Registry) (ts : List ComponentType) :
    r.Extends (r.registerAll ts) := by
  induction ts generalizing r with
  | nil => exact .refl r
  | cons t rest ih => exact (extends_register r t).trans (ih (r.register t).2)

theorem valid_registerAll {r : Registry} (h : r.Valid) (ts : List ComponentType) :
    (r.registerAll ts).Valid := by
  induction ts generalizing r with
  | nil => exact h
  | cons t rest ih => exact ih (valid_register h t)

theorem registerAll_of_registered {r : Registry} {ts : List ComponentType}
    (h : ∀ t ∈ ts, (r.position? t).isSome = true) : r.registerAll ts = r := by
  induction ts with
  | nil => rfl
  | cons t rest ih =>
      obtain ⟨id, hid⟩ := Option.isSome_iff_exists.1 (h t List.mem_cons_self)
      have hstep : r.registerAll (t :: rest) = (r.register t).2.registerAll rest := rfl
      rw [hstep, register_of_position? hid]
      exact ih fun t' ht' => h t' (List.mem_cons_of_mem t ht')

end EntityStore.Registry
