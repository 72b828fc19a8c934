import EntityStore.Proofs.Registry
import EntityStore.Query

/-!
# Resolving terms

Terms over component types are resolved by the positions of the types.  A type keeps its position
once it has one, so terms whose types are registered are resolved to the same columns for ever.

* `Term.map_congr`, `Term.mapAll_congr` — renaming depends on the components that occur;
* `Registry.isSome_position?_registerAll` — what was registered has a position;
* `Registry.Extends.resolve_eq` — terms keep what they were resolved to.
-/

namespace EntityStore

/-! ### Renaming -/

namespace BoundTerm

variable {κ ν : Type}

theorem map_congr {f g : κ → ν} {q : BoundTerm κ} (h : f q.column = g q.column) :
    q.map f = q.map g := by
  induction q with
  | component c m => rw [map, map, show f c = g c from h]
  | maybe inner ih => rw [map, map, ih h]
  | changed inner ih => rw [map, map, ih h]

end BoundTerm

namespace Term

variable {κ ν : Type}

mutual

theorem map_congr {f g : κ → ν} {t : Term κ} (h : ∀ c ∈ t.components, f c = g c) :
    t.map f = t.map g := by
  cases t with
  | entity => rfl
  | single q => rw [map, map, BoundTerm.map_congr (h _ List.mem_cons_self)]
  | batch q => rw [map, map, BoundTerm.map_congr (h _ List.mem_cons_self)]
  | without inner => rw [map, map, map_congr (t := inner) h]
  | maybe inner => rw [map, map, map_congr (t := inner) h]
  | any children => rw [map, map, mapAll_congr h]
  | join children => rw [map, map, mapAll_congr h]

/-- Terms are renamed alike if the components that occur are. -/
theorem mapAll_congr {f g : κ → ν} {ts : List (Term κ)}
    (h : ∀ c ∈ allComponents ts, f c = g c) : mapAll f ts = mapAll g ts := by
  cases ts with
  | nil => rfl
  | cons t rest =>
      obtain ⟨ht, hrest⟩ := List.forall_mem_append.1 h
      rw [mapAll, mapAll, map_congr ht, mapAll_congr hrest]

end

end Term

/-! ### Positions -/

namespace Registry

variable {r r' : Registry}

/-- What was registered has a position. -/
theorem isSome_position?_registerAll {ts : List ComponentType} {t : ComponentType} (h : t ∈ ts) :
    ((r.registerAll ts).position? t).isSome = true := by
  induction ts generalizing r with
  | nil => cases h
  | cons first rest ih =>
      rcases List.mem_cons.1 h with rfl | hrest
      · have hpos := (extends_registerAll (r.register t).2 rest).position t _
          (position?_register r t)
        exact Option.isSome_of_eq_some hpos
      · exact ih hrest

theorem Extends.isSome_position? (h : r.Extends r') {t : ComponentType}
    (hpos : (r.position? t).isSome = true) : (r'.position? t).isSome = true := by
  obtain ⟨id, hid⟩ := Option.isSome_iff_exists.1 hpos
  exact Option.isSome_of_eq_some (h.position t id hid)

/-- A type that has a position is not registered anew. -/
theorem Extends.fst_register (h : r.Extends r') {t : ComponentType}
    (hpos : (r.position? t).isSome = true) : (r'.register t).1 = (r.register t).1 := by
  obtain ⟨id, hid⟩ := Option.isSome_iff_exists.1 hpos
  rw [register_of_position? hid, register_of_position? (h.position t id hid)]

/-- **Terms keep what they were resolved to.** -/
theorem Extends.resolve_eq (h : r.Extends r') {ts : List (Term ComponentType)}
    (hts : ∀ t ∈ Term.allComponents ts, (r.position? t).isSome = true) :
    r'.resolve ts = r.resolve ts := by
  apply Term.mapAll_congr
  intro t ht
  rw [h.fst_register (hts t ht)]

end Registry

end EntityStore
