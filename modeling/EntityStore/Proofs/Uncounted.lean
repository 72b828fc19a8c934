import EntityStore.Proofs.Matching

/-!
# Worlds up to access counts

Counting storages count every fetch, also one of an entity that they do not hold.  Apart from the
counts such a fetch does nothing, and the counts never decide anything.

* `World.uncounted` — the world with all counts at zero;
* `World.facets_congr_of_uncounted`, `World.first?_congr_of_uncounted` — what can be seen of an
  entity is the same in worlds that differ in counts only;
* `World.uncounted_ext` — worlds with the same slots, up to counts, are the same up to counts;
* `World.uncounted_fetch_congr` — fetching keeps such worlds together;
* `World.uncounted_fetch_of_not_held` — a fetch of an entity that is not held only counts.
-/

namespace EntityStore

namespace Storage

/-- The storage with its counts at zero, if it has any. -/
def uncounted (s : Storage) : Storage :=
  match s with
  | .counting t table _ => .counting t table {}
  | other => other

theorem facet_uncounted (s : Storage) (e : Entity) : s.uncounted.facet e = s.facet e := by
  cases s <;> rfl

theorem first?_uncounted (s : Storage) (e : Entity) : s.uncounted.first? e = s.first? e := by
  cases s <;> rfl

theorem facet_congr_of_uncounted {s s' : Storage} (h : s.uncounted = s'.uncounted) (e : Entity) :
    s.facet e = s'.facet e := by
  rw [← facet_uncounted, h, facet_uncounted]

theorem uncounted_mapFlags (s : Storage) (f : ChangeFlags → ChangeFlags) :
    (s.mapFlags f).uncounted = s.uncounted.mapFlags f := by
  cases s <;> rfl

/-- A fetch without its counts. -/
theorem uncounted_fetch (s : Storage) (mutable : Bool) (e : Entity) :
    (s.fetch mutable e).uncounted =
      if mutable then s.uncounted.mapTable (·.touch e) else s.uncounted := by
  cases mutable <;> cases s <;> rfl

end Storage

namespace World

/-- The world with all counts at zero. -/
def uncounted (w : World) : World :=
  { w with storages := w.storages.map (Option.map Storage.uncounted) }

theorem storage?_uncounted (w : World) (id : ComponentId) :
    w.uncounted.storage? id = (w.storage? id).map Storage.uncounted :=
  storage?_mapStorages w w.entities Storage.uncounted id

theorem facets_uncounted (w : World) (e : Entity) : w.uncounted.facets e = w.facets e := by
  funext id
  rw [facets]
  rw [storage?_uncounted, Option.map_map]
  congr 1
  funext s
  exact s.facet_uncounted e

theorem facets_congr_of_uncounted {w w' : World} (h : w.uncounted = w'.uncounted) (e : Entity) :
    w.facets e = w'.facets e := by
  rw [← facets_uncounted, h, facets_uncounted]

theorem first?_uncounted (w : World) (id : ComponentId) (e : Entity) :
    (w.uncounted.storage? id).bind (·.first? e) = (w.storage? id).bind (·.first? e) := by
  rw [storage?_uncounted]
  cases w.storage? id with
  | none => rfl
  | some s => exact s.first?_uncounted e

theorem first?_congr_of_uncounted {w w' : World} (h : w.uncounted = w'.uncounted)
    (id : ComponentId) (e : Entity) :
    (w.storage? id).bind (·.first? e) = (w'.storage? id).bind (·.first? e) := by
  rw [← first?_uncounted, h, first?_uncounted]

/-- Worlds with the same slots, up to counts, are the same up to counts. -/
theorem uncounted_ext {w w' : World} (hentities : w.entities = w'.entities)
    (hsize : w.storages.size = w'.storages.size)
    (h : ∀ id, (w.storage? id).map Storage.uncounted = (w'.storage? id).map Storage.uncounted) :
    w.uncounted = w'.uncounted := by
  rw [uncounted, uncounted, hentities]
  congr 1
  apply Array.ext_getElem?
  intro i
  have hslot := h ⟨i⟩
  rw [storage?, storage?] at hslot
  rw [Array.getElem?_map, Array.getElem?_map]
  by_cases hi : i < w.storages.size
  · have hi' : i < w'.storages.size := hsize ▸ hi
    rw [Array.getElem?_eq_getElem hi, Array.getElem?_eq_getElem hi'] at hslot ⊢
    exact congrArg some hslot
  · have hi' : ¬i < w'.storages.size := hsize ▸ hi
    rw [Array.getElem?_eq_none (Nat.le_of_not_lt hi), Array.getElem?_eq_none (Nat.le_of_not_lt hi')]

theorem uncounted_modifyStorage {f g : Storage → Storage} (id : ComponentId)
    (h : ∀ s, (f s).uncounted = g s.uncounted) (w : World) :
    (w.modifyStorage id f).uncounted = w.uncounted.modifyStorage id g := by
  rw [uncounted, uncounted, modifyStorage, modifyStorage]
  congr 1
  apply Array.ext_getElem?
  intro i
  rw [Array.getElem?_map, Array.getElem?_modify, Array.getElem?_modify, Array.getElem?_map]
  split
  · rw [Option.map_map, Option.map_map]
    congr 1
    funext slot
    show (slot.map f).map _ = (slot.map _).map g
    rw [Option.map_map, Option.map_map]
    congr 1
    funext s
    exact h s
  · rfl

theorem uncounted_fetch (w : World) (id : ComponentId) (mutable : Bool) (e : Entity) :
    (w.fetch id mutable e).uncounted =
      w.uncounted.modifyStorage id fun s =>
        if mutable then s.mapTable (·.touch e) else s :=
  uncounted_modifyStorage id (fun s => s.uncounted_fetch mutable e) w

/-- Fetching keeps worlds together that differ in counts only. -/
theorem uncounted_fetch_congr {w w' : World} (h : w.uncounted = w'.uncounted)
    (id : ComponentId) (mutable : Bool) (e : Entity) :
    (w.fetch id mutable e).uncounted = (w'.fetch id mutable e).uncounted := by
  rw [uncounted_fetch, uncounted_fetch, h]

/-- A fetch of an entity that is not held only counts. -/
theorem uncounted_fetch_of_not_held {w : World} {id : ComponentId} {e : Entity}
    (h : ∀ s, w.storage? id = some s → s.contains e = false) (mutable : Bool) :
    (w.fetch id mutable e).uncounted = w.uncounted := by
  rw [uncounted_fetch]
  apply modifyStorage_of_eq_self
  intro s hs
  rw [storage?_uncounted] at hs
  obtain ⟨s₀, hs₀, rfl⟩ := Option.map_eq_some_iff.1 hs
  have habsent : s₀.uncounted.contains e = false := by
    have hfacet := congrArg Facet.held (s₀.facet_uncounted e)
    exact hfacet.trans (h s₀ hs₀)
  rw [Storage.touch_of_not_held habsent]
  split <;> rfl

end World

end EntityStore
