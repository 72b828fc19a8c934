import EntityStore.Proofs.Flagging
import EntityStore.Proofs.Systems

/-!
# Empty storages do not show

A storage that holds nothing and has nothing flagged is like no storage at all.  A world that has
more of them lists, holds and flags the same entities, and stays such a world whatever is fetched,
written or traced in both.

* `Storage.Vacant` — a storage without instances and flags, `vacant_blank` — a new one;
* `World.Roomier` — the same storages, and perhaps more that are vacant;
* `World.roomier_ensureSlot`, `Roomier.modifyStorage`, `Roomier.traceAll` — what leads to such
  worlds and keeps them;
* `World.indistinct_roomier` — matching, fetching and rewriting do not tell them apart;
* `Term.allCandidates_congr_of_roomier` — and neither do candidates.
-/

namespace EntityStore

/-! ### Vacant storages -/

/-- Writing behind an entity that is not there changes nothing. -/
theorem Table.write_of_not_held {α : Type} {t : Table α} {e : Entity} (h : t.contains e = false)
    (f : α → α) : t.write e f = t := by
  rw [contains, SparseSet.contains_eq_isSome_row?, Option.isSome_eq_false_iff,
    Option.isNone_iff_eq_none] at h
  rw [write, SparseSet.modify_of_row?_eq_none h]

namespace Storage

/-- A storage that holds nothing and has nothing flagged. -/
structure Vacant (s : Storage) : Prop where
  valid : s.Valid
  empty : ∀ e, s.contains e = false
  unmarked : ∀ e, s.isMarked e = false

/-- A new storage is vacant. -/
theorem vacant_blank (s : Storage) : s.blank.Vacant where
  valid := s.valid_blank
  empty := s.contains_blank
  unmarked := s.isMarked_blank

namespace Vacant

variable {s s' : Storage}

/-- What inserts nothing and flags nothing leaves a storage vacant. -/
theorem of_within (h : s.Vacant) (hwithin : s'.Within s) (hmarked : ∀ e, s'.isMarked e = false) :
    s'.Vacant where
  valid := hwithin.valid h.valid
  empty e := by
    refine Bool.eq_false_iff.2 fun hheld => ?_
    have hbefore := hwithin.contains h.valid e hheld
    rw [h.empty e] at hbefore
    cases hbefore
  unmarked := hmarked

theorem entities_eq (h : s.Vacant) : s.entities = [] := by
  refine List.eq_nil_iff_forall_not_mem.2 fun e he => ?_
  have hheld := (h.valid.contains_iff_mem e).2 he
  rw [h.empty e] at hheld
  cases hheld

theorem records_eq (h : s.Vacant) {t : ComponentType} (hopens : s.opens t = true) (e : Entity) :
    s.records e = [] := by
  have hheld := h.valid.held_eq hopens e
  rw [h.empty e, eq_comm, decide_eq_false_iff_not, Nat.not_lt, Nat.le_zero] at hheld
  exact List.eq_nil_of_length_eq_zero hheld

/-- A fetch finds nobody to flag. -/
theorem fetch (h : s.Vacant) (m : Bool) (e : Entity) : (s.fetch m e).Vacant := by
  refine h.of_within (s.within_fetch m e) fun e' => ?_
  have hmarked := congrArg Facet.marked (s.facet_fetch m e e')
  simpa [facet, h.empty e, h.unmarked e'] using hmarked

theorem traceFor (h : s.Vacant) (cs : List Column) (id : ComponentId) :
    (s.traceFor cs id).Vacant := by
  rw [Storage.traceFor]
  split
  · refine h.of_within (s.within_mapFlags _) fun e => ?_
    rw [← h.unmarked e]
    cases s <;> rfl
  · exact h

/-- There is nothing to rewrite. -/
theorem rewrite_eq (h : s.Vacant) (all : Bool) (e : Entity) (f : Nat → Record → Record) :
    s.rewrite all e f = s := by
  have hempty := h.empty e
  cases s with
  | batch t rows =>
      exact congrArg (fun table => Storage.batch t { rows with table })
        (Table.write_of_not_held hempty _)
  | dense t table => exact congrArg (Storage.dense t) (Table.write_of_not_held hempty _)
  | counting t table counts =>
      exact congrArg (Storage.counting t · counts) (Table.write_of_not_held hempty _)
  | hidden t table => exact congrArg (Storage.hidden t) (Table.write_of_not_held hempty _)
  | script schema table => rfl

end Vacant

end Storage

/-! ### Worlds with more storages -/

namespace World

/-- The second world has the entities and the storages of the first, and perhaps more storages, all
of them vacant. -/
structure Roomier (w w' : World) : Prop where
  entities : w'.entities = w.entities
  /-- A slot is as it was, or was empty and has a vacant storage now. -/
  slots : ∀ id, w'.storage? id = w.storage? id ∨
    w.storage? id = none ∧ ∃ s, w'.storage? id = some s ∧ s.Vacant

namespace Roomier

variable {w w' w'' : World}

theorem refl (w : World) : w.Roomier w := ⟨rfl, fun _ => .inl rfl⟩

theorem trans (h : w.Roomier w') (h' : w'.Roomier w'') : w.Roomier w'' where
  entities := h'.entities.trans h.entities
  slots id := by
    rcases h'.slots id with hsame | ⟨hnone, hmade⟩
    · rw [hsame]
      exact h.slots id
    · rcases h.slots id with hsame | ⟨hnone', s, hs, _⟩
      · exact .inr ⟨hsame ▸ hnone, hmade⟩
      · rw [hnone] at hs
        cases hs

/-- Doing the same in both worlds keeps them so, if it keeps vacant storages vacant. -/
theorem modifyStorage (h : w.Roomier w') (id : ComponentId) {f : Storage → Storage}
    (hf : ∀ s : Storage, s.Vacant → (f s).Vacant) :
    (w.modifyStorage id f).Roomier (w'.modifyStorage id f) where
  entities := h.entities
  slots id' := by
    rw [storage?_modifyStorage, storage?_modifyStorage]
    split
    · rcases h.slots id' with hsame | ⟨hnone, s, hs, hvacant⟩
      · rw [hsame]
        exact .inl rfl
      · rw [hnone, hs]
        exact .inr ⟨rfl, f s, rfl, hf s hvacant⟩
    · exact h.slots id'

theorem traceAll (h : w.Roomier w') (cs : List Column) :
    (w.traceAll cs).Roomier (w'.traceAll cs) where
  entities := by rw [entities_traceAll, entities_traceAll, h.entities]
  slots id := by
    rw [storage?_traceAll, storage?_traceAll]
    rcases h.slots id with hsame | ⟨hnone, s, hs, hvacant⟩
    · rw [hsame]
      exact .inl rfl
    · rw [hnone, hs]
      exact .inr ⟨rfl, _, rfl, hvacant.traceFor cs id⟩

/-- Switching tracing on in both worlds is no more, if it was done before in the first. -/
theorem traceAll_right {cs : List Column} (h : (w.traceAll cs).Roomier w') :
    (w.traceAll cs).Roomier (w'.traceAll cs) where
  entities := (entities_traceAll w' cs).trans h.entities
  slots id := by
    have hagain : ((w.traceAll cs).storage? id).map (Storage.traceFor cs id) =
        (w.traceAll cs).storage? id := by
      rw [storage?_traceAll, Option.map_map]
      congr 1
      funext s
      exact s.traceFor_traceFor cs id
    rw [← hagain, ← storage?_traceAll]
    exact (h.traceAll cs).slots id

/-- Typed access finds what it found, or a vacant storage where it found none. -/
theorem typed?_cases (h : w.Roomier w') (c : Column) :
    w'.typed? c = w.typed? c ∨
      w.storage? c.id = none ∧ w.typed? c = none ∧
        ∃ s, w'.typed? c = some s ∧ s.Vacant ∧ s.opens c.type = true := by
  rcases h.slots c.id with hsame | ⟨hnone, s, hs, hvacant⟩
  · exact .inl (by rw [typed?, typed?, hsame])
  · have hbefore : w.typed? c = none := by rw [typed?, hnone, Option.filter_none]
    have hafter : w'.typed? c = if s.opens c.type then some s else none := by
      rw [typed?, hs, Option.filter_some]
    cases hopens : s.opens c.type with
    | true =>
        rw [hopens, if_pos rfl] at hafter
        exact .inr ⟨hnone, hbefore, s, hafter, hvacant, hopens⟩
    | false =>
        rw [hopens, if_neg Bool.false_ne_true] at hafter
        exact .inl (hafter.trans hbefore.symm)

/-- What is read of vacant storages as if there were none is the same. -/
theorem read_eq (h : w.Roomier w') (c : Column) {β : Type} {g : Storage → β} {b : β}
    (hg : ∀ s : Storage, s.Vacant → s.opens c.type = true → g s = b) :
    ((w.typed? c).map g).getD b = ((w'.typed? c).map g).getD b := by
  rcases h.typed?_cases c with hsame | ⟨-, hnone, s, hs, hvacant, hopens⟩
  · rw [hsame]
  · rw [hnone, hs]
    exact (hg s hvacant hopens).symm

end Roomier

/-- A new storage in an empty slot makes a world roomier. -/
theorem roomier_ensureSlot (w : World) (id : ComponentId) (s : Storage) :
    w.Roomier (w.ensureSlot id s.blank) where
  entities := rfl
  slots id' := by
    rw [storage?_ensureSlot]
    split
    · cases w.storage? id' with
      | none => exact .inr ⟨rfl, s.blank, rfl, s.vacant_blank⟩
      | some old => exact .inl rfl
    · exact .inl rfl

/-- So do several of them. -/
theorem roomier_foldl_ensureSlot (w : World) (news : List (ComponentId × Storage)) :
    w.Roomier (news.foldl (fun w new => w.ensureSlot new.1 new.2.blank) w) := by
  induction news generalizing w with
  | nil => exact .refl w
  | cons new rest ih => exact (w.roomier_ensureSlot new.1 new.2).trans (ih _)

/-- A fetch finds the same storage in both worlds, or in the second one a vacant storage. -/
theorem Roomier.fetch {st st' : FetchState} (h : st.world.Roomier st'.world) (c : Column)
    (m : Bool) (e : Entity) :
    (st.fetch c m e).2.world.Roomier (st'.fetch c m e).2.world := by
  have hfetch : (st.world.fetch c.id m e).Roomier (st'.world.fetch c.id m e) :=
    h.modifyStorage c.id fun s hs => hs.fetch m e
  rw [FetchState.world_fetch, FetchState.world_fetch]
  rcases h.typed?_cases c with hsame | ⟨hnone, hbefore, s, hs, -, -⟩
  · rw [hsame]
    split
    · exact hfetch
    · exact h
  · rw [hbefore, hs]
    have hsame : st.world.fetch c.id m e = st.world := modifyStorage_of_eq_none hnone _
    rw [hsame] at hfetch
    exact hfetch

/-- **A world with more empty storages cannot be told apart.** -/
theorem indistinct_roomier : Indistinct .everything Roomier where
  semblance e := {
    held := fun {_ _ c} h _ => h.read_eq c fun _ hs _ => hs.empty e
    marked := fun {_ _ c} h _ => h.read_eq c fun _ hs _ => hs.unmarked e
    count := fun {_ _ c} h _ =>
      congrArg List.length (h.read_eq c fun _ hs hopens => hs.records_eq hopens e)
    fetch := fun {_ _ c m} h _ => h.fetch c m e }
  values {_ _ c} h _ e := h.read_eq c fun _ hs hopens => hs.records_eq hopens e
  rewriteStorage {_ _ id} h _ all e f := by
    refine h.modifyStorage id fun s hs => ?_
    rwa [hs.rewrite_eq]

end World

theorem Term.allCandidates_congr_of_roomier {w w' : World} (h : w.Roomier w')
    (ts : List (Term Column)) : allCandidates w ts = allCandidates w' ts :=
  allCandidates_congr_of_listed fun c _ => h.read_eq c fun _ hs _ => hs.entities_eq

end EntityStore
