import EntityStore.Proofs.Facet
import EntityStore.Proofs.Footprint

/-!
# Matching and fetching

Whether an entity matches a term, what the term delivers for it and what the fetch does to it
depend on the facets of the entity only, and of these only on the components that the term looks
at.  In a valid world a term delivers exactly if it matches when its turn comes; so a row is
delivered unless the fetches of earlier terms make a later one miss.

* `Semblance` — related worlds show the same of an entity within a footprint;
* `Semblance.holds`, `Semblance.fetchRow` — matching and fetching do not tell them apart;
* `Sight`, `Sight.semblance` — the same where also the storages are the same ones;
* `Term.holds_congr`, `fetchRow_alike` — so they depend on the facets;
* `Term.isSome_fetch` — a term delivers exactly if it matches;
* `Spoiled`, `isSome_fetchRow_iff` — when a row is not delivered although its entity matches.
-/

namespace EntityStore

/-! ### Matching -/

theorem BoundTerm.holds_changed_iff {w : World} {e : Entity} {inner : BoundTerm Column} :
    BoundTerm.holds w e (.changed inner) = true ↔
      inner.holds w e = true ∧ w.isMarked inner.column e = true :=
  Bool.and_eq_true_iff

/-- Matching looks at presence, and at the flags of the traced components. -/
theorem BoundTerm.holds_congr_of_traced {w w' : World} {e : Entity} {q : BoundTerm Column}
    (hheld : w.holds q.column e = w'.holds q.column e)
    (hmarked : ∀ c ∈ q.traced, w.isMarked c e = w'.isMarked c e) :
    q.holds w e = q.holds w' e := by
  induction q with
  | component c m => exact hheld
  | maybe inner ih => rfl
  | changed inner ih =>
      rw [BoundTerm.holds, BoundTerm.holds]
      rw [BoundTerm.traced] at hmarked
      rw [hmarked inner.column (by simp), ih hheld]
      intro c hc
      exact hmarked c (List.mem_append_left _ hc)

namespace Term

mutual

theorem holds_congr_of_traced {w w' : World} {e : Entity} {t : Term Column}
    (hheld : ∀ c ∈ t.components, w.holds c e = w'.holds c e)
    (hmarked : ∀ c ∈ t.traced, w.isMarked c e = w'.isMarked c e) :
    t.holds w e = t.holds w' e := by
  cases t with
  | entity => rfl
  | single q => exact BoundTerm.holds_congr_of_traced (hheld _ List.mem_cons_self) hmarked
  | batch q => exact BoundTerm.holds_congr_of_traced (hheld _ List.mem_cons_self) hmarked
  | without inner =>
      rw [Term.holds, Term.holds]
      rw [holds_congr_of_traced (t := inner) hheld hmarked]
  | maybe inner => rfl
  | any children =>
      rw [Term.holds, Term.holds]
      rw [countHolds_congr_of_traced hheld hmarked]
  | join children =>
      rw [Term.holds, Term.holds]
      rw [countHolds_congr_of_traced hheld hmarked]

theorem countHolds_congr_of_traced {w w' : World} {e : Entity} {ts : List (Term Column)}
    (hheld : ∀ c ∈ allComponents ts, w.holds c e = w'.holds c e)
    (hmarked : ∀ c ∈ allTraced ts, w.isMarked c e = w'.isMarked c e) :
    countHolds w e ts = countHolds w' e ts := by
  cases ts with
  | nil => rfl
  | cons t rest =>
      obtain ⟨hheld, hheldRest⟩ := List.forall_mem_append.1 hheld
      obtain ⟨hmarked, hmarkedRest⟩ := List.forall_mem_append.1 hmarked
      rw [countHolds, countHolds]
      rw [holds_congr_of_traced hheld hmarked, countHolds_congr_of_traced hheldRest hmarkedRest]

end

end Term

/-! ### Semblance -/

/-- Related worlds show the same of an entity, as far as the components of a footprint go; and
fetching the entity within the footprint keeps worlds related, whether or not it finds storages in
both of them. -/
structure Semblance (e : Entity) (p : Footprint) (R : World → World → Prop) : Prop where
  held : ∀ {w w' : World} {c : Column}, R w w' → p.known c.id → w.holds c e = w'.holds c e
  marked : ∀ {w w' : World} {c : Column}, R w w' → p.known c.id →
    w.isMarked c e = w'.isMarked c e
  count : ∀ {w w' : World} {c : Column}, R w w' → p.known c.id →
    (w.values c e).length = (w'.values c e).length
  fetch : ∀ {st st' : FetchState} {c : Column} {m : Bool}, R st.world st'.world →
    p.Allows c.id m → R (st.fetch c m e).2.world (st'.fetch c m e).2.world

namespace Semblance

variable {e : Entity} {p : Footprint} {R : World → World → Prop} {w w' : World}

theorem holds_bound (hs : Semblance e p R) (h : R w w') {q : BoundTerm Column}
    (hq : p.known q.column.id) : q.holds w e = q.holds w' e := by
  refine BoundTerm.holds_congr_of_traced (hs.held h hq) ?_
  intro c hc
  rw [BoundTerm.eq_column_of_mem_traced hc]
  exact hs.marked h hq

theorem holds (hs : Semblance e p R) (h : R w w') {readOnly : Bool} {t : Term Column}
    (ht : p.AllowsAll (t.accesses readOnly)) : t.holds w e = t.holds w' e := by
  have hknown := Footprint.known_of_mem_components ht
  exact Term.holds_congr_of_traced (fun c hc => hs.held h (hknown c hc))
    fun c hc => hs.marked h (hknown c (t.traced_subset hc))

theorem allHold (hs : Semblance e p R) (h : R w w') {ts : List (Term Column)}
    (hts : p.AllowsAll (Term.allAccesses false ts)) :
    Term.allHold w e ts = Term.allHold w' e ts := by
  induction ts with
  | nil => rfl
  | cons t rest ih =>
      obtain ⟨ht, hrest⟩ := List.forall_mem_append.1 hts
      show (t.holds w e && Term.allHold w e rest) = (t.holds w' e && Term.allHold w' e rest)
      rw [hs.holds h ht, ih hrest]

end Semblance

/-! ### Fetching depends on what is shown -/

namespace FetchState

/-- Two outcomes deliver the same and leave related worlds. -/
def Alike {α : Type} (R : World → World → Prop) (r r' : α × FetchState) : Prop :=
  r.1 = r'.1 ∧ R r.2.world r'.2.world

variable {e : Entity} {p : Footprint} {R : World → World → Prop} {st st' : FetchState}

theorem Alike.map {α β : Type} {r r' : α × FetchState} (h : Alike R r r') (f : α → β) :
    Alike R (f r.1, r.2) (f r'.1, r'.2) :=
  ⟨congrArg f h.1, h.2⟩

/-- Two choices made alike. -/
theorem alike_ite {α : Type} {b b' : Bool} {x x' y y' : α × FetchState}
    (hb : b = b') (hx : Alike R x x') (hy : Alike R y y') :
    Alike R (if b then x else y) (if b' then x' else y') := by
  subst hb
  split
  · exact hx
  · exact hy

/-- An instance is found if there is one. -/
theorem fst_fetch (st : FetchState) (c : Column) (m : Bool) (e : Entity) :
    (st.fetch c m e).1 = decide (0 < (st.world.values c e).length) := by
  rw [fetch, World.values]
  cases st.world.typed? c with
  | none => rfl
  | some storage =>
      show (!(storage.records e).isEmpty) = decide (0 < (storage.records e).length)
      cases storage.records e with
      | nil => rfl
      | cons first rest => simp

theorem world_fetch (st : FetchState) (c : Column) (m : Bool) (e : Entity) :
    (st.fetch c m e).2.world =
      if (st.world.typed? c).isSome then st.world.fetch c.id m e else st.world := by
  rw [fetch]
  cases st.world.typed? c with
  | none => rfl
  | some storage => rfl

end FetchState

/-- Related worlds look the same, as far as an entity and the components of a footprint go; and
fetching the entity within the footprint keeps worlds related. -/
structure Sight (e : Entity) (p : Footprint) (R : World → World → Prop) : Prop where
  found : ∀ {w w' : World} {c : Column}, R w w' → p.known c.id →
    (w.typed? c).isSome = (w'.typed? c).isSome
  held : ∀ {w w' : World} {c : Column}, R w w' → p.known c.id → w.holds c e = w'.holds c e
  marked : ∀ {w w' : World} {c : Column}, R w w' → p.known c.id →
    w.isMarked c e = w'.isMarked c e
  count : ∀ {w w' : World} {c : Column}, R w w' → p.known c.id →
    (w.values c e).length = (w'.values c e).length
  fetch : ∀ {w w' : World} {c : Column} {m : Bool}, R w w' → p.Allows c.id m →
    R (w.fetch c.id m e) (w'.fetch c.id m e)

theorem Sight.semblance {e : Entity} {p : Footprint} {R : World → World → Prop}
    (hs : Sight e p R) : Semblance e p R where
  held := hs.held
  marked := hs.marked
  count := hs.count
  fetch h hc := by
    rw [FetchState.world_fetch, FetchState.world_fetch, hs.found h hc.1]
    split
    · exact hs.fetch h hc
    · exact h

namespace FetchState

variable {e : Entity} {p : Footprint} {R : World → World → Prop} {st st' : FetchState}

theorem fetch_alike (hs : Semblance e p R) (h : R st.world st'.world) {c : Column} {m : Bool}
    (hc : p.Allows c.id m) : Alike R (st.fetch c m e) (st'.fetch c m e) := by
  refine ⟨?_, hs.fetch h hc⟩
  rw [fst_fetch, fst_fetch, hs.count h hc.1]

end FetchState

open FetchState

namespace BoundTerm

variable {e : Entity} {p : Footprint} {R : World → World → Prop} {st st' : FetchState}
  {q : BoundTerm Column}

theorem fetch_alike (hs : Semblance e p R) (h : R st.world st'.world)
    (hq : p.Allows q.column.id q.mutable) : Alike R (q.fetch e st) (q.fetch e st') := by
  induction q with
  | component c m =>
      rw [fetch_component, fetch_component]
      exact (FetchState.fetch_alike hs h hq).map fun found => if found then some _ else none
  | maybe inner ih =>
      rw [fetch_maybe, fetch_maybe]
      refine alike_ite (hs.holds_bound h hq.1) ?_ ⟨rfl, h⟩
      exact (ih hq).map fun delivered => some ((delivered.map Slot.present).getD .absent)
  | changed inner ih =>
      rw [fetch_changed, fetch_changed]
      exact alike_ite (hs.holds_bound h hq.1) (ih hq) ⟨rfl, h⟩

theorem fetchPayload_alike (hs : Semblance e p R) (h : R st.world st'.world)
    (hq : p.Allows q.column.id q.mutable) :
    Alike R (q.fetchPayload e st) (q.fetchPayload e st') := by
  induction q with
  | component c m =>
      rw [fetchPayload_component, fetchPayload_component]
      exact (FetchState.fetch_alike hs h hq).map fun found =>
        if found then Payload.one c.id c.type m e else .null
  | maybe inner ih =>
      rw [fetchPayload_maybe, fetchPayload_maybe]
      exact alike_ite (hs.holds_bound h hq.1) (ih hq) ⟨rfl, h⟩
  | changed inner ih =>
      rw [fetchPayload_changed, fetchPayload_changed]
      exact alike_ite (hs.holds_bound h hq.1) (ih hq) ⟨rfl, h⟩

theorem fetchAll_alike (hs : Semblance e p R) (h : R st.world st'.world)
    (hq : p.Allows q.column.id q.mutable) : Alike R (q.fetchAll e st) (q.fetchAll e st') := by
  induction q with
  | component c m =>
      rw [fetchAll_component, fetchAll_component]
      exact alike_ite (hs.held h hq.1) ⟨rfl, (FetchState.fetch_alike hs h hq).2⟩ ⟨rfl, h⟩
  | maybe inner ih =>
      rw [fetchAll_maybe, fetchAll_maybe]
      refine alike_ite (hs.holds_bound h hq.1) ?_ ⟨rfl, h⟩
      exact (ih hq).map fun delivered => some (delivered.getD _)
  | changed inner ih =>
      rw [fetchAll_changed, fetchAll_changed]
      exact alike_ite (hs.holds_bound h hq.1) (ih hq) ⟨rfl, h⟩

theorem fetchAllPayload_alike (hs : Semblance e p R) (h : R st.world st'.world)
    (hq : p.Allows q.column.id q.mutable) :
    Alike R (q.fetchAllPayload e st) (q.fetchAllPayload e st') := by
  induction q with
  | component c m =>
      have hfetch := (FetchState.fetch_alike hs h hq).2
      have hcount : (st.fetch c m e).2.count c e = (st'.fetch c m e).2.count c e :=
        hs.count hfetch hq.1
      rw [fetchAllPayload_component, fetchAllPayload_component, hcount]
      exact alike_ite (hs.held h hq.1) ⟨rfl, hfetch⟩ ⟨rfl, h⟩
  | maybe inner ih =>
      rw [fetchAllPayload_maybe, fetchAllPayload_maybe]
      exact alike_ite (hs.holds_bound h hq.1) (ih hq) ⟨rfl, h⟩
  | changed inner ih =>
      rw [fetchAllPayload_changed, fetchAllPayload_changed]
      exact alike_ite (hs.holds_bound h hq.1) (ih hq) ⟨rfl, h⟩

end BoundTerm

namespace Term

variable {e : Entity} {p : Footprint} {R : World → World → Prop} {st st' : FetchState}

mutual

theorem fetchPayload_alike (hs : Semblance e p R) (h : R st.world st'.world) {t : Term Column}
    (ht : p.AllowsAll (t.accesses false)) :
    Alike R (t.fetchPayload e st) (t.fetchPayload e st') := by
  cases t with
  | entity => exact ⟨rfl, h⟩
  | single q => exact BoundTerm.fetchPayload_alike hs h (Footprint.allows_access_false ht)
  | batch q => exact BoundTerm.fetchAllPayload_alike hs h (Footprint.allows_access_false ht)
  | without inner => exact ⟨rfl, h⟩
  | maybe inner =>
      rw [fetchPayload_maybe, fetchPayload_maybe]
      exact alike_ite (hs.holds (t := inner) h ht) (fetchPayload_alike (t := inner) hs h ht)
        ⟨rfl, h⟩
  | any children => exact fetchFirstPayload_alike hs h ht
  | join children =>
      rw [fetchPayload_join, fetchPayload_join]
      exact alike_ite (hs.holds h ht) (fetchFirstPayload_alike hs h ht) ⟨rfl, h⟩

theorem fetchFirstPayload_alike (hs : Semblance e p R) (h : R st.world st'.world)
    {ts : List (Term Column)} (hts : p.AllowsAll (allAccesses false ts)) :
    Alike R (fetchFirstPayload e ts st) (fetchFirstPayload e ts st') := by
  cases ts with
  | nil => exact ⟨rfl, h⟩
  | cons t rest =>
      obtain ⟨ht, hrest⟩ := List.forall_mem_append.1 hts
      rw [fetchFirstPayload_cons, fetchFirstPayload_cons]
      exact alike_ite (hs.holds h ht) (fetchPayload_alike hs h ht)
        (fetchFirstPayload_alike hs h hrest)

end

theorem fetch_alike (hs : Semblance e p R) (h : R st.world st'.world) {t : Term Column}
    (ht : p.AllowsAll (t.accesses false)) :
    Alike R (t.fetch e st) (t.fetch e st') := by
  cases t with
  | entity => exact ⟨rfl, h⟩
  | single q => exact BoundTerm.fetch_alike hs h (Footprint.allows_access_false ht)
  | batch q => exact BoundTerm.fetchAll_alike hs h (Footprint.allows_access_false ht)
  | without inner =>
      refine ⟨?_, h⟩
      show (if inner.holds _ e then none else some Slot.absent) =
        (if inner.holds _ e then none else some Slot.absent)
      rw [hs.holds (t := inner) h ht]
  | maybe inner =>
      rw [fetch_maybe, fetch_maybe]
      refine alike_ite (hs.holds (t := inner) h ht) ?_ ⟨rfl, h⟩
      exact (fetch_alike (t := inner) hs h ht).map fun delivered =>
        some ((delivered.map Slot.present).getD .absent)
  | any children =>
      rw [fetch_any, fetch_any]
      refine alike_ite (hs.holds h ht) ?_ ⟨rfl, h⟩
      exact (fetchFirstPayload_alike hs h ht).map fun p => some (Slot.erased p)
  | join children =>
      rw [fetch_join, fetch_join]
      refine alike_ite (hs.holds h ht) ?_ ⟨rfl, h⟩
      exact (fetchFirstPayload_alike hs h ht).map fun p => some (Slot.erased p)

end Term

/-- **A row depends on what is shown only.** -/
theorem Semblance.fetchRow {e : Entity} {p : Footprint} {R : World → World → Prop}
    (hs : Semblance e p R) {st st' : FetchState} (h : R st.world st'.world)
    {ts : List (Term Column)} (hts : p.AllowsAll (Term.allAccesses false ts)) :
    Alike R (fetchRow e ts st) (fetchRow e ts st') := by
  induction ts generalizing st st' with
  | nil => exact ⟨rfl, h⟩
  | cons t rest ih =>
      obtain ⟨ht, hrest⟩ := List.forall_mem_append.1 hts
      obtain ⟨hdelivered, hleft⟩ := Term.fetch_alike hs h ht
      rcases hfetch : t.fetch e st with ⟨delivered, st₁⟩
      rcases hfetch' : t.fetch e st' with ⟨delivered', st₁'⟩
      rw [hfetch, hfetch'] at hdelivered hleft
      cases hdelivered
      cases delivered with
      | none =>
          rw [fetchRow_cons_of_none hfetch, fetchRow_cons_of_none hfetch']
          exact ⟨rfl, hleft⟩
      | some slot =>
          rw [fetchRow_cons_of_some hfetch, fetchRow_cons_of_some hfetch']
          exact (ih hleft hrest).map fun row => row.map (slot :: ·)

/-! ### The facets are what is in sight -/

def Footprint.everything : Footprint where
  known _ := True
  written _ := True

theorem Footprint.allowsAll_everything {accesses : List (Column × Bool)} :
    everything.AllowsAll accesses :=
  fun _ _ => ⟨trivial, fun _ => trivial⟩

theorem World.holds_congr {w w' : World} {e : Entity} (h : w.facets e = w'.facets e)
    (c : Column) : w.holds c e = w'.holds c e := by
  rw [World.holds_eq, World.holds_eq, h]

theorem World.isMarked_congr {w w' : World} {e : Entity} (h : w.facets e = w'.facets e)
    (c : Column) : w.isMarked c e = w'.isMarked c e := by
  rw [World.isMarked_eq, World.isMarked_eq, h]

/-- Worlds with the same facets of an entity look the same, as far as it goes. -/
theorem sight_facets (e : Entity) :
    Sight e .everything fun w w' => w.facets e = w'.facets e where
  found {w w' c} h _ := by rw [World.isSome_typed?_eq, World.isSome_typed?_eq, h]
  held {w w' c} h _ := World.holds_congr h c
  marked {w w' c} h _ := World.isMarked_congr h c
  count {w w' c} h _ := by rw [World.length_values_eq, World.length_values_eq, h]
  fetch {w w' c m} h _ := by rw [World.facets_fetch_self, World.facets_fetch_self, h]

namespace Term

theorem allHold_congr {w w' : World} {e : Entity} (h : w.facets e = w'.facets e)
    (ts : List (Term Column)) : allHold w e ts = allHold w' e ts :=
  (sight_facets e).semblance.allHold h Footprint.allowsAll_everything

end Term

theorem fetchRow_alike {e : Entity} {st st' : FetchState}
    (h : st.world.facets e = st'.world.facets e) (ts : List (Term Column)) :
    Alike (fun w w' => w.facets e = w'.facets e) (fetchRow e ts st) (fetchRow e ts st') :=
  (sight_facets e).semblance.fetchRow h Footprint.allowsAll_everything

/-- The fetches that were noted before do not matter. -/
theorem fst_fetchRow_eq (e : Entity) (ts : List (Term Column)) (st : FetchState) :
    (fetchRow e ts st).1 = (fetchRow e ts { world := st.world }).1 := by
  let st' : FetchState := { world := st.world }
  have hfacets : st.world.facets e = st'.world.facets e := rfl
  exact (fetchRow_alike hfacets ts).1

/-! ### A term delivers exactly if it matches -/

/-- A storage that typed access finds holds an entity exactly if it has a record of it. -/
theorem Storage.Valid.held_eq {s : Storage} (h : s.Valid) {t : ComponentType}
    (hopens : s.opens t = true) (e : Entity) :
    s.contains e = decide (0 < (s.records e).length) := by
  have htable : ∀ {table : Table Record}, table.set.Valid →
      table.contains e = decide (0 < (table.get? e).toList.length) := by
    intro table hvalid
    show table.set.contains e = _
    rw [← hvalid.isSome_get?]
    show (table.get? e).isSome = _
    cases table.get? e <;> simp
  cases s with
  | dense u table => exact htable h
  | counting u table counts => exact htable h
  | batch u rows =>
      show rows.table.set.contains e = decide (0 < (rows.instances e).length)
      rw [← h.set.isSome_get?]
      rw [BatchTable.instances, Table.get?]
      cases hget : rows.table.set.get? e with
      | none => rfl
      | some l =>
          have hpos := List.length_pos_iff.2 (h.ne_nil l (SparseSet.mem_rows_of_get? hget))
          simp [hpos]
  | hidden u table => cases hopens
  | script schema table => cases hopens

theorem World.Valid.holds_eq_found {w : World} (h : w.Valid) (c : Column) (e : Entity) :
    w.holds c e = decide (0 < (w.values c e).length) := by
  rw [World.holds, World.values]
  cases htyped : w.typed? c with
  | none => rfl
  | some s =>
      obtain ⟨hstorage, hopens⟩ := Option.filter_eq_some_iff.1 htyped
      exact (h.storage c.id s hstorage).held_eq hopens e

/-- There is a first instance of what is held. -/
theorem World.Valid.isSome_value?_eq {w : World} (h : w.Valid) (c : Column) (e : Entity) :
    (w.value? c e).isSome = w.holds c e := by
  rw [h.holds_eq_found, World.value?]
  cases w.values c e with
  | nil => rfl
  | cons first rest => simp

/-- What is delivered only to those that match. -/
theorem isSome_fst_ite {α β : Type} {b : Bool} {x : Option α × β} {y : β}
    (hx : b = true → x.1.isSome = true) : (if b then x else (none, y)).1.isSome = b := by
  cases b with
  | false => rfl
  | true => exact hx rfl

namespace BoundTerm

variable {st : FetchState}

theorem isSome_fetch (h : st.world.Valid) (q : BoundTerm Column) (e : Entity) :
    (q.fetch e st).1.isSome = q.holds st.world e := by
  induction q with
  | component c m =>
      rw [fetch_component, fst_fetch, ← h.holds_eq_found]
      show _ = st.world.holds c e
      cases st.world.holds c e <;> rfl
  | maybe inner ih =>
      rw [fetch_maybe]
      split <;> rfl
  | changed inner ih =>
      rw [fetch_changed]
      refine isSome_fst_ite ?_
      intro hholds
      rw [ih]
      exact (holds_changed_iff.1 hholds).1

theorem isSome_fetchAll (q : BoundTerm Column) (e : Entity) :
    (q.fetchAll e st).1.isSome = q.holds st.world e := by
  induction q with
  | component c m =>
      rw [fetchAll_component]
      exact isSome_fst_ite fun _ => rfl
  | maybe inner ih =>
      rw [fetchAll_maybe]
      split <;> rfl
  | changed inner ih =>
      rw [fetchAll_changed]
      refine isSome_fst_ite ?_
      intro hholds
      rw [ih]
      exact (holds_changed_iff.1 hholds).1

end BoundTerm

/-- **A term delivers exactly if it matches.** -/
theorem Term.isSome_fetch {st : FetchState} (h : st.world.Valid) (t : Term Column) (e : Entity) :
    (t.fetch e st).1.isSome = t.holds st.world e := by
  cases t with
  | entity => rfl
  | single q => exact q.isSome_fetch h e
  | batch q => exact q.isSome_fetchAll e
  | without inner =>
      rw [Term.fetch, Term.holds]
      cases inner.holds st.world e <;> rfl
  | maybe inner =>
      rw [fetch_maybe]
      split <;> rfl
  | any children =>
      rw [fetch_any]
      exact isSome_fst_ite fun _ => rfl
  | join children =>
      rw [fetch_join]
      exact isSome_fst_ite fun _ => rfl

/-! ### Rows that are not delivered -/

/-- What `fetchRow` delivers, one term at a time. -/
theorem isSome_fetchRow_cons (e : Entity) (t : Term Column) (rest : List (Term Column))
    (st : FetchState) :
    (fetchRow e (t :: rest) st).1.isSome =
      ((t.fetch e st).1.isSome && (fetchRow e rest (t.fetch e st).2).1.isSome) := by
  rcases hfetch : t.fetch e st with ⟨delivered, st'⟩
  cases delivered with
  | none =>
      rw [fetchRow_cons_of_none hfetch]
      rfl
  | some slot =>
      rw [fetchRow_cons_of_some hfetch]
      exact Option.isSome_map

/-- A term that matches delivers, so the row goes on after it. -/
theorem snd_fetchRow_cons_of_holds {st : FetchState} (h : st.world.Valid) {t : Term Column}
    {e : Entity} (hholds : t.holds st.world e = true) (rest : List (Term Column)) :
    (fetchRow e (t :: rest) st).2 = (fetchRow e rest (t.fetch e st).2).2 := by
  have hsome := Term.isSome_fetch h t e
  rw [hholds] at hsome
  obtain ⟨slot, hslot⟩ := Option.isSome_iff_exists.1 hsome
  have hfetch : t.fetch e st = (some slot, (t.fetch e st).2) := Prod.ext hslot rfl
  rw [fetchRow_cons_of_some hfetch]

/-- For some term the entity misses, once the terms before it were fetched. -/
def Spoiled (ts : List (Term Column)) (w : World) (e : Entity) : Prop :=
  ∃ before t after, ts = before ++ t :: after ∧
    t.holds (fetchRow e before { world := w }).2.world e = false

/-- **A row is delivered unless it is spoiled.** -/
theorem isSome_fetchRow_iff {st : FetchState} (h : st.world.Valid) (ts : List (Term Column))
    (e : Entity) :
    (fetchRow e ts st).1.isSome = true ↔
      ∀ before t after, ts = before ++ t :: after →
        t.holds (fetchRow e before st).2.world e = true := by
  induction ts generalizing st with
  | nil => simp [fetchRow]
  | cons t rest ih =>
      have hvalid := (World.within_fetchTerm e t st).valid h
      rw [isSome_fetchRow_cons, Term.isSome_fetch h, Bool.and_eq_true, ih hvalid]
      constructor
      · rintro ⟨hfirst, hrest⟩ before u after hsplit
        cases before with
        | nil =>
            cases hsplit
            exact hfirst
        | cons first before =>
            cases hsplit
            rw [snd_fetchRow_cons_of_holds h hfirst]
            exact hrest before u after rfl
      · intro hall
        have hfirst : t.holds st.world e = true := hall [] t rest rfl
        refine ⟨hfirst, ?_⟩
        intro before u after hsplit
        have hlater := hall (t :: before) u after (by rw [hsplit]; rfl)
        rw [snd_fetchRow_cons_of_holds h hfirst] at hlater
        exact hlater

theorem fetchRow_eq_none_iff {w : World} (h : w.Valid) (ts : List (Term Column)) (e : Entity) :
    (fetchRow e ts { world := w }).1 = none ↔ Spoiled ts w e := by
  rw [← Option.not_isSome_iff_eq_none, isSome_fetchRow_iff h]
  rw [Spoiled]
  push Not
  simp only [Bool.not_eq_true]

end EntityStore
