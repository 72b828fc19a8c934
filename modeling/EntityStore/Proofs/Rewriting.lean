import EntityStore.Proofs.Locality

/-!
# Rewriting rows

What a system does with a row: it reads the instances behind the slots, and changes those that it
may write, each as it likes and from all that it has read.  A row is made of what its terms look
at, so neither leads out of their footprint.

* `Reach`, `Slot.reach?` — the instances behind a slot;
* `Row.contents`, `RowUpdate`, `Row.rewrite` — reading a row, and rewriting it from its contents;
* `Row.rewrite_const` — an update that makes the same of every instance is `updateRow`;
* `Footprint.AllowsRow`, `Footprint.allowsRow_of_fetchRow` — what a row hands out is looked at;
* `Indistinct`, `Indistinct.rewrite` — worlds that reading and rewriting do not tell apart;
* `World.indistinct_agreeOn` — worlds that agree within the footprint are such;
* `World.Confined.rewrite` — and changes no more than may be written.
-/

namespace EntityStore

/-! ### Instances of a storage -/

namespace Storage

/-- Changes the records of an entity, each by its position, or only the first of them, through an
earlier fetch for writing. -/
def rewrite (all : Bool) (e : Entity) (f : Nat → Record → Record) (s : Storage) : Storage :=
  match s with
  | .batch t rows =>
    let change := if all then List.mapIdx f else List.modifyHead (f 0)
    .batch t { rows with table := rows.table.write e change }
  | other => other.writeAll e (f 0)

theorem rewrite_all_const (s : Storage) (e : Entity) (f : Record → Record) :
    s.rewrite true e (fun _ => f) = s.writeAll e f := by
  have hmap : (List.mapIdx fun _ => f) = List.map f := by
    funext l
    induction l with
    | nil => rfl
    | cons record rest ih => rw [List.mapIdx_cons, ih, List.map_cons]
  cases s with
  | batch t rows => rw [rewrite, writeAll, if_pos rfl, hmap]
  | _ => rfl

theorem rewrite_first (s : Storage) (e : Entity) (f : Nat → Record → Record) :
    s.rewrite false e f = s.writeFirst e (f 0) := by
  cases s <;> rfl

theorem uncounted_rewrite (all : Bool) (e : Entity) (f : Nat → Record → Record) (s : Storage) :
    (s.rewrite all e f).uncounted = s.uncounted.rewrite all e f := by
  cases s <;> rfl

end Storage

/-! ### Instances behind a slot -/

/-- Instances of an entity that a slot leads to. -/
structure Reach where
  column : Column
  entity : Entity
  mutable : Bool
  all : Bool

namespace Reach

def place (x : Reach) : Place :=
  ⟨x.column.id, x.entity, x.mutable⟩

def contents (x : Reach) (w : World) : List Record :=
  if x.all then w.values x.column x.entity else (w.value? x.column x.entity).toList

/-- Changes the instances if they may be written, each by its position. -/
def rewrite (f : Nat → Record → Record) (x : Reach) (w : World) : World :=
  if x.mutable then w.modifyStorage x.column.id (·.rewrite x.all x.entity f) else w

end Reach

namespace Slot

/-- The instances behind a slot, if there are any. -/
def reach? : Slot → Option Reach
  | .component c m e => some ⟨c, e, m, false⟩
  | .absent | .entity _ | .batch _ _ none | .erased .null => none
  | .present slot => slot.reach?
  | .batch c m (some e) => some ⟨c, e, m, true⟩
  | .erased (.one id t m e) => some ⟨⟨t, id⟩, e, m, false⟩
  | .erased (.many id t m e _) => some ⟨⟨t, id⟩, e, m, true⟩

def contents (w : World) (slot : Slot) : List Record :=
  slot.reach?.elim [] (·.contents w)

/-- Changes the instances behind a slot, each by its position. -/
def rewrite (f : Nat → Record → Record) (slot : Slot) (w : World) : World :=
  slot.reach?.elim w (·.rewrite f w)

theorem places_eq (slot : Slot) : slot.places = slot.reach?.toList.map Reach.place := by
  induction slot with
  | present slot ih => exact ih
  | batch c m e => cases e <;> rfl
  | erased p => cases p <;> rfl
  | _ => rfl

theorem rewrite_of_reach? {slot : Slot} {x : Reach} (h : slot.reach? = some x)
    (f : Record → Record) (w : World) :
    slot.rewrite (fun _ => f) w =
      if x.mutable then
        if x.all then w.writeAll x.column.id x.entity f else w.writeFirst x.column.id x.entity f
      else w := by
  rw [rewrite, h, Option.elim_some, Reach.rewrite]
  cases x.all with
  | true =>
      have hall : Storage.rewrite true x.entity (fun _ => f) = (·.writeAll x.entity f) :=
        funext fun s => s.rewrite_all_const x.entity f
      rw [hall]
      rfl
  | false =>
      have hfirst : Storage.rewrite false x.entity (fun _ => f) = (·.writeFirst x.entity f) :=
        funext fun s => s.rewrite_first x.entity fun _ => f
      rw [hfirst]
      rfl

theorem rewrite_const (f : Record → Record) (slot : Slot) (w : World) :
    slot.rewrite (fun _ => f) w = slot.update f w := by
  induction slot with
  | present slot ih => exact ih
  | component c m e =>
      rw [rewrite_of_reach? (x := ⟨c, e, m, false⟩) rfl]
      cases m <;> rfl
  | batch c m e =>
      cases e with
      | none => cases m <;> rfl
      | some e =>
          rw [rewrite_of_reach? (x := ⟨c, e, m, true⟩) rfl]
          cases m <;> rfl
  | erased p =>
      cases p with
      | null => rfl
      | one id t m e =>
          rw [rewrite_of_reach? (x := ⟨⟨t, id⟩, e, m, false⟩) rfl]
          cases m <;> rfl
      | many id t m e n =>
          rw [rewrite_of_reach? (x := ⟨⟨t, id⟩, e, m, true⟩) rfl]
          cases m <;> rfl
  | _ => rfl

end Slot

/-! ### Rows -/

/-- What a system makes of an instance: from the row and the contents of its slots, by the number
of the slot and the position of the instance. -/
abbrev RowUpdate := Row → List (List Record) → Nat → Nat → Record → Record

namespace Row

def contents (row : Row) (w : World) : List (List Record) :=
  row.map (Slot.contents w)

/-- Changes the instances behind the slots, which are numbered from `k` on. -/
def rewriteFrom (f : Nat → Nat → Record → Record) : Nat → Row → World → World
  | _, [], w => w
  | k, slot :: rest, w => rewriteFrom f (k + 1) rest (slot.rewrite (f k) w)

/-- Changes the instances behind the slots that may be written, from the contents of the row. -/
def rewrite (u : RowUpdate) (row : Row) (w : World) : World :=
  rewriteFrom (u row (row.contents w)) 0 row w

/-- An update that makes the same of every instance. -/
theorem rewrite_const (f : Record → Record) (row : Row) (w : World) :
    row.rewrite (fun _ _ _ _ => f) w = updateRow f row w := by
  have hfrom : ∀ k, rewriteFrom (fun _ _ => f) k row w = updateRow f row w := by
    induction row generalizing w with
    | nil => exact fun _ => rfl
    | cons slot rest ih =>
        intro k
        rw [rewriteFrom, Slot.rewrite_const]
        exact ih _ (k + 1)
  exact hfrom 0

end Row

/-! ### Rows within a footprint -/

/-- What the row hands out may be looked at, and written if it is handed out for that. -/
def Footprint.AllowsRow (p : Footprint) (row : Row) : Prop :=
  ∀ place ∈ row.places, p.Allows place.component place.mutable

namespace Footprint

variable {p : Footprint}

theorem AllowsRow.allows_of_reach? {slot : Slot} {rest : Row} (h : p.AllowsRow (slot :: rest))
    {x : Reach} (hx : slot.reach? = some x) : p.Allows x.column.id x.mutable := by
  have hplace : x.place ∈ slot.places := by
    rw [slot.places_eq, hx]
    exact List.mem_cons_self
  exact h x.place (List.mem_append_left _ hplace)

theorem AllowsRow.tail {slot : Slot} {rest : Row} (h : p.AllowsRow (slot :: rest)) :
    p.AllowsRow rest :=
  fun place hplace => h place (List.mem_append_right _ hplace)

/-- **What a row hands out, its terms look at.** -/
theorem allowsRow_of_fetchRow {ts : List (Term Column)}
    (hts : p.AllowsAll (Term.allAccesses false ts)) {e : Entity} {st : FetchState}
    {row : Row} (h : (fetchRow e ts st).1 = some row) : p.AllowsRow row := by
  obtain ⟨fs, _, hallowed, _, hplaces⟩ := fetches_fetchRow e ts st
  rw [h] at hplaces
  intro place hplace
  obtain ⟨f, hf, rfl⟩ := List.mem_map.1 (hplaces.subset hplace)
  exact allows_of_allowedBy (hallowed f hf) (allows_allFetches ts hts)

end Footprint

/-! ### Worlds that a system cannot tell apart -/

/-- Related worlds cannot be told apart by fetching, reading and rewriting within a footprint. -/
structure Indistinct (p : Footprint) (R : World → World → Prop) : Prop where
  semblance : ∀ e, Semblance e p R
  values : ∀ {w w' : World} {c : Column}, R w w' → p.known c.id →
    ∀ e, w.values c e = w'.values c e
  rewriteStorage : ∀ {w w' : World} {id : ComponentId}, R w w' → p.written id →
    ∀ all e f, R (w.modifyStorage id (·.rewrite all e f)) (w'.modifyStorage id (·.rewrite all e f))

namespace Indistinct

variable {p : Footprint} {R : World → World → Prop} {w w' : World}

/-- The contents of a row are the same in both. -/
theorem contents_eq (hR : Indistinct p R) (h : R w w') {row : Row} (hrow : p.AllowsRow row) :
    row.contents w = row.contents w' := by
  induction row with
  | nil => rfl
  | cons slot rest ih =>
      have hslot : slot.contents w = slot.contents w' := by
        rw [Slot.contents, Slot.contents]
        cases hreach : slot.reach? with
        | none => rfl
        | some x =>
            have hvalues := hR.values h (hrow.allows_of_reach? hreach).1 x.entity
            rw [Option.elim_some, Option.elim_some, Reach.contents, Reach.contents, World.value?,
              World.value?, hvalues]
      show slot.contents w :: Row.contents rest w = slot.contents w' :: Row.contents rest w'
      rw [hslot, ih hrow.tail]

theorem rewriteFrom (hR : Indistinct p R) (h : R w w') {row : Row} (hrow : p.AllowsRow row)
    (f : Nat → Nat → Record → Record) (k : Nat) :
    R (Row.rewriteFrom f k row w) (Row.rewriteFrom f k row w') := by
  induction row generalizing w w' k with
  | nil => exact h
  | cons slot rest ih =>
      refine ih ?_ hrow.tail (k + 1)
      rw [Slot.rewrite, Slot.rewrite]
      cases hreach : slot.reach? with
      | none => exact h
      | some x =>
          rw [Option.elim_some, Option.elim_some, Reach.rewrite, Reach.rewrite]
          split
          · next hmutable =>
            exact hR.rewriteStorage h ((hrow.allows_of_reach? hreach).2 hmutable) _ _ _
          · exact h

/-- What a system makes of the row keeps them related. -/
theorem rewrite (hR : Indistinct p R) (h : R w w') {row : Row} (hrow : p.AllowsRow row)
    (u : RowUpdate) : R (row.rewrite u w) (row.rewrite u w') := by
  rw [Row.rewrite, Row.rewrite, hR.contents_eq h hrow]
  exact hR.rewriteFrom h hrow _ 0

end Indistinct

namespace World

variable {p : Footprint} {w w' : World}

/-- Worlds that agree within a footprint cannot be told apart there. -/
theorem indistinct_agreeOn (p : Footprint) : Indistinct p (AgreeOn p) where
  semblance e := (sight_agreeOn p e).semblance
  values h hc e := h.values_eq hc e
  rewriteStorage h hid all e f := by
    refine h.modifyStorage hid ?_
    intro s s' hs
    rw [Storage.uncounted_rewrite, Storage.uncounted_rewrite, hs]

namespace Confined

theorem rewriteFrom {row : Row} (hrow : p.AllowsRow row) (f : Nat → Nat → Record → Record)
    (k : Nat) (w : World) : Confined p w (Row.rewriteFrom f k row w) := by
  induction row generalizing w k with
  | nil => exact refl p w
  | cons slot rest ih =>
      refine trans ?_ (ih hrow.tail (k + 1) _)
      rw [Slot.rewrite]
      cases hreach : slot.reach? with
      | none => exact refl p w
      | some x =>
          obtain ⟨hknown, hwritten⟩ := hrow.allows_of_reach? hreach
          rw [Option.elim_some, Reach.rewrite]
          split
          · next hmutable =>
            exact modifyStorage w hknown fun hunwritten => absurd (hwritten hmutable) hunwritten
          · exact refl p w

/-- **Rewriting a row changes no more than may be written.** -/
theorem rewrite {row : Row} (hrow : p.AllowsRow row) (u : RowUpdate) (w : World) :
    Confined p w (row.rewrite u w) :=
  rewriteFrom hrow _ 0 w

end Confined

end World

end EntityStore
