import EntityStore.Pattern.Aliasing
import EntityStore.Payload
import EntityStore.Query.Match

/-!
# Rows and how they are fetched

Fetching a row goes through the terms from left to right.  A term that fetches for writing marks
the entity in its storage at once, so a later term of the same row sees the mark; and the first
term that delivers nothing ends the row, with the marks of the earlier ones in place.

* `Slot`, `Row` — what the terms deliver: places to read or write, not copies;
* `FetchState` — the world while it is fetched from, and the fetches that were made;
* `Term.fetch`, `Term.fetchPayload`, `fetchRow` — fetching a slot, a payload, a row;
* `Slot.update`, `updateRow` — writing to the places that a row may write to.
-/

namespace EntityStore

/-- The payload of an `any` or `join` term: the instances of an entity. -/
abbrev EntityPayload := Payload ComponentType Entity

/-- What one term delivers for an entity. -/
inductive Slot where
  | component (c : Column) (mutable : Bool) (e : Entity)
  | absent
  | present (slot : Slot)
  /-- Every instance of a component; the empty view if there is no entity. -/
  | batch (c : Column) (mutable : Bool) (e : Option Entity)
  | entity (e : Entity)
  | erased (p : EntityPayload)
deriving DecidableEq, Repr, Inhabited

/-- What a list of terms delivers, one slot a term. -/
abbrev Row := List Slot

/-- The world while rows are fetched from it, with the fetches that were made. -/
structure FetchState where
  world : World
  made : List Fetch := []
deriving Inhabited

namespace FetchState

/-- Fetches from the storage of a column.  The answer tells whether an instance was found; if
the storage is not there, no fetch is made. -/
def fetch (st : FetchState) (c : Column) (mutable : Bool) (e : Entity) : Bool × FetchState :=
  match st.world.typed? c with
  | none => (false, st)
  | some storage =>
    (!(storage.records e).isEmpty,
      { world := st.world.fetch c.id mutable e, made := st.made ++ [⟨c.id, mutable⟩] })

/-- The number of instances that an entity has in a column. -/
def count (st : FetchState) (c : Column) (e : Entity) : Nat :=
  (st.world.values c e).length

end FetchState

namespace BoundTerm

/-- Fetches the slot of a term; nothing if the term does not match. -/
def fetch (e : Entity) : BoundTerm Column → FetchState → Option Slot × FetchState
  | .component c m, st =>
    match st.fetch c m e with
    | (true, st) => (some (.component c m e), st)
    | (false, st) => (none, st)
  | .maybe inner, st =>
    if inner.holds st.world e then
      match fetch e inner st with
      | (some slot, st) => (some (.present slot), st)
      | (none, st) => (some .absent, st)
    else
      (some .absent, st)
  | .changed inner, st =>
    if (BoundTerm.changed inner).holds st.world e then fetch e inner st else (none, st)

/-- Fetches the payload of a term; the empty payload if the term does not match. -/
def fetchPayload (e : Entity) : BoundTerm Column → FetchState → EntityPayload × FetchState
  | .component c m, st =>
    match st.fetch c m e with
    | (true, st) => (.one c.id c.type m e, st)
    | (false, st) => (.null, st)
  | .maybe inner, st =>
    if inner.holds st.world e then fetchPayload e inner st else (.null, st)
  | .changed inner, st =>
    if (BoundTerm.changed inner).holds st.world e then fetchPayload e inner st else (.null, st)

/-- Fetches every instance for a term; nothing if the term does not match. -/
def fetchAll (e : Entity) : BoundTerm Column → FetchState → Option Slot × FetchState
  | .component c m, st =>
    if st.world.holds c e then
      let (_, st) := st.fetch c m e
      (some (.batch c m (some e)), st)
    else
      (none, st)
  | .maybe inner, st =>
    if inner.holds st.world e then
      match fetchAll e inner st with
      | (some slot, st) => (some slot, st)
      | (none, st) => (some (.batch inner.column inner.mutable none), st)
    else
      (some (.batch inner.column inner.mutable none), st)
  | .changed inner, st =>
    if (BoundTerm.changed inner).holds st.world e then fetchAll e inner st else (none, st)

/-- Fetches the payload of every instance for a term; the empty payload if the term does not
match. -/
def fetchAllPayload (e : Entity) :
    BoundTerm Column → FetchState → EntityPayload × FetchState
  | .component c m, st =>
    if st.world.holds c e then
      let (_, st) := st.fetch c m e
      (.many c.id c.type m e (st.count c e), st)
    else
      (.null, st)
  | .maybe inner, st =>
    if inner.holds st.world e then fetchAllPayload e inner st else (.null, st)
  | .changed inner, st =>
    if (BoundTerm.changed inner).holds st.world e then fetchAllPayload e inner st
    else (.null, st)

theorem fetch_component (e : Entity) (c : Column) (m : Bool) (st : FetchState) :
    (BoundTerm.component c m).fetch e st =
      (if (st.fetch c m e).1 then some (.component c m e) else none, (st.fetch c m e).2) := by
  rw [BoundTerm.fetch]
  rcases st.fetch c m e with ⟨found, st'⟩
  cases found <;> rfl

theorem fetch_maybe (e : Entity) (inner : BoundTerm Column) (st : FetchState) :
    (BoundTerm.maybe inner).fetch e st =
      if inner.holds st.world e then
        (some (((inner.fetch e st).1.map Slot.present).getD .absent), (inner.fetch e st).2)
      else (some .absent, st) := by
  rw [BoundTerm.fetch]
  rcases inner.fetch e st with ⟨delivered, st'⟩
  cases delivered <;> rfl

theorem fetch_changed (e : Entity) (inner : BoundTerm Column) (st : FetchState) :
    (BoundTerm.changed inner).fetch e st =
      if (BoundTerm.changed inner).holds st.world e then inner.fetch e st else (none, st) :=
  rfl

theorem fetchPayload_component (e : Entity) (c : Column) (m : Bool) (st : FetchState) :
    (BoundTerm.component c m).fetchPayload e st =
      (if (st.fetch c m e).1 then .one c.id c.type m e else .null, (st.fetch c m e).2) := by
  rw [fetchPayload]
  rcases st.fetch c m e with ⟨found, st'⟩
  cases found <;> rfl

theorem fetchPayload_maybe (e : Entity) (inner : BoundTerm Column) (st : FetchState) :
    (BoundTerm.maybe inner).fetchPayload e st =
      if inner.holds st.world e then inner.fetchPayload e st else (.null, st) :=
  rfl

theorem fetchPayload_changed (e : Entity) (inner : BoundTerm Column) (st : FetchState) :
    (BoundTerm.changed inner).fetchPayload e st =
      if (BoundTerm.changed inner).holds st.world e then inner.fetchPayload e st
      else (.null, st) :=
  rfl

theorem fetchAll_component (e : Entity) (c : Column) (m : Bool) (st : FetchState) :
    (BoundTerm.component c m).fetchAll e st =
      if st.world.holds c e then (some (.batch c m (some e)), (st.fetch c m e).2)
      else (none, st) :=
  rfl

theorem fetchAll_maybe (e : Entity) (inner : BoundTerm Column) (st : FetchState) :
    (BoundTerm.maybe inner).fetchAll e st =
      if inner.holds st.world e then
        (some ((inner.fetchAll e st).1.getD (.batch inner.column inner.mutable none)),
          (inner.fetchAll e st).2)
      else (some (.batch inner.column inner.mutable none), st) := by
  rw [BoundTerm.fetchAll]
  rcases inner.fetchAll e st with ⟨delivered, st'⟩
  cases delivered <;> rfl

theorem fetchAll_changed (e : Entity) (inner : BoundTerm Column) (st : FetchState) :
    (BoundTerm.changed inner).fetchAll e st =
      if (BoundTerm.changed inner).holds st.world e then inner.fetchAll e st else (none, st) :=
  rfl

theorem fetchAllPayload_component (e : Entity) (c : Column) (m : Bool) (st : FetchState) :
    (BoundTerm.component c m).fetchAllPayload e st =
      if st.world.holds c e then
        (.many c.id c.type m e ((st.fetch c m e).2.count c e), (st.fetch c m e).2)
      else (.null, st) :=
  rfl

theorem fetchAllPayload_maybe (e : Entity) (inner : BoundTerm Column) (st : FetchState) :
    (BoundTerm.maybe inner).fetchAllPayload e st =
      if inner.holds st.world e then inner.fetchAllPayload e st else (.null, st) :=
  rfl

theorem fetchAllPayload_changed (e : Entity) (inner : BoundTerm Column) (st : FetchState) :
    (BoundTerm.changed inner).fetchAllPayload e st =
      if (BoundTerm.changed inner).holds st.world e then inner.fetchAllPayload e st
      else (.null, st) :=
  rfl

/-- An erased payload is fetched like the instance behind it. -/
theorem snd_fetchPayload (e : Entity) (q : BoundTerm Column) (st : FetchState) :
    (q.fetchPayload e st).2 = (q.fetch e st).2 := by
  induction q with
  | component c m => rw [fetchPayload_component, fetch_component]
  | maybe inner ih =>
      rw [fetchPayload_maybe, fetch_maybe]
      split
      · exact ih
      · rfl
  | changed inner ih =>
      rw [fetchPayload_changed, fetch_changed]
      split
      · exact ih
      · rfl

/-- So is the erased payload of all instances. -/
theorem snd_fetchAllPayload (e : Entity) (q : BoundTerm Column) (st : FetchState) :
    (q.fetchAllPayload e st).2 = (q.fetchAll e st).2 := by
  induction q with
  | component c m =>
      rw [fetchAllPayload_component, fetchAll_component]
      split <;> rfl
  | maybe inner ih =>
      rw [fetchAllPayload_maybe, fetchAll_maybe]
      split
      · exact ih
      · rfl
  | changed inner ih =>
      rw [fetchAllPayload_changed, fetchAll_changed]
      split
      · exact ih
      · rfl

end BoundTerm

namespace Term

mutual

/-- Fetches the payload of a term; the empty payload if there is nothing to deliver. -/
def fetchPayload (e : Entity) : Term Column → FetchState → EntityPayload × FetchState
  | .entity, st | .without _, st => (.null, st)
  | .single q, st => q.fetchPayload e st
  | .batch q, st => q.fetchAllPayload e st
  | .maybe inner, st =>
    if inner.holds st.world e then fetchPayload e inner st else (.null, st)
  | .any children, st => fetchFirstPayload e children st
  | .join children, st =>
    if (Term.join children).holds st.world e then fetchFirstPayload e children st else (.null, st)

/-- Fetches the payload of the first term that matches. -/
def fetchFirstPayload (e : Entity) : List (Term Column) → FetchState → EntityPayload × FetchState
  | [], st => (.null, st)
  | t :: rest, st => if t.holds st.world e then fetchPayload e t st else fetchFirstPayload e rest st

end

/-- Fetches the slot of a term; nothing if the term does not match. -/
def fetch (e : Entity) : Term Column → FetchState → Option Slot × FetchState
  | .entity, st => (some (.entity e), st)
  | .single q, st => q.fetch e st
  | .batch q, st => q.fetchAll e st
  | .without inner, st => (if inner.holds st.world e then none else some .absent, st)
  | .maybe inner, st =>
    if inner.holds st.world e then
      match fetch e inner st with
      | (some slot, st) => (some (.present slot), st)
      | (none, st) => (some .absent, st)
    else
      (some .absent, st)
  | .any children, st =>
    if (Term.any children).holds st.world e then
      let (p, st) := fetchFirstPayload e children st
      (some (.erased p), st)
    else
      (none, st)
  | .join children, st =>
    if (Term.join children).holds st.world e then
      let (p, st) := fetchFirstPayload e children st
      (some (.erased p), st)
    else
      (none, st)

theorem fetchPayload_maybe (e : Entity) (inner : Term Column) (st : FetchState) :
    (Term.maybe inner).fetchPayload e st =
      if inner.holds st.world e then inner.fetchPayload e st else (.null, st) := by
  rw [fetchPayload]

theorem fetchPayload_join (e : Entity) (children : List (Term Column)) (st : FetchState) :
    (Term.join children).fetchPayload e st =
      if (Term.join children).holds st.world e then fetchFirstPayload e children st
      else (.null, st) := by
  rw [fetchPayload]

theorem fetchFirstPayload_cons (e : Entity) (t : Term Column) (rest : List (Term Column))
    (st : FetchState) :
    fetchFirstPayload e (t :: rest) st =
      if t.holds st.world e then t.fetchPayload e st else fetchFirstPayload e rest st := by
  rw [fetchFirstPayload]

theorem fetch_maybe (e : Entity) (inner : Term Column) (st : FetchState) :
    (Term.maybe inner).fetch e st =
      if inner.holds st.world e then
        (some (((inner.fetch e st).1.map Slot.present).getD .absent), (inner.fetch e st).2)
      else (some .absent, st) := by
  rw [Term.fetch]
  rcases inner.fetch e st with ⟨delivered, st'⟩
  cases delivered <;> rfl

theorem fetch_any (e : Entity) (children : List (Term Column)) (st : FetchState) :
    (Term.any children).fetch e st =
      if (Term.any children).holds st.world e then
        (some (.erased (fetchFirstPayload e children st).1), (fetchFirstPayload e children st).2)
      else (none, st) := by
  rw [Term.fetch]

theorem fetch_join (e : Entity) (children : List (Term Column)) (st : FetchState) :
    (Term.join children).fetch e st =
      if (Term.join children).holds st.world e then
        (some (.erased (fetchFirstPayload e children st).1), (fetchFirstPayload e children st).2)
      else (none, st) := by
  rw [Term.fetch]

end Term

/-- Fetches a row: the slots of all terms, up to the first that delivers nothing. -/
def fetchRow (e : Entity) : List (Term Column) → FetchState → Option Row × FetchState
  | [], st => (some [], st)
  | t :: rest, st =>
    match t.fetch e st with
    | (none, st) => (none, st)
    | (some slot, st) =>
      match fetchRow e rest st with
      | (none, st) => (none, st)
      | (some row, st) => (some (slot :: row), st)

/-! ### Writing through a row -/

/-- Changes every instance that the slot may write to. -/
def Slot.update (f : Record → Record) : Slot → World → World
  | .component c true e, w => w.writeFirst c.id e f
  | .present slot, w => slot.update f w
  | .batch c true (some e), w => w.writeAll c.id e f
  | .erased (.one id _ true e), w => w.writeFirst id e f
  | .erased (.many id _ true e _), w => w.writeAll id e f
  | _, w => w

/-- Changes every instance that the row may write to, slot by slot. -/
def updateRow (f : Record → Record) (row : Row) (w : World) : World :=
  row.foldl (fun w slot => slot.update f w) w

end EntityStore
