import EntityStore.Query.Row
import EntityStore.Query.Untyped
import EntityStore.Store

/-!
# Walking the matches of an untyped query

A cursor walks the matches of an untyped query and has one accessor a term.  The accessors all
point at the entity that was visited last: the one the cursor stopped at, or one visited out of
order.  Visiting fetches the component of every term, for writing where the term says so.

* `Store.startQuery` — starts a query: switches tracing on, collects candidates, stops at the
  first match;
* `UntypedCursor.next`, `UntypedCursor.visit`, `UntypedCursor.drain` — the operations;
* `Accessor` — reading and writing fields of the visited entity.

A cursor that has passed its last match is closed: it stands on no entity and its accessors
point at nothing.
-/

namespace EntityStore

/-! ### Matching -/

namespace UntypedTerm

/-- Whether the storage of the term's component holds the entity. -/
def finds (t : UntypedTerm) (w : World) (e : Entity) : Bool :=
  ((w.storage? t.component).map (·.contains e)).getD false

def holds (t : UntypedTerm) (w : World) (e : Entity) : Bool :=
  match t.requirement with
  | .present => t.finds w e
  | .absent => !t.finds w e
  | .optional => true
  | .changed => ((w.storage? t.component).map fun s => s.contains e && s.isMarked e).getD false

/-- Fetches the term's component.  The answer is the entity if an instance was found. -/
def point (t : UntypedTerm) (e : Entity) (st : FetchState) : Option Entity × FetchState :=
  match t.requirement, st.world.storage? t.component with
  | .absent, _ | _, none => (none, st)
  | _, some storage =>
    ((storage.first? e).map fun _ => e,
      { world := st.world.fetch t.component t.mutable e
        made := st.made ++ [⟨t.component, t.mutable⟩] })

end UntypedTerm

namespace UntypedQuery

/-- The entities of the anchoring storage with the fewest, the first one among equals; none if
an anchoring storage is missing or no term anchors. -/
def candidatesOf (w : World) : List UntypedTerm → Option (List Entity) → List Entity
  | [], best => best.getD []
  | t :: rest, best =>
    if t.anchors then
      match w.storage? t.component with
      | none => []
      | some storage => candidatesOf w rest (shorter best (some storage.entities))
    else
      candidatesOf w rest best

def candidates (q : UntypedQuery) (w : World) : List Entity :=
  candidatesOf w q.terms none

/-- Switches change tracing on for the terms that ask for changes. -/
def trace (q : UntypedQuery) (w : World) : World :=
  q.terms.foldl (fun w t => if t.requirement = .changed then w.trace t.component else w) w

end UntypedQuery

/-! ### The cursor -/

/-- Where a cursor is in its life. -/
inductive Phase where
  | begun
  | iterating
  | ended
deriving DecidableEq, Repr, Inhabited

def Phase.name : Phase → String
  | .begun => "Begun"
  | .iterating => "Iterating"
  | .ended => "Ended"

/-- A started untyped query. -/
structure UntypedCursor where
  terms : List UntypedTerm
  entities : List Entity
  remaining : List Entity
  /-- The current entity; null once closed. -/
  current : Entity
  phase : Phase
  targets : List (Option Entity)
deriving Repr, Inhabited

/-- Fetches the components of all terms for an entity. -/
def pointAll (e : Entity) : List UntypedTerm → FetchState → List (Option Entity) × FetchState
  | [], st => ([], st)
  | t :: rest, st =>
    let (target, st) := t.point e st
    let (targets, st) := pointAll e rest st
    (target :: targets, st)

namespace UntypedCursor

/-- Whether the entity matches.  Nothing matches if there are no candidates. -/
def selects (c : UntypedCursor) (w : World) (e : Entity) : Bool :=
  !c.entities.isEmpty && c.terms.all (·.holds w e)

def close (c : UntypedCursor) : UntypedCursor :=
  { c with
    remaining := []
    current := .null
    phase := .ended
    targets := c.terms.map fun _ => none }

/-- Points every accessor at an entity. -/
def point (c : UntypedCursor) (e : Entity) (st : FetchState) : UntypedCursor × FetchState :=
  let (targets, st) := pointAll e c.terms st
  ({ c with targets }, st)

/-- Moves on to the first candidate that matches and points at it, or closes the cursor. -/
def seek (c : UntypedCursor) (st : FetchState) : UntypedCursor × FetchState :=
  match c.remaining.dropWhile fun e => !c.selects st.world e with
  | [] => (c.close, st)
  | e :: rest => { c with remaining := e :: rest, current := e }.point e st

def isOpen (c : UntypedCursor) : Bool :=
  c.phase != .ended

/-- Moves to the next match.  A closed cursor stays as it is. -/
def next (c : UntypedCursor) (st : FetchState) : UntypedCursor × FetchState :=
  match c.phase with
  | .ended => (c, st)
  | .begun | .iterating =>
    { c with phase := .iterating, remaining := c.remaining.drop 1 }.seek st

/-- Points the accessors at a matching entity without moving the cursor.  The answer tells
whether the entity matches; if not, nothing changes. -/
def visit (c : UntypedCursor) (e : Entity) (st : FetchState) :
    Bool × UntypedCursor × FetchState :=
  if c.selects st.world e then
    let (c, st) := c.point e st
    (true, c, st)
  else
    (false, c, st)

/-- Counts every match and closes the cursor. -/
def drain (c : UntypedCursor) (w : World) : Nat × UntypedCursor :=
  (c.entities.countP (c.selects w), c.close)

theorem next_of_ended {c : UntypedCursor} (h : c.phase = .ended) (st : FetchState) :
    c.next st = (c, st) := by
  simp only [next, h]

theorem visit_of_not_selects {c : UntypedCursor} {e : Entity} {st : FetchState}
    (h : c.selects st.world e = false) : c.visit e st = (false, c, st) := by
  simp only [visit, h, Bool.false_eq_true, if_false]

end UntypedCursor

/-- Starts an untyped query.  A query that cannot be run leaves the world as it is. -/
def Store.startQuery (s : Store) (q : UntypedQuery) :
    Except StoreError (UntypedCursor × FetchState) :=
  match q.check s.registry with
  | .error err => .error (.invalidQuery err.message)
  | .ok () =>
    let world := q.trace s.world
    let entities := q.candidates world
    let cursor : UntypedCursor :=
      { terms := q.terms
        entities
        remaining := entities
        current := .null
        phase := .begun
        targets := q.terms.map fun _ => none }
    .ok (cursor.seek { world })

/-! ### Accessors -/

/-- Access to one term's component of the visited entity. -/
structure Accessor where
  component : ComponentId
  mutable : Bool
  target : Option Entity
deriving DecidableEq, Repr, Inhabited

def UntypedCursor.accessors (c : UntypedCursor) : List Accessor :=
  (c.terms.zip c.targets).map fun (t, target) => ⟨t.component, t.mutable, target⟩

def UntypedCursor.accessor? (c : UntypedCursor) (i : Nat) : Option Accessor :=
  c.accessors[i]?

namespace Accessor

def instance? (a : Accessor) (w : World) : Option Instance :=
  match a.target with
  | none => none
  | some e => (w.storage? a.component).bind (·.first? e)

/-- The instance that may be written through the accessor. -/
def instanceMut? (a : Accessor) (w : World) : Option Instance :=
  if a.mutable then a.instance? w else none

def read? (a : Accessor) (w : World) (field : String) : Option Value :=
  (a.instance? w).bind (·.get? field)

/-- Writes a field.  The answer tells whether it was written; if not, nothing changes. -/
def write (a : Accessor) (w : World) (field : String) (v : Value) : Bool × World :=
  if a.mutable then
    match a.target, w.storage? a.component with
    | some e, some storage =>
      let (written, storage) := storage.writeField e field v
      (written, w.modifyStorage a.component fun _ => storage)
    | _, _ => (false, w)
  else
    (false, w)

end Accessor

end EntityStore
