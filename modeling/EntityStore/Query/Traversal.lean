import EntityStore.Query

/-!
# Walking the matches of a query

Two ways to walk the candidates of a query, in their order and once each.

* `RowIterator` — `next` looks for the next candidate that matches and fetches its row;
* `RowCursor` — stands on a match, fetches its row as often as asked, and steps on.

Both fix the candidates when they start and test each of them when they come to it.  The row of
a match can still fail to be fetched, when fetching one term makes another one of the row miss;
the iterator then gives nothing although candidates may remain.
-/

namespace EntityStore

/-- A pass over the matches of a query. -/
structure RowIterator where
  query : Query
  /-- The candidates that were not looked at yet. -/
  remaining : List Entity

def Query.rows (q : Query) (w : World) : RowIterator :=
  { query := q, remaining := q.candidates w }

namespace RowIterator

/-- Fetches the row of the first candidate that matches; gives the candidates after it. -/
def nextOf (ts : List (Term Column)) :
    List Entity → FetchState → Option Row × List Entity × FetchState
  | [], st => (none, [], st)
  | e :: rest, st =>
    if Term.allHold st.world e ts then
      let (row, st) := fetchRow e ts st
      (row, rest, st)
    else
      nextOf ts rest st

def next (it : RowIterator) (st : FetchState) : Option Row × RowIterator × FetchState :=
  let (row, remaining, st) := nextOf it.query.terms it.remaining st
  (row, { it with remaining }, st)

/-- Greatest number of rows still to come. -/
def upperBound (it : RowIterator) : Nat :=
  it.remaining.length

theorem next_of_remaining_nil {it : RowIterator} (h : it.remaining = []) (st : FetchState) :
    it.next st = (none, it, st) := by
  cases it
  simp only at h
  subst h
  rfl

end RowIterator

/-- A place among the matches of a query. -/
structure RowCursor where
  query : Query
  /-- The candidates from the current one on. -/
  remaining : List Entity

namespace RowCursor

/-- Moves on to the first candidate that matches. -/
def seek (c : RowCursor) (w : World) : RowCursor :=
  { c with remaining := c.remaining.dropWhile fun e => !Term.allHold w e c.query.terms }

def isPast (c : RowCursor) : Bool :=
  c.remaining.isEmpty

def current? (c : RowCursor) : Option Entity :=
  c.remaining.head?

def row (c : RowCursor) (st : FetchState) : Option Row × FetchState :=
  match c.remaining with
  | [] => (none, st)
  | e :: _ => fetchRow e c.query.terms st

def step (c : RowCursor) (w : World) : RowCursor :=
  match c.remaining with
  | [] => c
  | _ :: rest => { c with remaining := rest }.seek w

theorem step_of_isPast {c : RowCursor} (h : c.isPast = true) (w : World) : c.step w = c := by
  obtain ⟨q, remaining⟩ := c
  cases remaining with
  | nil => rfl
  | cons e rest => simp only [isPast, List.isEmpty_cons, Bool.false_eq_true] at h

end RowCursor

/-- A cursor on the first match. -/
def Query.cursor (q : Query) (w : World) : RowCursor :=
  RowCursor.seek { query := q, remaining := q.candidates w } w

end EntityStore
