import EntityStore.Query.Term

/-!
# Matching terms against a world

What a resolved term asks of the world, without fetching anything.

* `Term.isServed` — the storages that the term needs are there;
* `Term.candidates` — the entities that may match, for a term that can tell;
* `Term.holds` — whether an entity matches;
* `smallest`, `union` — how the candidates of several terms are combined.

A list of terms takes its candidates from the term with the fewest, the first one among equals.
`any` and `join` take the candidates of all their children, each once; a child without
candidates leaves them without.
-/

namespace EntityStore

/-- The shorter list; the first one of equal length. -/
def shorter (best list : Option (List Entity)) : Option (List Entity) :=
  match best, list with
  | none, list => list
  | best, none => best
  | some a, some b => if b.length < a.length then some b else some a

/-- The shortest of the candidate lists that are there. -/
def smallest (lists : List (Option (List Entity))) : Option (List Entity) :=
  lists.foldl shorter none

/-- The entities of all the lists, each once, in order of first occurrence; nothing if a list is
missing. -/
def union (lists : List (Option (List Entity))) : Option (List Entity) :=
  (lists.mapM id).map fun all => all.flatten.eraseDups

namespace BoundTerm

/-- Whether the storage that the term needs is there. -/
def isServed (w : World) : BoundTerm Column → Bool
  | .component c _ => (w.typed? c).isSome
  | .maybe _ => true
  | .changed inner => isServed w inner

/-- The entities that may match; nothing for a term that matches without a component. -/
def candidates (w : World) : BoundTerm Column → Option (List Entity)
  | .component c _ => some (((w.typed? c).map (·.entities)).getD [])
  | .maybe _ => none
  | .changed inner => candidates w inner

def holds (w : World) (e : Entity) : BoundTerm Column → Bool
  | .component c _ => w.holds c e
  | .maybe _ => true
  | .changed inner => holds w e inner && w.isMarked inner.column e

end BoundTerm

namespace Term

mutual

/-- Whether the storages that the term needs are there. -/
def isServed (w : World) : Term Column → Bool
  | .single q | .batch q => q.isServed w
  | .entity | .without _ | .maybe _ => true
  | .any children | .join children => anyServed w children

/-- Whether a term of the list has the storages that it needs. -/
def anyServed (w : World) : List (Term Column) → Bool
  | [] => false
  | t :: rest => isServed w t || anyServed w rest

end

mutual

/-- The entities that may match; nothing for a term that can match without a component. -/
def candidates (w : World) : Term Column → Option (List Entity)
  | .single q | .batch q => q.candidates w
  | .entity | .without _ | .maybe _ => none
  | .any children | .join children => union (allCandidates w children)

/-- The candidates of each term of a list. -/
def allCandidates (w : World) : List (Term Column) → List (Option (List Entity))
  | [] => []
  | t :: rest => candidates w t :: allCandidates w rest

end

theorem allCandidates_eq (w : World) (ts : List (Term Column)) :
    allCandidates w ts = ts.map (candidates w) := by
  induction ts with
  | nil => rfl
  | cons t rest ih => simp only [allCandidates, List.map_cons, ih]

mutual

def holds (w : World) (e : Entity) : Term Column → Bool
  | .entity | .maybe _ => true
  | .single q | .batch q => q.holds w e
  | .without inner => !holds w e inner
  | .any children => decide (0 < countHolds w e children)
  | .join children => countHolds w e children == 1

def countHolds (w : World) (e : Entity) : List (Term Column) → Nat
  | [] => 0
  | t :: rest => (holds w e t).toNat + countHolds w e rest

end

theorem countHolds_eq (w : World) (e : Entity) (ts : List (Term Column)) :
    countHolds w e ts = ts.countP (holds w e) := by
  induction ts with
  | nil => rfl
  | cons t rest ih =>
    simp only [countHolds, List.countP_cons, ih]
    cases holds w e t <;> simp [Nat.add_comm]

/-- Whether the entity matches every term of the list. -/
def allHold (w : World) (e : Entity) (ts : List (Term Column)) : Bool :=
  ts.all (holds w e)

end Term

end EntityStore
