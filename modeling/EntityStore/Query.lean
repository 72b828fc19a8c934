import EntityStore.Pattern.Layout
import EntityStore.Query.Row
import EntityStore.Store

/-!
# Queries over component types

A query is prepared from a list of terms over component types.  Preparing registers the
components in the order in which they occur, refuses terms that would alias, switches change
tracing on where a `changed` term asks for it, and remembers whether the query can match at all.

* `Store.prepare` — prepares a query;
* `Query.selects`, `Query.count`, `Query.rowOf` — membership, number of matches, the row of an
  entity;
* `Query.candidates` — the entities that are looked at;
* `Query.accessReport`, `Query.slots`, `Query.patterns` — what the query says of itself.

A query matches nothing when one of its terms needs a storage that is not there, or when no term
can supply candidates.
-/

namespace EntityStore

/-- A query over component types. -/
structure Query where
  terms : List (Term Column)
  /-- Whether every term has the storages that it needs. -/
  served : Bool
  /-- Whether some term can supply candidates. -/
  anchored : Bool
deriving Inhabited

/-- The terms with every component type replaced by its column. -/
def Registry.resolve (r : Registry) (ts : List (Term ComponentType)) : List (Term Column) :=
  Term.mapAll (fun t => ⟨t, (r.register t).1⟩) ts

/-- Switches change tracing on for the storages that typed access finds. -/
def World.traceAll (w : World) (cs : List Column) : World :=
  cs.foldl (fun w c => if (w.typed? c).isSome then w.trace c.id else w) w

/-- Prepares a query.  The components stay registered also when the terms are refused. -/
def Store.prepare (s : Store) (ts : List (Term ComponentType)) : Except StoreError Query × Store :=
  let registry := s.registry.registerAll (Term.allComponents ts)
  let terms := registry.resolve ts
  let patterns := Term.patterns terms
  match refuseAliasing patterns with
  | .error err => (.error err, { s with registry })
  | .ok () =>
    let world := s.world.traceAll (Term.allTraced terms)
    (.ok
      { terms
        served := terms.all (Term.isServed world)
        anchored := !unanchored patterns },
      { registry, world })

namespace Query

def canMatch (q : Query) : Bool :=
  q.served && q.anchored

/-- The entities that are looked at: those of the term with the fewest. -/
def candidates (q : Query) (w : World) : List Entity :=
  if q.canMatch then (smallest (Term.allCandidates w q.terms)).getD [] else []

def selects (q : Query) (w : World) (e : Entity) : Bool :=
  q.canMatch && Term.allHold w e q.terms

def count (q : Query) (w : World) : Nat :=
  (q.candidates w).countP (Term.allHold w · q.terms)

/-- The row of an entity.  Terms fetch for writing on every call. -/
def rowOf (q : Query) (e : Entity) (st : FetchState) : Option Row × FetchState :=
  if q.selects st.world e then fetchRow e q.terms st else (none, st)

def patterns (q : Query) : List Pattern :=
  Term.patterns q.terms

def slots (q : Query) : List SlotShape :=
  rowLayout q.patterns

def accessReport (q : Query) : AccessReport :=
  .ofPatterns q.patterns

def size (q : Query) : Nat :=
  q.terms.length

theorem length_slots (q : Query) : q.slots.length = q.size := by
  simp only [slots, patterns, size, length_rowLayout, Term.patterns_eq, List.length_map]

theorem rowOf_of_not_selects {q : Query} {e : Entity} {st : FetchState}
    (h : q.selects st.world e = false) : q.rowOf e st = (none, st) := by
  simp only [rowOf, h, Bool.false_eq_true, if_false]

end Query

end EntityStore
