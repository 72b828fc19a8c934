import EntityStore.Pattern
import EntityStore.World

/-!
# Terms of queries over component types

A query is a list of terms.  A term tests one condition on an entity and has one slot in the
row that the query delivers:

* a component, for reading or for writing;
* `maybe` — always matches, the slot is empty when the inner term misses;
* `without` — matches when the inner term does not, and carries nothing;
* `changed` — the inner term matches and its component is flagged;
* `batch` — every instance of the inner term's component;
* `any`, `join` — at least one child, exactly one child;
* `entity` — the entity itself.

`changed` and `batch` apply to terms that are bound to a single component, which are a type of
their own.  Terms are written over component types and resolved to columns when a query is
prepared; `Term.pattern` gives the pattern of a resolved term.
-/

namespace EntityStore

/-- A term that is bound to one component, over a type `κ` of components. -/
inductive BoundTerm (κ : Type) where
  | component (c : κ) (mutable : Bool)
  | maybe (inner : BoundTerm κ)
  | changed (inner : BoundTerm κ)
deriving DecidableEq, Repr, Inhabited

/-- A term of a query, over a type `κ` of components. -/
inductive Term (κ : Type) where
  | entity
  | single (q : BoundTerm κ)
  | batch (q : BoundTerm κ)
  | without (inner : Term κ)
  | maybe (inner : Term κ)
  | any (children : List (Term κ))
  | join (children : List (Term κ))
deriving Repr, Inhabited

namespace BoundTerm

variable {κ ν : Type}

def column : BoundTerm κ → κ
  | .component c _ => c
  | .maybe inner | .changed inner => column inner

/-- Whether payloads are handed out for writing. -/
def mutable : BoundTerm κ → Bool
  | .component _ m => m
  | .maybe inner | .changed inner => mutable inner

def map (f : κ → ν) : BoundTerm κ → BoundTerm ν
  | .component c m => .component (f c) m
  | .maybe inner => .maybe (map f inner)
  | .changed inner => .changed (map f inner)

/-- The components whose changes are traced for the term, once for each `changed`. -/
def traced : BoundTerm κ → List κ
  | .component .. => []
  | .maybe inner => traced inner
  | .changed inner => traced inner ++ [inner.column]

def pattern : BoundTerm Column → Pattern
  | .component c m => .component c.id m
  | .maybe inner => .maybe (pattern inner)
  | .changed inner => .changed (pattern inner)

theorem column_map (f : κ → ν) (q : BoundTerm κ) : (q.map f).column = f q.column := by
  induction q with
  | component c m => rfl
  | maybe inner ih => simp only [map, column, ih]
  | changed inner ih => simp only [map, column, ih]

theorem component?_pattern (q : BoundTerm Column) :
    q.pattern.component? = some q.column.id := by
  induction q with
  | component c m => rfl
  | maybe inner ih => simp only [pattern, Pattern.component?, column, ih]
  | changed inner ih => simp only [pattern, Pattern.component?, column, ih]

theorem isWritable_pattern (q : BoundTerm Column) : q.pattern.isWritable = q.mutable := by
  induction q with
  | component c m => rfl
  | maybe inner ih => simp only [pattern, Pattern.isWritable, mutable, ih]
  | changed inner ih => simp only [pattern, Pattern.isWritable, mutable, ih]

end BoundTerm

namespace Term

variable {κ ν : Type}

mutual

/-- The components that occur in a term, from left to right. -/
def components : Term κ → List κ
  | .entity => []
  | .single q | .batch q => [q.column]
  | .without inner | .maybe inner => components inner
  | .any children | .join children => allComponents children

def allComponents : List (Term κ) → List κ
  | [] => []
  | t :: rest => components t ++ allComponents rest

end

mutual

def map (f : κ → ν) : Term κ → Term ν
  | .entity => .entity
  | .single q => .single (q.map f)
  | .batch q => .batch (q.map f)
  | .without inner => .without (map f inner)
  | .maybe inner => .maybe (map f inner)
  | .any children => .any (mapAll f children)
  | .join children => .join (mapAll f children)

def mapAll (f : κ → ν) : List (Term κ) → List (Term ν)
  | [] => []
  | t :: rest => map f t :: mapAll f rest

end

theorem mapAll_eq (f : κ → ν) (ts : List (Term κ)) : mapAll f ts = ts.map (map f) := by
  induction ts with
  | nil => rfl
  | cons t rest ih => simp only [mapAll, List.map_cons, ih]

mutual

/-- The components whose changes are traced for a term. -/
def traced : Term κ → List κ
  | .entity => []
  | .single q | .batch q => q.traced
  | .without inner | .maybe inner => traced inner
  | .any children | .join children => allTraced children

/-- The components whose changes are traced for a list of terms. -/
def allTraced : List (Term κ) → List κ
  | [] => []
  | t :: rest => traced t ++ allTraced rest

end

mutual

def pattern : Term Column → Pattern
  | .entity => .entity
  | .single q => q.pattern
  | .batch q => .batch q.pattern
  | .without inner => .without (pattern inner)
  | .maybe inner => .maybe (pattern inner)
  | .any children => .any (patterns children)
  | .join children => .join (patterns children)

def patterns : List (Term Column) → List Pattern
  | [] => []
  | t :: rest => pattern t :: patterns rest

end

theorem patterns_eq (ts : List (Term Column)) : patterns ts = ts.map pattern := by
  induction ts with
  | nil => rfl
  | cons t rest ih => simp only [patterns, List.map_cons, ih]

end Term

end EntityStore
