import EntityStore.Pattern.Aliasing
import EntityStore.Registry

/-!
# Untyped queries

An untyped query is built at run time: a list of terms that name components by position, so that
it reaches script components too.

* `UntypedTerm`, `UntypedTerm.pattern` — one term and its pattern;
* `UntypedQuery.require` and the following — adding a term;
* `UntypedQuery.check`, `UntypedQuery.isRunnable` — the test that a query has to pass to be run.

A query needs a term, its components have to be registered, and its terms must not alias; the
first of these that fails is the error.  The terms that exclude a component never write it.
-/

namespace EntityStore

/-- What an untyped term asks of its component. -/
inductive Requirement where
  | present
  | absent
  | optional
  | changed
deriving DecidableEq, Repr, Inhabited

def Requirement.name : Requirement → String
  | .present => "With"
  | .absent => "Without"
  | .optional => "Maybe"
  | .changed => "Changed"

/-- One term of an untyped query. -/
structure UntypedTerm where
  component : ComponentId
  requirement : Requirement
  mutable : Bool
deriving DecidableEq, Repr, Inhabited

namespace UntypedTerm

def pattern (t : UntypedTerm) : Pattern :=
  match t.requirement with
  | .present => .component t.component t.mutable
  | .absent => .without (.component t.component false)
  | .optional => .maybe (.component t.component t.mutable)
  | .changed => .changed (.component t.component t.mutable)

/-- Whether the term can supply candidates. -/
def anchors (t : UntypedTerm) : Bool :=
  match t.requirement with
  | .present | .changed => true
  | .absent | .optional => false

theorem anchors_pattern (t : UntypedTerm) : t.pattern.anchors = t.anchors := by
  obtain ⟨component, requirement, mutable⟩ := t
  cases requirement <;> rfl

end UntypedTerm

/-- A query built at run time, over component positions. -/
structure UntypedQuery where
  terms : List UntypedTerm := []
deriving DecidableEq, Repr, Inhabited

namespace UntypedQuery

def add (q : UntypedQuery) (t : UntypedTerm) : UntypedQuery :=
  { terms := q.terms ++ [t] }

def require (q : UntypedQuery) (id : ComponentId) (mutable : Bool) : UntypedQuery :=
  q.add ⟨id, .present, mutable⟩

def exclude (q : UntypedQuery) (id : ComponentId) : UntypedQuery :=
  q.add ⟨id, .absent, false⟩

def allow (q : UntypedQuery) (id : ComponentId) (mutable : Bool) : UntypedQuery :=
  q.add ⟨id, .optional, mutable⟩

/-- The entity has to have the component, flagged. -/
def requireChanged (q : UntypedQuery) (id : ComponentId) (mutable : Bool) : UntypedQuery :=
  q.add ⟨id, .changed, mutable⟩

def patterns (q : UntypedQuery) : List Pattern :=
  q.terms.map UntypedTerm.pattern

def check (q : UntypedQuery) (r : Registry) : Except StoreError Unit :=
  if q.terms.isEmpty then
    .error (.invalidQuery "query has no terms")
  else
    match q.terms.find? fun t => !r.contains t.component with
    | some t => .error (.componentNotRegistered t.component)
    | none => refuseAliasing q.patterns

def isRunnable (q : UntypedQuery) (r : Registry) : Bool :=
  match q.check r with
  | .ok () => true
  | .error _ => false

def accessReport (q : UntypedQuery) : AccessReport :=
  .ofPatterns q.patterns

end UntypedQuery

end EntityStore
