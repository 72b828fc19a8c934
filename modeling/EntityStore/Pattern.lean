import EntityStore.Access

/-!
# Patterns

A pattern says what a term of a query asks of an entity and what it delivers, without the means
to do so.  Queries over component types and untyped queries share the patterns, so anchoring,
access reports, rows and the aliasing test are stated once, for both.

* `Pattern` — what one term asks and delivers;
* `Pattern.anchors`, `unanchored` — which terms can supply candidates;
* `Pattern.component?`, `Pattern.isWritable` — what a term delivers;
* `Pattern.addTo`, `AccessReport.addPatterns` — access reports;
* `Pattern.components` — the components that occur in a pattern.

Every function on patterns has a companion on lists of them, and a lemma says what the
companion computes.
-/

namespace EntityStore

/-- What one term asks and delivers. -/
inductive Pattern where
  | entity
  | component (id : ComponentId) (mutable : Bool)
  | without (child : Pattern)
  | maybe (child : Pattern)
  | changed (child : Pattern)
  | batch (child : Pattern)
  /-- At least one child has to match; the first that does is delivered. -/
  | any (children : List Pattern)
  /-- Exactly one child has to match. -/
  | join (children : List Pattern)
deriving Repr, Inhabited

namespace Pattern

/-! ### Equality -/

mutual

def beq : Pattern → Pattern → Bool
  | .entity, .entity => true
  | .component id m, .component id' m' => id == id' && m == m'
  | .without a, .without b => beq a b
  | .maybe a, .maybe b => beq a b
  | .changed a, .changed b => beq a b
  | .batch a, .batch b => beq a b
  | .any as, .any bs => beqAll as bs
  | .join as, .join bs => beqAll as bs
  | _, _ => false

def beqAll : List Pattern → List Pattern → Bool
  | [], [] => true
  | a :: as, b :: bs => beq a b && beqAll as bs
  | _, _ => false

end

instance : BEq Pattern := ⟨beq⟩

/-! ### Anchors -/

mutual

/-- Whether the term requires presence in some storage, so that it can supply candidates. -/
def anchors : Pattern → Bool
  | .component .. => true
  | .changed child | .batch child => anchors child
  | .entity | .without _ | .maybe _ => false
  | .any children | .join children => !children.isEmpty && allAnchor children

/-- Whether every term of the list can supply candidates. -/
def allAnchor : List Pattern → Bool
  | [] => true
  | p :: rest => anchors p && allAnchor rest

end

/-! ### What is delivered -/

/-- The component whose instances the term delivers or excludes, if it is a single one. -/
def component? : Pattern → Option ComponentId
  | .component id _ => some id
  | .without child | .maybe child | .changed child | .batch child => component? child
  | .entity | .any _ | .join _ => none

mutual

/-- Whether the term hands out instances for writing. -/
def isWritable : Pattern → Bool
  | .component _ m => m
  | .without _ | .entity => false
  | .maybe child | .changed child | .batch child => isWritable child
  | .any children | .join children => anyWritable children

/-- Whether a term of the list hands out instances for writing. -/
def anyWritable : List Pattern → Bool
  | [] => false
  | p :: rest => isWritable p || anyWritable rest

end

theorem anyWritable_eq (ps : List Pattern) : anyWritable ps = ps.any isWritable := by
  induction ps with
  | nil => rfl
  | cons p rest ih => simp only [anyWritable, List.any_cons, ih]

/-! ### Components and access reports -/

mutual

/-- The components that occur in a pattern, from left to right. -/
def components : Pattern → List ComponentId
  | .entity => []
  | .component id _ => [id]
  | .without child | .maybe child | .changed child | .batch child => components child
  | .any children | .join children => allComponents children

/-- The components that occur in a list of patterns. -/
def allComponents : List Pattern → List ComponentId
  | [] => []
  | p :: rest => components p ++ allComponents rest

end

mutual

/-- Adds the accesses of a term to a report.  Below a `without` everything counts as read; below
a `changed` every component needs tracing. -/
def addTo (readOnly : Bool) : Pattern → AccessReport → AccessReport
  | .entity, r => r
  | .component id m, r => r.add id (m && !readOnly)
  | .without child, r => addTo true child r
  | .maybe child, r | .batch child, r => addTo readOnly child r
  | .changed child, r => (components child).foldl .trace (addTo readOnly child r)
  | .any children, r | .join children, r => addAllTo readOnly children r

/-- Adds the accesses of several terms to a report. -/
def addAllTo (readOnly : Bool) : List Pattern → AccessReport → AccessReport
  | [], r => r
  | p :: rest, r => addAllTo readOnly rest (addTo readOnly p r)

end

theorem addAllTo_eq (readOnly : Bool) (ps : List Pattern) (r : AccessReport) :
    addAllTo readOnly ps r = ps.foldl (fun r p => addTo readOnly p r) r := by
  induction ps generalizing r with
  | nil => rfl
  | cons p rest ih => simp only [addAllTo, List.foldl_cons, ih]

end Pattern

/-- The report with the accesses of a list of terms added. -/
def AccessReport.addPatterns (r : AccessReport) (ps : List Pattern) : AccessReport :=
  Pattern.addAllTo false ps r

def AccessReport.ofPatterns (ps : List Pattern) : AccessReport :=
  AccessReport.addPatterns {} ps

theorem AccessReport.addPatterns_append (r : AccessReport) (xs ys : List Pattern) :
    r.addPatterns (xs ++ ys) = (r.addPatterns xs).addPatterns ys := by
  simp only [addPatterns, Pattern.addAllTo_eq, List.foldl_append]

/-- Whether no term of the list can supply candidates; such a query never matches. -/
def unanchored (ps : List Pattern) : Bool :=
  !ps.any Pattern.anchors

end EntityStore
