import EntityStore.Pattern

/-!
# Layout of rows

A row has one slot for each term of the query, whatever the term is made of.  The layout says of
each slot what it carries, for which component, for writing or not, and whether it can be empty.

* `SlotContent`, `SlotShape` — what a layout says of a slot;
* `SlotShape.ofPattern` — the slot of a term;
* `rowLayout`, `length_rowLayout` — the slots of a list of terms, one a term.
-/

namespace EntityStore

/-- What a slot carries. -/
inductive SlotContent where
  | entity
  | component
  | batch
  | erased
  | empty
deriving DecidableEq, Repr, Inhabited

def SlotContent.name : SlotContent → String
  | .entity => "Entity"
  | .component => "Component"
  | .batch => "Batch"
  | .erased => "Erased"
  | .empty => "Empty"

/-- What a layout says of one slot. -/
structure SlotShape where
  index : Nat
  content : SlotContent
  component : Option ComponentId
  mutable : Bool
  optional : Bool
deriving DecidableEq, Repr, Inhabited

namespace Pattern

def content : Pattern → SlotContent
  | .entity => .entity
  | .component .. => .component
  | .without _ => .empty
  | .maybe child | .changed child => content child
  | .batch _ => .batch
  | .any _ | .join _ => .erased

def isOptional : Pattern → Bool
  | .without _ | .maybe _ => true
  | .changed child | .batch child => isOptional child
  | .entity | .component .. | .any _ | .join _ => false

end Pattern

def SlotShape.ofPattern (index : Nat) (p : Pattern) : SlotShape :=
  { index
    content := p.content
    component := p.component?
    mutable := p.isWritable
    optional := p.isOptional }

def rowLayout (ps : List Pattern) : List SlotShape :=
  ps.mapIdx SlotShape.ofPattern

theorem length_rowLayout (ps : List Pattern) : (rowLayout ps).length = ps.length := by
  simp only [rowLayout, List.length_mapIdx]

end EntityStore
