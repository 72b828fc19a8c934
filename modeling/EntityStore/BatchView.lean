/-!
# Views of all instances of an entity

A view of the instances that a one-to-many storage keeps for an entity.  A view for writing
changes instances in place and never their number.

* `BatchView.get?`, `BatchView.toList` — reading;
* `BatchView.set?`, `BatchView.map` — writing one instance, or every one;
* `BatchView.debugText` — text for diagnostics.
-/

namespace EntityStore

/-- A view of several instances. -/
structure BatchView (α : Type) where
  items : Array α := #[]
deriving DecidableEq, Repr, Inhabited

namespace BatchView

variable {α : Type}

def length (v : BatchView α) : Nat :=
  v.items.size

def isEmpty (v : BatchView α) : Bool :=
  v.items.isEmpty

def get? (v : BatchView α) (i : Nat) : Option α :=
  v.items[i]?

def toList (v : BatchView α) : List α :=
  v.items.toList

/-- Writes the instance at a position; nothing if there is none. -/
def set? (v : BatchView α) (i : Nat) (a : α) : Option (BatchView α) :=
  if i < v.items.size then some ⟨v.items.setIfInBounds i a⟩ else none

/-- Changes every instance. -/
def map (f : α → α) (v : BatchView α) : BatchView α :=
  ⟨v.items.map f⟩

/-- Text for diagnostics, from the texts of the instances. -/
def debugText (text : α → String) (v : BatchView α) : String :=
  let listed := ", ".intercalate (v.toList.map text)
  s!"BatchRef \x7b items: [{listed}] \x7d"

end BatchView

end EntityStore
