/-!
# Component identifiers

A registered component is named by its position in the registry.  An identifier can be built
from any number, so it need not belong to a registered component.
-/

namespace EntityStore

/-- Position of a component in the registry and in every slot table. -/
structure ComponentId where
  raw : Nat
deriving DecidableEq, Repr, Inhabited

namespace ComponentId

/-- Written form: the number after a number sign. -/
def text (id : ComponentId) : String :=
  s!"#{id.raw}"

instance : Ord ComponentId := ⟨compareOn ComponentId.raw⟩

instance : Std.TransOrd ComponentId :=
  inferInstanceAs (Std.TransCmp (compareOn ComponentId.raw))

instance : Std.LawfulEqOrd ComponentId where
  eq_of_compare {a b} h := by
    have h' : compareOn ComponentId.raw a b = .eq := h
    simp only [compareOn, Std.compare_eq_iff_eq] at h'
    cases a
    cases b
    simp_all

end ComponentId

end EntityStore
