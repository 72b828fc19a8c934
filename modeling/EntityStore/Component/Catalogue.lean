import EntityStore.Component

/-!
# Component types for examples

A component with one field, one with a field for each coordinate, one whose fields are of different
types, and one of which an entity can have any number.
-/

namespace EntityStore.Catalogue

def level : ComponentType :=
  { typeName := "Level", name := "Level", fields := [⟨"value", .int64, true⟩] }

def pos : ComponentType :=
  { typeName := "Pos", name := "Pos", fields := [⟨"x", .float64, true⟩, ⟨"y", .float64, true⟩] }

def stats : ComponentType :=
  { typeName := "Stats", name := "Stats"
    fields :=
      [⟨"hp", .int32, true⟩, ⟨"shield", .nat32, true⟩, ⟨"alive", .bool, true⟩,
        ⟨"name", .string, true⟩] }

/-- Any number of instances an entity. -/
def hit : ComponentType :=
  { typeName := "Hit", name := "Hit", fields := [⟨"v", .int64, true⟩], storage := .batch none }

end EntityStore.Catalogue
