/-!
# Reflected values

The values that fields have when they are read or written by name.  A value is one of seven
kinds; numbers travel as 64-bit integers and double floats, vectors as single floats.

* `Vec2`, `Vec3`, `Quat` — vectors of single floats;
* `Value`, `Value.kind`, `Value.sameKind` — a value, its kind, agreement of kinds.

Equality of values (`==`) compares floats as numbers: zero equals negative zero, and a value
with a NaN in it differs from itself.
-/

namespace EntityStore

/-- A pair of single floats. -/
structure Vec2 where
  x : Float32
  y : Float32
deriving BEq, Repr, Inhabited

/-- A triple of single floats. -/
structure Vec3 where
  x : Float32
  y : Float32
  z : Float32
deriving BEq, Repr, Inhabited

/-- A quaternion, the real part last. -/
structure Quat where
  x : Float32
  y : Float32
  z : Float32
  w : Float32
deriving BEq, Repr, Inhabited

/-- The kinds of reflected values. -/
inductive Kind where
  | bool
  | int
  | float
  | string
  | vec2
  | vec3
  | quat
deriving DecidableEq, Repr, Inhabited

def Kind.name : Kind → String
  | .bool => "bool"
  | .int => "int"
  | .float => "float"
  | .string => "string"
  | .vec2 => "vec2"
  | .vec3 => "vec3"
  | .quat => "quat"

/-- A field's value as seen through reflection. -/
inductive Value where
  | bool (b : Bool)
  | int (n : Int64)
  | float (x : Float)
  | string (s : String)
  | vec2 (v : Vec2)
  | vec3 (v : Vec3)
  | quat (q : Quat)
deriving BEq, Repr, Inhabited

namespace Value

def kind : Value → Kind
  | .bool _ => .bool
  | .int _ => .int
  | .float _ => .float
  | .string _ => .string
  | .vec2 _ => .vec2
  | .vec3 _ => .vec3
  | .quat _ => .quat

/-- Both values are of one kind. -/
def sameKind (a b : Value) : Bool :=
  a.kind == b.kind

theorem sameKind_iff (a b : Value) : a.sameKind b = true ↔ a.kind = b.kind := by
  simp only [sameKind, beq_iff_eq]

end Value

/-- What reflection shows of an instance: the name of its type and its fields in order. -/
structure FieldView where
  typeName : String
  fields : List (String × Value)

end EntityStore
