import EntityStore.Value

/-!
# Typed fields and their reflected values

A field of a component holds a value of one fixed type.  Seven field types are kinds of
reflected values themselves; the other three travel as a wider kind: 32-bit integers as `int`,
range-checked on the way back, and single floats as `float`, rounded on the way back.

* `FieldType`, `FieldValue` — the ten field types and their values;
* `FieldValue.toValue` — the reflected value of a field;
* `FieldType.ofValue?` — the field value behind a reflected value, if there is one;
* `type_of_ofValue?`, `kind_of_ofValue?` — a value that can be put into a field is of its kind.
-/

namespace EntityStore

/-- The type of a field. -/
inductive FieldType where
  | bool
  | int64
  | int32
  | nat32
  | float64
  | float32
  | string
  | vec2
  | vec3
  | quat
deriving DecidableEq, Repr, Inhabited

/-- A value of one of the field types. -/
inductive FieldValue where
  | bool (b : Bool)
  | int64 (n : Int64)
  | int32 (n : Int32)
  | nat32 (n : UInt32)
  | float64 (x : Float)
  | float32 (x : Float32)
  | string (s : String)
  | vec2 (v : Vec2)
  | vec3 (v : Vec3)
  | quat (q : Quat)
deriving Repr, Inhabited

/-- The kind as which values of the field type are reflected. -/
def FieldType.kind : FieldType → Kind
  | .bool => .bool
  | .int64 | .int32 | .nat32 => .int
  | .float64 | .float32 => .float
  | .string => .string
  | .vec2 => .vec2
  | .vec3 => .vec3
  | .quat => .quat

/-- Zero, the empty text, or the identity rotation. -/
def FieldType.default : FieldType → FieldValue
  | .bool => .bool false
  | .int64 => .int64 0
  | .int32 => .int32 0
  | .nat32 => .nat32 0
  | .float64 => .float64 0
  | .float32 => .float32 0
  | .string => .string ""
  | .vec2 => .vec2 ⟨0, 0⟩
  | .vec3 => .vec3 ⟨0, 0, 0⟩
  | .quat => .quat ⟨0, 0, 0, 1⟩

namespace FieldValue

def type : FieldValue → FieldType
  | .bool _ => .bool
  | .int64 _ => .int64
  | .int32 _ => .int32
  | .nat32 _ => .nat32
  | .float64 _ => .float64
  | .float32 _ => .float32
  | .string _ => .string
  | .vec2 _ => .vec2
  | .vec3 _ => .vec3
  | .quat _ => .quat

/-- The reflected value: narrow integers and single floats are widened, which is exact. -/
def toValue : FieldValue → Value
  | .bool b => .bool b
  | .int64 n => .int n
  | .int32 n => .int n.toInt64
  | .nat32 n => .int (Int64.ofNat n.toNat)
  | .float64 x => .float x
  | .float32 x => .float x.toFloat
  | .string s => .string s
  | .vec2 v => .vec2 v
  | .vec3 v => .vec3 v
  | .quat q => .quat q

/-- The value after a whole amount is added: integers wrap around, vectors and quaternions move
along their first coordinate, and flags and texts stay. -/
def add (amount : Int) : FieldValue → FieldValue
  | .bool b => .bool b
  | .int64 n => .int64 (n + Int64.ofInt amount)
  | .int32 n => .int32 (n + Int32.ofInt amount)
  | .nat32 n => .nat32 (n + UInt32.ofInt amount)
  | .float64 x => .float64 (x + (Int64.ofInt amount).toFloat)
  | .float32 x => .float32 (x + (Int64.ofInt amount).toFloat32)
  | .string s => .string s
  | .vec2 v => .vec2 { v with x := v.x + (Int64.ofInt amount).toFloat32 }
  | .vec3 v => .vec3 { v with x := v.x + (Int64.ofInt amount).toFloat32 }
  | .quat q => .quat { q with x := q.x + (Int64.ofInt amount).toFloat32 }

end FieldValue

namespace FieldType

/-- The field value behind a reflected value.  The kind has to be the field's, and a narrow
integer has to be in range; a single float is the nearest one. -/
def ofValue? : FieldType → Value → Option FieldValue
  | .bool, .bool b => some (.bool b)
  | .int64, .int n => some (.int64 n)
  | .int32, .int n =>
    if -2147483648 ≤ n.toInt ∧ n.toInt < 2147483648 then some (.int32 n.toInt32) else none
  | .nat32, .int n =>
    if 0 ≤ n.toInt ∧ n.toInt < 4294967296 then some (.nat32 (UInt32.ofInt n.toInt)) else none
  | .float64, .float x => some (.float64 x)
  | .float32, .float x => some (.float32 x.toFloat32)
  | .string, .string s => some (.string s)
  | .vec2, .vec2 v => some (.vec2 v)
  | .vec3, .vec3 v => some (.vec3 v)
  | .quat, .quat q => some (.quat q)
  | _, _ => none

theorem type_of_ofValue? {t : FieldType} {v : Value} {f : FieldValue}
    (h : t.ofValue? v = some f) : f.type = t := by
  unfold ofValue? at h
  split at h <;> (try split at h) <;> cases h <;> rfl

theorem kind_of_ofValue? {t : FieldType} {v : Value} {f : FieldValue}
    (h : t.ofValue? v = some f) : v.kind = t.kind := by
  unfold ofValue? at h
  split at h <;> (try split at h) <;> cases h <;> rfl

end FieldType

end EntityStore
