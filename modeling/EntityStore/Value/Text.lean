import EntityStore.Decimal.Shortest
import EntityStore.Text.Json
import EntityStore.Value

/-!
# The text form of values

A value is written as a JSON object with one member: the kind as its key, and the number, text
or coordinates as its value.  Floats are written with the fewest digits that read back;
infinities and NaNs are written as null and do not read back.

* `Value.text`, `Value.parse?` — writing and reading;
* `Value.ofJson?` — the value of a tree.
-/

namespace EntityStore

open EntityStore.Text EntityStore.Decimal

/-- Double floats are written positionally from 0.00001 up to 16 digits before the point. -/
def doubleStyle : DecimalStyle :=
  { fraction := 52, width := 11, least := -5, greatest := 16 }

/-- Single floats are written positionally from 0.000001 up to 13 digits before the point. -/
def singleStyle : DecimalStyle :=
  { fraction := 23, width := 8, least := -6, greatest := 13 }

def doubleText (x : Float) : String :=
  (doubleStyle.text? x.toBits.toNat).getD "null"

def singleText (x : Float32) : String :=
  (singleStyle.text? x.toBits.toNat).getD "null"

/-- The key under which values of a kind are written. -/
def Kind.key : Kind → String
  | .bool => "Bool"
  | .int => "Int"
  | .float => "Float"
  | .string => "String"
  | .vec2 => "Vec2"
  | .vec3 => "Vec3"
  | .quat => "Quat"

def Kind.ofKey? (key : String) : Option Kind :=
  [Kind.bool, .int, .float, .string, .vec2, .vec3, .quat].find? (·.key == key)

namespace Value

/-- The text of what a value carries. -/
def payloadText : Value → String
  | .bool b => if b then "true" else "false"
  | .int n => toString n.toInt
  | .float x => doubleText x
  | .string s => quote s
  | .vec2 v => arrayText [singleText v.x, singleText v.y]
  | .vec3 v => arrayText [singleText v.x, singleText v.y, singleText v.z]
  | .quat q => arrayText [singleText q.x, singleText q.y, singleText q.z, singleText q.w]

def text (v : Value) : String :=
  objectText [(v.kind.key, v.payloadText)]

def coordinates? (json : Json) : Option (List Float32) :=
  json.items?.bind fun items => items.mapM fun item => item.numeral?.bind (·.toFloat32?)

/-- The value of the given kind with the given payload. -/
def ofPayload? (json : Json) : Kind → Option Value
  | .bool => json.bool?.map .bool
  | .int => (json.numeral?.bind (·.toInt64?)).map .int
  | .float => (json.numeral?.bind (·.toFloat?)).map .float
  | .string => json.string?.map .string
  | .vec2 =>
    match coordinates? json with
    | some [x, y] => some (.vec2 ⟨x, y⟩)
    | _ => none
  | .vec3 =>
    match coordinates? json with
    | some [x, y, z] => some (.vec3 ⟨x, y, z⟩)
    | _ => none
  | .quat =>
    match coordinates? json with
    | some [x, y, z, w] => some (.quat ⟨x, y, z, w⟩)
    | _ => none

/-- The value of a tree: an object with one member. -/
def ofJson? (json : Json) : Option Value :=
  match json.members? with
  | some [(key, payload)] => (Kind.ofKey? key).bind (ofPayload? payload)
  | _ => none

def parse? (text : String) : Option Value :=
  (Json.parse? text).bind ofJson?

end Value

end EntityStore
