import EntityStore.Schema
import EntityStore.Value.Text

/-!
# The text form of schemas

A schema is written as a JSON object with the members `name` and `fields`, a field as an
object with the members `name` and `default`.  Reading takes the members in any order, takes an
array with the members' values in order instead, skips members with other names, and refuses a
member that occurs twice; only `fields` may be left out.

* `Schema.text`, `Schema.parse?` — writing and reading;
* `Schema.read` — reading a schema that keeps the rules.
-/

namespace EntityStore

open EntityStore.Text

/-- The member with the given name: nothing if it occurs twice, and nothing within if it does
not occur. -/
def member? (name : String) (members : List (String × Json)) : Option (Option Json) :=
  match members.filter (·.1 == name) with
  | [] => some none
  | [(_, item)] => some (some item)
  | _ => none

namespace SchemaField

def text (f : SchemaField) : String :=
  objectText [("name", quote f.name), ("default", f.default.text)]

def ofParts? (name default : Json) : Option SchemaField := do
  return ⟨← name.string?, ← Value.ofJson? default⟩

def ofJson? (json : Json) : Option SchemaField :=
  match json with
  | .array [name, default] => ofParts? name default
  | .object _ => do
    let members ← json.members?
    let name ← member? "name" members
    let default ← member? "default" members
    ofParts? (← name) (← default)
  | _ => none

end SchemaField

namespace Schema

def text (schema : Schema) : String :=
  objectText [("name", quote schema.name), ("fields", arrayText (schema.fields.map (·.text)))]

/-- The fields of a tree; none if they are left out. -/
def fieldsOf? : Option Json → Option (List SchemaField)
  | none => some []
  | some json => json.items?.bind fun items => items.mapM SchemaField.ofJson?

def ofJson? (json : Json) : Option Schema :=
  match json with
  | .array [name] => do return ⟨← name.string?, []⟩
  | .array [name, fields] => do return ⟨← name.string?, ← fieldsOf? (some fields)⟩
  | .object _ => do
    let members ← json.members?
    let name ← member? "name" members
    let fields ← member? "fields" members
    return ⟨← (← name).string?, ← fieldsOf? fields⟩
  | _ => none

/-- Reads a schema, whether or not it keeps the rules. -/
def parse? (text : String) : Option Schema :=
  (Json.parse? text).bind ofJson?

/-- Why a schema could not be read. -/
inductive ReadError where
  | malformed
  | invalid (err : StoreError)
deriving DecidableEq, Repr, Inhabited

/-- Reads a schema that keeps the rules. -/
def read (text : String) : Except ReadError Schema :=
  match parse? text with
  | none => .error .malformed
  | some schema =>
    match schema.check with
    | .ok () => .ok schema
    | .error err => .error (.invalid err)

/-- Whether the text of a schema reads back as an equal schema. -/
def roundTrips (schema : Schema) : Bool :=
  parse? schema.text == some schema

end Schema

end EntityStore
