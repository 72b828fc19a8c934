import EntityStore.Decimal.Numeral
import EntityStore.Text.Quoted

/-!
# JSON texts

A text is read into a tree that keeps numerals as numerals and strings as they are escaped, so
that what is not needed later is checked for its form only.

* `Json`, `Json.parse?` — the tree of a text;
* `Json.scanNumeral` — a numeral at the start of a text;
* `Json.string?` — the text of a string.

Blanks are the space, the tab, the line feed and the carriage return.  A text is one value with
nothing but blanks around it.
-/

namespace EntityStore.Text

open EntityStore.Decimal

/-- The tree of a JSON text. -/
inductive Json where
  | null
  | bool (b : Bool)
  | numeral (n : Numeral)
  /-- A string, still escaped. -/
  | string (body : List Char)
  | array (items : List Json)
  /-- An object; its keys are still escaped and may repeat. -/
  | object (members : List (List Char × Json))
deriving Repr, Inhabited

namespace Json

/-- Whether the character may stand between the parts of a text. -/
def isBlank (c : Char) : Bool :=
  c == ' ' || c == '\n' || c == '\t' || c == '\r'

/-- The text without the blanks at its start. -/
def skipBlanks (cs : List Char) : List Char :=
  cs.dropWhile isBlank

/-- The digits at the start of a text, and the rest. -/
def scanDigits (cs : List Char) : List Nat × List Char :=
  ((cs.takeWhile Char.isDigit).map fun c => c.toNat - 48, cs.dropWhile Char.isDigit)

def ofDigits (ds : List Nat) : Nat :=
  ds.foldl (fun acc d => acc * 10 + d) 0

/-- The fraction of a numeral, with at least one digit if there is a point. -/
def scanFraction : List Char → Option (Option (List Nat) × List Char)
  | '.' :: rest =>
    match scanDigits rest with
    | ([], _) => none
    | (ds, rest) => some (some ds, rest)
  | cs => some (none, cs)

/-- The exponent of a numeral, with at least one digit if there is a letter. -/
def scanExponent : List Char → Option (Option Int × List Char)
  | [] => some (none, [])
  | c :: rest =>
    if c == 'e' || c == 'E' then
      let (negative, rest) :=
        match rest with
        | '-' :: rest => (true, rest)
        | '+' :: rest => (false, rest)
        | _ => (false, rest)
      match scanDigits rest with
      | ([], _) => none
      | (ds, rest) => some (some (if negative then -(ofDigits ds : Int) else ofDigits ds), rest)
    else
      some (none, c :: rest)

/-- A numeral at the start of a text.  A zero in front of other digits is refused. -/
def scanNumeral (cs : List Char) : Option (Numeral × List Char) :=
  let (negative, cs) :=
    match cs with
    | '-' :: rest => (true, rest)
    | _ => (false, cs)
  match scanDigits cs with
  | ([], _) | (0 :: _ :: _, _) => none
  | (whole, rest) => do
    let (fraction, rest) ← scanFraction rest
    let (exponent, rest) ← scanExponent rest
    return ({ negative, whole, fraction, exponent }, rest)

/-- The rest of a text that starts with a given word. -/
def expect (word : List Char) (cs : List Char) : Option (List Char) :=
  if word.isPrefixOf cs then some (cs.drop word.length) else none

mutual

/-- A value at the start of a text.  The first argument bounds the number of steps. -/
def scanValue : Nat → List Char → Option (Json × List Char)
  | 0, _ => none
  | steps + 1, cs =>
    match skipBlanks cs with
    | [] => none
    | c :: rest =>
      if c == '\x7b' then
        match skipBlanks rest with
        | '\x7d' :: rest => some (.object [], rest)
        | rest => (scanMembers steps rest).map fun (members, rest) => (.object members, rest)
      else if c == '[' then
        match skipBlanks rest with
        | ']' :: rest => some (.array [], rest)
        | rest => (scanItems steps rest).map fun (items, rest) => (.array items, rest)
      else if c == '"' then
        (scan rest).map fun (body, rest) => (.string body, rest)
      else if c == 'n' then
        (expect ['u', 'l', 'l'] rest).map fun rest => (.null, rest)
      else if c == 't' then
        (expect ['r', 'u', 'e'] rest).map fun rest => (.bool true, rest)
      else if c == 'f' then
        (expect ['a', 'l', 's', 'e'] rest).map fun rest => (.bool false, rest)
      else
        (scanNumeral (c :: rest)).map fun (n, rest) => (.numeral n, rest)

/-- The items of an array, up to its closing bracket. -/
def scanItems : Nat → List Char → Option (List Json × List Char)
  | 0, _ => none
  | steps + 1, cs =>
    match scanValue steps cs with
    | none => none
    | some (item, rest) =>
      match skipBlanks rest with
      | ',' :: rest => (scanItems steps rest).map fun (items, rest) => (item :: items, rest)
      | ']' :: rest => some ([item], rest)
      | _ => none

/-- The members of an object, up to its closing brace. -/
def scanMembers : Nat → List Char → Option (List (List Char × Json) × List Char)
  | 0, _ => none
  | steps + 1, cs =>
    match skipBlanks cs with
    | '"' :: rest =>
      match scan rest with
      | none => none
      | some (key, rest) =>
        match skipBlanks rest with
        | ':' :: rest =>
          match scanValue steps rest with
          | none => none
          | some (item, rest) =>
            match skipBlanks rest with
            | ',' :: rest =>
              (scanMembers steps rest).map fun (members, rest) => ((key, item) :: members, rest)
            | '\x7d' :: rest => some ([(key, item)], rest)
            | _ => none
        | _ => none
    | _ => none

end

/-- The tree of a text; nothing if the text is malformed.  Each step of the scanner but the last
reads a character or goes one level down, so twice the length of the text is enough. -/
def parse? (text : String) : Option Json :=
  let cs := text.toList
  match scanValue (2 * cs.length + 2) cs with
  | some (json, rest) => if (skipBlanks rest).isEmpty then some json else none
  | none => none

/-- The text of a string. -/
def string? : Json → Option String
  | .string body => (unescape body).map String.ofList
  | _ => none

def bool? : Json → Option Bool
  | .bool b => some b
  | _ => none

def numeral? : Json → Option Numeral
  | .numeral n => some n
  | _ => none

def items? : Json → Option (List Json)
  | .array items => some items
  | _ => none

/-- The members of an object under their texts; nothing if a key is malformed. -/
def members? : Json → Option (List (String × Json))
  | .object members =>
    members.mapM fun (key, item) => (unescape key).map fun cs => (String.ofList cs, item)
  | _ => none

end Json

def arrayText (items : List String) : String :=
  "[" ++ ",".intercalate items ++ "]"

def objectText (members : List (String × String)) : String :=
  "\x7b" ++ ",".intercalate (members.map fun (key, text) => quote key ++ ":" ++ text) ++ "\x7d"

end EntityStore.Text
