/-!
# Quoted text

Text between quotes, with a backslash in front of what cannot stand for itself.  A quote, a
backslash and the control characters have to be escaped; a code point may be escaped by its
UTF-16 code units in hexadecimal digits.

* `quote` — the written form of a text;
* `scan` — the characters up to the closing quote, still escaped, and the rest;
* `unescape` — the text behind escaped characters.

Scanning accepts any four hexadecimal digits; a code unit of a surrogate pair that stands alone
is refused only by `unescape`.
-/

namespace EntityStore.Text

def backslash : Char := Char.ofNat 92

def hexValue? (c : Char) : Option Nat :=
  if '0' ≤ c ∧ c ≤ '9' then some (c.toNat - 48)
  else if 'a' ≤ c ∧ c ≤ 'f' then some (c.toNat - 87)
  else if 'A' ≤ c ∧ c ≤ 'F' then some (c.toNat - 55)
  else none

/-- The hexadecimal digit with a value below sixteen. -/
def hexDigit (n : Nat) : Char :=
  if n < 10 then Char.ofNat (48 + n) else Char.ofNat (87 + n)

def codeUnit? (a b c d : Char) : Option Nat := do
  return (((← hexValue? a) * 16 + (← hexValue? b)) * 16 + (← hexValue? c)) * 16 + (← hexValue? d)

/-- What a letter behind a backslash stands for. -/
def shortEscape? (c : Char) : Option Char :=
  if c = '"' then some '"'
  else if c = backslash then some backslash
  else if c = '/' then some '/'
  else if c = 'b' then some (Char.ofNat 8)
  else if c = 'f' then some (Char.ofNat 12)
  else if c = 'n' then some '\n'
  else if c = 'r' then some '\r'
  else if c = 't' then some '\t'
  else none

/-- The written form of one character. -/
def escape (c : Char) : List Char :=
  if c = '"' then [backslash, '"']
  else if c = backslash then [backslash, backslash]
  else if c = '\n' then [backslash, 'n']
  else if c = '\r' then [backslash, 'r']
  else if c = '\t' then [backslash, 't']
  else if c.toNat = 8 then [backslash, 'b']
  else if c.toNat = 12 then [backslash, 'f']
  else if c.toNat < 32 then
    [backslash, 'u', '0', '0', hexDigit (c.toNat / 16), hexDigit (c.toNat % 16)]
  else [c]

def quote (s : String) : String :=
  String.ofList ('"' :: s.toList.flatMap escape ++ ['"'])

/-- Splits at the closing quote.  The first part is still escaped; nothing if an escape is
malformed, a control character occurs or the quote is missing. -/
def scan : List Char → Option (List Char × List Char)
  | [] => none
  | c :: rest =>
    if c = '"' then some ([], rest)
    else if c = backslash then
      match rest with
      | 'u' :: a :: b :: x :: y :: rest' =>
        if (codeUnit? a b x y).isSome then
          (scan rest').map fun (body, tail) => (c :: 'u' :: a :: b :: x :: y :: body, tail)
        else none
      | e :: rest' =>
        if (shortEscape? e).isSome then
          (scan rest').map fun (body, tail) => (c :: e :: body, tail)
        else none
      | [] => none
    else if c.toNat < 32 then none
    else (scan rest).map fun (body, tail) => (c :: body, tail)

/-- The code point of a surrogate pair. -/
def pairValue (high low : Nat) : Nat :=
  65536 + (high - 55296) * 1024 + (low - 56320)

/-- The text behind escaped characters; nothing if a surrogate stands alone. -/
def unescape : List Char → Option (List Char)
  | [] => some []
  | c :: rest =>
    if c = backslash then
      match rest with
      | 'u' :: a :: b :: x :: y :: rest' =>
        match codeUnit? a b x y with
        | none => none
        | some high =>
          if high < 55296 ∨ 57343 < high then (unescape rest').map (Char.ofNat high :: ·)
          else if 56319 < high then none
          else
            match rest' with
            | b' :: 'u' :: a' :: c' :: x' :: y' :: rest'' =>
              match codeUnit? a' c' x' y' with
              | none => none
              | some low =>
                if b' = backslash ∧ 56320 ≤ low ∧ low ≤ 57343 then
                  (unescape rest'').map (Char.ofNat (pairValue high low) :: ·)
                else none
            | _ => none
      | e :: rest' =>
        match shortEscape? e with
        | some plain => (unescape rest').map (plain :: ·)
        | none => none
      | [] => none
    else (unescape rest).map (c :: ·)

end EntityStore.Text
