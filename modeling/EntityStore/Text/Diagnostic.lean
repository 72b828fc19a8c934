import EntityStore.Text.Quoted
import EntityStore.Text.Unprintable

/-!
# Text in diagnostics

Diagnostics show a text between quotes with everything escaped that could be mistaken: quotes,
backslashes, line ends, and characters that do not show by themselves, these by their code point.

* `diagnosticQuote` — the shown form of a text.
-/

namespace EntityStore.Text

def diagnosticEscape (c : Char) : List Char :=
  if c.toNat = 0 then [backslash, '0']
  else if c = '\t' then [backslash, 't']
  else if c = '\r' then [backslash, 'r']
  else if c = '\n' then [backslash, 'n']
  else if c = '"' then [backslash, '"']
  else if c = backslash then [backslash, backslash]
  else if c.toNat < 32 ∨ (127 ≤ c.toNat ∧ isUnprintable c) then
    [backslash, 'u', '\x7b'] ++ Nat.toDigits 16 c.toNat ++ ['\x7d']
  else [c]

def diagnosticQuote (s : String) : String :=
  String.ofList ('"' :: s.toList.flatMap diagnosticEscape ++ ['"'])

end EntityStore.Text
