import EntityStore.Text.Quoted

/-!
# The bit form of floats

A float is written exactly, as `0x` and the hexadecimal digits of its bits: sixteen digits for a
double float, eight for a single one.  Every NaN is written as `nan`.

* `hexDigits`, `hexNumber?` — hexadecimal digits of a number, and back;
* `hexNumber?_hexDigits` — the digits read back;
* `doubleBits`, `singleBits` — the bit form;
* `double?`, `single?` — reading it.

Reading knows `nan`, `inf` and `-inf` by name.  A single float that is not given by its eight
digits is read as a double float and rounded.
-/

namespace EntityStore

open EntityStore.Text

/-- The last `count` hexadecimal digits of a number. -/
def hexDigits : Nat → Nat → List Char
  | 0, _ => []
  | count + 1, n => hexDigits count (n / 16) ++ [hexDigit (n % 16)]

def hexNumber? (digits : List Char) : Option Nat :=
  digits.foldlM (fun acc c => (hexValue? c).map (acc * 16 + ·)) 0

theorem hexValue?_hexDigit : ∀ d, d < 16 → hexValue? (hexDigit d) = some d := by
  decide

/-- The digits read back as what they keep of the number. -/
theorem hexNumber?_hexDigits (count n : Nat) :
    hexNumber? (hexDigits count n) = some (n % Nat.pow 16 count) := by
  induction count generalizing n with
  | zero =>
    have hone : n % Nat.pow 16 0 = 0 := Nat.mod_one n
    rw [hone]
    rfl
  | succ count ih =>
    have hdigit := hexValue?_hexDigit (n % 16) (Nat.mod_lt n (by decide))
    have hsplit : n % Nat.pow 16 (count + 1) = n / 16 % Nat.pow 16 count * 16 + n % 16 := by
      show n % (Nat.pow 16 count * 16) = _
      rw [Nat.mul_comm (Nat.pow 16 count) 16, Nat.mod_mul]
      omega
    simp only [hexNumber?] at ih
    simp only [hexDigits, hexNumber?, List.foldlM_append, ih, Option.bind_eq_bind,
      Option.bind_some, List.foldlM_cons, List.foldlM_nil, hdigit, Option.map_some, hsplit,
      pure]

def doubleBits (x : Float) : String :=
  if x.isNaN then "nan" else String.ofList ('0' :: 'x' :: hexDigits 16 x.toBits.toNat)

def singleBits (x : Float32) : String :=
  if x.isNaN then "nan" else String.ofList ('0' :: 'x' :: hexDigits 8 x.toBits.toNat)

def double? (text : String) : Option Float :=
  match text.toList with
  | ['n', 'a', 'n'] => some (0.0 / 0.0)
  | ['i', 'n', 'f'] => some (1.0 / 0.0)
  | ['-', 'i', 'n', 'f'] => some (-1.0 / 0.0)
  | '0' :: 'x' :: digits => (hexNumber? digits).map fun n => Float.ofBits n.toUInt64
  | _ => none

def single? (text : String) : Option Float32 :=
  match text.toList with
  | ['0', 'x', a, b, c, d, e, f, g, h] =>
    (hexNumber? [a, b, c, d, e, f, g, h]).map fun n => Float32.ofBits n.toUInt32
  | _ => (double? text).map Float.toFloat32

end EntityStore
