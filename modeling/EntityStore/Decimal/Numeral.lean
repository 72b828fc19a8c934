/-!
# Decimal numerals and the numbers they stand for

A numeral is a sign, digits, perhaps digits after a point, perhaps an exponent.  As a whole
number it has to be in range; as a float it is its leading digits, as many as fit 64 bits,
scaled by a power of ten.

* `Numeral.toInt64?`, `Numeral.toFloat?`, `Numeral.toFloat32?` — the numbers;
* `Numeral.significand` — the leading digits and the exponent that belongs to them;
* `Numeral.scale?` — multiplication by a power of ten, refused when it overflows.

Digits before the point that do not fit are counted by the exponent; digits after the point that
do not fit are dropped.  The product is rounded once, so a float can be a few units in the last
place away from the numeral.
-/

namespace EntityStore.Decimal

/-- A decimal numeral. -/
structure Numeral where
  negative : Bool
  whole : List Nat
  fraction : Option (List Nat)
  exponent : Option Int
deriving DecidableEq, Repr, Inhabited

/-- The least number that does not fit 64 bits. -/
def wordLimit : Nat := 18446744073709551616

/-- The longest start of the digits that fits 64 bits, put behind `acc`, and the rest. -/
def leading : Nat → List Nat → Nat × List Nat
  | acc, [] => (acc, [])
  | acc, d :: rest =>
    if acc * 10 + d < wordLimit then leading (acc * 10 + d) rest else (acc, d :: rest)

namespace Numeral

/-- Whether the numeral is a whole number as written. -/
def isWhole (n : Numeral) : Bool :=
  n.fraction.isNone && n.exponent.isNone

def magnitude (n : Numeral) : Nat :=
  n.whole.foldl (fun acc d => acc * 10 + d) 0

/-- The leading digits, and the exponent of ten that belongs to them. -/
def significand (n : Numeral) : Nat × Int :=
  let (acc, dropped) := leading 0 n.whole
  let (acc', unread) := leading acc (n.fraction.getD [])
  (acc', dropped.length - ((n.fraction.getD []).length - unread.length) + n.exponent.getD 0)

/-- A float times a power of ten; nothing if it overflows.  Powers out of range are applied in
steps, up to `steps` of them, until the float vanishes. -/
def scale? : Nat → Float → Int → Option Float
  | steps, x, e =>
    if -308 ≤ e ∧ e ≤ 308 then
      let power := Float.ofScientific 1 false e.natAbs
      if 0 ≤ e then
        let y := x * power
        if y.isInf then none else some y
      else
        some (x / power)
    else if x == 0 then
      some x
    else if 0 ≤ e then
      none
    else
      match steps with
      | 0 => some 0
      | steps + 1 => scale? steps (x / Float.ofScientific 1 false 308) (e + 308)

/-- The numeral as a double float; nothing if it is too large. -/
def toFloat? (n : Numeral) : Option Float :=
  let (digits, e) := n.significand
  (scale? 4 digits.toUInt64.toFloat e).map fun x => if n.negative then -x else x

/-- The numeral as a 64-bit integer.  A numeral with a point or an exponent is none, and neither
is a negative zero. -/
def toInt64? (n : Numeral) : Option Int64 :=
  let m := n.magnitude
  if !n.isWhole then none
  else if n.negative then
    if 0 < m ∧ m ≤ 9223372036854775808 then some (Int64.ofInt (-m)) else none
  else if m < 9223372036854775808 then some (Int64.ofNat m)
  else none

/-- The numeral as a single float.  A whole number of 64 bits is rounded at once, any other
numeral by way of the double float. -/
def toFloat32? (n : Numeral) : Option Float32 :=
  if n.isWhole && !n.negative && n.magnitude < wordLimit then
    some n.magnitude.toUInt64.toFloat32
  else
    match n.toInt64? with
    | some i => some i.toFloat32
    | none => n.toFloat?.map Float.toFloat32

end Numeral

end EntityStore.Decimal
