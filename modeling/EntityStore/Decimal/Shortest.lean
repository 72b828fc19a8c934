/-!
# Shortest decimals

The decimal with the fewest digits that reads back as a given binary float, and of those the
nearest to it.  A positive finite float is `m * 2 ^ q`; the reals that round to it form an
interval, which contains its ends exactly if `m` is even.

* `Binary`, `Binary.ofBits` — a float taken apart;
* `shortestDecimal` — digits and decimal exponent;
* `DecimalStyle`, `DecimalStyle.text` — where positional notation ends, and the written form.

The search goes through the decimal grids with one digit, two digits, and so on.  If a grid has
a point in the interval, one of the two grid points next to the float is such a point.
-/

namespace EntityStore.Decimal

/-- A positive finite float: `significand * 2 ^ exponent`. -/
structure Binary where
  significand : Nat
  exponent : Int
  /-- Whether the float below is only half as far away as the float above. -/
  narrowBelow : Bool
deriving DecidableEq, Repr, Inhabited

/-- A float as its bits show it. -/
inductive Decoded where
  | nan
  | infinite (negative : Bool)
  | zero (negative : Bool)
  | finite (negative : Bool) (magnitude : Binary)
deriving DecidableEq, Repr, Inhabited

/-- Takes a float apart that has `fraction` explicit bits of significand and `width` bits of
exponent. -/
def Decoded.ofBits (fraction width : Nat) (bits : Nat) : Decoded :=
  let low := bits % Nat.pow 2 fraction
  let biased := bits / Nat.pow 2 fraction % Nat.pow 2 width
  let negative := bits / Nat.pow 2 (fraction + width) % 2 == 1
  let bias : Int := Nat.pow 2 (width - 1) - 1 + fraction
  if biased = Nat.pow 2 width - 1 then
    if low = 0 then .infinite negative else .nan
  else if biased = 0 then
    if low = 0 then .zero negative else .finite negative ⟨low, 1 - bias, false⟩
  else
    .finite negative ⟨Nat.pow 2 fraction + low, biased - bias, low == 0 && 1 < biased⟩

def digitCount (n : Nat) : Nat :=
  (Nat.toDigits 10 n).length

/-- The greatest `e` with `10 ^ e ≤ num / den`, for positive `num` and `den`. -/
def decimalExponent (num den : Nat) : Int :=
  if den ≤ num then digitCount (num / den) - 1
  else -(digitCount ((den + num - 1) / num - 1) : Int)

/-- The point of the grid `10 ^ k` in the interval of a float that is nearest to it, if there is
one; of two equally near points the even one. -/
def gridPoint? (b : Binary) (k : Int) : Option Nat :=
  let shift := b.exponent - 2
  -- the grid point `d` lies at `d * grid` and a quarter unit of the significand at `quarter`
  let grid := Nat.pow 10 k.toNat * Nat.pow 2 (-shift).toNat
  let quarter := Nat.pow 10 (-k).toNat * Nat.pow 2 shift.toNat
  let centre := 4 * b.significand * quarter
  let upper := centre + 2 * quarter
  let lower := centre - (if b.narrowBelow then 1 else 2) * quarter
  let closed := b.significand % 2 == 0
  let inside (d : Nat) : Bool :=
    if closed then lower ≤ d * grid && d * grid ≤ upper else lower < d * grid && d * grid < upper
  let below := centre / grid
  let toBelow := centre - below * grid
  let toAbove := (below + 1) * grid - centre
  match inside below, inside (below + 1) with
  | true, true =>
    if toBelow < toAbove || (toBelow == toAbove && below % 2 == 0) then some below
    else some (below + 1)
  | true, false => some below
  | false, true => some (below + 1)
  | false, false => none

/-- Drops the zeros at the end of a list of digits; the exponent grows by their number. -/
def trimZeros (digits : List Char) (k : Int) : List Char × Int :=
  let trimmed := (digits.reverse.dropWhile (· == '0')).reverse
  (trimmed, k + (digits.length - trimmed.length : Nat))

/-- The digits of the shortest decimal and the exponent of ten of the last one. -/
def shortestDecimal (b : Binary) : List Char × Int :=
  let e :=
    decimalExponent (b.significand * Nat.pow 2 b.exponent.toNat) (Nat.pow 2 (-b.exponent).toNat)
  let point (n : Nat) : Option (Nat × Int) :=
    let k := e - n
    (gridPoint? b k).map fun d => (d, k)
  match (List.range 17).findSome? point with
  | some (d, k) => trimZeros (Nat.toDigits 10 d) k
  | none => ([], 0)

/-- Which numbers are written positionally: those whose decimal point stands, counted from the
first digit, after `least` and not after `greatest`. -/
structure DecimalStyle where
  fraction : Nat
  width : Nat
  /-- The point stands after this position. -/
  least : Int
  /-- The point does not stand after this position. -/
  greatest : Int
deriving DecidableEq, Repr, Inhabited

/-- The written form of a positive number: positional with at least one digit on either side of
the point, or with one digit before the point and an exponent that always has a sign. -/
def DecimalStyle.positive (s : DecimalStyle) (digits : List Char) (k : Int) : String :=
  let point := digits.length + k
  let zeros (n : Int) := List.replicate n.toNat '0'
  if 0 ≤ k ∧ point ≤ s.greatest then
    String.ofList (digits ++ zeros k ++ ['.', '0'])
  else if 0 < point ∧ point ≤ s.greatest then
    String.ofList (digits.take point.toNat ++ ['.'] ++ digits.drop point.toNat)
  else if s.least < point ∧ point ≤ 0 then
    String.ofList (['0', '.'] ++ zeros (-point) ++ digits)
  else
    let mantissa :=
      match digits with
      | first :: second :: rest => first :: '.' :: second :: rest
      | short => short
    let exponent := point - 1
    String.ofList mantissa ++ (if exponent < 0 then s!"e{exponent}" else s!"e+{exponent}")

/-- The written form of a float; nothing for an infinity or a NaN. -/
def DecimalStyle.text? (s : DecimalStyle) (bits : Nat) : Option String :=
  let signed (negative : Bool) (text : String) := if negative then "-" ++ text else text
  match Decoded.ofBits s.fraction s.width bits with
  | .nan | .infinite _ => none
  | .zero negative => some (signed negative "0.0")
  | .finite negative magnitude =>
    let (digits, k) := shortestDecimal magnitude
    some (signed negative (s.positive digits k))

end EntityStore.Decimal
