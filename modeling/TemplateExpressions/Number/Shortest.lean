import TemplateExpressions.Number.Integer

/-!
# Shortest decimals

A floating-point number is written with the fewest decimal digits that read back to it, positionally
and without an exponent. The digits are found in exact arithmetic: the reals that round to the
number form an interval, and the first decimal grid with a point in it is used.
-/

set_option autoImplicit false

namespace TemplateExpressions.Number

/-- A finite non-negative number `mantissa * 2 ^ exponent` of the binary64 format. -/
structure Binary where
  mantissa : Nat
  exponent : Int
  /-- The gap to the number below is half the gap to the number above. -/
  narrowBelow : Bool
deriving DecidableEq

/-- The number that the bits of a finite binary64 value stand for, its sign left out. -/
def Binary.ofBits (bits : Nat) : Binary :=
  let exponent : Nat := bits / twoTo 52 % twoTo 11
  let fraction : Nat := bits % twoTo 52
  if exponent = 0 then ⟨fraction, -1074, false⟩
  else ⟨twoTo 52 + fraction, Int.ofNat exponent - 1075, fraction == 0 && exponent > 1⟩

/-- A decimal number `digits * 10 ^ exponent`. -/
structure Decimal where
  digits : Nat
  exponent : Int
deriving DecidableEq

/-- Compares `a * 10 ^ i` with `b * 2 ^ j` exactly. -/
def compareScaled (a : Nat) (i : Int) (b : Nat) (j : Int) : Ordering :=
  compare (a * tenTo i.toNat * twoTo (-j).toNat) (b * twoTo j.toNat * tenTo (-i).toNat)

/-- Whether a decimal lies among the reals that round to the number, the nearest one and of two
equally near ones the one with an even mantissa. -/
def Binary.readsBack (x : Binary) (d : Decimal) : Bool :=
  let low := if x.narrowBelow then 4 * x.mantissa - 1 else 4 * x.mantissa - 2
  let high := 4 * x.mantissa + 2
  let closed := x.mantissa % 2 == 0
  let toLow := compareScaled d.digits d.exponent low (x.exponent - 2)
  let toHigh := compareScaled d.digits d.exponent high (x.exponent - 2)
  (toLow == .gt || (closed && toLow == .eq)) && (toHigh == .lt || (closed && toHigh == .eq))

/-- The multiple of `10 ^ exponent` at or next below the number. -/
def Binary.floorOn (x : Binary) (exponent : Int) : Nat :=
  (x.mantissa * twoTo x.exponent.toNat * tenTo (-exponent).toNat) /
    (twoTo (-x.exponent).toNat * tenTo exponent.toNat)

/-- How many zeros follow the point in `numerator / denominator`, a fraction below one, at most
`fuel` of them. -/
def leadingZeros (denominator : Nat) : Nat → Nat → Nat
  | 0, _ => 0
  | fuel + 1, numerator =>
    if 10 * numerator ≥ denominator then 0 else 1 + leadingZeros denominator fuel (10 * numerator)

/-- The least `k` with the number below `10 ^ k`. No positive binary64 number has more than 323
zeros behind the point. -/
def Binary.magnitude (x : Binary) : Int :=
  let numerator := x.mantissa * twoTo x.exponent.toNat
  let denominator := twoTo (-x.exponent).toNat
  if numerator < denominator then -(leadingZeros denominator 324 numerator : Int)
  else (natText (numerator / denominator)).length

/-- The better of the two neighbours of the number on the grid of `10 ^ exponent`, if one of them
reads back: the nearer one, and the upper one if both are equally near. -/
def Binary.onGrid? (x : Binary) (exponent : Int) : Option Decimal :=
  let below : Decimal := ⟨x.floorOn exponent, exponent⟩
  let above : Decimal := ⟨x.floorOn exponent + 1, exponent⟩
  match x.readsBack below, x.readsBack above with
  | true, true =>
    if compareScaled (below.digits + above.digits) exponent (2 * x.mantissa) x.exponent == .gt
    then some below else some above
  | true, false => some below
  | false, true => some above
  | false, false => none

/-- The exact value of the number in decimal. -/
def Binary.exact (x : Binary) : Decimal :=
  if 0 ≤ x.exponent then ⟨x.mantissa * twoTo x.exponent.toNat, 0⟩
  else ⟨x.mantissa * Nat.pow 5 (-x.exponent).toNat, x.exponent⟩

/-- The decimal with the fewest digits that reads back to the number. Seventeen digits always
suffice, so the exact value is never needed. -/
def Binary.shortest (x : Binary) : Decimal :=
  let grids := (List.range 17).map fun n => x.magnitude - Int.ofNat n - 1
  (grids.findSome? x.onGrid?).getD x.exact

/-- A decimal without an exponent, and without zeros at the end of its fraction. -/
def Decimal.positional (d : Decimal) : Text :=
  if 0 ≤ d.exponent then natText (d.digits * tenTo d.exponent.toNat)
  else
    let places := (-d.exponent).toNat
    let whole := natText (d.digits / tenTo places)
    let part := natText (d.digits % tenTo places)
    let fraction := List.replicate (places - part.length) '0' ++ part
    let fraction := (fraction.reverse.dropWhile (· == '0')).reverse
    if fraction.isEmpty then whole else whole ++ '.' :: fraction

/-- The written form of a floating-point number. -/
def floatText (x : Float) : Text :=
  let bits := x.toBits.toNat
  let sign : Text := if bits ≥ twoTo 63 then ['-'] else []
  let magnitude := bits % twoTo 63
  if x.isNaN then "NaN".toList
  else if magnitude = 0x7FF * twoTo 52 then sign ++ "inf".toList
  else if magnitude = 0 then sign ++ ['0']
  else sign ++ (Binary.ofBits magnitude).shortest.positional

end TemplateExpressions.Number
