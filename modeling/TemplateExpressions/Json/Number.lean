import TemplateExpressions.Number.Integer
import TemplateExpressions.Value

/-!
# Numbers in JSON

A number without fraction and exponent that fits in a signed integer of 64 bits is an integer, every
other number a floating-point number. Of its digits as many are kept as fit in 64 bits; the number
they make is scaled by one multiplication or division with a power of ten, so the last bit may
differ from that of the nearest floating-point number.
-/

set_option autoImplicit false

namespace TemplateExpressions.Json

/-- Reads digits onto a value as long as it fits in 64 bits; the digits left over come back. -/
def absorb : Nat → Text → Nat × Text
  | n, [] => (n, [])
  | n, c :: t =>
    let next := n * 10 + Number.digitValue c
    if next < Number.twoTo 64 then absorb next t else (n, c :: t)

/-- A power of ten up to the 308th. -/
def powerOfTen (n : Nat) : Float := Float.ofScientific 1 false n

/-- Divides by a power of ten, by `10 ^ 308` at a time. -/
def divideByPower (x : Float) (n : Nat) : Float :=
  if n ≤ 308 then x / powerOfTen n
  else if x == 0 then x
  else divideByPower (x / powerOfTen 308) (n - 308)
termination_by n

/-- The floating-point number `significand * 10 ^ exponent`, unless it is too large. -/
def scale? (significand : Nat) (exponent : Int) : Option Float :=
  let x := (UInt64.ofNat significand).toFloat
  if exponent < 0 then some (divideByPower x (-exponent).toNat)
  else if exponent ≤ 308 then
    let y := x * powerOfTen exponent.toNat
    if y.isInf then none else some y
  else if x == 0 then some x
  else none

/-- A floating-point number with its sign. -/
def signed (negative : Bool) (x : Float) : Value := .float (if negative then -x else x)

/-- The digits that a text starts with, and what follows them. -/
def readDigits (t : Text) : Text × Text := (t.takeWhile Char.isDigit, t.dropWhile Char.isDigit)

/-- Reads the part of a number behind the letter of its exponent. -/
def readExponent (negative : Bool) (significand : Nat) (exponent : Int) (t : Text) :
    Option (Value × Text) :=
  let (down, t) := match t with
    | '+' :: t => (false, t)
    | '-' :: t => (true, t)
    | t => (false, t)
  let (digits, rest) := readDigits t
  if digits.isEmpty then none
  else
    let by_ := Number.digitsValue 0 digits
    if Number.twoTo 31 ≤ by_ then
      if significand ≠ 0 && !down then none else some (signed negative 0, rest)
    else
      (scale? significand (if down then exponent - by_ else exponent + by_)).map fun x =>
        (signed negative x, rest)

/-- The number that a significand stands for when neither fraction nor exponent follow. -/
def whole (negative : Bool) (significand : Nat) : Value :=
  if negative then
    if 0 < significand && significand ≤ Number.twoTo 63 then
      .int (Int64.ofInt (-(significand : Int)))
    else signed true (UInt64.ofNat significand).toFloat
  else if significand < Number.twoTo 63 then .int (Int64.ofNat significand)
  else signed false (UInt64.ofNat significand).toFloat

/-- Reads a number behind its sign. -/
def readUnsigned (negative : Bool) (t : Text) : Option (Value × Text) :=
  let (digits, rest) := readDigits t
  if digits.isEmpty || (digits.head? == some '0' && 1 < digits.length) then none
  else
    let (significand, dropped) := absorb 0 digits
    let exponent : Int := dropped.length
    match rest with
    | '.' :: rest =>
      let (fraction, rest) := readDigits rest
      if fraction.isEmpty then none
      else
        let (significand, left) := absorb significand fraction
        let exponent := exponent - (fraction.length - left.length : Nat)
        match rest with
        | 'e' :: rest | 'E' :: rest => readExponent negative significand exponent rest
        | rest => (scale? significand exponent).map fun x => (signed negative x, rest)
    | 'e' :: rest | 'E' :: rest => readExponent negative significand exponent rest
    | rest =>
      if dropped.isEmpty then some (whole negative significand, rest)
      else (scale? significand exponent).map fun x => (signed negative x, rest)

/-- Reads a number. -/
def readNumber : Text → Option (Value × Text)
  | '-' :: t => readUnsigned true t
  | t => readUnsigned false t

end TemplateExpressions.Json
