import TemplateExpressions.Text.Basic

/-!
# Integers in decimal

Integers are written without leading zeros and with a minus sign. Two readers stand beside the
writer: `readInteger?` for signed integers of 64 bits, and `readCount` for unsigned ones, which
says what is wrong with a text that it refuses.
-/

set_option autoImplicit false

namespace TemplateExpressions.Number

/-- A power of two. -/
def twoTo (n : Nat) : Nat := Nat.pow 2 n

/-- A power of ten. -/
def tenTo (n : Nat) : Nat := Nat.pow 10 n

/-- A natural number in decimal digits. -/
def natText (n : Nat) : Text := Nat.toDigits 10 n

/-- An integer in decimal digits, a negative one behind a minus sign. -/
def intText (i : Int) : Text :=
  match i with
  | .ofNat n => natText n
  | .negSucc n => '-' :: natText (n + 1)

/-- The value of a decimal digit. -/
def digitValue (c : Char) : Nat := c.toNat - '0'.toNat

/-- The value of a text of decimal digits, read from the left onto a value already read. -/
def digitsValue (start : Nat) (t : Text) : Nat := t.foldl (fun n c => n * 10 + digitValue c) start

/-- The natural number that a text of at least one ASCII digit denotes. -/
def readDigits? (t : Text) : Option Nat :=
  if !t.isEmpty && t.all Char.isDigit then some (digitsValue 0 t) else none

/-- The integer that an optional sign and ASCII digits denote. -/
def readSigned? : Text → Option Int
  | '-' :: t => (readDigits? t).map fun n => -(n : Int)
  | '+' :: t => (readDigits? t).map fun n => (n : Int)
  | t => (readDigits? t).map fun n => (n : Int)

/-- Whether an integer fits in 64 bits with a sign. -/
def fitsInt64 (i : Int) : Bool := -(twoTo 63 : Int) ≤ i && i < (twoTo 63 : Int)

/-- The integer of 64 bits that a text denotes. -/
def readInteger? (t : Text) : Option Int := (readSigned? t).filter fitsInt64

/-- Why a text is not a count. -/
inductive CountFault where
  | empty
  | invalidDigit
  | tooLarge
deriving DecidableEq

/-- The wording of the fault. -/
def CountFault.message : CountFault → Text
  | .empty => "cannot parse integer from empty string".toList
  | .invalidDigit => "invalid digit found in string".toList
  | .tooLarge => "number too large to fit in target type".toList

/-- Reads digits onto a value, up to the first character that is no digit or digit that makes the
value too large for 64 bits. -/
def readCountDigits : Nat → Text → Except CountFault Nat
  | n, [] => .ok n
  | n, c :: t =>
    if c.isDigit then
      let n := n * 10 + digitValue c
      if n < twoTo 64 then readCountDigits n t else .error .tooLarge
    else .error .invalidDigit

/-- The unsigned integer of 64 bits that a text denotes; a plus sign may lead. -/
def readCount : Text → Except CountFault Nat
  | [] => .error .empty
  | ['+'] => .error .invalidDigit
  | '+' :: t => readCountDigits 0 t
  | t => readCountDigits 0 t

end TemplateExpressions.Number
