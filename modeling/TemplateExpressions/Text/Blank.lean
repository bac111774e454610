import TemplateExpressions.Text.Basic

/-!
# Blank characters

The characters with the Unicode property White_Space, and the removal of such characters from the
ends of a text. The property has been stable at these 25 characters.
-/

set_option autoImplicit false

namespace TemplateExpressions.Text

/-- Closed ranges of the code points that are blank, ascending and apart. -/
def blankRanges : List (Nat × Nat) :=
  [(0x09, 0x0D), (0x20, 0x20), (0x85, 0x85), (0xA0, 0xA0), (0x1680, 0x1680), (0x2000, 0x200A),
   (0x2028, 0x2029), (0x202F, 0x202F), (0x205F, 0x205F), (0x3000, 0x3000)]

/-- Whether a code point lies in one of the ranges. -/
def inRanges (ranges : List (Nat × Nat)) (n : Nat) : Bool :=
  ranges.any fun r => r.1 ≤ n && n ≤ r.2

/-- A character that trimming takes away. -/
def isBlank (c : Char) : Bool := inRanges blankRanges c.toNat

/-- The text without its leading blanks. -/
def trimStart (t : Text) : Text := t.dropWhile isBlank

/-- The text without its trailing blanks. -/
def trimEnd (t : Text) : Text := (t.reverse.dropWhile isBlank).reverse

/-- The text without blanks at either end. -/
def trim (t : Text) : Text := trimEnd (trimStart t)

/-- Whether nothing is left after trimming. -/
def isAllBlank (t : Text) : Bool := t.all isBlank

end TemplateExpressions.Text
