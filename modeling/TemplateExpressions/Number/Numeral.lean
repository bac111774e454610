import TemplateExpressions.Text.Basic

/-!
# Letter and Roman numerals

Rows can be numbered by letters (`a` to `z`, then `aa`, a numeral system of base 26 without a zero)
and by Roman numerals, whose thousands are a row of `M`.
-/

set_option autoImplicit false

namespace TemplateExpressions.Number

/-- The numeral of a positive number in base 26 with the digits `first` = 1 to `first + 25` = 26;
nothing is written for zero. -/
def bijective (first : Char) (n : Nat) : Text :=
  match n with
  | 0 => []
  | n + 1 => bijective first (n / 26) ++ [Char.ofNat (first.toNat + n % 26)]
termination_by n
decreasing_by exact Nat.lt_succ_of_le (Nat.div_le_self n 26)

/-- The letter numeral of an index counted from zero. -/
def letters (first : Char) (index : Nat) : Text := bijective first (index + 1)

/-- The Roman symbols and subtractive pairs with their values, greatest first. -/
def romanSymbols : List (Nat × Text) :=
  [(1000, ['M']), (900, ['C', 'M']), (500, ['D']), (400, ['C', 'D']), (100, ['C']),
   (90, ['X', 'C']), (50, ['L']), (40, ['X', 'L']), (10, ['X']), (9, ['I', 'X']), (5, ['V']),
   (4, ['I', 'V']), (1, ['I'])]

/-- Writes a number with the given symbols, each as often as it goes into what is left. -/
def romanWith : List (Nat × Text) → Nat → Text
  | [], _ => []
  | (value, symbol) :: symbols, n =>
    (List.replicate (n / value) symbol).flatten ++ romanWith symbols (n % value)

/-- The Roman numeral of a number. -/
def roman (n : Nat) : Text := romanWith romanSymbols n

end TemplateExpressions.Number
