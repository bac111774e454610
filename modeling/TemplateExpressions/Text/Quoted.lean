import TemplateExpressions.Text.Hidden

/-!
# Quoted text

The written form of a text inside a printed list, map or message: between double quotes, with a
backslash before quotes and backslashes, a letter for the commonest controls, and the code point in
hexadecimal for every other character that is not visible by itself.
-/

set_option autoImplicit false

namespace TemplateExpressions.Text

/-- The characters that have an escape of two characters, with the second of them. -/
def escapeLetter? : Char → Option Char
  | '\x00' => some '0'
  | '\t' => some 't'
  | '\r' => some 'r'
  | '\n' => some 'n'
  | '"' => some '"'
  | '\\' => some '\\'
  | _ => none

/-- A character spelt by its code point in hexadecimal. -/
def spellOut (c : Char) : Text := ['\\', 'u', '\x7b'] ++ Nat.toDigits 16 c.toNat ++ ['\x7d']

/-- A character as it stands inside quotes. -/
def escape (c : Char) : Text :=
  match escapeLetter? c with
  | some letter => ['\\', letter]
  | none => if isHidden c then spellOut c else [c]

/-- A text between quotes. -/
def quote (t : Text) : Text := '"' :: t.flatMap escape ++ ['"']

end TemplateExpressions.Text
