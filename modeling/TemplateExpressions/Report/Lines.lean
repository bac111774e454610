import TemplateExpressions.Text.Blank
import TemplateExpressions.Text.Cells

/-!
# Lines of a source

A source falls into lines, each with its terminator. Places in the source are character offsets.
-/

set_option autoImplicit false

namespace TemplateExpressions.Report

/-- A line of a source, with its number counted from one and the offset of its first character. -/
structure Line where
  number : Nat
  offset : Nat
  /-- The characters, the terminator among them. -/
  chars : Text
deriving DecidableEq

/-- The offset behind the line and its terminator. -/
def Line.stop (l : Line) : Nat := l.offset + l.chars.length

/-- The text of the line that is shown, without the blanks at its end. -/
def Line.shown (l : Line) : Text := Text.trimEnd l.chars

/-- A character that ends a line by itself. -/
def isTerminator (c : Char) : Bool :=
  c == '\r' || c == '\n' || c == '\x0b' || c == '\x0c' || c == '\u0085' || c == '\u2028' ||
    c == '\u2029'

/-- Cuts a text behind each line terminator; carriage return and line feed are one terminator. -/
def cutLines : Text → List Text
  | [] => []
  | '\r' :: '\n' :: t => ['\r', '\n'] :: cutLines t
  | c :: t =>
    if isTerminator c then [c] :: cutLines t
    else
      match t, cutLines t with
      | _ :: _, first :: others => (c :: first) :: others
      | _, _ => [[c]]

/-- Numbers lines and places them one after the other. -/
def placeLines : Nat → Nat → List Text → List Line
  | _, _, [] => []
  | number, offset, chars :: others =>
    ⟨number, offset, chars⟩ :: placeLines (number + 1) (offset + chars.length) others

/-- The lines of a source. An empty source has one empty line. -/
def linesOf (t : Text) : List Line :=
  match cutLines t with
  | [] => [⟨1, 0, []⟩]
  | lines => placeLines 1 0 lines

/-- The line of an offset: the last one that starts at or before it. Offsets behind the end of the
source have none. -/
def lineAt? (t : Text) (offset : Nat) : Option Line :=
  if t.length < offset then none else ((linesOf t).filter fun l => l.offset ≤ offset).getLast?

/-- How a character is shown, and in how many cells, when it stands in the given column: a tab fills
up to the next multiple of four, other blanks show as a space. -/
def shownAs (c : Char) (column : Nat) : Char × Nat :=
  if c = '\t' then (' ', 4 - column % 4)
  else if Text.isBlank c then (' ', 1)
  else (c, Text.cells c)

/-- The cells of the character in a column of a text; a column behind its end has one. -/
def cellsAt (t : Text) (column : Nat) : Nat :=
  match t[column]? with
  | some c => (shownAs c column).2
  | none => 1

end TemplateExpressions.Report
