import TemplateExpressions.Number.Integer

/-!
# Coloured text

Rows of a report are made of stretches, some of which have a colour. A stretch is written between
the control sequences that switch its colour on and off, or as it is where colours are not wanted.
-/

set_option autoImplicit false

namespace TemplateExpressions.Report

/-- A terminal colour. -/
inductive Colour where
  /-- The red of the basic palette. -/
  | red
  /-- An entry of the palette of 256 colours. -/
  | indexed (n : Nat)
deriving DecidableEq

/-- A text in one colour. -/
structure Stretch where
  colour : Option Colour
  text : Text
deriving DecidableEq

/-- A row of a report. -/
abbrev Row := List Stretch

/-- Text without a colour. -/
def plain (t : Text) : Stretch := ⟨none, t⟩

/-- Text in a colour of the large palette. -/
def tinted (n : Nat) (t : Text) : Stretch := ⟨some (.indexed n), t⟩

/-- The number that a control sequence names a colour by. -/
def Colour.parameter : Colour → Text
  | .red => "31".toList
  | .indexed n => "38;5;".toList ++ Number.natText n

/-- A stretch as it is written. -/
def Stretch.write (coloured : Bool) (s : Stretch) : Text :=
  match s.colour, coloured with
  | some colour, true =>
    "\x1b[".toList ++ colour.parameter ++ 'm' :: s.text ++ "\x1b[0m".toList
  | _, _ => s.text

/-- A row as it is written, with its line break. -/
def writeRow (coloured : Bool) (row : Row) : Text := row.flatMap (Stretch.write coloured) ++ ['\n']

end TemplateExpressions.Report
