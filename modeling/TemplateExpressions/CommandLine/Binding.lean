import TemplateExpressions.Json
import TemplateExpressions.Text.Name
import TemplateExpressions.Text.Quoted

/-!
# Bindings on the command line

A root is given as a name, an equals sign and JSON, a repeat as a name, an equals sign and an
expression. A root that is not JSON is taken as text.
-/

set_option autoImplicit false

namespace TemplateExpressions.CommandLine

/-- Why a text is no binding. -/
inductive BindingError where
  | missingEquals (t : Text)
  | invalidName (name : Text)
deriving DecidableEq

/-- What is wrong. -/
def BindingError.message : BindingError → Text
  | .missingEquals t => "expected NAME=VALUE, got ".toList ++ Text.quote t
  | .invalidName name => "invalid variable name ".toList ++ Text.quote name

/-- The name and the text on the two sides of the first equals sign. -/
def splitBinding (t : Text) : Except BindingError (Text × Text) :=
  match t.dropWhile (· != '=') with
  | [] => .error (.missingEquals t)
  | _ :: rest =>
    let name := t.takeWhile (· != '=')
    if Text.isName name then .ok (name, rest) else .error (.invalidName name)

/-- A root variable. -/
structure Root where
  name : Text
  value : Value

/-- Reads a root. -/
def Root.read (t : Text) : Except BindingError Root :=
  (splitBinding t).map fun r => ⟨r.1, (Json.read? r.2).getD (.text r.2)⟩

/-- A repeat over the value of an expression. -/
structure Repeat where
  name : Text
  expression : Text
deriving DecidableEq

/-- Reads a repeat. -/
def Repeat.read (t : Text) : Except BindingError Repeat :=
  (splitBinding t).map fun r => ⟨r.1, r.2⟩

end TemplateExpressions.CommandLine
