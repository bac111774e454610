import TemplateExpressions.Number.Shortest
import TemplateExpressions.Text.Quoted
import TemplateExpressions.Value

/-!
# Printed values

A text prints as itself; inside a list or a mapping it is quoted, and so are the keys of a mapping.
-/

set_option autoImplicit false

namespace TemplateExpressions.Value

/-- Stretches between an opening and a closing text, with commas between them. -/
def enclosed (opening closing : Text) (stretches : List Text) : Text :=
  opening ++ Text.joinWith ", ".toList stretches ++ closing

mutual

/-- The printed form of a value, a text quoted if so asked. -/
def write (live : Live) (quoted : Bool) : Value → Text
  | .nothing => "nothing".toList
  | .default => "default".toList
  | .bool b => if b then "true".toList else "false".toList
  | .int i => Number.intText i.toInt
  | .float x => Number.floatText x
  | .text t => if quoted then Text.quote t else t
  | .list items => enclosed ['['] [']'] (writeItems live items)
  | .map entries => enclosed ['\x7b'] ['\x7d'] (writeEntries live entries)
  | .object _ host => host.text.getD ('<' :: host.typeName ++ " object>".toList)
  | .callable _ _ => "<callable>".toList
  | .registry context =>
    let names := (live.registry context).names.map Text.quote
    "<repeat ".toList ++ enclosed ['['] [']'] names ++ ['>']
  | .iterator cursor => "<iterator ".toList ++ live.cursorName cursor ++ ['>']
  | .deferred expression _ => "<deferred ".toList ++ expression.display ++ ['>']

/-- The printed forms of the elements of a list. -/
def writeItems (live : Live) : List Value → List Text
  | [] => []
  | v :: vs => write live true v :: writeItems live vs

/-- The printed forms of the entries of a mapping. -/
def writeEntries (live : Live) : List (Text × Value) → List Text
  | [] => []
  | (key, v) :: es => (Text.quote key ++ ": ".toList ++ write live true v) :: writeEntries live es

end

/-- The printed form of a value. -/
def display (live : Live) (v : Value) : Text := write live false v

end TemplateExpressions.Value
