import TemplateExpressions.CommandLine

/-!
# The program

Hands arguments and input to the command line and writes what comes back.
-/

set_option autoImplicit false

open TemplateExpressions

/-- Runs the program. -/
def main (arguments : List String) : IO UInt32 := do
  let arguments := arguments.map String.toList
  let input ← if CommandLine.readsInput arguments then (← IO.getStdin).readToEnd else pure ""
  let ending := CommandLine.main arguments input.toList
  (← IO.getStdout).putStr (String.ofList ending.output)
  (← IO.getStderr).putStr (String.ofList ending.errors)
  return UInt32.ofNat ending.code
