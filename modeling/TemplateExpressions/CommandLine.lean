import TemplateExpressions.CommandLine.Arguments
import TemplateExpressions.Report
import TemplateExpressions.Session

/-!
# The command line

Evaluates expressions and writes their texts, one a line; failures are reported in colour on the
error output. The expressions come from the arguments or, if there are none, from the lines of the
input. With a repeat every expression is evaluated once for each element.
-/

set_option autoImplicit false

namespace TemplateExpressions.CommandLine

/-- What has been written, what is to be reported, and whether all has gone well. -/
structure Written where
  output : Text
  failures : List Failure
  ok : Bool

namespace Written

/-- Nothing written. -/
def nothing : Written := ⟨[], [], true⟩

/-- One after the other. -/
def append (a b : Written) : Written :=
  ⟨a.output ++ b.output, a.failures ++ b.failures, a.ok && b.ok⟩

/-- A line of output. -/
def line (t : Text) : Written := ⟨t ++ ['\n'], [], true⟩

/-- A failure. -/
def failure (f : Failure) : Written := ⟨[], [f], false⟩

/-- An evaluation that does not end. -/
def endless : Written := ⟨[], [], false⟩

/-- The reports of the failures, in colour. -/
def reports (w : Written) : Text := w.failures.flatMap (Failure.report true)

end Written

/-- The text of a value on the output. -/
def outputText : Value → Text
  | .text t => t
  | _ => []

/-- Evaluates one expression and writes its text, or notes its failure. -/
def interpret (s : Session) (id : ContextId) (expression : Text) : Written × Session :=
  match s.evaluateText id (.text expression) with
  | none => (.endless, s)
  | some (.ok v, s) => (.line (outputText v), s)
  | some (.error e, s) => (.failure (s.failure id expression e), s)

/-- Evaluates expressions one after the other. -/
def interpretAll (s : Session) (id : ContextId) : List Text → Written × Session
  | [] => (.nothing, s)
  | expression :: others =>
    let (first, s) := interpret s id expression
    let (rest, s) := interpretAll s id others
    (first.append rest, s)

/-- Evaluates expressions once for each element ahead of a cursor; there are at most `passes`. -/
def interpretRepeated (id : ContextId) (rep : Repeat) (cursor : CursorId)
    (expressions : List Text) : (passes : Nat) → Session → Written × Session
  | 0, s => (.nothing, s)
  | passes + 1, s =>
    match s.advance cursor with
    | .error e => (.failure (s.failure id rep.expression e), s)
    | .ok (false, s) => (.nothing, s)
    | .ok (true, s) =>
      let (first, s) := interpretAll s id expressions
      let (rest, s) := interpretRepeated id rep cursor expressions passes s
      (first.append rest, s)

/-- Closes the scope of a repeat. -/
def closeScope (s : Session) (id : ContextId) : Session :=
  match s.endScope id with
  | .ok s => s
  | .error _ => s

/-- Evaluates expressions, once for each element of the repeat if there is one. -/
def runBatch (s : Session) (id : ContextId) (repeat? : Option Repeat) (expressions : List Text) :
    Written × Session :=
  match repeat? with
  | none => interpretAll s id expressions
  | some rep =>
    let s := s.beginScope id
    match s.setRepeat id rep.name (.text rep.expression) with
    | none => (.endless, closeScope s id)
    | some (.error e, s) =>
      (.failure (s.failure id rep.expression e), closeScope s id)
    | some (.ok cursor, s) =>
      let passes := ((s.world.cursor? cursor).map fun c => c.ahead.length).getD 0
      let (written, s) := interpretRepeated id rep cursor expressions (passes + 1) s
      (written, closeScope s id)

/-- The lines of an input that hold an expression, with their numbers. -/
def numberedLines (t : Text) : List (Nat × Text) :=
  ((Text.lines t).zipIdx 1).filterMap fun (line, number) =>
    if Text.isAllBlank line then none else some (number, line)

/-- Evaluates the lines of an input, each at its position. -/
def interpretLines (s : Session) (id : ContextId) : List (Nat × Text) → Written × Session
  | [] => (.nothing, s)
  | (number, expression) :: others =>
    let s := s.setPosition id ⟨some number, some 1⟩
    let (first, s) := interpret s id expression
    let (rest, s) := interpretLines s id others
    (first.append rest, s)

/-- Does what the arguments ask for, with the input at hand. -/
def run (invocation : Invocation) (input : Text) : Written :=
  let s := Session.start Engine.standard
  let builder := s.builder.roots (invocation.roots.map fun r => (r.name, r.value))
  let (s, id) := s.newContext { builder with maxDepth := invocation.maxDepth }
  if !invocation.expressions.isEmpty then
    (runBatch s id invocation.repeat? invocation.expressions).1
  else
    let s := s.setFile id (some "<stdin>".toList)
    let lines := numberedLines input
    match invocation.repeat? with
    | none => (interpretLines s id lines).1
    | some _ => (runBatch s id invocation.repeat? (lines.map Prod.snd)).1

/-- What the program leaves behind. -/
structure Ending where
  code : Nat
  output : Text
  errors : Text

/-- Runs the program on arguments and an input. -/
def main (arguments : List Text) (input : Text) : Ending :=
  match readArguments arguments with
  | .error .help => ⟨0, helpText, []⟩
  | .error (.error e) => ⟨2, [], e.message⟩
  | .ok invocation =>
    let written := run invocation input
    ⟨if written.ok then 0 else 1, written.output, written.reports⟩

/-- Whether the arguments leave the expressions to the input. -/
def readsInput (arguments : List Text) : Bool :=
  match readArguments arguments with
  | .ok invocation => invocation.expressions.isEmpty
  | .error _ => false

end TemplateExpressions.CommandLine
