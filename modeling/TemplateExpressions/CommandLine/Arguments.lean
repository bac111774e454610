import TemplateExpressions.CommandLine.Binding
import TemplateExpressions.CommandLine.Similarity
import TemplateExpressions.Text.Controls

/-!
# Arguments

Arguments are options with a value and expressions. The value of an option stands behind an equals
sign or in the next argument, which may not look like an option itself; behind `--` everything is an
expression. A value that is an argument of its own, like a row of expressions, is pending until the
next argument that is no unknown option.
-/

set_option autoImplicit false

namespace TemplateExpressions.CommandLine

/-- An option. -/
inductive Flag where
  | root
  | repetition
  | maxDepth
  | help
deriving DecidableEq

namespace Flag

/-- All options. -/
def all : List Flag := [root, repetition, maxDepth, help]

/-- The name of an option, without its dashes. -/
def name : Flag → Text
  | root => "root".toList
  | repetition => "repeat".toList
  | maxDepth => "max-depth".toList
  | help => "help".toList

/-- How an option is shown in messages. -/
def shown : Flag → Text
  | root => "--root <NAME=JSON>".toList
  | repetition => "--repeat <NAME=EXPRESSION>".toList
  | maxDepth => "--max-depth <MAX_DEPTH>".toList
  | help => "--help".toList

/-- Whether an option may be given only once. -/
def isSingle : Flag → Bool
  | repetition | maxDepth => true
  | root | help => false

/-- The option of a name. -/
def ofName? (n : Text) : Option Flag := all.find? fun f => f.name == n

end Flag

/-- What has been given: an option, or expressions. -/
inductive Part where
  | flag (f : Flag)
  | expressions
deriving DecidableEq

/-- What is wrong with the arguments. -/
inductive ArgumentError where
  /-- There is no such option; with the most similar one and what has been given before. -/
  | unknownOption (option : Text) (similar : Option Text) (given : List Part)
  | valueMissing (flag : Flag)
  | valueRefused (flag : Flag) (value reason : Text)
  | givenTwice (flag : Flag)
  /-- A value for an option that takes none; with whether anything has been given before. -/
  | valueUnexpected (flag : Flag) (value : Text) (late : Bool)
deriving DecidableEq

/-- What the arguments ask for. -/
structure Invocation where
  roots : List Root
  repeat? : Option Repeat
  maxDepth : Nat
  expressions : List Text

/-- Arguments that are complete only when the next one is known. -/
inductive Pending where
  | none
  /-- An option whose value is to come. -/
  | flag (f : Flag)
  /-- An option and its value. -/
  | valued (f : Flag) (value : Text)
  | expressions (es : List Text)

/-- What has been read so far. -/
structure Reading where
  invocation : Invocation
  /-- What is complete, in order. -/
  given : List Part
  pending : Pending
  /-- Whether `--` has been read. -/
  onlyExpressions : Bool

/-- How the reading of arguments ends early. -/
inductive Stop where
  | error (e : ArgumentError)
  | help
deriving DecidableEq

namespace Reading

/-- Nothing read. -/
def start : Reading := ⟨⟨[], none, 1000, []⟩, [], .none, false⟩

/-- Marks a part as given. -/
def markGiven (r : Reading) (p : Part) : Reading :=
  if p ∈ r.given then r else { r with given := r.given ++ [p] }

/-- Whether an option that may be given only once has been given. -/
def isExhausted (r : Reading) (f : Flag) : Bool := f.isSingle && .flag f ∈ r.given

/-- Takes an option with its value. -/
def take (r : Reading) (f : Flag) (value : Text) : Except Stop Reading :=
  let refused (reason : Text) : Stop := .error (.valueRefused f value reason)
  let taken (i : Invocation) : Except Stop Reading :=
    .ok ({ r with invocation := i }.markGiven (.flag f))
  if r.isExhausted f then .error (.error (.givenTwice f))
  else
    match f with
    | .root =>
      match Root.read value with
      | .error e => .error (refused e.message)
      | .ok root => taken { r.invocation with roots := r.invocation.roots ++ [root] }
    | .repetition =>
      match Repeat.read value with
      | .error e => .error (refused e.message)
      | .ok rep => taken { r.invocation with repeat? := some rep }
    | .maxDepth =>
      match Number.readCount value with
      | .error e => .error (refused e.message)
      | .ok n => taken { r.invocation with maxDepth := n }
    | .help => .error .help

/-- Completes what is pending. -/
def settle (r : Reading) : Except Stop Reading :=
  let cleared := { r with pending := .none }
  match r.pending with
  | .none => .ok r
  | .flag f => .error (.error (.valueMissing f))
  | .valued f value => cleared.take f value
  | .expressions es =>
    let invocation :=
      { cleared.invocation with expressions := cleared.invocation.expressions ++ es }
    .ok ({ cleared with invocation := invocation }.markGiven .expressions)

/-- What has been given, with what is pending. A pending option counts whatever its value is; one
that may be given only once and is pending for the second time does not count at all. -/
def givenWithPending (r : Reading) : List Part :=
  match r.pending with
  | .none | .flag _ => r.given
  | .valued f _ =>
    if r.isExhausted f then r.given.erase (.flag f)
    else (r.markGiven (.flag f)).given
  | .expressions _ => (r.markGiven .expressions).given

/-- Reads an expression. -/
def readExpression (r : Reading) (t : Text) : Except Stop Reading :=
  match r.pending with
  | .expressions es => .ok { r with pending := .expressions (es ++ [t]) }
  | _ => do
    let r ← r.settle
    return { r with pending := .expressions [t] }

/-- Reads an option by its name, with the value behind its equals sign, if there is one. -/
def readFlag (r : Reading) (name : Text) (value : Option Text) : Except Stop Reading :=
  match Flag.ofName? name with
  | none =>
    let similar := mostSimilar? name (Flag.all.map Flag.name)
    let r := { r with given := r.givenWithPending }
    let suggested := match similar.bind Flag.ofName? with
      | some f => r.markGiven (.flag f)
      | none => r
    .error (.error (.unknownOption ("--".toList ++ name) similar suggested.given))
  | some .help =>
    match value with
    | some value => .error (.error (.valueUnexpected .help value !r.given.isEmpty))
    | none => do
      let _ ← r.settle
      .error .help
  | some f => do
    let r ← r.settle
    match value with
    | some value => r.take f value
    | none => return { r with pending := .flag f }

/-- Reads an argument. -/
def readArgument (r : Reading) (t : Text) : Except Stop Reading :=
  if r.onlyExpressions then r.readExpression t
  else
    match t with
    | ['-', '-'] => .ok { r with onlyExpressions := true }
    | '-' :: '-' :: option =>
      let name := option.takeWhile (· != '=')
      match option.dropWhile (· != '=') with
      | [] => r.readFlag name none
      | _ :: value => r.readFlag name (some value)
    | '-' :: 'h' :: _ => do
      let _ ← r.settle
      .error .help
    | '-' :: c :: _ => .error (.error (.unknownOption ['-', c] none []))
    | t =>
      match r.pending with
      | .flag f => .ok { r with pending := .valued f t }
      | _ => r.readExpression t

end Reading

/-- What the arguments ask for. -/
def readArguments (arguments : List Text) : Except Stop Invocation := do
  let r ← arguments.foldlM Reading.readArgument Reading.start
  let r ← r.settle
  return r.invocation

/-! ## Wording -/

/-- The usage in general. -/
def generalUsage : Text := "Usage: tales [OPTIONS] [EXPRESSIONS]...".toList

/-- The usage with what has been given. -/
def usage (given : List Part) : Text :=
  if given.isEmpty then generalUsage
  else
    let flags := given.flatMap fun
      | .flag f => ' ' :: f.shown
      | .expressions => []
    "Usage: tales".toList ++ flags ++
      (if .expressions ∈ given then " <EXPRESSIONS>...".toList else " [EXPRESSIONS]...".toList)

/-- The usage with an option and one of the others. -/
def usageAmong (flag : Flag) : Text :=
  let others := (Flag.all.filter (· ≠ flag)).map Flag.shown ++ ["EXPRESSIONS".toList]
  "Usage: tales ".toList ++ flag.shown ++ " <".toList ++ Text.joinWith ['|'] others ++ ['>']

/-- What is wrong, with advice and usage where they help. What the arguments hold is shown without
the terminal controls in it. -/
def ArgumentError.paragraphs : ArgumentError → List Text
  | .unknownOption option similar given =>
    let option := Text.withoutControls option
    let tip := match similar with
      | some name => "  tip: a similar argument exists: '--".toList ++ name ++ ['\'']
      | none =>
        "  tip: to pass '".toList ++ option ++ "' as a value, use '-- ".toList ++ option ++ ['\'']
    ["unexpected argument '".toList ++ option ++ "' found".toList, tip, usage given]
  | .valueMissing flag =>
    ["a value is required for '".toList ++ flag.shown ++ "' but none was supplied".toList]
  | .valueRefused flag value reason =>
    ["invalid value '".toList ++ Text.withoutControls value ++ "' for '".toList ++ flag.shown ++
       "': ".toList ++ reason]
  | .givenTwice flag =>
    ["the argument '".toList ++ flag.shown ++ "' cannot be used multiple times".toList,
     generalUsage]
  | .valueUnexpected flag value late =>
    ["unexpected value '".toList ++ Text.withoutControls value ++ "' for '".toList ++ flag.shown ++
       "' found; no more were expected".toList,
     if late then usageAmong flag else usage [.flag flag]]

/-- The message about wrong arguments. -/
def ArgumentError.message (e : ArgumentError) : Text :=
  "error: ".toList ++ Text.joinWith "\n\n".toList
    (e.paragraphs ++ ["For more information, try '--help'.\n".toList])

/-- The answer to a request for help. -/
def helpText : Text :=
  Text.joinWith ['\n']
    ["Evaluate TALES expressions".toList,
     [],
     generalUsage,
     [],
     "Arguments:".toList,
     "  [EXPRESSIONS]...  Expressions to evaluate (if not provided, reads from stdin)".toList,
     [],
     "Options:".toList,
     "      --root <NAME=JSON>          Root variable as NAME=JSON (plain text if not valid JSON); repeatable".toList,
     "      --repeat <NAME=EXPRESSION>  Evaluate every expression once per item of NAME=EXPRESSION".toList,
     "      --max-depth <MAX_DEPTH>     Maximum nesting depth of evaluation [default: 1000]".toList,
     "  -h, --help                      Print help".toList,
     []]

end TemplateExpressions.CommandLine
