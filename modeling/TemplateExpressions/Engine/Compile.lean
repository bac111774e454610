import TemplateExpressions.Engine
import TemplateExpressions.Route
import TemplateExpressions.Template
import TemplateExpressions.Text.Blank

/-!
# Compilation

A factory compiles a text by reading its own form and by handing nested texts back to the engine: an
alternative with its own type prefix, the operand of a negation or deferral, and the sites of a
template, which go to the type named `path`. Nested texts are shorter than the text they stand in,
except where a default type hands the same text back for ever; `compile` therefore follows as many
levels as the text has bytes and one more, and answers `endless` beyond.
-/

set_option autoImplicit false

namespace TemplateExpressions

/-- Why compilation gives no expression. -/
inductive Halt where
  | fault (error : CompileError)
  /-- The default type hands the text back to itself. -/
  | endless
deriving DecidableEq

/-- Something that compiles texts. -/
abbrev Compiler := Text → Except Halt Expr

/-- Turns a compile error into a reason to halt. -/
def Halt.ofFault {α : Type} : Except CompileError α → Except Halt α
  | .ok a => .ok a
  | .error e => .error (.fault e)

/-- Compiles the stretches of a path, the first of which starts at byte `offset` of the source. The
first stretch with a type prefix takes all later ones with it. -/
def compileAlternatives (compile : Compiler) (source : Text) :
    Nat → List Text → Except Halt (List (Alternative Expr))
  | _, [] => .ok []
  | offset, stretch :: stretches =>
    if Text.hasPrefix (Text.trimStart stretch) then do
      let expr ← compile (Text.trimStart (Text.joinWith ['|'] (stretch :: stretches)))
      return [.nested expr]
    else do
      let route ← Halt.ofFault (Route.read source offset stretch)
      let others ← compileAlternatives compile source (offset + Text.bytes stretch + 1) stretches
      return .route route :: others

/-- Compiles a path. -/
def compilePath (compile : Compiler) (traversal : Traversal) (typeName text : Text) :
    Except Halt Expr := do
  let alternatives ← compileAlternatives compile text 0 (Text.pieces '|' text)
  return .path ⟨typeName, text⟩ traversal alternatives

/-- Compiles the sites of a template, from the left. -/
def compileSites (site : Compiler) : List (Piece Text) → Except Halt (List (Piece Expr))
  | [] => .ok []
  | .literal text :: pieces => do
    let others ← compileSites site pieces
    return .literal text :: others
  | .site content :: pieces => do
    let expr ← site content
    let others ← compileSites site pieces
    return .site expr :: others

/-- Compiles a template. A text without a dollar sign is one literal piece; of any other the form is
checked first, and then whether there is a type for sites. -/
def compileTemplate (site? : Option Compiler) (typeName text : Text) : Except Halt Expr :=
  if '$' ∈ text then do
    let pieces ← Halt.ofFault (Template.parse text)
    match site? with
    | none => .error (.fault (.unknownType "path".toList text))
    | some site =>
      let pieces ← compileSites site pieces
      return .template ⟨typeName, text⟩ pieces
  else .ok (.template ⟨typeName, text⟩ [.literal text])

/-- Compiles a text with a factory; `compile` is for nested texts, `site?` for the sites of a
template. -/
def Factory.build (compile : Compiler) (site? : Option Compiler) (typeName text : Text) :
    Factory → Except Halt Expr
  | .path traversal => compilePath compile traversal typeName text
  | .pathUnder name => compilePath compile .plain name text
  | .template => compileTemplate site? typeName text
  | .upperTemplate => compileTemplate site? typeName (Text.upper text)
  | .negation => do
    let operand ← compile (Text.trimStart text)
    return .negation ⟨typeName, Text.trimStart text⟩ operand
  | .deferral => do
    let operand ← compile (Text.trimStart text)
    return .deferral ⟨typeName, Text.trimStart text⟩ operand
  | .echo => .ok (.echo ⟨typeName, text⟩)
  | .refusal => .error (.fault ⟨.unknownType typeName, text, ⟨0, Text.bytes text⟩⟩)

namespace Engine

/-- The compiler of sites, if the engine has a type named `path`. A site holds no dollar sign, so
that type never meets sites of its own. -/
def site? (g : Engine) (compile : Compiler) : Option Compiler :=
  (g.types.get? "path".toList).map fun factory text =>
    factory.build compile none "path".toList text

/-- Calls a factory of the engine. -/
def build (g : Engine) (compile : Compiler) (factory : Factory) (typeName text : Text) :
    Except Halt Expr :=
  factory.build compile (g.site? compile) typeName text

/-- Compiles a text with at most `levels` levels of nested texts, itself included. -/
def compileWithin (g : Engine) : Nat → Text → Except Halt Expr
  | 0, _ => .error .endless
  | levels + 1, text =>
    let (typeName, rest) := g.dispatch text
    match g.types.get? typeName with
    | none => .error (.fault (.unknownType typeName text))
    | some factory => g.build (g.compileWithin levels) factory typeName rest

/-- Compiles a text. A leading name and colon select the type, else the default type is used. -/
def compile (g : Engine) (text : Text) : Except Halt Expr :=
  g.compileWithin (Text.bytes text + 1) text

/-- Compiles a text with the factory of a registered type, under a type name of its own. -/
def compileAs? (g : Engine) (type typeName text : Text) : Option (Except Halt Expr) :=
  (g.types.get? type).map fun factory => g.build g.compile factory typeName text

end Engine
end TemplateExpressions
