import TemplateExpressions.Text.Quoted

/-!
# Expressions

What a text is compiled to: a path with its alternatives, a template with its sites, a negation, a
deferral, or an echo of the text. Every expression keeps its heading, the name of the type that it
was compiled under and the text behind the type prefix.
-/

set_option autoImplicit false

namespace TemplateExpressions

/-- The type name that an expression was compiled under and the text that was compiled. -/
structure Heading where
  typeName : Text
  source : Text
deriving DecidableEq

/-- What a path does with the value it arrives at. -/
inductive PathMode where
  /-- The value is invoked once if it can be. -/
  | invoking
  /-- The answer is whether there is a value. -/
  | testing
  /-- The value is taken as it is. -/
  | holding
deriving DecidableEq

/-- The mode that a path takes from its type name. -/
def PathMode.ofTypeName (name : Text) : PathMode :=
  if name = "exists".toList then .testing
  else if name = "nocall".toList then .holding
  else .invoking

/-- How the segments behind a base name are walked. -/
inductive Traversal where
  /-- Segment by segment, attribute before item. -/
  | plain
  /-- As plain, with every segment in ASCII upper case. -/
  | loud
  /-- As plain, but no segment may start with an underscore. -/
  | guarded
deriving DecidableEq

/-- A segment of a path. -/
inductive Segment where
  /-- Stands for itself. -/
  | fixed (text : Text)
  /-- Stands for the value of a variable. -/
  | dynamic (name : Text)
deriving DecidableEq

/-- A base name and the segments that lead on from it. -/
structure Route where
  base : Text
  segments : List Segment
deriving DecidableEq

/-- One of the alternatives of a path: a route, or a whole expression. -/
inductive Alternative (ε : Type) where
  | route (route : Route)
  | nested (expression : ε)

/-- A piece of a template: text, or a site to fill in. -/
inductive Piece (ε : Type) where
  | literal (text : Text)
  | site (content : ε)

/-- A compiled expression. -/
inductive Expr where
  | path (heading : Heading) (traversal : Traversal) (alternatives : List (Alternative Expr))
  | template (heading : Heading) (pieces : List (Piece Expr))
  | negation (heading : Heading) (operand : Expr)
  | deferral (heading : Heading) (operand : Expr)
  | echo (heading : Heading)

namespace Expr

/-- The heading of an expression. -/
def heading : Expr → Heading
  | .path h _ _ | .template h _ | .negation h _ | .deferral h _ | .echo h => h

/-- The type name that the expression was compiled under. -/
def typeName (e : Expr) : Text := e.heading.typeName

/-- The text behind the type prefix. -/
def source (e : Expr) : Text := e.heading.source

/-- How an expression is named in printed values. -/
def display (e : Expr) : Text :=
  e.typeName ++ " expression (".toList ++ Text.quote e.source ++ [')']

end Expr
end TemplateExpressions
