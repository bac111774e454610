import TemplateExpressions.Error
import TemplateExpressions.Expression
import TemplateExpressions.Mapping
import TemplateExpressions.Query

/-!
# Values

What expressions evaluate to. Beside plain data there are objects and callables of the embedding
application, the registry of active cursors, single cursors, and deferred expressions, which are
bound to a context. Objects and callables carry a mark that tells them apart from others of the same
make.

The embedding application answers calls and look-ups out of itself. It is handed no context for
them, and it is taken to neither read nor change one meanwhile: only the program that renders the
document changes contexts, between evaluations. What enters a context from within an evaluation is a
deferred expression.
-/

set_option autoImplicit false

namespace TemplateExpressions

/-- The place of a context in the world. -/
abbrev ContextId := Nat

/-- The place of a cursor in the world. -/
abbrev CursorId := Nat

/-- What tells an object or a callable apart from all others. -/
abbrev Mark := Nat

/-- What happens when something is called without arguments. A call of the embedding application is
taken to return or fail without a look at any context and to leave all contexts as they are. What is
said of evaluation rests on this: that it changes no context, and that neither a higher limit nor
variables that an expression does not mention make a difference to it. -/
inductive Act (ν : Type) where
  | returns (value : ν)
  | fails (error : EvalError)
  /-- Answers 1, 2, 3 and so on, call by call. -/
  | counts
  /-- Asks a cursor. -/
  | asks (cursor : CursorId) (query : Query)

/-- What an object says about its size. -/
structure Size where
  /-- The number of its elements, if the object reports one. -/
  length : Option Nat
  /-- Whether the object counts as true, where it does not leave that to the length. -/
  truth : Option Bool

/-- A length alone leaves it at that. -/
instance : Coe (Option Nat) Size := ⟨fun length => ⟨length, none⟩⟩

/-- Whether an object of this size counts as true. If it does not say so itself, it does unless it
is empty. -/
def Size.isTruthy (s : Size) : Bool := s.truth.getD (s.length.all (0 < ·))

/-- An object of the embedding application, by what it answers. As with calls, to look something up
in an object, to iterate, to measure or to print it is taken to neither read nor change contexts, so
that the answers stand fixed. -/
structure Host (ν : Type) where
  typeName : Text
  attributes : List (Text × ν)
  /-- The answers to item lookups, none if the object has no items at all. -/
  items : Option (List (Text × Except EvalError ν))
  /-- The elements, if the object can be iterated. -/
  elements : Option (List ν)
  size : Size
  /-- The printed form, if it has one of its own. -/
  text : Option Text
  /-- What a call does, if the object can be called. -/
  call : Option (Act ν)

/-- A value. -/
inductive Value where
  | nothing
  /-- The host is to keep what it has. -/
  | default
  | bool (b : Bool)
  | int (i : Int64)
  | float (x : Float)
  | text (t : Text)
  | list (items : List Value)
  | map (entries : List (Text × Value))
  | object (mark : Mark) (host : Host Value)
  /-- Something to call. A question that a path has just bound to a cursor has no mark yet. -/
  | callable (mark : Option Mark) (act : Act Value)
  /-- The registry of the active cursors of a context. -/
  | registry (context : ContextId)
  | iterator (cursor : CursorId)
  | deferred (expression : Expr) (context : ContextId)

/-- What values are read against: the active cursors of each context and the names of cursors. -/
structure Live where
  registry : ContextId → Mapping CursorId
  cursorName : CursorId → Text

/-- The name of the kind of a value. -/
def Value.typeName : Value → Text
  | .nothing => "nothing".toList
  | .default => "default".toList
  | .bool _ => "bool".toList
  | .int _ => "int".toList
  | .float _ => "float".toList
  | .text _ => "str".toList
  | .list _ => "list".toList
  | .map _ => "map".toList
  | .object _ host => host.typeName
  | .callable _ _ => "callable".toList
  | .registry _ => "repeat".toList
  | .iterator _ => "iterator".toList
  | .deferred _ _ => "deferred".toList

namespace Value

/-- Whether a value is the null value. -/
def isNothing : Value → Bool
  | .nothing => true
  | _ => false

/-- Whether a value is the default marker. -/
def isDefault : Value → Bool
  | .default => true
  | _ => false

/-- The truth value, if the value is one. -/
def asBool? : Value → Option Bool
  | .bool b => some b
  | _ => none

/-- The integer, if the value is one. -/
def asInt? : Value → Option Int64
  | .int i => some i
  | _ => none

/-- The floating-point number that a number stands for. -/
def asFloat? : Value → Option Float
  | .float x => some x
  | .int i => some i.toFloat
  | _ => none

/-- The text, if the value is one. -/
def asText? : Value → Option Text
  | .text t => some t
  | _ => none

/-- The elements, if the value is a list. -/
def asList? : Value → Option (List Value)
  | .list items => some items
  | _ => none

/-- The entries, if the value is a mapping. -/
def asMap? : Value → Option (List (Text × Value))
  | .map entries => some entries
  | _ => none

/-- Whether a value can be called. -/
def isInvocable : Value → Bool
  | .callable _ _ | .deferred _ _ => true
  | .object _ host => host.call.isSome
  | _ => false

end Value
end TemplateExpressions
