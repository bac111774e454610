import TemplateExpressions.Evaluation.Run
import TemplateExpressions.Route
import TemplateExpressions.World

/-!
# Evaluation

What an expression means in a context. The meaning of nested expressions, and of deferred ones, is a
parameter of each function below; `evaluate` closes the knot by counting levels down. An evaluation
on a context is refused when as many as its limit allows are active on it already.
-/

set_option autoImplicit false

namespace TemplateExpressions

/-- The meaning of expressions in contexts. -/
abbrev Meaning := ContextId → Expr → Run Value

namespace Evaluation

/-- How often something has been called. -/
def timesInvoked (mark : Mark) (trail : Trail) : Nat := trail.count (.invoked mark)

/-- Does what a call does. -/
def perform (w : World) (mark : Option Mark) : Act Value → Run Value
  | .returns value => do
    mark.forM fun m => Run.note (.invoked m)
    return value
  | .fails error => do
    mark.forM fun m => Run.note (.invoked m)
    Run.fail error
  | .counts => do
    mark.forM fun m => Run.note (.invoked m)
    let trail ← Run.trail
    return .int (Int64.ofNat ((mark.map fun m => timesInvoked m trail).getD 0))
  | .asks cursor query => do
    mark.forM fun m => Run.note (.invoked m)
    Run.note (.asked cursor query)
    match w.cursor? cursor with
    | none => Run.fail (.cursor .noPosition)
    | some c =>
      match c.ask w.live query with
      | .ok answer => return answer.toValue
      | .error e => Run.fail (.cursor e)

/-- Calls a value, if it can be called. -/
def invoke? (w : World) (meaning : Meaning) : Value → Option (Run Value)
  | .callable mark act => some (perform w mark act)
  | .object mark host => host.call.map (perform w (some mark))
  | .deferred expression context => some (meaning context expression)
  | _ => none

/-- The text that a value gives in a template: deferred values are evaluated until something else
comes out, `forcings` times at most. -/
def textOf (w : World) (meaning : Meaning) : (forcings : Nat) → Value → Run Text
  | _, .text t => return t
  | 0, .deferred _ _ => Run.unfinished
  | forcings + 1, .deferred expression context => do
    textOf w meaning forcings (← meaning context expression)
  | _, v => return v.display w.live

/-- The texts that an element may stand for as a segment. -/
def segmentOfElement (name : Text) : Value → Except EvalError Text
  | .text t => .ok t
  | .int i => .ok (Number.intText i.toInt)
  | v =>
    .error (.typeMismatch ("path segments from ?".toList ++ name ++
      " must be text or integers, not ".toList ++ v.typeName))

/-- The segments that a variable stands for: its text, or one for each of its elements. -/
def segmentsOfVariable (live : Live) (name : Text) : Option Value → Except EvalError (List Text)
  | none => .error (.nameNotFound name)
  | some (.text t) => .ok [t]
  | some v =>
    match v.elements live with
    | .error e => .error e
    | .ok elements => elements.mapM (segmentOfElement name)

/-- The segments of a route in a context, from the left. -/
def expand (live : Live) (c : Context) : List Segment → Except EvalError (List Text)
  | [] => .ok []
  | .fixed text :: segments => do
    let others ← expand live c segments
    return text :: others
  | .dynamic name :: segments => do
    let first ← segmentsOfVariable live name (c.scopes.get? name)
    let others ← expand live c segments
    return first ++ others

/-- What a base name stands for. -/
def baseValue (c : Context) (name : Text) : Except EvalError Value :=
  if name = contextsBase then .ok (.map c.roots)
  else
    match c.scopes.get? name with
    | some v => .ok v
    | none => .error (.nameNotFound name)

/-- Looks a segment up, as an attribute before an item. -/
def lookUp (live : Live) (v : Value) (segment : Text) : Except EvalError Value :=
  match v.attribute? segment with
  | some next => .ok next
  | none => v.item live segment

/-- Looks segments up one after the other. -/
def lookUpAll (live : Live) : Value → List Text → Except EvalError Value
  | v, [] => .ok v
  | v, segment :: segments =>
    match lookUp live v segment with
    | .ok next => lookUpAll live next segments
    | .error e => .error e

/-- Walks segments from a value. -/
def traverse (live : Live) (traversal : Traversal) (v : Value) (segments : List Text) :
    Except EvalError Value :=
  match traversal with
  | .plain => lookUpAll live v segments
  | .loud => lookUpAll live v (segments.map Text.upper)
  | .guarded =>
    match segments.find? fun s => s.head? == some '_' with
    | some segment => .error (.attributeNotFound v.typeName segment)
    | none => lookUpAll live v segments

/-- A value, or what it evaluates to if it is deferred. -/
def force (meaning : Meaning) : Value → Run Value
  | .deferred expression context => meaning context expression
  | v => return v

/-- The value that a route leads to. The segments are expanded first, then the base is looked up. -/
def follow (w : World) (meaning : Meaning) (c : Context) (traversal : Traversal) (route : Route) :
    Run Value := do
  let segments ← Run.ofExcept (expand w.live c route.segments)
  let base ← Run.ofExcept (baseValue c route.base)
  let base ← force meaning base
  Run.ofExcept (traverse w.live traversal base segments)

/-- The value of an alternative. -/
def alternative (w : World) (meaning : Meaning) (id : ContextId) (c : Context)
    (traversal : Traversal) : Alternative Expr → Run Value
  | .route route => follow w meaning c traversal route
  | .nested expression => meaning id expression

/-- The value of the first alternative that has one; errors of the last one stand. -/
def resolve (source : Text) (value : Alternative Expr → Run Value) :
    List (Alternative Expr) → Run Value
  | [] => Run.fail (.undefined source)
  | [last] => value last
  | first :: others => (value first).orElse (resolve source value others)

/-- Whether some alternative has a value. -/
def test (value : Alternative Expr → Run Value) : List (Alternative Expr) → Run Value
  | [] => return .bool false
  | first :: others => Run.orElse (do let _ ← value first; return .bool true) (test value others)

/-- The text of the pieces of a template, from the left. -/
def fill (content : Expr → Run Text) : List (Piece Expr) → Run Text
  | [] => return []
  | .literal text :: pieces => do
    let others ← fill content pieces
    return text ++ others
  | .site expression :: pieces => do
    let first ← content expression
    let others ← fill content pieces
    return first ++ others

/-- The value of an expression in a context, given the meaning of nested and deferred ones. -/
def valueOf (w : World) (meaning : Meaning) (forcings : Nat) (id : ContextId) (c : Context) :
    Expr → Run Value
  | .path heading traversal alternatives =>
    let value := alternative w meaning id c traversal
    match PathMode.ofTypeName heading.typeName with
    | .testing => test value alternatives
    | .holding => resolve heading.source value alternatives
    | .invoking => do
      let v ← resolve heading.source value alternatives
      (invoke? w meaning v).getD (return v)
  | .template _ pieces => do
    let text ← fill (fun e => do textOf w meaning forcings (← meaning id e)) pieces
    return .text text
  | .negation _ operand => do
    let v ← meaning id operand
    return .bool (!v.isTruthy w.live)
  | .deferral _ operand => return .deferred operand id
  | .echo heading => return .list [.text heading.typeName, .text heading.source]

/-- Evaluates on a context, with the contexts of the active evaluations at hand, innermost first. -/
def guarded (w : World) (meaning : List ContextId → Meaning) (forcings : Nat)
    (active : List ContextId) (id : ContextId) (e : Expr) : Run Value :=
  match w.context? id with
  | none => Run.fail .contextDropped
  | some c =>
    let depth := active.count id + 1
    if c.maxDepth < depth then Run.fail (.depthExceeded depth c.maxDepth)
    else Run.within id depth (valueOf w (meaning (id :: active)) forcings id c e)

/-- Evaluates an expression on a context, with at most `levels` levels of evaluations inside one
another. -/
def evaluate (w : World) : (levels : Nat) → (active : List ContextId) → Meaning
  | 0, _, _, _ => Run.unfinished
  | levels + 1, active, id, e => guarded w (evaluate w levels) levels active id e

/-- Levels that suffice: no more evaluations can be inside one another than the limits of all
contexts allow, and so many more are at hand for values that are deferred time and again. -/
def enough (w : World) : Nat := (w.contexts.map Context.maxDepth).foldl (· + ·) 100000

/-- The meaning of expressions while no evaluation is active. -/
def meaning (w : World) : Meaning := evaluate w (enough w) []

end Evaluation
end TemplateExpressions
