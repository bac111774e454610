import TemplateExpressions.Number.Integer
import TemplateExpressions.Value

/-!
# Looking into values

Attributes, items, elements, length and truth of a value. Items of lists and texts are counted from
zero, and from the end by negative indices.
-/

set_option autoImplicit false

namespace TemplateExpressions.Value

/-- The attribute of a name. Only objects and cursors have attributes; those of a cursor are the
questions to it. -/
def attribute? : Value → Text → Option Value
  | .object _ host, name => Mapping.get? host.attributes name
  | .iterator cursor, name =>
    (Query.ofName? name).map fun query => .callable none (.asks cursor query)
  | _, _ => none

/-- The place that an index text denotes in a sequence of the given length. -/
def resolveIndex (key : Text) (length : Nat) : Except EvalError Nat :=
  match Number.readInteger? key with
  | none =>
    .error (.typeMismatch ("sequence indices must be integers, not \"".toList ++ key ++ ['"']))
  | some index =>
    let place := if index < 0 then index + length else index
    if 0 ≤ place ∧ place < length then .ok place.toNat
    else .error (.indexOutOfRange index length)

/-- The element that an index text denotes. -/
def elementAt {α : Type} (elements : List α) (key : Text) : Except EvalError α :=
  match resolveIndex key elements.length with
  | .error e => .error e
  | .ok place =>
    match elements[place]? with
    | some element => .ok element
    | none => .error (.indexOutOfRange place elements.length)

/-- The item of a key. -/
def item (live : Live) (v : Value) (key : Text) : Except EvalError Value :=
  match v with
  | .map entries =>
    match Mapping.get? entries key with
    | some value => .ok value
    | none => .error (.keyNotFound key)
  | .list items => elementAt items key
  | .text t => (elementAt t key).map fun c => .text [c]
  | .object _ host =>
    match host.items with
    | none => .error (.notTraversable host.typeName key)
    | some items => (Mapping.get? items key).getD (.error (.keyNotFound key))
  | .registry context =>
    match (live.registry context).get? key with
    | some cursor => .ok (.iterator cursor)
    | none => .error (.keyNotFound key)
  | v => .error (.notTraversable v.typeName key)

/-- The elements of a sequence: those of a list, the keys of a mapping, the characters of a text,
whatever an object yields, the names in a registry. -/
def elements (live : Live) : Value → Except EvalError (List Value)
  | .list items => .ok items
  | .map entries => .ok (entries.map fun e => .text e.1)
  | .text t => .ok (t.map fun c => .text [c])
  | .object _ host =>
    match host.elements with
    | some elements => .ok elements
    | none => .error (.notIterable host.typeName)
  | .registry context => .ok ((live.registry context).names.map .text)
  | v => .error (.notIterable v.typeName)

/-- The number of elements, if the value reports one. -/
def length? (live : Live) : Value → Option Nat
  | .list items => some items.length
  | .map entries => some entries.length
  | .text t => some t.length
  | .object _ host => host.size.length
  | .registry context => some (live.registry context).length
  | _ => none

/-- Whether a value counts as true. Empty, zero and null values do not; not-a-number does. An object
may say so of itself. -/
def isTruthy (live : Live) : Value → Bool
  | .nothing => false
  | .bool b => b
  | .int i => i != 0
  | .float x => x != 0
  | .text t => !t.isEmpty
  | .list items => !items.isEmpty
  | .map entries => !entries.isEmpty
  | .object _ host => host.size.isTruthy
  | .registry context => !(live.registry context).isEmpty
  | .default | .callable _ _ | .iterator _ | .deferred _ _ => true

end TemplateExpressions.Value
