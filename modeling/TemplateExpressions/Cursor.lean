import TemplateExpressions.Number.Numeral
import TemplateExpressions.Value.Access

/-!
# Cursors

A cursor walks the elements of a sequence on behalf of a repeat. It keeps the elements that it has
gone past, the latest first, and those still ahead; everything that can be asked about its position
follows from these two lists. A cursor that keeps its position, its current element and the one
ahead by themselves moves and answers alike (`TemplateExpressions.Proofs.Cursor.Lookahead`).
-/

set_option autoImplicit false

namespace TemplateExpressions

/-- A walk along a sequence. -/
structure Cursor where
  name : Text
  sequence : Value
  /-- The elements gone past, the current one first. -/
  behind : List Value
  /-- The elements still to come. -/
  ahead : List Value
  /-- The context whose variable of the cursor's name is set to the current element. -/
  context : ContextId

/-- An answer of a cursor. -/
inductive Answer where
  | number (n : Nat)
  | flag (b : Bool)
  | word (t : Text)
  | item (v : Value)

/-- The answer as a value; a number is taken to 64 bits. -/
def Answer.toValue : Answer → Value
  | .number n => .int (Int64.ofNat n)
  | .flag b => .bool b
  | .word t => .text t
  | .item v => v

namespace Cursor

/-- A cursor in front of the first element of a sequence. -/
def ofSequence (live : Live) (context : ContextId) (name : Text) (sequence : Value) :
    Except EvalError Cursor :=
  (sequence.elements live).map fun elements => ⟨name, sequence, [], elements, context⟩

/-- A cursor over nothing. -/
def empty (context : ContextId) (name : Text) : Cursor := ⟨name, .list [], [], [], context⟩

/-- The cursor one element further on, with that element, unless it has gone past all. -/
def next? (c : Cursor) : Option (Value × Cursor) :=
  match c.ahead with
  | [] => none
  | v :: rest => some (v, { c with behind := v :: c.behind, ahead := rest })

/-- The position counted from one. -/
def position (c : Cursor) : Except CursorError Nat :=
  if c.behind.isEmpty then .error .noPosition else .ok c.behind.length

/-- The answer to a question. -/
def ask (live : Live) (c : Cursor) : Query → Except CursorError Answer
  | .index => c.position.map fun n => .number (n - 1)
  | .number => c.position.map .number
  | .even => c.position.map fun n => .flag ((n - 1) % 2 == 0)
  | .odd => c.position.map fun n => .flag ((n - 1) % 2 == 1)
  | .parity => c.position.map fun n => .word (if n % 2 = 1 then "odd".toList else "even".toList)
  | .letter => c.position.map fun n => .word (Number.letters 'a' (n - 1))
  | .upperLetter => c.position.map fun n => .word (Number.letters 'A' (n - 1))
  | .roman => c.position.map fun n => .word (Text.lower (Number.roman n))
  | .upperRoman => c.position.map fun n => .word (Number.roman n)
  | .start => .ok (.flag (c.behind.length == 1))
  | .end => .ok (.flag (!c.behind.isEmpty && c.ahead.isEmpty))
  | .item =>
    match c.behind with
    | [] => .error .noPosition
    | v :: _ => .ok (.item v)
  | .length =>
    match c.sequence.length? live with
    | some n => .ok (.number n)
    | none => .error (.unsized c.sequence.typeName)

end Cursor
end TemplateExpressions
