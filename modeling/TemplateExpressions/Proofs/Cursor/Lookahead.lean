import TemplateExpressions.Cursor

/-!
# Cursors that look one element ahead

A cursor can as well keep its position, its current element, the one ahead, those behind that, and whether the
current one is the last, and update each of these by itself when it moves (`Lookahead`). Main statements: it then
starts like the cursor of two lists (`lookahead_ofSequence`, `lookahead_empty`), moves and answers like it
(`next?_lookahead`, `ask_lookahead`), and so does the same on any walk along a sequence (`lookahead_walks_alike`).
-/

set_option autoImplicit false

namespace TemplateExpressions

/-- A walk along a sequence that has taken the next element out of it already. -/
structure Lookahead where
  name : Text
  sequence : Value
  /-- The elements behind the one ahead. -/
  items : List Value
  /-- How often the walk has moved. -/
  position : Nat
  current : Option Value
  lookahead : Option Value
  /-- Whether nothing was ahead after the latest move. -/
  last : Bool
  context : ContextId

namespace Lookahead

/-- In front of the first element of a sequence, which is looked at already. -/
def ofSequence (live : Live) (context : ContextId) (name : Text) (sequence : Value) :
    Except EvalError Lookahead :=
  (sequence.elements live).map fun elements =>
    { name := name, sequence := sequence, items := elements.tail, position := 0, current := none,
      lookahead := elements.head?, last := false, context := context }

/-- A walk along nothing. -/
def empty (context : ContextId) (name : Text) : Lookahead :=
  { name := name, sequence := .list [], items := [], position := 0, current := none, lookahead := none,
    last := false, context := context }

/-- One element further on, with that element, unless nothing is ahead. -/
def next? (l : Lookahead) : Option (Value × Lookahead) :=
  match l.lookahead with
  | none => none
  | some v =>
    let ahead := l.items.head?
    some (v,
      { l with
        items := l.items.tail, position := l.position + 1, current := some v, lookahead := ahead,
        last := ahead.isNone })

/-- The position counted from one. -/
def number (l : Lookahead) : Except CursorError Nat :=
  match l.position with
  | 0 => .error .noPosition
  | n => .ok n

/-- The position counted from zero. -/
def index (l : Lookahead) : Except CursorError Nat := l.number.map (· - 1)

/-- The answer to a question. -/
def ask (live : Live) (l : Lookahead) : Query → Except CursorError Answer
  | .index => l.index.map .number
  | .number => l.number.map .number
  | .even => l.index.map fun i => .flag (i % 2 == 0)
  | .odd => l.index.map fun i => .flag (i % 2 == 1)
  | .parity => l.number.map fun n => .word (if n % 2 = 1 then "odd".toList else "even".toList)
  | .letter => l.index.map fun i => .word (Number.letters 'a' i)
  | .upperLetter => l.index.map fun i => .word (Number.letters 'A' i)
  | .roman => l.number.map fun n => .word (Text.lower (Number.roman n))
  | .upperRoman => l.number.map fun n => .word (Number.roman n)
  | .start => .ok (.flag (l.position == 1))
  | .end => .ok (.flag l.last)
  | .item =>
    match l.current with
    | some v => .ok (.item v)
    | none => .error .noPosition
  | .length =>
    match l.sequence.length? live with
    | some n => .ok (.number n)
    | none => .error (.unsized l.sequence.typeName)

end Lookahead

namespace Cursor

/-- The same walk, with the next element taken out. -/
def lookahead (c : Cursor) : Lookahead where
  name := c.name
  sequence := c.sequence
  items := c.ahead.tail
  position := c.behind.length
  current := c.behind.head?
  lookahead := c.ahead.head?
  last := !c.behind.isEmpty && c.ahead.isEmpty
  context := c.context

/-! ## One step -/

theorem lookahead_ofSequence (live : Live) (context : ContextId) (name : Text) (sequence : Value) :
    (ofSequence live context name sequence).map lookahead =
      Lookahead.ofSequence live context name sequence := by
  unfold ofSequence Lookahead.ofSequence
  cases sequence.elements live with
  | error e => rfl
  | ok elements => rfl

theorem lookahead_empty (context : ContextId) (name : Text) :
    (empty context name).lookahead = .empty context name := rfl

/-- Both move to the same element, or both have gone past all. -/
theorem next?_lookahead (c : Cursor) : c.lookahead.next? = c.next?.map (Prod.map id lookahead) := by
  obtain ⟨name, sequence, behind, ahead, context⟩ := c
  cases ahead with
  | nil => rfl
  | cons v rest =>
    cases rest with
    | nil => rfl
    | cons w rest => rfl

theorem number_lookahead (c : Cursor) : c.lookahead.number = c.position := by
  obtain ⟨name, sequence, behind, ahead, context⟩ := c
  cases behind with
  | nil => rfl
  | cons v behind => rfl

theorem map_index_lookahead {β : Type} (c : Cursor) (f : Nat → β) :
    c.lookahead.index.map f = c.position.map fun n => f (n - 1) := by
  rw [Lookahead.index, number_lookahead]
  cases c.position with
  | error e => rfl
  | ok n => rfl

/-- Both give the same answer to every question. -/
theorem ask_lookahead (live : Live) (c : Cursor) (query : Query) :
    c.lookahead.ask live query = c.ask live query := by
  cases query with
  | index | even | odd | letter | upperLetter => exact map_index_lookahead c _
  | number | parity | roman | upperRoman =>
    unfold Lookahead.ask ask
    simp only [number_lookahead]
  | start | «end» | length => rfl
  | item =>
    obtain ⟨name, sequence, behind, ahead, context⟩ := c
    cases behind with
    | nil => rfl
    | cons v behind => rfl

/-! ## Walks -/

/-- The elements that up to so many moves go past, and where they end. -/
def walk {σ : Type} (next? : σ → Option (Value × σ)) : Nat → σ → List Value × σ
  | 0, s => ([], s)
  | moves + 1, s =>
    match next? s with
    | none => ([], s)
    | some (v, s) => (v :: (walk next? moves s).1, (walk next? moves s).2)

theorem walk_lookahead (moves : Nat) (c : Cursor) :
    walk Lookahead.next? moves c.lookahead = (walk next? moves c).map id lookahead := by
  induction moves generalizing c with
  | zero => rfl
  | succ moves ih =>
    simp only [walk, next?_lookahead]
    cases c.next? with
    | none => rfl
    | some moved =>
      obtain ⟨v, c⟩ := moved
      simp only [Option.map_some, Prod.map, id, ih]

/-- Along any sequence the two go past the same elements, and they answer alike after any number of moves. -/
theorem lookahead_walks_alike (live later : Live) (context : ContextId) (name : Text) (sequence : Value)
    (moves : Nat) (query : Query) :
    ((Lookahead.ofSequence live context name sequence).map fun l =>
        ((walk Lookahead.next? moves l).1, (walk Lookahead.next? moves l).2.ask later query)) =
      (ofSequence live context name sequence).map fun c =>
        ((walk next? moves c).1, (walk next? moves c).2.ask later query) := by
  rw [← lookahead_ofSequence]
  cases ofSequence live context name sequence with
  | error e => rfl
  | ok c =>
    simp only [Except.map, walk_lookahead, Prod.map, id, ask_lookahead]

end Cursor
end TemplateExpressions
