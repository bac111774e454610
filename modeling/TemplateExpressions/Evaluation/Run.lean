import TemplateExpressions.Value

/-!
# Runs

An evaluation ends with a value or an error, or it does not end within the levels it was given. On
its way it keeps a trail: which evaluations were entered and left, what was called, and which
failures came up. The trail also tells a counting callable how often it has been called.
-/

set_option autoImplicit false

namespace TemplateExpressions

/-- Something that happened during an evaluation. -/
inductive Event where
  /-- An evaluation began on a context, with so many active on it. -/
  | entered (context : ContextId) (depth : Nat)
  /-- The latest evaluation on a context ended, with an error or with a value. -/
  | left (context : ContextId) (error? : Option EvalError)
  /-- An object or callable was called. -/
  | invoked (mark : Mark)
  /-- A cursor was asked. -/
  | asked (cursor : CursorId) (query : Query)
  /-- An error came up. -/
  | failed (error : EvalError)
deriving DecidableEq

/-- What has happened, the latest first. -/
abbrev Trail := List Event

/-- How a run comes out. -/
inductive Outcome (α : Type) where
  | done (result : Except EvalError α) (trail : Trail)
  /-- The levels it was given did not suffice. -/
  | unfinished

/-- A run, by the trail that it continues. -/
def Run (α : Type) : Type := Trail → Outcome α

namespace Run

variable {α β : Type}

/-- A run that has its value at once. -/
def pure (a : α) : Run α := fun trail => .done (.ok a) trail

/-- One run after another. -/
def bind (x : Run α) (f : α → Run β) : Run β := fun trail =>
  match x trail with
  | .done (.ok a) trail => f a trail
  | .done (.error e) trail => .done (.error e) trail
  | .unfinished => .unfinished

instance : Monad Run where
  pure := Run.pure
  bind := Run.bind

/-- A run that fails. -/
def fail (e : EvalError) : Run α := fun trail => .done (.error e) (.failed e :: trail)

/-- A run of which nothing is known. -/
def unfinished : Run α := fun _ => .unfinished

/-- A run that has its result at once. -/
def ofExcept : Except EvalError α → Run α
  | .ok a => Run.pure a
  | .error e => fail e

/-- Adds an event to the trail. -/
def note (event : Event) : Run Unit := fun trail => .done (.ok ()) (event :: trail)

/-- The trail so far. -/
def trail : Run Trail := fun trail => .done (.ok trail) trail

/-- A run with another to fall back on, if the first fails with an error that alternatives fall
through. -/
def orElse (x y : Run α) : Run α := fun trail =>
  match x trail with
  | .done (.error e) trail => if e.isUndefined then y trail else .done (.error e) trail
  | outcome => outcome

/-- The error of a result, if it is one. -/
def error? : Except EvalError α → Option EvalError
  | .ok _ => none
  | .error e => some e

/-- An evaluation on a context, with its beginning and end on the trail. -/
def within (context : ContextId) (depth : Nat) (x : Run α) : Run α := fun trail =>
  match x (.entered context depth :: trail) with
  | .done result trail => .done result (.left context (error? result) :: trail)
  | .unfinished => .unfinished

theorem bind_apply (x : Run α) (f : α → Run β) (trail : Trail) :
    (x >>= f) trail =
      match x trail with
      | .done (.ok a) trail => f a trail
      | .done (.error e) trail => .done (.error e) trail
      | .unfinished => .unfinished := rfl

theorem orElse_apply (x y : Run α) (trail : Trail) :
    x.orElse y trail =
      match x trail with
      | .done (.error e) trail => if e.isUndefined then y trail else .done (.error e) trail
      | outcome => outcome := rfl

theorem within_apply (id : ContextId) (depth : Nat) (x : Run α) (trail : Trail) :
    within id depth x trail =
      match x (.entered id depth :: trail) with
      | .done result trail => .done result (.left id (error? result) :: trail)
      | .unfinished => .unfinished := rfl

end Run
end TemplateExpressions
