import TemplateExpressions.Engine.Compile
import TemplateExpressions.Evaluation
import TemplateExpressions.Value.Equality

/-!
# Sessions

A session is the world with what has happened in it so far. Its operations are those that a program
rendering a document performs: it makes contexts, opens and closes scopes, binds variables, repeats
over sequences and evaluates expressions. An operation that evaluates answers `none` if the
evaluation does not end.
-/

set_option autoImplicit false

namespace TemplateExpressions

/-- The world, the trail of all evaluations, and the next unused mark. -/
structure Session where
  world : World
  trail : Trail
  nextMark : Mark

/-- An expression given as text or in compiled form. -/
inductive Source where
  | text (t : Text)
  | compiled (e : Expr)

/-- The answer of an operation that evaluates, with the session after it. -/
abbrev Answered (α : Type) := Option (Except EvalError α × Session)

namespace Session

/-- A session without contexts. -/
def start (g : Engine) : Session := ⟨⟨g, [], []⟩, [], 0⟩

/-- What values are read against. -/
def live (s : Session) : Live := s.world.live

/-! ## Contexts and scopes -/

/-- Makes a context. -/
def newContext (s : Session) (b : ContextBuilder) : Session × ContextId :=
  let (world, id) := s.world.addContext b
  ({ s with world := world }, id)

/-- The builder of contexts. -/
def builder (s : Session) : ContextBuilder := ContextBuilder.ofEngine s.world.engine

/-- Makes a context from a mapping of roots and from named roots; the mapping wins. -/
def getContext (s : Session) (mapping : List (Text × Value)) (named : List (Text × Value)) :
    Session × ContextId :=
  s.newContext ((named.foldl (fun b e => b.root e.1 e.2) s.builder).roots mapping)

/-- Changes a context. -/
def modify (s : Session) (id : ContextId) (f : Context → Context) : Session :=
  { s with world := s.world.modifyContext id f }

/-- Lets go of a context. -/
def drop (s : Session) (id : ContextId) : Session :=
  s.modify id fun c => { c with alive := false }

/-- Opens a scope. -/
def beginScope (s : Session) (id : ContextId) : Session := s.modify id Context.beginScope

/-- Closes the innermost scope. -/
def endScope (s : Session) (id : ContextId) : Except ScopeError Session :=
  match s.world.context? id with
  | none => .error .noOpenScope
  | some c =>
    match c.endScope with
    | .error e => .error e
    | .ok c => .ok (s.modify id fun _ => c)

/-- Binds a variable in the innermost scope. -/
def setLocal (s : Session) (id : ContextId) (name : Text) (value : Value) : Session :=
  s.modify id fun c => c.setLocal name value

/-- Binds a variable in every scope and at the root. -/
def setGlobal (s : Session) (id : ContextId) (name : Text) (value : Value) : Session :=
  s.modify id fun c => c.setGlobal name value

/-- The value of a variable. -/
def get? (s : Session) (id : ContextId) (name : Text) : Option Value :=
  (s.world.context? id).bind fun c => c.scopes.get? name

/-! ## Evaluation -/

/-- Gives a callable that comes out of an evaluation a mark of its own. -/
def keep (s : Session) : Value → Value × Session
  | .callable none act => (.callable (some s.nextMark) act, { s with nextMark := s.nextMark + 1 })
  | v => (v, s)

/-- Performs a run on the world as it is. -/
def perform {α : Type} (s : Session) (run : Run α) : Answered α :=
  match run s.trail with
  | .done result trail => some (result, { s with trail := trail })
  | .unfinished => none

/-- Performs a run whose value is handed out. -/
def performValue (s : Session) (run : Run Value) : Answered Value :=
  match s.perform run with
  | some (.ok v, s) =>
    let (v, s) := s.keep v
    some (.ok v, s)
  | answer => answer

/-- The run that evaluates a source in a context. -/
def evaluation (s : Session) (id : ContextId) : Source → Run Value
  | .compiled e => Evaluation.meaning s.world id e
  | .text t =>
    match s.world.engine.compile t with
    | .ok e => Evaluation.meaning s.world id e
    | .error (.fault error) => Run.fail (.compile error)
    | .error .endless => Run.unfinished

/-- The run that turns a value into text. -/
def textOf (s : Session) (v : Value) : Run Text :=
  Evaluation.textOf s.world (Evaluation.meaning s.world) (Evaluation.enough s.world) v

/-- Evaluates a source. -/
def evaluate (s : Session) (id : ContextId) (source : Source) : Answered Value :=
  s.performValue (s.evaluation id source)

/-- Evaluates a source to a truth value. -/
def evaluateBoolean (s : Session) (id : ContextId) (source : Source) : Answered Bool :=
  s.perform do
    let v ← s.evaluation id source
    return v.isTruthy s.live

/-- Evaluates a source for output. The null value and the default marker stay as they are, so that
they can be told from text; all else becomes text. -/
def evaluateText (s : Session) (id : ContextId) (source : Source) : Answered Value :=
  s.perform do
    let v ← s.evaluation id source
    match v with
    | .default | .nothing | .text _ => return v
    | v => return .text (← s.textOf v)

/-- Evaluates a deferred value; every other value is its own. -/
def force (s : Session) (v : Value) : Answered Value :=
  s.performValue (Evaluation.force (Evaluation.meaning s.world) v)

/-- The text of a value. -/
def toText (s : Session) (v : Value) : Answered Text := s.perform (s.textOf v)

/-- Calls a value, if it can be called. -/
def invoke? (s : Session) (v : Value) : Option (Answered Value) :=
  (Evaluation.invoke? s.world (Evaluation.meaning s.world) v).map s.performValue

/-! ## Repeats -/

/-- Makes a cursor over a sequence, without installing it. -/
def newCursor (s : Session) (id : ContextId) (name : Text) (sequence : Value) :
    Except EvalError (CursorId × Session) :=
  match Cursor.ofSequence s.live id name sequence with
  | .error e => .error e
  | .ok c =>
    let (world, cursor) := s.world.addCursor c
    .ok (cursor, { s with world := world })

/-- Makes a cursor over nothing. -/
def emptyCursor (s : Session) (id : ContextId) (name : Text) : CursorId × Session :=
  let (world, cursor) := s.world.addCursor (Cursor.empty id name)
  (cursor, { s with world := world })

/-- Installs a cursor under its name. -/
def install (s : Session) (id : ContextId) (name : Text) (cursor : CursorId) :
    Except EvalError Session :=
  match s.world.context? id with
  | none => .error .contextDropped
  | some c =>
    match c.install name cursor with
    | .error e => .error (.scope e)
    | .ok c => .ok (s.modify id fun _ => c)

/-- Makes a cursor over the value of a repeat and installs it; a value that does not count as true
gives a cursor over nothing that is not installed. -/
def repeatOver (s : Session) (id : ContextId) (name : Text) (sequence : Value) :
    Except EvalError (CursorId × Session) :=
  if !sequence.isTruthy s.live then .ok (s.emptyCursor id name)
  else if ((s.world.context? id).map fun c => c.scopes.depth).getD 0 = 0 then
    .error (.scope .noOpenScope)
  else do
    let (cursor, s) ← s.newCursor id name sequence
    let s ← s.install id name cursor
    return (cursor, s)

/-- Starts a repeat of a name over the value of a source. -/
def setRepeat (s : Session) (id : ContextId) (name : Text) (source : Source) :
    Answered CursorId :=
  match s.evaluate id source with
  | none => none
  | some (.error e, s) => some (.error e, s)
  | some (.ok sequence, s) =>
    match s.repeatOver id name sequence with
    | .error e => some (.error e, s)
    | .ok (cursor, s) => some (.ok cursor, s)

/-- Moves a cursor to its next element and binds it in the cursor's context. Without a next element
the answer is `false` and nothing happens. -/
def advance (s : Session) (cursor : CursorId) : Except EvalError (Bool × Session) :=
  match s.world.cursor? cursor with
  | none => .ok (false, s)
  | some c =>
    match c.next? with
    | none => .ok (false, s)
    | some (v, c) =>
      match s.world.context? c.context with
      | none => .error .contextDropped
      | some _ =>
        let s := { s with world := s.world.setCursor cursor c }
        .ok (true, s.setLocal c.context c.name v)

/-- The answer of a cursor. -/
def query (s : Session) (cursor : CursorId) (q : Query) : Except CursorError Answer :=
  match s.world.cursor? cursor with
  | none => .error .noPosition
  | some c => c.ask s.live q

/-- The active cursors of a context. -/
def registry (s : Session) (id : ContextId) : Mapping CursorId :=
  ((s.world.context? id).map Context.registry).getD []

/-! ## Diagnostics -/

/-- Sets the position in the document. -/
def setPosition (s : Session) (id : ContextId) (position : Position) : Session :=
  s.modify id fun c => { c with position := position }

/-- Sets the file of the document. -/
def setFile (s : Session) (id : ContextId) (file : Option Text) : Session :=
  s.modify id fun c => { c with file := file }

/-- An error with the place in the document. -/
def errorInfo (s : Session) (id : ContextId) (e : EvalError) : ErrorInfo :=
  match s.world.context? id with
  | none => ⟨e, ⟨none, none⟩, none⟩
  | some c => ⟨e, c.position, c.file⟩

/-- An error of an expression as a failure to report. -/
def failure (s : Session) (id : ContextId) (expression : Text) (e : EvalError) : Failure :=
  let info := s.errorInfo id e
  Failure.ofEvalError info.position info.file expression e

/-- Translates a message. -/
def translate (s : Session) (id : ContextId) (message : Text) (domain : Option Text)
    (mapping : Option (List (Text × Value))) (default : Option Value) : Text :=
  match s.world.context? id with
  | none => message
  | some c => c.translate s.live message domain mapping default

end Session
end TemplateExpressions
