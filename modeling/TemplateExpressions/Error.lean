import TemplateExpressions.Number.Integer

/-!
# Errors

Three kinds of failure: a text that is no expression (`CompileError`), an expression that has no
value (`EvalError`) and a registration that the engine refuses (`RegistrationError`). Each is a
cause; wording, code and advice are functions of the cause (`TemplateExpressions.Error.Wording`).
-/

set_option autoImplicit false

namespace TemplateExpressions

/-- A stretch of a source text, counted in bytes. -/
structure Span where
  start : Nat
  length : Nat
deriving DecidableEq

/-- The byte after the last one of the stretch. -/
def Span.stop (s : Span) : Nat := s.start + s.length

/-- Why a text cannot be compiled. -/
inductive CompileCause where
  | unknownType (name : Text)
  | invalidVariable (name : Text)
  | invalidInterpolation
deriving DecidableEq

/-- A text that is no expression, with the stretch of it that is to blame. -/
structure CompileError where
  cause : CompileCause
  source : Text
  span : Span
deriving DecidableEq

/-- No type of this name is registered; the name is taken to lead the source. -/
def CompileError.unknownType (name source : Text) : CompileError :=
  ⟨.unknownType name, source, ⟨0, Text.bytes name⟩⟩

/-- What a registration is for. -/
inductive RegistryKind where
  | expressionType
  | baseName
  | functionNamespace
deriving DecidableEq

/-- A registration that the engine refuses. -/
inductive RegistrationError where
  | invalidName (kind : RegistryKind) (name : Text)
  | duplicate (kind : RegistryKind) (name : Text)
deriving DecidableEq

/-- Misuse of a cursor. -/
inductive CursorError where
  | noPosition
  | unsized (typeName : Text)
deriving DecidableEq

/-- Misuse of scopes. -/
inductive ScopeError where
  | noOpenScope
deriving DecidableEq

/-- An expression that has no value. -/
inductive EvalError where
  | undefined (name : Text)
  | nameNotFound (name : Text)
  | attributeNotFound (typeName name : Text)
  | keyNotFound (key : Text)
  | indexOutOfRange (index : Int) (length : Nat)
  | typeMismatch (message : Text)
  | notTraversable (typeName segment : Text)
  | notIterable (typeName : Text)
  | cursor (error : CursorError)
  | scope (error : ScopeError)
  | contextDropped
  | depthExceeded (depth maxDepth : Nat)
  | host (message : Text)
  | compile (error : CompileError)
deriving DecidableEq

/-- The errors that alternatives fall through: something could not be found, or a value had the
wrong shape to look into. -/
def EvalError.isUndefined : EvalError → Bool
  | .undefined _ | .nameNotFound _ | .attributeNotFound _ _ | .keyNotFound _
  | .indexOutOfRange _ _ | .typeMismatch _ | .notTraversable _ _ | .notIterable _ => true
  | .cursor _ | .scope _ | .contextDropped | .depthExceeded _ _ | .host _ | .compile _ => false

/-- The errors that alternatives do not fall through: misuse of cursors and of scopes, a context
that is gone, the depth limit, a failure of the embedding application, a text that is no
expression. -/
theorem EvalError.isUndefined_eq_false_iff {e : EvalError} :
    e.isUndefined = false ↔
      (∃ error, e = .cursor error) ∨ (∃ error, e = .scope error) ∨ e = .contextDropped ∨
        (∃ depth maxDepth, e = .depthExceeded depth maxDepth) ∨
        (∃ message, e = .host message) ∨ ∃ error, e = .compile error := by
  cases e with
  | scope error => exact iff_of_true rfl (.inr (.inl ⟨error, rfl⟩))
  | _ => simp [isUndefined]

/-- A line and a column of the document that is being rendered, as far as they are known. -/
structure Position where
  line : Option Nat
  column : Option Nat
deriving DecidableEq

/-- An evaluation error with the place in the document where it came up. -/
structure ErrorInfo where
  error : EvalError
  position : Position
  file : Option Text
deriving DecidableEq

/-- Any failure that is reported to a user. -/
inductive Failure where
  | compilation (error : CompileError)
  | registration (error : RegistrationError)
  | evaluation (info : ErrorInfo) (expression : Text)
deriving DecidableEq

/-- An evaluation error of an expression as a failure. A text that could not be compiled is a
compilation failure also when it came up during evaluation. -/
def Failure.ofEvalError (position : Position) (file : Option Text) (expression : Text) :
    EvalError → Failure
  | .compile error => .compilation error
  | error => .evaluation ⟨error, position, file⟩ expression

end TemplateExpressions
