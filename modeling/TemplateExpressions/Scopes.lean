import TemplateExpressions.Error
import TemplateExpressions.Mapping

/-!
# Scopes

Variables live in frames: one root frame, and one frame for every open scope. Opening a scope copies
the frame in force, so only that frame is ever looked at. A local binding is written to it alone and
goes with the scope; a global binding is written to every frame. Every scope also keeps, in the
order of recording, what the names of repeats stood for before it replaced them.
-/

set_option autoImplicit false

namespace TemplateExpressions

/-- An open scope: its frame and what it has replaced. -/
structure Scope (ν ι : Type) where
  frame : Mapping ν
  replaced : List (Text × Option ι)

/-- The root frame and the open scopes, innermost first. -/
structure Scopes (ν ι : Type) where
  root : Mapping ν
  inner : List (Scope ν ι)

namespace Scopes

variable {ν ι : Type}

/-- Only a root frame. -/
def ofRoot (root : Mapping ν) : Scopes ν ι := ⟨root, []⟩

/-- The number of open scopes. -/
def depth (s : Scopes ν ι) : Nat := s.inner.length

/-- The frame in force. -/
def current (s : Scopes ν ι) : Mapping ν :=
  match s.inner with
  | [] => s.root
  | scope :: _ => scope.frame

/-- The value of a name. -/
def get? (s : Scopes ν ι) (name : Text) : Option ν := s.current.get? name

/-- Opens a scope. -/
def push (s : Scopes ν ι) : Scopes ν ι := { s with inner := ⟨s.current, []⟩ :: s.inner }

/-- Closes the innermost scope; the answer is what it had replaced. -/
def pop (s : Scopes ν ι) : Except ScopeError (List (Text × Option ι) × Scopes ν ι) :=
  match s.inner with
  | [] => .error .noOpenScope
  | scope :: outer => .ok (scope.replaced, { s with inner := outer })

/-- Binds a name in the frame in force. -/
def bindLocal (s : Scopes ν ι) (name : Text) (value : ν) : Scopes ν ι :=
  match s.inner with
  | [] => { s with root := s.root.put name value }
  | scope :: outer =>
    { s with inner := { scope with frame := scope.frame.put name value } :: outer }

/-- Binds a name in every frame. -/
def bindGlobal (s : Scopes ν ι) (name : Text) (value : ν) : Scopes ν ι :=
  ⟨s.root.put name value,
    s.inner.map fun scope => { scope with frame := scope.frame.put name value }⟩

/-- Records what a name stood for before the innermost scope replaced it. -/
def record (s : Scopes ν ι) (name : Text) (prior : Option ι) :
    Except ScopeError (Scopes ν ι) :=
  match s.inner with
  | [] => .error .noOpenScope
  | scope :: outer =>
    .ok { s with inner := { scope with replaced := scope.replaced ++ [(name, prior)] } :: outer }

end Scopes
end TemplateExpressions
