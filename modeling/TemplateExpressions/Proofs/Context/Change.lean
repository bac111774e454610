import TemplateExpressions.Proofs.Scopes.Frames
import TemplateExpressions.World

/-!
# What can happen to a context

`Change` lists all that an operation of a driver can do to a context that it does not let go of, and
`Context.after` does it. A scope that is not there cannot be closed, and without an open scope no
cursor can be installed; both then leave the context as it is.
-/

set_option autoImplicit false

namespace TemplateExpressions

/-- A change of a context. -/
inductive Change where
  | nothing
  /-- A scope is opened. -/
  | opened
  /-- The innermost scope is closed. -/
  | closed
  | boundLocal (name : Text) (value : Value)
  | boundGlobal (name : Text) (value : Value)
  /-- A cursor becomes the active one of a name. -/
  | installed (name : Text) (cursor : CursorId)
  /-- The position in the document changes. -/
  | moved (position : Position)
  /-- The file of the document changes. -/
  | filed (file : Option Text)

namespace Context

/-- The context after a change. -/
def after (c : Context) : Change → Context
  | .nothing => c
  | .opened => c.beginScope
  | .closed => c.endScope.toOption.getD c
  | .boundLocal name value => c.setLocal name value
  | .boundGlobal name value => c.setGlobal name value
  | .installed name cursor => (c.install name cursor).toOption.getD c
  | .moved position => { c with position := position }
  | .filed file => { c with file := file }

@[simp] theorem after_nothing (c : Context) : c.after .nothing = c := rfl

/-- Without an open scope nothing can be closed. -/
theorem endScope_of_inner_eq_nil {c : Context} (h : c.scopes.inner = []) :
    c.endScope = .error .noOpenScope := by
  simp [endScope, Scopes.pop, h]

/-- Closing a scope takes its frame away and puts back what it has replaced. -/
theorem endScope_of_inner_eq_cons {c : Context} {scope : Scope Value CursorId}
    {outer : List (Scope Value CursorId)} (h : c.scopes.inner = scope :: outer) :
    c.endScope = .ok { c with
      scopes := { c.scopes with inner := outer }
      registry := scope.replaced.reverse.foldl restore c.registry } := by
  simp [endScope, Scopes.pop, h]

theorem after_closed_of_inner_eq_nil {c : Context} (h : c.scopes.inner = []) :
    c.after .closed = c := by
  simp [after, endScope_of_inner_eq_nil h, Except.toOption]

theorem after_closed_of_inner_eq_cons {c : Context} {scope : Scope Value CursorId}
    {outer : List (Scope Value CursorId)} (h : c.scopes.inner = scope :: outer) :
    c.after .closed = { c with
      scopes := { c.scopes with inner := outer }
      registry := scope.replaced.reverse.foldl restore c.registry } := by
  simp [after, endScope_of_inner_eq_cons h, Except.toOption]

/-- A cursor is installed only while a scope is open. -/
theorem after_installed_of_inner_eq_nil {c : Context} (name : Text) (cursor : CursorId)
    (h : c.scopes.inner = []) : c.after (.installed name cursor) = c := by
  simp [after, install, Scopes.record, h, Except.toOption]

/-- A cursor that is installed takes the name over, and the innermost scope remembers what the name
stood for. -/
theorem after_installed_of_inner_eq_cons {c : Context} (name : Text) (cursor : CursorId)
    {scope : Scope Value CursorId} {outer : List (Scope Value CursorId)}
    (h : c.scopes.inner = scope :: outer) :
    c.after (.installed name cursor) = { c with
      scopes := { c.scopes with
        inner := { scope with
          replaced := scope.replaced ++ [(name, c.registry.get? name)] } :: outer }
      registry := c.registry.put name cursor } := by
  simp [after, install, Scopes.record, h, Except.toOption]

/-- No change lets go of a context. -/
theorem alive_after (c : Context) (change : Change) : (c.after change).alive = c.alive := by
  cases change with
  | closed =>
    cases h : c.scopes.inner with
    | nil => rw [after_closed_of_inner_eq_nil h]
    | cons scope outer => rw [after_closed_of_inner_eq_cons h]
  | installed name cursor =>
    cases h : c.scopes.inner with
    | nil => rw [after_installed_of_inner_eq_nil name cursor h]
    | cons scope outer => rw [after_installed_of_inner_eq_cons name cursor h]
  | _ => rfl

/-- Installing a cursor is no matter of frames. -/
theorem frames_after_installed (c : Context) (name : Text) (cursor : CursorId) :
    (c.after (.installed name cursor)).scopes.frames = c.scopes.frames := by
  cases h : c.scopes.inner with
  | nil => rw [after_installed_of_inner_eq_nil name cursor h]
  | cons scope outer =>
    rw [after_installed_of_inner_eq_cons name cursor h]
    simp [Scopes.frames, h]

end Context
end TemplateExpressions
