import TemplateExpressions.Scopes

/-!
# The stack of frames

The scopes of a context as two stacks: their frames, from the one in force down to the root frame
(`frames`), and what each open scope has replaced, the innermost first (`undoLists`). Opening a scope
puts a frame on top, a local binding changes the top alone, a global one every frame.
-/

set_option autoImplicit false

namespace TemplateExpressions.Scopes

variable {ν ι : Type}

/-- All frames, the one in force first and the root frame last. -/
def frames (s : Scopes ν ι) : List (Mapping ν) := s.inner.map Scope.frame ++ [s.root]

/-- What the open scopes have replaced, the innermost scope first. -/
def undoLists (s : Scopes ν ι) : List (List (Text × Option ι)) := s.inner.map Scope.replaced

/-- There is one frame more than there are undo lists. -/
theorem length_frames (s : Scopes ν ι) : s.frames.length = s.undoLists.length + 1 := by
  simp [frames, undoLists]

theorem length_undoLists (s : Scopes ν ι) : s.undoLists.length = s.depth := by
  simp [undoLists, depth]

/-- The frame in force is on top. -/
theorem frames_eq_cons (s : Scopes ν ι) : s.frames = s.current :: s.frames.tail := by
  obtain ⟨root, inner⟩ := s
  cases inner <;> rfl

theorem frames_ofRoot (root : Mapping ν) : (ofRoot root : Scopes ν ι).frames = [root] := rfl

/-- Opening a scope puts a copy of the frame in force on top. -/
theorem frames_push (s : Scopes ν ι) : s.push.frames = s.current :: s.frames := rfl

/-- A local binding is written to the frame in force alone. -/
theorem frames_bindLocal (s : Scopes ν ι) (name : Text) (value : ν) :
    (s.bindLocal name value).frames = s.current.put name value :: s.frames.tail := by
  obtain ⟨root, inner⟩ := s
  cases inner <;> rfl

theorem get?_bindLocal (s : Scopes ν ι) (name other : Text) (value : ν) :
    (s.bindLocal name value).get? other = if other = name then some value else s.get? other := by
  obtain ⟨root, inner⟩ := s
  cases inner with
  | nil => exact Mapping.get?_put root name value other
  | cons scope outer => exact Mapping.get?_put scope.frame name value other

/-- A global binding is written to every frame. -/
theorem frames_bindGlobal (s : Scopes ν ι) (name : Text) (value : ν) :
    (s.bindGlobal name value).frames = s.frames.map fun f => f.put name value := by
  simp [frames, bindGlobal, Function.comp_def]

end TemplateExpressions.Scopes
