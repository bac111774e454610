import TemplateExpressions.Proofs.Context.Change

/-!
# Views of a context that are stacks

What the open scopes keep for the time after them is a stack: opening a scope puts something on top,
closing one takes the top away, and no other change touches it (`IsStack`). Two such views are the
registries that closing the scopes one after the other brings back (`unwound`, `isStack_unwound`) and
the values that a variable has in the frames below the one in force (`valuesBelow`,
`isStack_valuesBelow`). What is bound or installed in the innermost scope goes with it
(`after_closed_after_boundLocal`, `after_closed_after_installed`).
-/

set_option autoImplicit false

namespace TemplateExpressions.Context

/-- A view that opened scopes push on and closed scopes pop off, and that other changes leave alone,
as far as they are allowed. -/
structure IsStack {β : Type} (allowed : Change → Prop) (view : Context → List β) : Prop where
  opened : ∀ c, ∃ top, view (c.after .opened) = top :: view c
  closed : ∀ c, view (c.after .closed) = (view c).tail
  others : ∀ c change, allowed change → change ≠ .opened → change ≠ .closed →
    view (c.after change) = view c

/-! ## Registries -/

/-- The registries that closing scopes one after the other gives, the innermost scope first. -/
def unwind : List (Scope Value CursorId) → Mapping CursorId → List (Mapping CursorId)
  | [], _ => []
  | scope :: outer, registry =>
    let before := scope.replaced.reverse.foldl restore registry
    before :: unwind outer before

/-- The registries that closing the open scopes one after the other gives. -/
def unwound (c : Context) : List (Mapping CursorId) := unwind c.scopes.inner c.registry

theorem length_unwind (inner : List (Scope Value CursorId)) (registry : Mapping CursorId) :
    (unwind inner registry).length = inner.length := by
  induction inner generalizing registry with
  | nil => rfl
  | cons scope outer ih => simp [unwind, ih]

theorem length_unwound (c : Context) : c.unwound.length = c.scopes.depth :=
  length_unwind _ _

/-- Frames are no matter of registries. -/
theorem unwind_congr {inner inner' : List (Scope Value CursorId)}
    (h : inner'.map Scope.replaced = inner.map Scope.replaced) (registry : Mapping CursorId) :
    unwind inner' registry = unwind inner registry := by
  induction inner generalizing inner' registry with
  | nil =>
    rw [List.map_nil, List.map_eq_nil_iff] at h
    rw [h]
  | cons scope outer ih =>
    obtain ⟨scope', outer', rfl, hs, ho⟩ := List.map_eq_cons_iff.1 h
    simp only [unwind, hs, ih ho]

/-- What a name stood for undoes the installing of a cursor. -/
theorem restore_put (registry : Mapping CursorId) (name : Text) (cursor : CursorId) :
    restore (registry.put name cursor) (name, registry.get? name) = registry := by
  cases h : registry.get? name with
  | none => exact registry.without_put_of_get?_eq_none cursor h
  | some old => exact registry.put_put_of_get?_eq_some cursor h

theorem unwound_after_opened (c : Context) :
    (c.after .opened).unwound = c.registry :: c.unwound := rfl

theorem unwound_after_closed (c : Context) : (c.after .closed).unwound = c.unwound.tail := by
  cases h : c.scopes.inner with
  | nil =>
    rw [after_closed_of_inner_eq_nil h]
    simp [unwound, h, unwind]
  | cons scope outer =>
    rw [after_closed_of_inner_eq_cons h]
    simp [unwound, h, unwind]

/-- Closing a scope gives the uppermost registry. -/
theorem registry_after_closed (c : Context) :
    (c.after .closed).registry = c.unwound.headD c.registry := by
  cases h : c.scopes.inner with
  | nil =>
    rw [after_closed_of_inner_eq_nil h]
    simp [unwound, h, unwind]
  | cons scope outer =>
    rw [after_closed_of_inner_eq_cons h]
    simp [unwound, h, unwind]

/-- The innermost scope remembers enough to undo every installing in it. -/
theorem unwound_after_installed (c : Context) (name : Text) (cursor : CursorId) :
    (c.after (.installed name cursor)).unwound = c.unwound := by
  cases h : c.scopes.inner with
  | nil => rw [after_installed_of_inner_eq_nil name cursor h]
  | cons scope outer =>
    rw [after_installed_of_inner_eq_cons name cursor h]
    simp only [unwound, h, unwind, List.reverse_append, List.reverse_singleton,
      List.singleton_append, List.foldl_cons, restore_put]

theorem isStack_unwound : IsStack (fun _ => True) unwound where
  opened := fun c => ⟨c.registry, unwound_after_opened c⟩
  closed := unwound_after_closed
  others := by
    intro c change _ hopened hclosed
    cases change with
    | opened => exact absurd rfl hopened
    | closed => exact absurd rfl hclosed
    | boundLocal name value =>
      refine unwind_congr ?_ c.registry
      simp only [after, setLocal, Scopes.bindLocal]
      cases c.scopes.inner <;> rfl
    | boundGlobal name value =>
      refine unwind_congr ?_ c.registry
      simp [after, setGlobal, Scopes.bindGlobal, Function.comp_def]
    | installed name cursor => exact unwound_after_installed c name cursor
    | _ => rfl

/-! ## Values -/

/-- The values of a variable in the frames below the one in force. -/
def valuesBelow (name : Text) (c : Context) : List (Option Value) :=
  c.scopes.frames.tail.map fun f => f.get? name

theorem valuesBelow_after_opened (name : Text) (c : Context) :
    valuesBelow name (c.after .opened) = c.scopes.get? name :: valuesBelow name c := by
  simp only [valuesBelow, after, beginScope, Scopes.frames_push, List.tail_cons]
  rw [c.scopes.frames_eq_cons]
  rfl

theorem valuesBelow_after_closed (name : Text) (c : Context) :
    valuesBelow name (c.after .closed) = (valuesBelow name c).tail := by
  cases h : c.scopes.inner with
  | nil =>
    rw [after_closed_of_inner_eq_nil h]
    simp [valuesBelow, Scopes.frames, h]
  | cons scope outer =>
    rw [after_closed_of_inner_eq_cons h]
    simp [valuesBelow, Scopes.frames, h, List.map_tail]

/-- Closing a scope gives a variable its uppermost value. -/
theorem get?_after_closed (name : Text) (c : Context) :
    (c.after .closed).scopes.get? name = (valuesBelow name c).headD (c.scopes.get? name) := by
  cases h : c.scopes.inner with
  | nil =>
    rw [after_closed_of_inner_eq_nil h]
    simp [valuesBelow, Scopes.frames, h]
  | cons scope outer =>
    rw [after_closed_of_inner_eq_cons h]
    simp only [valuesBelow, Scopes.frames, h, List.map_cons, List.cons_append, List.tail_cons]
    cases outer <;> rfl

/-- The values of a variable are a stack as long as it is not bound globally. -/
theorem isStack_valuesBelow (name : Text) :
    IsStack (fun change => ∀ value, change ≠ .boundGlobal name value) (valuesBelow name) where
  opened := fun c => ⟨c.scopes.get? name, valuesBelow_after_opened name c⟩
  closed := valuesBelow_after_closed name
  others := by
    intro c change hallowed hopened hclosed
    cases change with
    | opened => exact absurd rfl hopened
    | closed => exact absurd rfl hclosed
    | boundLocal other value =>
      simp only [valuesBelow, after, setLocal, Scopes.frames_bindLocal, List.tail_cons]
    | boundGlobal other value =>
      have hne : name ≠ other := fun e => hallowed value (by rw [e])
      simp only [valuesBelow, after, setGlobal, Scopes.frames_bindGlobal, List.map_tail,
        List.map_map, Function.comp_def, Mapping.get?_put, if_neg hne]
    | installed other cursor => simp only [valuesBelow, frames_after_installed]
    | _ => rfl

/-! ## What goes with the innermost scope -/

/-- Closing a scope that was just opened brings back the context as it was. -/
theorem after_closed_after_opened (c : Context) : (c.after .opened).after .closed = c := rfl

/-- What is bound in the innermost scope alone goes with it. -/
theorem after_closed_after_boundLocal {c : Context} (h : c.scopes.inner ≠ []) (name : Text)
    (value : Value) : (c.after (.boundLocal name value)).after .closed = c.after .closed := by
  obtain ⟨scope, outer, hs⟩ := List.exists_cons_of_ne_nil h
  have hbound : (c.after (.boundLocal name value)).scopes.inner =
      { scope with frame := scope.frame.put name value } :: outer := by
    simp only [after, setLocal, Scopes.bindLocal, hs]
  rw [after_closed_of_inner_eq_cons hbound, after_closed_of_inner_eq_cons hs]
  simp only [after, setLocal, Scopes.bindLocal, hs]

/-- A cursor that is installed in the innermost scope goes with it. -/
theorem after_closed_after_installed {c : Context} (h : c.scopes.inner ≠ []) (name : Text)
    (cursor : CursorId) : (c.after (.installed name cursor)).after .closed = c.after .closed := by
  obtain ⟨scope, outer, hs⟩ := List.exists_cons_of_ne_nil h
  rw [after_installed_of_inner_eq_cons name cursor hs, after_closed_of_inner_eq_cons rfl,
    after_closed_of_inner_eq_cons hs]
  simp only [List.reverse_append, List.reverse_singleton, List.singleton_append, List.foldl_cons,
    restore_put]

end TemplateExpressions.Context
