import TemplateExpressions.Proofs.Session.Effect

/-!
# Contexts that are gone

A context that was let go of never comes back (`gone_run`): no operation takes its place in the world, and
none puts it back in use. A cursor of such a context does not move any more; so its place is that at which
the context was let go of (`cursor?_run_of_gone`).
-/

set_option autoImplicit false

namespace TemplateExpressions.Session

variable {s s' : Session} {id : ContextId} {c : Context}

/-- The context was there and was let go of. -/
def Gone (s : Session) (id : ContextId) : Prop :=
  ∃ c, s.world.contexts[id]? = some c ∧ c.alive = false

theorem Gone.context?_eq_none (h : s.Gone id) : s.world.context? id = none := by
  obtain ⟨c, hc, halive⟩ := h
  simp [World.context?, hc, Option.filter, halive]

theorem gone_of_world_eq (h : s.Gone id) (hw : s'.world = s.world) : s'.Gone id := by
  rw [Gone, hw]
  exact h

/-- Letting go of a context in use. -/
theorem gone_drop (hc : s.world.context? id = some c) : (s.drop id).Gone id := by
  have hcontext := (Option.filter_eq_some_iff.1 hc).1
  exact ⟨{ c with alive := false }, by simp [drop, modify, World.modifyContext, hcontext], rfl⟩

/-- A change that puts no context back in use. -/
theorem gone_modify {i : ContextId} {f : Context → Context} (h : s.Gone id)
    (hf : i = id → ∀ c, c.alive = false → (f c).alive = false) : (s.modify i f).Gone id := by
  obtain ⟨c, hc, halive⟩ := h
  by_cases hi : i = id
  · exact ⟨f c, by simp [modify, World.modifyContext, hi, hc], hf hi c halive⟩
  · exact ⟨c, by simpa [modify, World.modifyContext, hi] using hc, halive⟩

theorem gone_endScope {i : ContextId} (h : s.Gone id) :
    ((s.endScope i).toOption.getD s).Gone id := by
  unfold endScope
  split
  · exact h
  · rename_i c hc
    have hi : i ≠ id := by
      rintro rfl
      rw [h.context?_eq_none] at hc
      cases hc
    cases c.endScope with
    | error e => exact h
    | ok c' => exact gone_modify h fun he => absurd he hi

/-- Nothing is installed in a context that is gone. -/
theorem repeatOver_of_context?_eq_none (name : Text) (v : Value) (h : s.world.context? id = none) :
    (∃ e, s.repeatOver id name v = .error e) ∨
      s.repeatOver id name v = .ok (s.world.cursors.length, s.withCursor (.empty id name)) := by
  cases hv : v.isTruthy s.live with
  | false => exact .inr (repeatOver_of_not_isTruthy id name hv)
  | true => exact .inl ⟨.scope .noOpenScope, by simp [repeatOver, hv, h]⟩

theorem gone_setRepeat {i : ContextId} {name : Text} {source : Source}
    {result : Except EvalError CursorId} (h : s.Gone id)
    (hs : s.setRepeat i name source = some (result, s')) : s'.Gone id := by
  rcases setRepeat_cases hs with ⟨e, he⟩ | ⟨v, t, he, hr⟩
  · exact gone_of_world_eq h (world_performValue he)
  · have ht : t.Gone id := gone_of_world_eq h (world_performValue he)
    rcases hr with ⟨e, -, rfl⟩ | ⟨k, hk⟩
    · exact ht
    · by_cases hi : i = id
      · subst hi
        rcases repeatOver_of_context?_eq_none name v ht.context?_eq_none with ⟨e, he'⟩ | hk'
        · rw [he'] at hk
          cases hk
        · rw [hk'] at hk
          cases hk
          exact ht
      · obtain ⟨cursor, rfl | ⟨f, rfl⟩⟩ := eq_modify_of_repeatOver hk
        · exact ht
        · exact gone_modify (s := t.withCursor cursor) ht fun he => absurd he hi

theorem gone_advance {k : CursorId} (h : s.Gone id) :
    (((s.advance k).toOption.map Prod.snd).getD s).Gone id := by
  unfold advance
  split
  · exact h
  · split
    · exact h
    · rename_i v next _
      split
      · exact h
      · exact gone_modify (s := s.withMoved k next) h fun _ _ halive => halive

/-- No operation brings a context back. -/
theorem gone_apply {o : Operation} (h : s.Gone id) (ho : s.apply o = some s') : s'.Gone id := by
  cases o with
  | newContext b =>
    cases ho
    obtain ⟨c, hc, halive⟩ := h
    have hid := (List.getElem?_eq_some_iff.1 hc).1
    exact ⟨c, by simpa [newContext, World.addContext, List.getElem?_append_left hid] using hc, halive⟩
  | drop i =>
    cases ho
    exact gone_modify h fun _ _ _ => rfl
  | endScope i =>
    cases ho
    exact gone_endScope h
  | inquire inquiry => exact gone_of_world_eq h (world_inquire ho)
  | newCursor i name v =>
    cases ho
    cases hn : s.newCursor i name v with
    | error e => exact h
    | ok r =>
      obtain ⟨cursor, hr⟩ := eq_withCursor_of_newCursor hn
      rw [Except.toOption, Option.map_some, Option.getD_some, hr]
      exact h
  | emptyCursor i name =>
    cases ho
    exact h
  | setRepeat i name source =>
    obtain ⟨⟨result, t⟩, ht, rfl⟩ := Option.map_eq_some_iff.1 ho
    exact gone_setRepeat h ht
  | advance k =>
    cases ho
    exact gone_advance h
  | _ =>
    cases ho
    exact gone_modify h fun _ _ halive => halive

theorem gone_run {ops : List Operation} (h : s.Gone id) (hr : s.run ops = some s') : s'.Gone id := by
  induction ops generalizing s with
  | nil =>
    cases hr
    exact h
  | cons o ops ih =>
    obtain ⟨t, ht, hr⟩ := run_cons hr
    exact ih (gone_apply h ht) hr

/-! ## Cursors of contexts that are gone -/

/-- To advance a cursor of a context that is gone changes nothing; it fails if there is an element ahead. -/
theorem advance_of_gone {k : CursorId} {cursor : Cursor} (hk : s.world.cursor? k = some cursor)
    (h : s.Gone cursor.context) :
    s.advance k = (if cursor.ahead = [] then .ok (false, s) else .error .contextDropped) ∧
      s.apply (.advance k) = some s := by
  have hadvance : s.advance k =
      (if cursor.ahead = [] then .ok (false, s) else .error .contextDropped) := by
    cases hahead : cursor.ahead with
    | nil =>
      rw [if_pos rfl]
      exact advance_of_next?_eq_none hk (by rw [Cursor.next?, hahead])
    | cons v rest =>
      rw [if_neg (List.cons_ne_nil v rest)]
      exact advance_of_context?_eq_none hk (by rw [Cursor.next?, hahead]) h.context?_eq_none
  refine ⟨hadvance, ?_⟩
  rw [apply, hadvance]
  split
  · rfl
  · rfl

/-- No run moves a cursor whose context is gone. -/
theorem cursor?_run_of_gone {ops : List Operation} {k : CursorId} {cursor : Cursor}
    (hk : s.world.cursor? k = some cursor) (h : s.Gone cursor.context)
    (hr : s.run ops = some s') : s'.world.cursor? k = some cursor := by
  induction ops generalizing s with
  | nil =>
    cases hr
    exact hk
  | cons o ops ih =>
    obtain ⟨t, ht, hr⟩ := run_cons hr
    refine ih ?_ (gone_apply h ht) hr
    by_cases ho : o = .advance k
    · subst ho
      rw [(advance_of_gone hk h).2] at ht
      cases ht
      exact hk
    · exact cursor?_apply ht hk ho

end TemplateExpressions.Session
