import TemplateExpressions.Proofs.Cursor
import TemplateExpressions.Proofs.Session.Operation

/-!
# What operations do

Evaluation leaves the world alone (`world_inquire`), a repeat adds a cursor and may install it, a
cursor that moves binds its element. From this: an operation does to a context the change that
`Operation.change` tells (`context?_apply`), and it moves only the cursor that it advances
(`cursor?_apply`); both hold of runs as well.
-/

set_option autoImplicit false

namespace TemplateExpressions.Session

variable {s s' : Session} {id : ContextId} {c : Context}

/-- No change lets go of its context. -/
theorem context?_modify_self {f : Context → Context} {change : Change}
    (hc : s.world.context? id = some c) (hf : f c = c.after change) :
    (s.modify id f).world.context? id = some (c.after change) := by
  have halive : (f c).alive = true := by
    rw [hf, Context.alive_after, World.alive_of_context? hc]
  rw [← hf]
  exact World.context?_modifyContext_self hc halive

/-! ## Evaluation -/

theorem world_perform {α : Type} {run : Run α} {result : Except EvalError α}
    (h : s.perform run = some (result, s')) : s'.world = s.world := by
  unfold perform at h
  split at h
  · simp only [Option.some.injEq, Prod.mk.injEq] at h
    exact h.2 ▸ rfl
  · cases h

theorem world_keep (s : Session) (v : Value) : (s.keep v).2.world = s.world := by
  unfold keep
  split <;> rfl

theorem world_performValue {run : Run Value} {result : Except EvalError Value}
    (h : s.performValue run = some (result, s')) : s'.world = s.world := by
  unfold performValue at h
  split at h
  · rename_i v t ht
    simp only [Option.some.injEq, Prod.mk.injEq] at h
    rw [← h.2, world_keep, world_perform ht]
  · exact world_perform h

/-- No inquiry changes the world. -/
theorem world_inquire {inquiry : Inquiry} (h : s.inquire inquiry = some s') :
    s'.world = s.world := by
  cases inquiry with
  | value i source =>
    obtain ⟨⟨r, t⟩, ht, rfl⟩ := Option.map_eq_some_iff.1 h
    exact world_performValue ht
  | truth i source =>
    obtain ⟨⟨r, t⟩, ht, rfl⟩ := Option.map_eq_some_iff.1 h
    exact world_perform ht
  | text i source =>
    obtain ⟨⟨r, t⟩, ht, rfl⟩ := Option.map_eq_some_iff.1 h
    exact world_perform ht
  | force v =>
    obtain ⟨⟨r, t⟩, ht, rfl⟩ := Option.map_eq_some_iff.1 h
    exact world_performValue ht
  | toText v =>
    obtain ⟨⟨r, t⟩, ht, rfl⟩ := Option.map_eq_some_iff.1 h
    exact world_perform ht
  | invoke v =>
    simp only [inquire, invoke?, Option.map_map] at h
    cases hv : Evaluation.invoke? s.world (Evaluation.meaning s.world) v with
    | none =>
      rw [hv] at h
      cases h
      rfl
    | some run =>
      rw [hv] at h
      obtain ⟨⟨r, t⟩, ht, rfl⟩ := Option.map_eq_some_iff.1 h
      exact world_performValue ht

/-! ## Repeats -/

/-- The session with a new cursor. -/
def withCursor (s : Session) (cursor : Cursor) : Session :=
  { s with world := (s.world.addCursor cursor).1 }

theorem context?_withCursor (s : Session) (cursor : Cursor) (id : ContextId) :
    (s.withCursor cursor).world.context? id = s.world.context? id := rfl

theorem cursor?_withCursor {k : CursorId} {cursor : Cursor} (h : s.world.cursor? k = some cursor)
    (new : Cursor) : (s.withCursor new).world.cursor? k = some cursor := by
  have hk := (List.getElem?_eq_some_iff.1 h).1
  simpa [withCursor, World.addCursor, World.cursor?, List.getElem?_append_left hk] using h

theorem cursor?_withCursor_self (s : Session) (cursor : Cursor) :
    (s.withCursor cursor).world.cursor? s.world.cursors.length = some cursor := by
  simp [withCursor, World.addCursor, World.cursor?]

/-- A sequence that does not count as true gives a cursor over nothing. -/
theorem repeatOver_of_not_isTruthy (id : ContextId) (name : Text) {v : Value}
    (hv : v.isTruthy s.live = false) :
    s.repeatOver id name v = .ok (s.world.cursors.length, s.withCursor (.empty id name)) := by
  simp [repeatOver, hv, emptyCursor, withCursor, World.addCursor]

/-- Without an open scope nothing is repeated over. -/
theorem repeatOver_of_inner_eq_nil (name : Text) {v : Value} (hc : s.world.context? id = some c)
    (hv : v.isTruthy s.live = true) (hi : c.scopes.inner = []) :
    s.repeatOver id name v = .error (.scope .noOpenScope) := by
  simp [repeatOver, hv, hc, Scopes.depth, hi]

/-- A value that cannot be walked is not repeated over. -/
theorem repeatOver_of_elements_eq_error {name : Text} {v : Value} {e : EvalError}
    (hc : s.world.context? id = some c) (hv : v.isTruthy s.live = true)
    (hi : c.scopes.inner ≠ []) (he : v.elements s.live = .error e) :
    s.repeatOver id name v = .error e := by
  have hd : c.scopes.inner.length ≠ 0 := fun h => hi (List.eq_nil_of_length_eq_zero h)
  simp [repeatOver, hv, hc, Scopes.depth, hi, newCursor, Cursor.ofSequence, he, bind, Except.bind,
    Except.map]

/-- Any other sequence gets a cursor in front of its first element, which is installed. -/
theorem repeatOver_of_elements_eq_ok (name : Text) {v : Value} {items : List Value}
    (hc : s.world.context? id = some c) (hv : v.isTruthy s.live = true)
    (hi : c.scopes.inner ≠ []) (he : v.elements s.live = .ok items) :
    s.repeatOver id name v = .ok (s.world.cursors.length,
      (s.withCursor (.past id name v items 0)).modify id
        fun _ => c.after (.installed name s.world.cursors.length)) := by
  obtain ⟨scope, outer, hs⟩ := List.exists_cons_of_ne_nil hi
  have hnew : s.newCursor id name v = .ok (s.world.cursors.length,
      s.withCursor (.past id name v items 0)) := by
    rw [newCursor, Cursor.ofSequence_eq_past id name he]
    rfl
  have hinstall : (s.withCursor (.past id name v items 0)).install id name
      s.world.cursors.length = .ok ((s.withCursor (.past id name v items 0)).modify id
        fun _ => c.after (.installed name s.world.cursors.length)) := by
    simp [install, context?_withCursor, hc, Context.after, Context.install, Scopes.record, hs,
      Except.toOption]
  unfold repeatOver
  rw [hc, hv]
  simp only [Bool.not_true, Bool.false_eq_true, if_false, Option.map_some, Option.getD_some,
    Scopes.depth, hs, List.length_cons, Nat.add_one_ne_zero]
  rw [hnew]
  show Except.bind (Session.install _ _ _ _) _ = _
  rw [hinstall]
  rfl

theorem eq_withCursor_of_newCursor {i : ContextId} {name : Text} {v : Value} {k : CursorId}
    (h : s.newCursor i name v = .ok (k, s')) : ∃ cursor, s' = s.withCursor cursor := by
  unfold newCursor at h
  split at h
  · cases h
  · rename_i cursor _
    cases h
    exact ⟨cursor, rfl⟩

theorem eq_modify_of_install {i : ContextId} {name : Text} {k : CursorId}
    (h : s.install i name k = .ok s') : ∃ f, s' = s.modify i f := by
  unfold install at h
  split at h
  · cases h
  · split at h
    · cases h
    · rename_i c' _
      cases h
      exact ⟨fun _ => c', rfl⟩

/-- A repeat adds a cursor and touches no context but its own. -/
theorem eq_modify_of_repeatOver {i : ContextId} {name : Text} {v : Value} {k : CursorId}
    (h : s.repeatOver i name v = .ok (k, s')) :
    ∃ cursor, s' = s.withCursor cursor ∨ ∃ f, s' = (s.withCursor cursor).modify i f := by
  unfold repeatOver at h
  split at h
  · cases h
    exact ⟨.empty i name, Or.inl rfl⟩
  · split at h
    · cases h
    · cases hn : s.newCursor i name v with
      | error e =>
        rw [hn] at h
        cases h
      | ok r =>
        obtain ⟨k', t⟩ := r
        rw [hn] at h
        change Except.bind (t.install i name k') _ = _ at h
        cases ht : t.install i name k' with
        | error e =>
          rw [ht] at h
          cases h
        | ok u =>
          rw [ht] at h
          cases h
          obtain ⟨cursor, rfl⟩ := eq_withCursor_of_newCursor hn
          obtain ⟨f, rfl⟩ := eq_modify_of_install ht
          exact ⟨cursor, Or.inr ⟨f, rfl⟩⟩

/-- What a repeat over a value does to its context. -/
theorem context?_repeatOver {name : Text} {v : Value} (hc : s.world.context? id = some c)
    (h : (∃ e, s.repeatOver id name v = .error e ∧ s' = s) ∨
      ∃ k, s.repeatOver id name v = .ok (k, s')) :
    s'.world.context? id = some (c.after
      (if v.isTruthy s.live ∧ (v.elements s.live).isOk then .installed name s.world.cursors.length
        else .nothing)) := by
  cases hv : v.isTruthy s.live with
  | false =>
    rw [repeatOver_of_not_isTruthy id name hv] at h
    rcases h with ⟨e, he, -⟩ | ⟨k, hk⟩
    · cases he
    · cases hk
      simpa [context?_withCursor] using hc
  | true =>
    by_cases hi : c.scopes.inner = []
    · -- no scope is open, so whatever is to be installed is not
      have hnone : s' = s := by
        rw [repeatOver_of_inner_eq_nil name hc hv hi] at h
        rcases h with ⟨e, -, hs⟩ | ⟨k, hk⟩
        · exact hs
        · cases hk
      rw [hnone, hc]
      split
      · rw [Context.after_installed_of_inner_eq_nil name _ hi]
      · rfl
    · cases he : v.elements s.live with
      | error e =>
        rw [repeatOver_of_elements_eq_error hc hv hi he] at h
        rcases h with ⟨e, -, rfl⟩ | ⟨k, hk⟩
        · simpa [Except.isOk, Except.toBool] using hc
        · cases hk
      | ok items =>
        rw [repeatOver_of_elements_eq_ok name hc hv hi he] at h
        rcases h with ⟨e, he', -⟩ | ⟨k, hk⟩
        · cases he'
        · cases hk
          simp only [Except.isOk, Except.toBool, and_self, if_true]
          exact context?_modify_self ((context?_withCursor s _ id).trans hc) rfl

theorem setRepeat_cases {i : ContextId} {name : Text} {source : Source}
    {result : Except EvalError CursorId} (h : s.setRepeat i name source = some (result, s')) :
    (∃ e, s.evaluate i source = some (.error e, s')) ∨
      ∃ v t, s.evaluate i source = some (.ok v, t) ∧
        ((∃ e, t.repeatOver i name v = .error e ∧ s' = t) ∨
          ∃ k, t.repeatOver i name v = .ok (k, s')) := by
  unfold setRepeat at h
  split at h
  · cases h
  · rename_i e t he
    cases h
    exact Or.inl ⟨e, he⟩
  · rename_i v t he
    refine Or.inr ⟨v, t, he, ?_⟩
    split at h
    · rename_i e hr
      cases h
      exact Or.inl ⟨e, hr, rfl⟩
    · rename_i k u hr
      cases h
      exact Or.inr ⟨k, hr⟩

/-- What a repeat does to a context. -/
theorem context?_setRepeat {i : ContextId} {name : Text} {source : Source}
    {result : Except EvalError CursorId} (hc : s.world.context? id = some c)
    (h : s.setRepeat i name source = some (result, s')) :
    s'.world.context? id = some (c.after (Operation.change s id (.setRepeat i name source))) := by
  rcases setRepeat_cases h with ⟨e, he⟩ | ⟨v, t, he, hr⟩
  · have hw := world_performValue he
    simp [Operation.change, he, hw, hc, Context.after]
  · have hw : t.world = s.world := world_performValue he
    have hlive : t.live = s.live := by simp only [live, hw]
    have hct : t.world.context? id = some c := hw ▸ hc
    by_cases hi : i = id
    · subst hi
      have hchange : Operation.change s i (.setRepeat i name source) =
          if v.isTruthy t.live ∧ (v.elements t.live).isOk then
            .installed name t.world.cursors.length
          else .nothing := by
        simp [Operation.change, he, hlive, hw]
      rw [hchange]
      exact context?_repeatOver hct hr
    · have hchange : Operation.change s id (.setRepeat i name source) = .nothing := by
        simp [Operation.change, he, hi]
      rw [hchange]
      rcases hr with ⟨e, -, rfl⟩ | ⟨k, hk⟩
      · exact hct
      · obtain ⟨cursor, rfl | ⟨f, rfl⟩⟩ := eq_modify_of_repeatOver hk
        · exact hct
        · exact (World.context?_modifyContext_of_ne f hi).trans hct

theorem cursor?_setRepeat {i : ContextId} {name : Text} {source : Source} {k : CursorId}
    {cursor : Cursor} {result : Except EvalError CursorId} (hk : s.world.cursor? k = some cursor)
    (h : s.setRepeat i name source = some (result, s')) : s'.world.cursor? k = some cursor := by
  rcases setRepeat_cases h with ⟨e, he⟩ | ⟨v, t, he, hr⟩
  · rw [world_performValue he]
    exact hk
  · have hkt : t.world.cursor? k = some cursor := (world_performValue he) ▸ hk
    rcases hr with ⟨e, -, rfl⟩ | ⟨k', hr⟩
    · exact hkt
    · obtain ⟨new, rfl | ⟨f, rfl⟩⟩ := eq_modify_of_repeatOver hr
      · exact cursor?_withCursor hkt new
      · exact cursor?_withCursor hkt new

/-! ## Cursors that move -/

/-- The session with a cursor in the place of another. -/
def withMoved (s : Session) (k : CursorId) (cursor : Cursor) : Session :=
  { s with world := s.world.setCursor k cursor }

theorem advance_of_next?_eq_none {k : CursorId} {cursor : Cursor}
    (hk : s.world.cursor? k = some cursor) (hn : cursor.next? = none) :
    s.advance k = .ok (false, s) := by
  simp [advance, hk, hn]

theorem next?_keeps {cursor next : Cursor} {v : Value} (h : cursor.next? = some (v, next)) :
    next.context = cursor.context ∧ next.name = cursor.name := by
  unfold Cursor.next? at h
  split at h
  · cases h
  · cases h
    exact ⟨rfl, rfl⟩

/-- A cursor that moves binds its element in its context. -/
theorem advance_of_next?_eq_some {k : CursorId} {cursor next : Cursor} {v : Value}
    (hk : s.world.cursor? k = some cursor) (hn : cursor.next? = some (v, next))
    (hc : s.world.context? cursor.context = some c) :
    s.advance k = .ok (true, (s.withMoved k next).setLocal cursor.context cursor.name v) := by
  obtain ⟨hcontext, hname⟩ := next?_keeps hn
  simp [advance, hk, hn, hcontext, hname, hc, withMoved]

/-- A cursor whose context is gone does not move. -/
theorem advance_of_context?_eq_none {k : CursorId} {cursor next : Cursor} {v : Value}
    (hk : s.world.cursor? k = some cursor) (hn : cursor.next? = some (v, next))
    (hc : s.world.context? cursor.context = none) :
    s.advance k = .error .contextDropped := by
  simp [advance, hk, hn, (next?_keeps hn).1, hc]

theorem cursor?_withMoved_self {k : CursorId} {cursor : Cursor}
    (hk : s.world.cursor? k = some cursor) (next : Cursor) :
    (s.withMoved k next).world.cursor? k = some next := by
  have hlt := (List.getElem?_eq_some_iff.1 hk).1
  simp [withMoved, World.setCursor, World.cursor?, hlt]

theorem cursor?_advance {j k : CursorId} {cursor : Cursor} (hk : s.world.cursor? k = some cursor)
    (hj : j ≠ k) :
    ((((s.advance j).toOption.map Prod.snd).getD s).world.cursor? k) = some cursor := by
  unfold advance
  split
  · exact hk
  · split
    · exact hk
    · split
      · exact hk
      · rename_i next _ _ _ _
        simpa [Except.toOption, setLocal, modify, World.modifyContext, World.setCursor,
          World.cursor?, hj] using hk

/-! ## All operations -/

theorem get?_eq (hc : s.world.context? id = some c) (name : Text) :
    s.get? id name = c.scopes.get? name := by
  simp [get?, hc]

theorem registry_eq (hc : s.world.context? id = some c) : s.registry id = c.registry := by
  simp [registry, hc]

/-- The innermost scope can be closed unless none is open. -/
theorem endScope_eq_error_iff (hc : s.world.context? id = some c) :
    s.endScope id = .error .noOpenScope ↔ c.scopes.depth = 0 := by
  unfold endScope
  rw [hc]
  cases hi : c.scopes.inner with
  | nil => simp [Context.endScope_of_inner_eq_nil hi, Scopes.depth, hi]
  | cons scope outer => simp [Context.endScope_of_inner_eq_cons hi, Scopes.depth, hi]

theorem endScope_eq_ok (hc : s.world.context? id = some c) (h : c.scopes.depth ≠ 0) :
    ∃ t, s.endScope id = .ok t := by
  obtain ⟨scope, outer, hi⟩ := List.exists_cons_of_length_pos (Nat.pos_of_ne_zero h)
  exact ⟨_, by simp [endScope, hc, Context.endScope_of_inner_eq_cons hi]; rfl⟩

/-- What is done to one context is no matter of another. -/
theorem context?_modify {i : ContextId} {f : Context → Context} {change : Change}
    (hc : s.world.context? id = some c) (hf : f c = c.after change) :
    (s.modify i f).world.context? id = some (c.after (if i = id then change else .nothing)) := by
  by_cases hi : i = id
  · subst hi
    rw [if_pos rfl]
    exact context?_modify_self hc hf
  · rw [if_neg hi]
    exact (World.context?_modifyContext_of_ne f hi).trans hc

theorem context?_endScope {i : ContextId} (hc : s.world.context? id = some c) :
    (((s.endScope i).toOption.getD s).world.context? id) =
      some (c.after (if i = id then .closed else .nothing)) := by
  unfold endScope
  split
  · rename_i hn
    have hi : i ≠ id := fun e => by rw [e, hc] at hn; cases hn
    rw [if_neg hi]
    exact hc
  · rename_i d hd
    by_cases hi : i = id
    · subst hi
      cases hc.symm.trans hd
      rw [if_pos rfl, Context.after]
      cases he : c.endScope with
      | error e => exact hc
      | ok c' =>
        have hclosed : c.after .closed = c' := by simp [Context.after, he, Except.toOption]
        have hm := context?_modify_self (f := fun _ => c') hc hclosed.symm
        rw [hclosed] at hm
        exact hm
    · rw [if_neg hi]
      cases d.endScope with
      | error e => exact hc
      | ok d' => exact (World.context?_modifyContext_of_ne _ hi).trans hc

theorem context?_advance {k : CursorId} (hc : s.world.context? id = some c) :
    ((((s.advance k).toOption.map Prod.snd).getD s).world.context? id) =
      some (c.after (Operation.change s id (.advance k))) := by
  cases hk : s.world.cursor? k with
  | none => simpa [advance, hk, Operation.change, Except.toOption] using hc
  | some cursor =>
    cases hn : cursor.next? with
    | none =>
      rw [advance_of_next?_eq_none hk hn]
      simpa [Operation.change, hk, hn, Except.toOption] using hc
    | some r =>
      obtain ⟨v, next⟩ := r
      have hchange : Operation.change s id (.advance k) =
          if cursor.context = id then .boundLocal cursor.name v else .nothing := by
        simp [Operation.change, hk, hn]
      rw [hchange]
      cases hcc : s.world.context? cursor.context with
      | none =>
        have hi : cursor.context ≠ id := fun e => by rw [e, hc] at hcc; cases hcc
        rw [advance_of_context?_eq_none hk hn hcc, if_neg hi]
        exact hc
      | some d =>
        rw [advance_of_next?_eq_some hk hn hcc]
        exact context?_modify (s := s.withMoved k next) hc rfl

/-- An operation that does not let go of a context does to it the change that it tells. -/
theorem context?_apply {o : Operation} (h : s.apply o = some s')
    (hc : s.world.context? id = some c) (ho : o ≠ .drop id) :
    s'.world.context? id = some (c.after (o.change s id)) := by
  cases o with
  | newContext b =>
    cases h
    exact World.context?_addContext hc b
  | drop i =>
    cases h
    have hi : i ≠ id := fun e => ho (by rw [e])
    exact (World.context?_modifyContext_of_ne _ hi).trans hc
  | beginScope i =>
    cases h
    exact context?_modify hc rfl
  | endScope i =>
    cases h
    exact context?_endScope hc
  | setLocal i name value =>
    cases h
    exact context?_modify hc rfl
  | setGlobal i name value =>
    cases h
    exact context?_modify hc rfl
  | inquire inquiry =>
    rw [world_inquire h]
    exact hc
  | newCursor i name v =>
    cases h
    cases hn : s.newCursor i name v with
    | error e => exact hc
    | ok r =>
      obtain ⟨cursor, hr⟩ := eq_withCursor_of_newCursor hn
      simpa [Except.toOption, hr, context?_withCursor, Operation.change] using hc
  | emptyCursor i name =>
    cases h
    exact hc
  | setRepeat i name source =>
    obtain ⟨⟨result, t⟩, ht, rfl⟩ := Option.map_eq_some_iff.1 h
    exact context?_setRepeat hc ht
  | advance k =>
    cases h
    exact context?_advance hc
  | setPosition i position =>
    cases h
    exact context?_modify hc rfl
  | setFile i file =>
    cases h
    exact context?_modify hc rfl

/-- An operation moves no cursor but the one that it advances. -/
theorem cursor?_apply {o : Operation} {k : CursorId} {cursor : Cursor} (h : s.apply o = some s')
    (hk : s.world.cursor? k = some cursor) (ho : o ≠ .advance k) :
    s'.world.cursor? k = some cursor := by
  cases o with
  | endScope i =>
    cases h
    unfold endScope
    split
    · exact hk
    · rename_i d _
      cases d.endScope <;> exact hk
  | inquire inquiry =>
    rw [world_inquire h]
    exact hk
  | newCursor i name v =>
    cases h
    cases hn : s.newCursor i name v with
    | error e => exact hk
    | ok r =>
      obtain ⟨new, hr⟩ := eq_withCursor_of_newCursor hn
      simpa [Except.toOption, hr] using cursor?_withCursor hk new
  | emptyCursor i name =>
    cases h
    exact cursor?_withCursor hk (.empty i name)
  | setRepeat i name source =>
    obtain ⟨⟨result, t⟩, ht, rfl⟩ := Option.map_eq_some_iff.1 h
    exact cursor?_setRepeat hk ht
  | advance j =>
    cases h
    exact cursor?_advance hk fun e => ho (by rw [e])
  | _ =>
    cases h
    exact hk

/-! ## Runs -/

/-- What the operations of a run do to a context, one after the other. -/
def changes (id : ContextId) (s : Session) : List Operation → List Change
  | [] => []
  | o :: ops => o.change s id :: ((s.apply o).map fun s' => s'.changes id ops).getD []

/-- A run that does not let go of a context does to it what its operations do. -/
theorem context?_run {ops : List Operation} (h : s.run ops = some s')
    (hc : s.world.context? id = some c) (hdrop : .drop id ∉ ops) :
    s'.world.context? id = some ((s.changes id ops).foldl Context.after c) := by
  induction ops generalizing s c with
  | nil =>
    cases h
    exact hc
  | cons o ops ih =>
    obtain ⟨t, ht, hr⟩ := run_cons h
    have ho : o ≠ .drop id := fun e => hdrop (by simp [e])
    have hrest : .drop id ∉ ops := fun hm => hdrop (List.mem_cons_of_mem o hm)
    simpa [changes, ht] using ih hr (context?_apply ht hc ho) hrest

/-- A run moves no cursor that none of its operations advances. -/
theorem cursor?_run {ops : List Operation} {k : CursorId} {cursor : Cursor}
    (h : s.run ops = some s') (hk : s.world.cursor? k = some cursor) (hops : .advance k ∉ ops) :
    s'.world.cursor? k = some cursor := by
  induction ops generalizing s with
  | nil =>
    cases h
    exact hk
  | cons o ops ih =>
    obtain ⟨t, ht, hr⟩ := run_cons h
    have ho : o ≠ .advance k := fun e => hops (by simp [e])
    have hrest : .advance k ∉ ops := fun hm => hops (List.mem_cons_of_mem o hm)
    exact ih hr (cursor?_apply ht hk ho) hrest

end TemplateExpressions.Session
