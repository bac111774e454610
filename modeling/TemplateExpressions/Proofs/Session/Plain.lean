import TemplateExpressions.Proofs.Evaluation.Mentioned
import TemplateExpressions.Proofs.Evaluation.Steady
import TemplateExpressions.Proofs.Mapping
import TemplateExpressions.Proofs.Session.Walk

/-!
# Sessions of plain data

A world is plain if its variables are data, or lead only to data, and its cursors walk data
(`World.IsPlain`). It stays so as long as a driver brings in nothing else (`isPlain_run`): whatever an
expression evaluates to in it is plain again, or deferred, and its elements are data. Nothing in a plain
world counts how often it is called; so what a session answers depends on its world alone
(`evaluateText_congr`).
-/

set_option autoImplicit false

namespace TemplateExpressions

open Evaluation

/-! ## Plain worlds -/

/-- Plain, or deferred. -/
def Value.Quiet (v : Value) : Prop := v.Plain ∨ ∃ d : Closure, v = d.value

/-- The variables and the roots of the context are plain. -/
structure Context.IsPlain (c : Context) : Prop where
  frames : ∀ frame ∈ c.scopes.frames, ∀ entry ∈ frame, entry.2.Plain
  roots : ∀ entry ∈ c.roots, entry.2.Plain

/-- All contexts are plain, and all cursors walk data. -/
structure World.IsPlain (w : World) : Prop where
  contexts : ∀ c ∈ w.contexts, c.IsPlain
  behind : ∀ cursor ∈ w.cursors, Value.isDataItems cursor.behind = true
  ahead : ∀ cursor ∈ w.cursors, Value.isDataItems cursor.ahead = true

theorem World.IsPlain.context {w : World} (h : w.IsPlain) {id : ContextId} {c : Context}
    (hc : w.context? id = some c) : c.IsPlain :=
  h.contexts c (List.mem_of_getElem? (Option.filter_eq_some_iff.1 hc).1)

/-- What can be looked up in what is quiet is quiet, and it counts nothing. -/
theorem World.IsPlain.uncounted {w : World} (h : w.IsPlain) : w.Uncounted Value.Quiet where
  data v hv := .inl (.data hv)
  deferred d := .inr ⟨d, rfl⟩
  leads v next hv hleads := by
    rcases hv with hplain | ⟨d, rfl⟩
    · exact .inl (plain_of_leads h.behind hplain hleads)
    · exact absurd hleads not_leads_deferred
  base id c name v hc hbase := by
    have hcontext := h.context hc
    rcases baseValue_cases hbase with rfl | hentry
    · exact .inl (.entries hcontext.roots)
    · refine .inl (hcontext.frames c.scopes.current ?_ _ hentry)
      rw [c.scopes.frames_eq_cons]
      exact List.mem_cons_self
  not_counts v hv := by
    rcases hv with hplain | ⟨d, rfl⟩
    · cases hplain with
      | data hdata => cases v <;> first | rfl | cases hdata
      | _ => rfl
    · rfl

namespace Value

theorem isDataItems_texts {α : Type} (l : List α) (f : α → Text) :
    isDataItems (l.map fun a => .text (f a)) = true :=
  isDataItems_of_forall_mem (List.forall_mem_map.2 fun _ _ => rfl)

/-- The elements of what is quiet are data. -/
theorem Quiet.isDataItems_elements {v : Value} (hv : v.Quiet) {live : Live} {items : List Value}
    (h : v.elements live = .ok items) : isDataItems items = true := by
  rcases hv with hplain | ⟨d, rfl⟩
  · cases hplain with
    | data hdata =>
      cases v with
      | list vs =>
        cases h
        exact hdata
      | map entries =>
        cases h
        exact isDataItems_texts entries _
      | text t =>
        cases h
        exact isDataItems_texts t _
      | nothing | default | bool _ | int _ | float _ => cases h
      | _ => cases hdata
    | registry context =>
      cases h
      exact isDataItems_texts (live.registry context).names id
    | entries _ =>
      cases h
      exact isDataItems_texts _ _
    | _ => cases h
  · cases h

end Value

/-! ## Changes of contexts -/

/-- A change that binds nothing but what is plain. -/
def Change.IsPlain : Change → Prop
  | .boundLocal _ value | .boundGlobal _ value => value.Plain
  | _ => True

theorem Context.IsPlain.after {c : Context} (h : c.IsPlain) (change : Change)
    (hchange : change.IsPlain) : (c.after change).IsPlain := by
  have hcurrent : ∀ entry ∈ c.scopes.current, entry.2.Plain := by
    refine h.frames _ ?_
    rw [c.scopes.frames_eq_cons]
    exact List.mem_cons_self
  cases change with
  | opened =>
    refine ⟨?_, h.roots⟩
    show ∀ frame ∈ c.scopes.push.frames, _
    rw [Scopes.frames_push]
    exact List.forall_mem_cons.2 ⟨hcurrent, h.frames⟩
  | closed =>
    cases hinner : c.scopes.inner with
    | nil =>
      rw [after_closed_of_inner_eq_nil hinner]
      exact h
    | cons scope outer =>
      rw [after_closed_of_inner_eq_cons hinner]
      have hframes := h.frames
      rw [Scopes.frames, hinner] at hframes
      exact ⟨(List.forall_mem_cons.1 hframes).2, h.roots⟩
  | boundLocal name value =>
    refine ⟨?_, h.roots⟩
    show ∀ frame ∈ (c.scopes.bindLocal name value).frames, _
    rw [Scopes.frames_bindLocal]
    refine List.forall_mem_cons.2 ⟨Mapping.forall_mem_put hcurrent hchange, fun frame hframe => ?_⟩
    exact h.frames frame (List.mem_of_mem_tail hframe)
  | boundGlobal name value =>
    refine ⟨?_, h.roots⟩
    show ∀ frame ∈ (c.scopes.bindGlobal name value).frames, _
    rw [Scopes.frames_bindGlobal]
    refine List.forall_mem_map.2 fun frame hframe => ?_
    exact Mapping.forall_mem_put (h.frames frame hframe) hchange
  | installed name cursor =>
    refine ⟨?_, ?_⟩
    · rw [frames_after_installed]
      exact h.frames
    · cases hinner : c.scopes.inner with
      | nil =>
        rw [after_installed_of_inner_eq_nil name cursor hinner]
        exact h.roots
      | cons scope outer =>
        rw [after_installed_of_inner_eq_cons name cursor hinner]
        exact h.roots
  | moved _ => exact ⟨h.frames, h.roots⟩
  | filed _ => exact ⟨h.frames, h.roots⟩
  | nothing => exact h

/-- A new context has the roots that it is made with, and fixed ones. -/
theorem Context.isPlain_build {b : ContextBuilder} (hnamed : ∀ entry ∈ b.named, entry.2.Plain)
    (hmapped : ∀ entry ∈ b.mapped, entry.2.Plain) (id : ContextId) : (b.build id).IsPlain := by
  have hroots : ∀ entry ∈ b.allRoots id, entry.2.Plain := by
    refine Mapping.forall_mem_putAll (Mapping.forall_mem_putAll hnamed hmapped) ?_
    simp only [List.forall_mem_cons]
    exact ⟨.data rfl, .data rfl, .registry id, .registry id, by simp⟩
  refine ⟨?_, hroots⟩
  show ∀ frame ∈ (Scopes.ofRoot (b.allRoots id)).frames, _
  rw [Scopes.frames_ofRoot]
  exact List.forall_mem_cons.2 ⟨hroots, by simp⟩

/-! ## Operations -/

/-- An operation that brings in nothing but what is plain, or deferred as a sequence of its own. -/
def Operation.IsPlain : Operation → Prop
  | .newContext b => (∀ entry ∈ b.named, entry.2.Plain) ∧ ∀ entry ∈ b.mapped, entry.2.Plain
  | .setLocal _ _ value | .setGlobal _ _ value => value.Plain
  | .newCursor _ _ sequence => sequence.Quiet
  | _ => True

namespace Session

variable {s s' t : Session} {id : ContextId}

/-- What a source evaluates to in a plain world is quiet, and it is the same on every trail. -/
theorem steady_source (h : s.world.IsPlain) (id : ContextId) (source : Source) :
    (source.run s.world (Evaluation.meaning s.world) id).Steady Value.Quiet := by
  have hm : ∀ i e, (Evaluation.meaning s.world i e).Steady Value.Quiet :=
    fun i e => evaluate_steady h.uncounted _ [] i e
  cases source with
  | compiled e => exact hm id e
  | text t =>
    simp only [Source.run]
    split
    · exact hm id _
    · exact Run.steady_fail _
    · exact Run.steady_unfinished

theorem quiet_keep {v : Value} (hv : v.Quiet) : (s.keep v).1.Quiet := by
  unfold keep
  split
  · rcases hv with hplain | ⟨d, hd⟩
    · cases hplain with
      | data hdata => cases hdata
      | question _ cursor query => exact .inl (.question _ cursor query)
    · cases hd
  · exact hv

theorem quiet_of_evaluate (h : s.world.IsPlain) {source : Source} {v : Value}
    (he : s.evaluate id source = some (.ok v, s')) : v.Quiet := by
  unfold evaluate performValue at he
  rw [evaluation_eq] at he
  split at he
  · rename_i u t hperform
    cases he
    exact quiet_keep ((steady_source h id source).yields _ _ _ (done_of_perform hperform))
  · rename_i hnot
    exact absurd he (hnot v s')

theorem isPlain_modify (h : s.world.IsPlain) {f : Context → Context}
    (hf : ∀ c ∈ s.world.contexts, c.IsPlain → (f c).IsPlain) (id : ContextId) :
    (s.modify id f).world.IsPlain := by
  refine ⟨fun c hc => ?_, h.behind, h.ahead⟩
  obtain ⟨i, hi⟩ := List.mem_iff_getElem?.1 hc
  rw [show (s.modify id f).world.contexts = s.world.contexts.modify id f from rfl,
    List.getElem?_modify] at hi
  obtain ⟨c', hc', rfl⟩ := Option.map_eq_some_iff.1 hi
  have hmem := List.mem_of_getElem? hc'
  split
  · exact hf c' hmem (h.contexts c' hmem)
  · exact h.contexts c' hmem

theorem isPlain_after (h : s.world.IsPlain) (change : Change) (hchange : change.IsPlain)
    (id : ContextId) : (s.modify id fun c => c.after change).world.IsPlain :=
  isPlain_modify h (fun _ _ hc => hc.after change hchange) id

theorem isPlain_withCursor (h : s.world.IsPlain) (cursor : Cursor)
    (hbehind : Value.isDataItems cursor.behind = true) (hahead : Value.isDataItems cursor.ahead = true) :
    (s.withCursor cursor).world.IsPlain := by
  have hadded : ∀ {P : Cursor → Prop}, (∀ other ∈ s.world.cursors, P other) → P cursor →
      ∀ other ∈ s.world.cursors ++ [cursor], P other :=
    fun hold hnew => List.forall_mem_append.2 ⟨hold, List.forall_mem_singleton.2 hnew⟩
  exact ⟨h.contexts, hadded h.behind hbehind, hadded h.ahead hahead⟩

theorem isPlain_repeatOver (h : s.world.IsPlain) {name : Text} {v : Value} (hv : v.Quiet)
    {k : CursorId} (hr : s.repeatOver id name v = .ok (k, s')) : s'.world.IsPlain := by
  cases htruthy : v.isTruthy s.live with
  | false =>
    rw [repeatOver_of_not_isTruthy id name htruthy] at hr
    cases hr
    exact isPlain_withCursor h _ rfl rfl
  | true =>
    cases hc : s.world.context? id with
    | none => simp [repeatOver, htruthy, hc] at hr
    | some c =>
      by_cases hinner : c.scopes.inner = []
      · rw [repeatOver_of_inner_eq_nil name hc htruthy hinner] at hr
        cases hr
      · cases helements : v.elements s.live with
        | error e =>
          rw [repeatOver_of_elements_eq_error hc htruthy hinner helements] at hr
          cases hr
        | ok items =>
          rw [repeatOver_of_elements_eq_ok name hc htruthy hinner helements] at hr
          cases hr
          have hcontext := h.context hc
          have hcursor := isPlain_withCursor h (.past id name v items 0) rfl
            (hv.isDataItems_elements helements)
          exact isPlain_modify hcursor (fun _ _ _ => hcontext.after (.installed _ _) trivial) id

theorem isPlain_advance (h : s.world.IsPlain) (k : CursorId) :
    (((s.advance k).toOption.map Prod.snd).getD s).world.IsPlain := by
  unfold advance
  split
  · exact h
  · rename_i cursor hk
    split
    · exact h
    · rename_i v next hnext
      split
      · exact h
      · have hmem := List.mem_of_getElem? hk
        have hahead := h.ahead cursor hmem
        unfold Cursor.next? at hnext
        split at hnext
        · cases hnext
        · rename_i rest hrest
          cases hnext
          rw [hrest, Value.isDataItems, Bool.and_eq_true] at hahead
          have hmoved : (s.withMoved k
              { cursor with behind := v :: cursor.behind, ahead := rest }).world.IsPlain := by
            refine ⟨h.contexts, fun other hother => ?_, fun other hother => ?_⟩
            · rcases List.mem_or_eq_of_mem_set hother with hother | rfl
              · exact h.behind other hother
              · simp [Value.isDataItems, hahead.1, h.behind cursor hmem]
            · rcases List.mem_or_eq_of_mem_set hother with hother | rfl
              · exact h.ahead other hother
              · exact hahead.2
          exact isPlain_after hmoved (.boundLocal cursor.name v) (Value.Plain.data hahead.1) _

/-- A plain world stays plain if nothing else is brought in. -/
theorem isPlain_apply (h : s.world.IsPlain) {o : Operation} (ho : o.IsPlain)
    (ha : s.apply o = some s') : s'.world.IsPlain := by
  cases o with
  | newContext b =>
    cases ha
    refine ⟨?_, h.behind, h.ahead⟩
    show ∀ c ∈ s.world.contexts ++ [b.build s.world.contexts.length], _
    exact List.forall_mem_append.2
      ⟨h.contexts, List.forall_mem_singleton.2 (Context.isPlain_build ho.1 ho.2 _)⟩
  | drop i =>
    cases ha
    exact isPlain_modify (f := fun c => { c with alive := false }) h
      (fun _ _ hc => ⟨hc.frames, hc.roots⟩) i
  | beginScope i =>
    cases ha
    exact isPlain_after h .opened trivial i
  | endScope i =>
    cases ha
    unfold endScope
    split
    · exact h
    · rename_i c hc
      have hclosed := (h.context hc).after .closed trivial
      rw [Context.after] at hclosed
      cases he : c.endScope with
      | error e => exact h
      | ok c' =>
        rw [he] at hclosed
        exact isPlain_modify h (fun _ _ _ => hclosed) i
  | setLocal i name value =>
    cases ha
    exact isPlain_after h (.boundLocal name value) ho i
  | setGlobal i name value =>
    cases ha
    exact isPlain_after h (.boundGlobal name value) ho i
  | inquire inquiry =>
    rw [world_inquire ha]
    exact h
  | newCursor i name v =>
    cases ha
    cases helements : v.elements s.live with
    | error e => simpa [newCursor, Cursor.ofSequence, helements, Except.map, Except.toOption] using h
    | ok items =>
      rw [newCursor_eq i name helements]
      exact isPlain_withCursor h _ rfl (Value.Quiet.isDataItems_elements ho helements)
  | emptyCursor i name =>
    cases ha
    exact isPlain_withCursor h _ rfl rfl
  | setRepeat i name source =>
    obtain ⟨⟨result, t⟩, ht, rfl⟩ := Option.map_eq_some_iff.1 ha
    rcases setRepeat_cases ht with ⟨e, he⟩ | ⟨v, u, he, hr⟩
    · exact (world_performValue he).symm ▸ h
    · have hu : u.world.IsPlain := (world_performValue he).symm ▸ h
      rcases hr with ⟨e, -, rfl⟩ | ⟨k, hk⟩
      · exact hu
      · exact isPlain_repeatOver hu (quiet_of_evaluate h he) hk
  | advance k =>
    cases ha
    exact isPlain_advance h k
  | setPosition i position =>
    cases ha
    exact isPlain_after h (.moved position) trivial i
  | setFile i file =>
    cases ha
    exact isPlain_after h (.filed file) trivial i

theorem isPlain_run {ops : List Operation} (h : s.world.IsPlain) (hops : ∀ o ∈ ops, o.IsPlain)
    (hr : s.run ops = some s') : s'.world.IsPlain := by
  induction ops generalizing s with
  | nil =>
    cases hr
    exact h
  | cons o ops ih =>
    obtain ⟨ho, hrest⟩ := List.forall_mem_cons.1 hops
    obtain ⟨t, ht, hr⟩ := run_cons hr
    exact ih (isPlain_apply h ho ht) hrest hr

/-! ## What a session answers -/

theorem map_fst_perform {α : Type} (s : Session) (x : Run α) :
    (s.perform x).map Prod.fst = (x s.trail).result? := by
  unfold perform
  split
  · rename_i hdone
    rw [hdone]
    rfl
  · rename_i hunfinished
    rw [hunfinished]
    rfl

/-- What is written for a source is the same in all sessions with the same plain world. -/
theorem evaluateText_congr (h : t.world.IsPlain) (hw : s.world = t.world) (id : ContextId)
    (source : Source) :
    (s.evaluateText id source).map Prod.fst = (t.evaluateText id source).map Prod.fst := by
  have hm : ∀ i e, (Evaluation.meaning t.world i e).Steady Value.Quiet :=
    fun i e => evaluate_steady h.uncounted _ [] i e
  have hrun : ((Inquiry.text id source).run t.world (Evaluation.meaning t.world)
      (Evaluation.enough t.world)).Steady fun _ => True := by
    refine (steady_source h id source).bind fun v _ => ?_
    unfold Evaluation.output
    split
    · exact Run.steady_pure trivial
    · exact Run.steady_pure trivial
    · exact Run.steady_pure trivial
    · exact (textOf_steady hm _ _).bind fun _ _ => Run.steady_pure trivial
  unfold evaluateText
  rw [map_fst_perform, map_fst_perform, evaluation_eq, evaluation_eq]
  simp only [textOf, hw]
  exact hrun.same s.trail t.trail

end Session
end TemplateExpressions
