import TemplateExpressions.Proofs.Session.Gone

/-!
# What contexts keep of their making

Contexts come out of a builder, and from then on an operation changes a context in use as
`Operation.change` tells (`made_or_changed`). So what a builder gives every context and no change takes
away, every context has that a driver can get to: its registry stands among its roots under both names,
and it has no cursors at all if nothing can be evaluated on it (`genuine_run`).
-/

set_option autoImplicit false

namespace TemplateExpressions

/-- What all contexts in use have: the registry among their roots, and no cursors unless something can be
evaluated on them. -/
structure Context.Genuine (c : Context) (id : ContextId) : Prop where
  roots : ∀ root, root = "repeat".toList ∨ root = "loop".toList → c.roots.get? root = some (.registry id)
  idle : c.maxDepth = 0 → c.registry = [] ∧ ∀ scope ∈ c.scopes.inner, scope.replaced = []

namespace Context

variable {c : Context} {id : ContextId}

/-- No change touches the roots of a context or its limit. -/
theorem keeps_after (c : Context) (change : Change) :
    (c.after change).roots = c.roots ∧ (c.after change).maxDepth = c.maxDepth := by
  cases change with
  | closed =>
    cases h : c.scopes.inner with
    | nil =>
      rw [after_closed_of_inner_eq_nil h]
      exact ⟨rfl, rfl⟩
    | cons scope outer =>
      rw [after_closed_of_inner_eq_cons h]
      exact ⟨rfl, rfl⟩
  | installed name cursor =>
    cases h : c.scopes.inner with
    | nil =>
      rw [after_installed_of_inner_eq_nil name cursor h]
      exact ⟨rfl, rfl⟩
    | cons scope outer =>
      rw [after_installed_of_inner_eq_cons name cursor h]
      exact ⟨rfl, rfl⟩
  | _ => exact ⟨rfl, rfl⟩

theorem genuine_build (b : ContextBuilder) (id : ContextId) : (b.build id).Genuine id := by
  refine ⟨fun root hroot => ?_, fun _ => ⟨rfl, by simp [ContextBuilder.build, Scopes.ofRoot]⟩⟩
  simp only [ContextBuilder.build, ContextBuilder.allRoots, Mapping.putAll, List.foldl_cons, List.foldl_nil,
    Mapping.get?_put]
  rcases hroot with rfl | rfl
  · rfl
  · rfl

/-- A change keeps what contexts have, if no cursor is installed where nothing can be evaluated. -/
theorem Genuine.after (h : c.Genuine id) {change : Change}
    (hchange : ∀ name cursor, change = .installed name cursor → c.maxDepth ≠ 0) :
    (c.after change).Genuine id := by
  obtain ⟨hroots, hmaxDepth⟩ := keeps_after c change
  refine ⟨fun root hroot => hroots ▸ h.roots root hroot, fun hdepth => ?_⟩
  rw [hmaxDepth] at hdepth
  obtain ⟨hregistry, hreplaced⟩ := h.idle hdepth
  cases change with
  | opened => exact ⟨hregistry, List.forall_mem_cons.2 ⟨rfl, hreplaced⟩⟩
  | closed =>
    cases hinner : c.scopes.inner with
    | nil =>
      rw [after_closed_of_inner_eq_nil hinner]
      exact ⟨hregistry, hreplaced⟩
    | cons scope outer =>
      rw [after_closed_of_inner_eq_cons hinner]
      rw [hinner] at hreplaced
      obtain ⟨hscope, houter⟩ := List.forall_mem_cons.1 hreplaced
      exact ⟨by rw [hscope]; exact hregistry, houter⟩
  | boundLocal name value =>
    refine ⟨hregistry, ?_⟩
    cases hinner : c.scopes.inner with
    | nil => simp [Context.after, setLocal, Scopes.bindLocal, hinner]
    | cons scope outer =>
      rw [hinner] at hreplaced
      simpa [Context.after, setLocal, Scopes.bindLocal, hinner] using hreplaced
  | boundGlobal name value =>
    exact ⟨hregistry, List.forall_mem_map.2 fun scope hscope => hreplaced scope hscope⟩
  | installed name cursor => exact absurd hdepth (hchange name cursor rfl)
  | _ => exact ⟨hregistry, hreplaced⟩

end Context

/-- Only a repeat whose source has a value installs a cursor. -/
theorem Operation.evaluate_of_change_eq_installed {s : Session} {id : ContextId} {o : Operation} {name : Text}
    {cursor : CursorId} (h : o.change s id = .installed name cursor) :
    ∃ source v t, s.evaluate id source = some (.ok v, t) := by
  cases o with
  | setRepeat i x source =>
    simp only [change] at h
    split at h
    · rename_i v t hv
      split at h
      · rename_i hinstalled
        exact ⟨source, v, t, hinstalled.1 ▸ hv⟩
      · cases h
    · cases h
  | _ =>
    revert h
    dsimp only [change]
    repeat' split
    all_goals simp

namespace Session

variable {s s' : Session} {id : ContextId} {c : Context}

/-- Only the making of a context adds one. -/
theorem length_contexts_apply {o : Operation} (h : s.apply o = some s') (ho : ∀ b, o ≠ .newContext b) :
    s'.world.contexts.length = s.world.contexts.length := by
  have hmodify : ∀ (t : Session) i f, (t.modify i f).world.contexts.length = t.world.contexts.length :=
    fun t i f => List.length_modify f t.world.contexts i
  cases o with
  | newContext b => exact absurd rfl (ho b)
  | endScope i =>
    cases h
    unfold endScope
    split
    · rfl
    · rename_i d _
      cases d.endScope with
      | error e => rfl
      | ok d' => exact hmodify s i _
  | inquire inquiry => rw [world_inquire h]
  | newCursor i name v =>
    cases h
    cases hn : s.newCursor i name v with
    | error e => rfl
    | ok r =>
      obtain ⟨cursor, hr⟩ := eq_withCursor_of_newCursor hn
      rw [Except.toOption, Option.map_some, Option.getD_some, hr]
      rfl
  | emptyCursor i name =>
    cases h
    rfl
  | setRepeat i name source =>
    obtain ⟨⟨result, t⟩, ht, rfl⟩ := Option.map_eq_some_iff.1 h
    rcases setRepeat_cases ht with ⟨e, he⟩ | ⟨v, u, he, hr⟩
    · exact congrArg (List.length ∘ World.contexts) (world_performValue he)
    · refine Eq.trans ?_ (congrArg (List.length ∘ World.contexts) (world_performValue he))
      rcases hr with ⟨e, -, rfl⟩ | ⟨k, hk⟩
      · rfl
      · obtain ⟨cursor, rfl | ⟨f, rfl⟩⟩ := eq_modify_of_repeatOver hk
        · rfl
        · exact hmodify (u.withCursor cursor) i f
  | advance k =>
    cases h
    unfold advance
    split
    · rfl
    · split
      · rfl
      · rename_i v next _
        split
        · rfl
        · exact hmodify (s.withMoved k next) _ _
  | _ =>
    cases h
    exact hmodify s _ _

/-- A context in use after an operation was made by it, or it was there before and is changed as the
operation tells. -/
theorem made_or_changed {o : Operation} (h : s.apply o = some s') (hc : s'.world.context? id = some c) :
    (∃ b : ContextBuilder, c = b.build id) ∨
      ∃ before, s.world.context? id = some before ∧ c = before.after (o.change s id) := by
  have hsome := (Option.filter_eq_some_iff.1 hc).1
  cases hbefore : s.world.context? id with
  | some before =>
    have ho : o ≠ .drop id := by
      rintro rfl
      cases h
      rw [(gone_drop hbefore).context?_eq_none] at hc
      cases hc
    have hafter := context?_apply h hbefore ho
    rw [hc, Option.some.injEq] at hafter
    exact .inr ⟨before, rfl, hafter⟩
  | none =>
    by_cases hlt : id < s.world.contexts.length
    · -- a context that is there and not in use is gone for good
      obtain ⟨d, hd⟩ : ∃ d, s.world.contexts[id]? = some d := ⟨_, List.getElem?_eq_getElem hlt⟩
      have hgone : s.Gone id := ⟨d, hd, by simpa [World.context?, hd, Option.filter] using hbefore⟩
      rw [(gone_apply hgone h).context?_eq_none] at hc
      cases hc
    · by_cases hnew : ∃ b, o = .newContext b
      · obtain ⟨b, rfl⟩ := hnew
        cases h
        have hlength := (List.getElem?_eq_some_iff.1 hsome).1
        simp only [newContext, World.addContext, List.length_append, List.length_singleton] at hlength
        obtain rfl : id = s.world.contexts.length :=
          Nat.le_antisymm (Nat.le_of_lt_succ hlength) (Nat.le_of_not_lt hlt)
        simp only [newContext, World.addContext, List.getElem?_concat_length, Option.some.injEq] at hsome
        exact .inl ⟨b, hsome.symm⟩
      · have hlength := length_contexts_apply h fun b hb => hnew ⟨b, hb⟩
        exact absurd (hlength ▸ (List.getElem?_eq_some_iff.1 hsome).1) hlt

/-- There is always a level to begin with. -/
theorem exists_enough_eq_succ (w : World) : ∃ levels, Evaluation.enough w = levels + 1 := by
  have hle : ∀ (limits : List Nat) start, start ≤ limits.foldl (· + ·) start := by
    intro limits
    induction limits with
    | nil => exact fun start => Nat.le_refl start
    | cons limit limits ih => exact fun start => Nat.le_trans (Nat.le_add_right start limit) (ih _)
  have hpos : 0 < Evaluation.enough w :=
    Nat.lt_of_lt_of_le (by decide) (hle (w.contexts.map Context.maxDepth) 100000)
  exact ⟨Evaluation.enough w - 1, (Nat.sub_add_cancel hpos).symm⟩

/-- On a context without any depth nothing is evaluated. -/
theorem maxDepth_ne_zero_of_evaluate {source : Source} {v : Value} (hc : s.world.context? id = some c)
    (h : s.evaluate id source = some (.ok v, s')) : c.maxDepth ≠ 0 := by
  intro hdepth
  have hrefused : ∀ e, Evaluation.meaning s.world id e = Run.fail (.depthExceeded 1 0) := by
    intro e
    obtain ⟨levels, hlevels⟩ := exists_enough_eq_succ s.world
    rw [Evaluation.meaning, hlevels, Evaluation.evaluate, Evaluation.guarded, hc]
    simp [hdepth]
  have hfails : ∀ e, s.performValue (Run.fail e) ≠ some (.ok v, s') := by
    intro e hok
    cases hok
  cases source with
  | compiled e =>
    rw [evaluate, evaluation, hrefused] at h
    exact hfails _ h
  | text t =>
    rw [evaluate, evaluation] at h
    split at h
    · rw [hrefused] at h
      exact hfails _ h
    · exact hfails _ h
    · cases h

theorem genuine_apply {o : Operation} (h : s.apply o = some s')
    (hs : ∀ i c, s.world.context? i = some c → c.Genuine i) (hc : s'.world.context? id = some c) :
    c.Genuine id := by
  rcases made_or_changed h hc with ⟨b, rfl⟩ | ⟨before, hbefore, rfl⟩
  · exact Context.genuine_build b id
  · refine (hs id before hbefore).after fun name cursor hchange => ?_
    obtain ⟨source, v, t, hv⟩ := Operation.evaluate_of_change_eq_installed hchange
    exact maxDepth_ne_zero_of_evaluate hbefore hv

/-- Every context in use has what contexts keep, in every session that a driver can get to. -/
theorem genuine_run {g : Engine} {ops : List Operation} (hrun : (start g).run ops = some s)
    (hc : s.world.context? id = some c) : c.Genuine id := by
  have hall : ∀ t : Session, (∀ i d, t.world.context? i = some d → d.Genuine i) → t.run ops = some s →
      c.Genuine id := by
    clear hrun
    induction ops with
    | nil =>
      intro t ht hrun
      cases hrun
      exact ht id c hc
    | cons o ops ih =>
      intro t ht hrun
      obtain ⟨u, hu, hrun⟩ := run_cons hrun
      exact ih u (fun i d hd => genuine_apply hu ht hd) hrun
  exact hall (start g) (fun i d hd => by cases hd) hrun

end Session
end TemplateExpressions
