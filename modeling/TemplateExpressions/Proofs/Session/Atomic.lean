import TemplateExpressions.Proofs.Session.Inquiry
import TemplateExpressions.Proofs.Session.Walk

/-!
# Repeats are set up whole or not at all

A repeat evaluates its source, looks whether the value counts as true, whether a scope is open and
whether the value can be walked, and only then touches its context; nothing fails from there on. What
comes out is one of six things (`Session.Repeats`): with an error, or over a value that does not count as
true, all contexts and counters are as before, and otherwise the new cursor takes its name over in one
context and changes nothing else (`Session.Installs`). Main statement: every repeat in a session that a
driver can get to comes out in this way (`repeats_are_whole`).
-/

set_option autoImplicit false

namespace TemplateExpressions

namespace Session

/-- All contexts, with their registries, frames and undo lists, and all counters are as before. -/
structure Untouched (s s' : Session) : Prop where
  contexts : s'.world.contexts = s.world.contexts
  counters : ∀ i, counter i s'.trail = counter i s.trail

/-- There is one cursor more than before, and the others are where they were. -/
structure Gains (s : Session) (cursor : CursorId) (s' : Session) : Prop where
  fresh : s.world.cursor? cursor = none
  others : ∀ k, k ≠ cursor → s'.world.cursor? k = s.world.cursor? k

/-- A cursor takes a name over in the registry of a context. The innermost scope remembers what was there
under the name, if anything; the frames, the outer scopes, all other contexts and the counters are as
before. -/
structure Installs (s : Session) (id : ContextId) (c : Context) (name : Text) (cursor : CursorId)
    (s' : Session) : Prop where
  context : ∃ c', s'.world.context? id = some c' ∧
    (∀ x, c'.registry.get? x = if x = name then some cursor else c.registry.get? x) ∧
    c'.registry.names =
      (if name ∈ c.registry.names then c.registry.names else c.registry.names ++ [name]) ∧
    (∃ innermost outer, c.scopes.undoLists = innermost :: outer ∧
      c'.scopes.undoLists = (innermost ++ [(name, c.registry.get? name)]) :: outer) ∧
    c'.scopes.frames = c.scopes.frames ∧
    c' = { c with scopes := c'.scopes, registry := c'.registry }
  others : ∀ i, i ≠ id → s'.world.contexts[i]? = s.world.contexts[i]?
  counters : ∀ i, counter i s'.trail = counter i s.trail

/-- What a repeat comes out with, and what it leaves behind. -/
inductive Repeats (s : Session) (id : ContextId) (c : Context) (name : Text) (source : Source) :
    Answered CursorId → Prop
  /-- The evaluation of the source does not end. -/
  | unfinished : s.evaluate id source = none → Repeats s id c name source none
  /-- The source does not compile or has no value. -/
  | failed {e : EvalError} {t : Session} : s.evaluate id source = some (.error e, t) →
      t.world = s.world → s.Untouched t → Repeats s id c name source (some (.error e, t))
  /-- A value that does not count as true is no matter of scopes. -/
  | nothing {v : Value} {t : Session} {cursor : CursorId} {s' : Session} :
      s.evaluate id source = some (.ok v, t) → v.isTruthy s.live = false →
      s.Gains cursor s' → s.Untouched s' → s'.Stands cursor [] 0 →
      (∀ ops u, s'.run ops = some u → u.advance cursor = .ok (false, u)) →
      Repeats s id c name source (some (.ok cursor, s'))
  /-- No scope is open. -/
  | noScope {v : Value} {t : Session} : s.evaluate id source = some (.ok v, t) →
      v.isTruthy s.live = true → c.scopes.depth = 0 → t.world = s.world → s.Untouched t →
      Repeats s id c name source (some (.error (.scope .noOpenScope), t))
  /-- The value has no elements to walk. -/
  | noElements {v : Value} {t : Session} {e : EvalError} : s.evaluate id source = some (.ok v, t) →
      v.isTruthy s.live = true → c.scopes.depth ≠ 0 → v.elements s.live = .error e →
      t.world = s.world → s.Untouched t → Repeats s id c name source (some (.error e, t))
  /-- The cursor stands in front of the first element. -/
  | installed {v : Value} {t : Session} {items : List Value} {cursor : CursorId} {s' : Session} :
      s.evaluate id source = some (.ok v, t) → v.isTruthy s.live = true → c.scopes.depth ≠ 0 →
      v.elements s.live = .ok items → s.Gains cursor s' → s.Installs id c name cursor s' →
      s'.world.cursor? cursor = some (.past id name v items 0) → s'.Stands cursor items 0 →
      Repeats s id c name source (some (.ok cursor, s'))

variable {s s' t : Session} {id : ContextId} {c : Context} {name : Text} {v : Value}

theorem counter_inquire {w : World} {inquiry : Inquiry} (hs : AtWork w [] s.trail)
    (h : s.inquire inquiry = some s') (i : ContextId) : counter i s'.trail = counter i s.trail := by
  obtain ⟨events, error?, htrail, hcourse⟩ := course_inquire h
  have hend := (AtWork.course hcourse (hs.idle s.world)).1
  rw [htrail, hend.counter_eq, hs.counter_eq]

/-- Evaluating leaves everything but the trail and the marks as it was. -/
theorem untouched_evaluate {w : World} {source : Source} {result : Except EvalError Value}
    (hs : AtWork w [] s.trail) (h : s.evaluate id source = some (result, t)) :
    t.world = s.world ∧ s.Untouched t := by
  have hworld := world_performValue h
  have hinquire : s.inquire (.value id source) = some t := by rw [inquire, h, Option.map_some]
  exact ⟨hworld, congrArg World.contexts hworld, counter_inquire hs hinquire⟩

theorem gains_withCursor (s : Session) (cursor : Cursor) :
    s.Gains s.world.cursors.length (s.withCursor cursor) := by
  refine ⟨List.getElem?_eq_none (Nat.le_refl _), fun k hk => ?_⟩
  by_cases hlt : k < s.world.cursors.length
  · exact List.getElem?_append_left hlt
  · have hle := Nat.le_of_not_lt hlt
    have hnew : (s.withCursor cursor).world.cursors.length ≤ k := by
      rw [withCursor, World.addCursor, List.length_append]
      exact Nat.lt_of_le_of_ne hle (Ne.symm hk)
    exact (List.getElem?_eq_none hnew).trans (List.getElem?_eq_none hle).symm

/-- A cursor over nothing never moves, whatever a driver does. -/
theorem advance_empty_of_run {ops : List Operation} {cursor : CursorId}
    (hk : s.world.cursor? cursor = some (.empty id name)) (hrun : s.run ops = some s') :
    s'.advance cursor = .ok (false, s') := by
  induction ops generalizing s with
  | nil =>
    cases hrun
    exact advance_of_next?_eq_none hk rfl
  | cons o ops ih =>
    obtain ⟨t, ht, hrun⟩ := run_cons hrun
    refine ih ?_ hrun
    by_cases ho : o = .advance cursor
    · subst ho
      rw [apply, advance_of_next?_eq_none hk rfl] at ht
      cases ht
      exact hk
    · exact cursor?_apply ht hk ho

/-- A cursor that is installed takes its name over and changes nothing else. -/
theorem installs_after_installed {items : List Value} (hc : s.world.context? id = some c)
    (hdepth : c.scopes.depth ≠ 0) (name : Text) (v : Value) :
    s.Installs id c name s.world.cursors.length ((s.withCursor (.past id name v items 0)).modify id
      fun _ => c.after (.installed name s.world.cursors.length)) := by
  obtain ⟨scope, outer, hinner⟩ := List.exists_cons_of_length_pos (Nat.pos_of_ne_zero hdepth)
  have hafter := Context.after_installed_of_inner_eq_cons name s.world.cursors.length hinner
  refine ⟨⟨_, context?_modify_self hc rfl, fun x => ?_, ?_,
    ⟨scope.replaced, outer.map Scope.replaced, ?_, ?_⟩, Context.frames_after_installed c name _, ?_⟩,
    fun i hi => ?_, fun i => rfl⟩
  · rw [hafter]
    exact Mapping.get?_put c.registry name _ x
  · rw [hafter]
    exact Mapping.names_put c.registry name _
  · rw [Scopes.undoLists, hinner, List.map_cons]
  · rw [hafter]
    rfl
  · rw [hafter]
  · simp [modify, World.modifyContext, withCursor, World.addCursor, Ne.symm hi]

theorem Gains.modify {cursor : CursorId} (h : s.Gains cursor s') (i : ContextId) (f : Context → Context) :
    s.Gains cursor (s'.modify i f) := ⟨h.fresh, h.others⟩

theorem Gains.before {cursor : CursorId} (hworld : t.world = s.world) (h : t.Gains cursor s') :
    s.Gains cursor s' := by
  obtain ⟨hfresh, hothers⟩ := h
  rw [hworld] at hfresh hothers
  exact ⟨hfresh, hothers⟩

theorem Installs.before {cursor : CursorId} (hs : s.Untouched t) (h : t.Installs id c name cursor s') :
    s.Installs id c name cursor s' := by
  obtain ⟨hcontext, hothers, hcounters⟩ := h
  rw [hs.contexts] at hothers
  exact ⟨hcontext, hothers, fun i => (hcounters i).trans (hs.counters i)⟩

/-- A repeat over a value, by whether the value counts as true, a scope is open and the value can be
walked. -/
theorem repeats_over {w : World} {source : Source} (hs : AtWork w [] s.trail)
    (hc : s.world.context? id = some c) (hv : s.evaluate id source = some (.ok v, t)) (name : Text) :
    s.Repeats id c name source (s.setRepeat id name source) := by
  obtain ⟨hworld, huntouched⟩ := untouched_evaluate hs hv
  have hlive : t.live = s.live := congrArg World.live hworld
  have hct : t.world.context? id = some c := hworld ▸ hc
  unfold setRepeat
  rw [hv]
  dsimp only
  cases htruthy : v.isTruthy s.live with
  | false =>
    rw [repeatOver_of_not_isTruthy id name (hlive ▸ htruthy)]
    have hk := cursor?_withCursor_self t (.empty id name)
    exact .nothing hv htruthy ((gains_withCursor t _).before hworld)
      ⟨huntouched.contexts, huntouched.counters⟩ (stands_of_cursor? hk (Nat.zero_le _))
      fun ops u hu => advance_empty_of_run hk hu
  | true =>
    by_cases hdepth : c.scopes.depth = 0
    · rw [repeatOver_of_inner_eq_nil name hct (hlive ▸ htruthy) (List.eq_nil_of_length_eq_zero hdepth)]
      exact .noScope hv htruthy hdepth hworld huntouched
    · have hinner : c.scopes.inner ≠ [] := fun h => hdepth (congrArg List.length h)
      cases helements : v.elements s.live with
      | error e =>
        rw [repeatOver_of_elements_eq_error hct (hlive ▸ htruthy) hinner (hlive ▸ helements)]
        exact .noElements hv htruthy hdepth helements hworld huntouched
      | ok items =>
        rw [repeatOver_of_elements_eq_ok name hct (hlive ▸ htruthy) hinner (hlive ▸ helements)]
        have hk := cursor?_withCursor_self t (.past id name v items 0)
        exact .installed hv htruthy hdepth helements (((gains_withCursor t _).modify id _).before hworld)
          ((installs_after_installed hct hdepth name v).before huntouched) hk
          (stands_of_cursor? hk (Nat.zero_le _))

end Session

/-- In every session that a driver can get to and for every context in use, a repeat is set up as a whole
or not at all. If it fails, because its source does not compile or has no value, because no scope is open
or because the value has no elements, the world and all counters are as before. If the value does not
count as true, it succeeds whether a scope is open or not, with a cursor that never moves, and all contexts
are as before. Otherwise the new cursor takes its name over, and the innermost scope remembers what it took
the place of. -/
theorem repeats_are_whole {g : Engine} {ops : List Operation} {s : Session} {id : ContextId} {c : Context}
    (hrun : (Session.start g).run ops = some s) (hc : s.world.context? id = some c) (name : Text)
    (source : Source) : s.Repeats id c name source (s.setRepeat id name source) := by
  have hs : AtWork s.world [] s.trail := Session.atWork_run hrun (AtWork.start _)
  cases heval : s.evaluate id source with
  | none =>
    unfold Session.setRepeat
    rw [heval]
    exact .unfinished heval
  | some answer =>
    obtain ⟨result, t⟩ := answer
    cases result with
    | error e =>
      obtain ⟨hworld, huntouched⟩ := Session.untouched_evaluate hs heval
      unfold Session.setRepeat
      rw [heval]
      exact .failed heval hworld huntouched
    | ok v => exact Session.repeats_over hs hc heval name

/-- A scope with a repeat in it. -/
def openRepeat : List Operation :=
  [.newContext ((ContextBuilder.ofEngine .standard).roots [(['l'], .list [.int 1, .int 2]), (['n'], .int 5)]),
   .beginScope 0, .setRepeat 0 ['x'] (.text ['l'])]

theorem repeats_after_openRepeat :
    ∃ s c, (Session.start .standard).run openRepeat = some s ∧ s.world.context? 0 = some c ∧
      c.registry = [(['x'], 0)] ∧
      (∃ cursor s', s.setRepeat 0 ['x'] (.text ['l']) = some (.ok cursor, s') ∧
        s.Installs 0 c ['x'] cursor s') ∧
      ∃ e t, s.setRepeat 0 ['x'] (.text ['n']) = some (.error e, t) ∧ t.world = s.world := by
  obtain ⟨s, c, hrun, hc, hregistry, ⟨v, t, hv, htruthy⟩, cursor, s', hset, e, u, hfails⟩ :
      ∃ s c, (Session.start .standard).run openRepeat = some s ∧ s.world.context? 0 = some c ∧
        c.registry = [(['x'], 0)] ∧
        (∃ v t, s.evaluate 0 (.text ['l']) = some (.ok v, t) ∧ v.isTruthy s.live = true) ∧
        ∃ cursor s', s.setRepeat 0 ['x'] (.text ['l']) = some (.ok cursor, s') ∧
          ∃ e t, s.setRepeat 0 ['x'] (.text ['n']) = some (.error e, t) :=
    ⟨_, _, rfl, rfl, rfl, ⟨_, _, rfl, rfl⟩, _, _, rfl, _, _, rfl⟩
  refine ⟨s, c, hrun, hc, hregistry, ⟨cursor, s', hset, ?_⟩, e, u, hfails, ?_⟩
  · have hrepeats := repeats_are_whole hrun hc ['x'] (.text ['l'])
    rw [hset] at hrepeats
    cases hrepeats with
    | nothing hv' hfalse =>
      rw [hv] at hv'
      cases hv'
      rw [htruthy] at hfalse
      cases hfalse
    | installed _ _ _ _ _ hinstalls => exact hinstalls
  · have hrepeats := repeats_are_whole hrun hc ['x'] (.text ['n'])
    rw [hfails] at hrepeats
    cases hrepeats with
    | failed _ hworld => exact hworld
    | noScope _ _ _ hworld => exact hworld
    | noElements _ _ _ _ hworld => exact hworld

end TemplateExpressions
