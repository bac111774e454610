import TemplateExpressions.Proofs.Evaluation.Course
import TemplateExpressions.Session

/-!
# Failures that nothing falls back on

Alternatives and tests fall through errors of what is not there, and of no others
(`EvalError.isUndefined_eq_false_iff` lists these). Main statement: any other error that comes up in the
course of an evaluation, however deep inside, is what the whole evaluation ends with
(`failure_is_outcome`).
-/

set_option autoImplicit false

namespace TemplateExpressions

/-- An error came up, or some evaluation ended with it. -/
def CameUp (e : EvalError) (events : List Event) : Prop :=
  .failed e ∈ events ∨ ∃ id, .left id (some e) ∈ events

theorem cameUp_append (e : EvalError) (second first : List Event) :
    CameUp e (second ++ first) ↔ CameUp e second ∨ CameUp e first := by
  simp only [CameUp, List.mem_append, exists_or]
  exact or_or_or_comm

namespace Course

variable {w : World} {active : List ContextId} {events : List Event} {error? : Option EvalError}
  {e : EvalError}

/-- What a course ends with has come up in it. -/
theorem cameUp_of_eq (h : Course w active events error?) (he : error? = some e) :
    CameUp e events := by
  induction h with
  | silent active => cases he
  | invoked active mark => cases he
  | asked active cursor query => cases he
  | failed active e' =>
    cases he
    exact Or.inl List.mem_cons_self
  | followed _ _ _ ih => exact (cameUp_append _ _ _).2 (Or.inl (ih he))
  | replaced _ _ _ _ ih => exact (cameUp_append _ _ _).2 (Or.inl (ih he))
  | @within active events error? id c _ _ _ _ =>
    exact Or.inr ⟨id, by rw [he]; exact List.mem_cons_self⟩

/-- An error that no alternative falls through ends a course as soon as it comes up. -/
theorem eq_of_cameUp (h : Course w active events error?) (hu : e.isUndefined = false)
    (hup : CameUp e events) : error? = some e := by
  induction h with
  | silent active => simp [CameUp] at hup
  | invoked active mark => simp [CameUp] at hup
  | asked active cursor query => simp [CameUp] at hup
  | failed active e' =>
    have he : e = e' := by simpa [CameUp] using hup
    rw [he]
  | followed _ _ ih₁ ih₂ =>
    rcases (cameUp_append _ _ _).1 hup with hup | hup
    · exact ih₂ hup
    · cases ih₁ hup
  | @replaced active first second e' error? _ he' _ ih₁ ih₂ =>
    rcases (cameUp_append _ _ _).1 hup with hup | hup
    · exact ih₂ hup
    · -- the first part ended with `e`, which nothing takes the place of
      cases ih₁ hup
      rw [hu] at he'
      cases he'
  | @within active events error? id c _ _ _ ih =>
    rcases (cameUp_append _ (.left id error? :: events) _).1 hup with hup | hup
    · rcases hup with hmem | ⟨id', hmem⟩
      · exact ih (Or.inl (by simpa using hmem))
      · rcases List.mem_cons.1 hmem with heq | hmem
        · cases heq
          rfl
        · exact ih (Or.inr ⟨id', hmem⟩)
    · simp [CameUp] at hup

end Course

/-- An evaluation ends with an error that no alternative falls through exactly if that error came up
in its course: with an expression inside it or forced by it, at a step of a traversal or in a call. -/
theorem failure_is_outcome {w : World} {levels : Nat} {active : List ContextId} {id : ContextId}
    {expression : Expr} {trail trail' : Trail} {result : Except EvalError Value}
    (h : Evaluation.evaluate w levels active id expression trail = .done result trail') :
    ∃ events, trail' = events ++ trail ∧
      ∀ e, e.isUndefined = false → (CameUp e events ↔ result = .error e) := by
  obtain ⟨events, htrail, hcourse⟩ :=
    Evaluation.evaluate_takes w levels active id expression trail result trail' h
  refine ⟨events, htrail, fun e hu => ⟨fun hup => ?_, fun he => ?_⟩⟩
  · have hend := hcourse.eq_of_cameUp hu hup
    cases result with
    | ok v => cases hend
    | error e' =>
      cases hend
      rfl
  · exact hcourse.cameUp_of_eq (congrArg Run.error? he)

/-- A call that fails in a site of a prefixed fallback. -/
def callInSite : Expr :=
  .path ⟨"exists".toList, "missing | string:${f}".toList⟩ .plain
    [.route ⟨"missing".toList, []⟩,
     .nested (.template ⟨"string".toList, "${f}".toList⟩
       [.site (.path ⟨"path".toList, ['f']⟩ .plain [.route ⟨['f'], []⟩])])]

theorem failure_of_callInSite :
    ∃ result trail', Evaluation.evaluate (((Session.start .standard).getContext
        [(['f'], .callable (some 0) (.fails (.host ['h'])))] []).1.world) 3 [] 0 callInSite [] =
          .done result trail' ∧
      .failed (.nameNotFound "missing".toList) ∈ trail' ∧ result = .error (.host ['h']) := by
  obtain ⟨result, trail', h, hmissing, hhost⟩ : ∃ result trail',
      Evaluation.evaluate (((Session.start .standard).getContext
        [(['f'], .callable (some 0) (.fails (.host ['h'])))] []).1.world) 3 [] 0 callInSite [] =
          .done result trail' ∧
      .failed (.nameNotFound "missing".toList) ∈ trail' ∧ .failed (.host ['h']) ∈ trail' :=
    ⟨_, _, rfl, by decide +kernel, by decide +kernel⟩
  obtain ⟨events, htrail, hends⟩ := failure_is_outcome h
  rw [List.append_nil] at htrail
  exact ⟨result, trail', h, hmissing, (hends _ rfl).1 (Or.inl (htrail ▸ hhost))⟩

end TemplateExpressions
