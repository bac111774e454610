import TemplateExpressions.Evaluation

/-!
# The course of an evaluation

What an evaluation leaves on the trail has a structure (`Course`): evaluations lie inside one another
with their depths, one thing is done after another unless it fails, and a failure is overcome only
where there is something to fall back on and the error is of those that alternatives fall through.
Main statement: every evaluation takes such a course (`evaluate_takes`), so what holds of all courses,
by induction on them, holds of all evaluations.
-/

set_option autoImplicit false

namespace TemplateExpressions

/-- What can happen, the latest first, while evaluations on the given contexts are active, and the
error that it ends with, if it does not end well. -/
inductive Course (w : World) : List ContextId → List Event → Option EvalError → Prop
  | silent (active : List ContextId) : Course w active [] none
  | invoked (active : List ContextId) (mark : Mark) : Course w active [.invoked mark] none
  | asked (active : List ContextId) (cursor : CursorId) (query : Query) :
      Course w active [.asked cursor query] none
  | failed (active : List ContextId) (e : EvalError) : Course w active [.failed e] (some e)
  /-- One thing after another. -/
  | followed {active : List ContextId} {first second : List Event} {error? : Option EvalError} :
      Course w active first none → Course w active second error? →
      Course w active (second ++ first) error?
  /-- One thing in place of another. -/
  | replaced {active : List ContextId} {first second : List Event} {e : EvalError}
      {error? : Option EvalError} : Course w active first (some e) → e.isUndefined = true →
      Course w active second error? → Course w active (second ++ first) error?
  /-- An evaluation on a context whose limit it keeps to. -/
  | within {active : List ContextId} {events : List Event} {error? : Option EvalError}
      {id : ContextId} {c : Context} : w.context? id = some c →
      active.count id + 1 ≤ c.maxDepth → Course w (id :: active) events error? →
      Course w active (.left id error? :: events ++ [.entered id (active.count id + 1)]) error?

namespace Run

variable {α β : Type} {w : World} {active : List ContextId}

/-- A run takes a course if what it adds to the trail is one. -/
def Takes (w : World) (active : List ContextId) (x : Run α) : Prop :=
  ∀ trail result trail', x trail = .done result trail' →
    ∃ events, trail' = events ++ trail ∧ Course w active events (error? result)

theorem takes_pure (a : α) : (Pure.pure a : Run α).Takes w active := by
  intro trail result trail' h
  cases h
  exact ⟨[], rfl, .silent active⟩

theorem takes_fail (e : EvalError) : (fail e : Run α).Takes w active := by
  intro trail result trail' h
  cases h
  exact ⟨[.failed e], rfl, .failed active e⟩

theorem takes_unfinished : (unfinished : Run α).Takes w active := by
  intro trail result trail' h
  cases h

theorem takes_ofExcept (result : Except EvalError α) : (ofExcept result).Takes w active := by
  cases result with
  | ok a => exact takes_pure a
  | error e => exact takes_fail e

theorem takes_note {event : Event} (h : Course w active [event] none) :
    (note event).Takes w active := by
  intro trail result trail' hrun
  cases hrun
  exact ⟨[event], rfl, h⟩

theorem takes_trail : Run.trail.Takes w active := by
  intro trail result trail' h
  cases h
  exact ⟨[], rfl, .silent active⟩

theorem Takes.bind {x : Run α} {f : α → Run β} (hx : x.Takes w active)
    (hf : ∀ a, (f a).Takes w active) : (x >>= f).Takes w active := by
  intro trail result trail' h
  rw [bind_apply] at h
  split at h
  · rename_i a middle hfirst
    obtain ⟨first, rfl, hcourse⟩ := hx trail _ _ hfirst
    obtain ⟨second, rfl, hcourse'⟩ := hf a _ _ _ h
    exact ⟨second ++ first, (List.append_assoc _ _ _).symm, .followed hcourse hcourse'⟩
  · rename_i e middle hfirst
    cases h
    exact hx trail _ _ hfirst
  · cases h

/-- Only an error that alternatives fall through makes room for the other run. -/
theorem Takes.orElse {x y : Run α} (hx : x.Takes w active) (hy : y.Takes w active) :
    (x.orElse y).Takes w active := by
  intro trail result trail' h
  rw [orElse_apply] at h
  split at h
  · rename_i e middle hfirst
    obtain ⟨first, rfl, hcourse⟩ := hx trail _ _ hfirst
    split at h
    · rename_i he
      obtain ⟨second, rfl, hcourse'⟩ := hy _ _ _ h
      exact ⟨second ++ first, (List.append_assoc _ _ _).symm, .replaced hcourse he hcourse'⟩
    · cases h
      exact ⟨first, rfl, hcourse⟩
  · exact hx trail _ _ h

theorem Takes.within {x : Run α} {id : ContextId} {c : Context} (hc : w.context? id = some c)
    (hdepth : active.count id + 1 ≤ c.maxDepth) (hx : x.Takes w (id :: active)) :
    (within id (active.count id + 1) x).Takes w active := by
  intro trail result trail' h
  rw [within_apply] at h
  split at h
  · rename_i r middle hinner
    cases h
    obtain ⟨events, rfl, hcourse⟩ := hx _ _ _ hinner
    refine ⟨_, ?_, .within hc hdepth hcourse⟩
    simp
  · cases h

end Run

namespace Evaluation

open Run

variable {w : World} {active : List ContextId} {meaning : Meaning}

theorem perform_takes (w : World) (active : List ContextId) (mark : Option Mark)
    (act : Act Value) : (perform w mark act).Takes w active := by
  have hmark : (mark.forM fun m => Run.note (.invoked m)).Takes w active := by
    cases mark with
    | none => exact takes_pure _
    | some m => exact takes_note (.invoked active m)
  cases act with
  | returns value => exact hmark.bind fun _ => takes_pure value
  | fails e => exact hmark.bind fun _ => takes_fail e
  | counts => exact hmark.bind fun _ => takes_trail.bind fun _ => takes_pure _
  | asks cursor query =>
    refine hmark.bind fun _ => (takes_note (.asked active cursor query)).bind fun _ => ?_
    cases w.cursor? cursor with
    | none => exact takes_fail _
    | some c =>
      dsimp only
      cases c.ask w.live query with
      | ok answer => exact takes_pure _
      | error e => exact takes_fail _

theorem invoke?_takes (hm : ∀ id e, (meaning id e).Takes w active) {v : Value} {run : Run Value}
    (h : invoke? w meaning v = some run) : run.Takes w active := by
  cases v with
  | callable mark act =>
    cases h
    exact perform_takes w active mark act
  | object mark host =>
    obtain ⟨act, -, rfl⟩ := Option.map_eq_some_iff.1 h
    exact perform_takes w active (some mark) act
  | deferred e id =>
    cases h
    exact hm id e
  | _ => cases h

theorem textOf_takes (hm : ∀ id e, (meaning id e).Takes w active) (forcings : Nat) (v : Value) :
    (textOf w meaning forcings v).Takes w active := by
  induction forcings generalizing v with
  | zero =>
    cases v with
    | deferred e id => exact takes_unfinished
    | _ => exact takes_pure _
  | succ forcings ih =>
    cases v with
    | deferred e id => exact (hm id e).bind ih
    | _ => exact takes_pure _

theorem force_takes (hm : ∀ id e, (meaning id e).Takes w active) (v : Value) :
    (force meaning v).Takes w active := by
  cases v with
  | deferred e id => exact hm id e
  | _ => exact takes_pure _

theorem alternative_takes (hm : ∀ id e, (meaning id e).Takes w active) (id : ContextId)
    (c : Context) (traversal : Traversal) (a : Alternative Expr) :
    (alternative w meaning id c traversal a).Takes w active := by
  cases a with
  | route route =>
    refine (takes_ofExcept _).bind fun segments => (takes_ofExcept _).bind fun base => ?_
    exact (force_takes hm base).bind fun base => takes_ofExcept _
  | nested e => exact hm id e

theorem resolve_takes (source : Text) {value : Alternative Expr → Run Value}
    (hv : ∀ a, (value a).Takes w active) (alternatives : List (Alternative Expr)) :
    (resolve source value alternatives).Takes w active := by
  induction alternatives with
  | nil => exact takes_fail _
  | cons first others ih =>
    cases others with
    | nil => exact hv first
    | cons second others => exact (hv first).orElse ih

theorem test_takes {value : Alternative Expr → Run Value} (hv : ∀ a, (value a).Takes w active)
    (alternatives : List (Alternative Expr)) : (test value alternatives).Takes w active := by
  induction alternatives with
  | nil => exact takes_pure _
  | cons first others ih => exact Takes.orElse ((hv first).bind fun _ => takes_pure _) ih

theorem fill_takes {content : Expr → Run Text} (hc : ∀ e, (content e).Takes w active)
    (pieces : List (Piece Expr)) : (fill content pieces).Takes w active := by
  induction pieces with
  | nil => exact takes_pure _
  | cons piece pieces ih =>
    cases piece with
    | literal text => exact ih.bind fun _ => takes_pure _
    | site e => exact (hc e).bind fun _ => ih.bind fun _ => takes_pure _

theorem valueOf_takes (hm : ∀ id e, (meaning id e).Takes w active) (forcings : Nat)
    (id : ContextId) (c : Context) (e : Expr) :
    (valueOf w meaning forcings id c e).Takes w active := by
  cases e with
  | path heading traversal alternatives =>
    have hv := alternative_takes hm id c traversal
    simp only [valueOf]
    cases PathMode.ofTypeName heading.typeName with
    | testing => exact test_takes hv alternatives
    | holding => exact resolve_takes heading.source hv alternatives
    | invoking =>
      refine (resolve_takes heading.source hv alternatives).bind fun v => ?_
      cases hi : invoke? w meaning v with
      | none => exact takes_pure v
      | some run => exact invoke?_takes hm hi
  | template heading pieces =>
    refine (fill_takes (fun e => ?_) pieces).bind fun _ => takes_pure _
    exact (hm id e).bind fun v => textOf_takes hm forcings v
  | negation heading operand => exact (hm id operand).bind fun _ => takes_pure _
  | deferral heading operand => exact takes_pure _
  | echo heading => exact takes_pure _

/-- Every evaluation takes a course. -/
theorem evaluate_takes (w : World) (levels : Nat) (active : List ContextId) (id : ContextId)
    (e : Expr) : (evaluate w levels active id e).Takes w active := by
  induction levels generalizing active id e with
  | zero => exact takes_unfinished
  | succ levels ih =>
    simp only [evaluate, guarded]
    cases hc : w.context? id with
    | none => exact takes_fail _
    | some c =>
      dsimp only
      split
      · exact takes_fail _
      · rename_i hdepth
        exact Takes.within hc (Nat.le_of_not_lt hdepth)
          (valueOf_takes (ih (id :: active)) levels id c e)

end Evaluation
end TemplateExpressions
