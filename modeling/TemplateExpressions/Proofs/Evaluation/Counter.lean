import TemplateExpressions.Proofs.Evaluation.Course
import TemplateExpressions.Proofs.Evaluation.Matching

/-!
# Counters of active evaluations

The guard is told which evaluations are active. It could as well keep one counter for each context, which
an evaluation sets when it begins and lowers when it ends, however it ends (`counted`). Main statements:
at every moment of an evaluation the counters are the numbers of evaluations that have begun and not
ended, within the limits, and afterwards they are what they were (`AtWork.course`); evaluating with the
counters gives the same, and the guard only ever finds a counter at its limit (`evaluate_matchedBy_counted`).
-/

set_option autoImplicit false

namespace TemplateExpressions

/-! ## What a trail tells -/

/-- The counter of a context: set by an evaluation that begins, lowered by one that ends. -/
def counter (id : ContextId) : Trail → Nat
  | [] => 0
  | .entered i depth :: trail => if i = id then depth else counter id trail
  | .left i _ :: trail => if i = id then counter id trail - 1 else counter id trail
  | _ :: trail => counter id trail

/-- An evaluation on the context begins. -/
def Event.begins (id : ContextId) : Event → Bool
  | .entered i _ => i == id
  | _ => false

/-- An evaluation on the context ends. -/
def Event.ends (id : ContextId) : Event → Bool
  | .left i _ => i == id
  | _ => false

/-- How many evaluations on a context have begun. -/
def begun (id : ContextId) (trail : Trail) : Nat := trail.countP (Event.begins id)

/-- How many evaluations on a context have ended. -/
def ended (id : ContextId) (trail : Trail) : Nat := trail.countP (Event.ends id)

@[simp]
theorem begun_cons (id : ContextId) (event : Event) (trail : Trail) :
    begun id (event :: trail) = begun id trail + if event.begins id then 1 else 0 :=
  List.countP_cons

@[simp]
theorem ended_cons (id : ContextId) (event : Event) (trail : Trail) :
    ended id (event :: trail) = ended id trail + if event.ends id then 1 else 0 :=
  List.countP_cons

/-- How many evaluations may be active on a context; none, if it is not in use. -/
def World.limit (w : World) (id : ContextId) : Nat := ((w.context? id).map Context.maxDepth).getD 0

/-- At the end of the trail exactly the given evaluations are active, as many on each context as its
counter says and its limit allows. -/
structure AtWork (w : World) (active : List ContextId) (trail : Trail) : Prop where
  counter_eq : ∀ id, counter id trail = active.count id
  begun_eq : ∀ id, begun id trail = ended id trail + active.count id
  le_limit : ∀ id, active.count id ≤ w.limit id

namespace AtWork

variable {w : World} {active : List ContextId} {trail : Trail}

theorem start (w : World) : AtWork w [] [] := ⟨fun _ => rfl, fun _ => rfl, fun _ => Nat.zero_le _⟩

/-- While nothing is active, limits do not matter. -/
theorem idle (h : AtWork w [] trail) (w' : World) : AtWork w' [] trail :=
  ⟨h.counter_eq, h.begun_eq, fun _ => Nat.zero_le _⟩

theorem invoked (h : AtWork w active trail) (mark : Mark) :
    AtWork w active (.invoked mark :: trail) :=
  ⟨h.counter_eq, fun id => by simpa [Event.begins, Event.ends] using h.begun_eq id, h.le_limit⟩

theorem asked (h : AtWork w active trail) (cursor : CursorId) (query : Query) :
    AtWork w active (.asked cursor query :: trail) :=
  ⟨h.counter_eq, fun id => by simpa [Event.begins, Event.ends] using h.begun_eq id, h.le_limit⟩

theorem failed (h : AtWork w active trail) (e : EvalError) :
    AtWork w active (.failed e :: trail) :=
  ⟨h.counter_eq, fun id => by simpa [Event.begins, Event.ends] using h.begun_eq id, h.le_limit⟩

/-- An evaluation begins on a context whose limit it keeps to. -/
theorem entered (h : AtWork w active trail) {id : ContextId} {c : Context}
    (hc : w.context? id = some c) (hdepth : active.count id + 1 ≤ c.maxDepth) :
    AtWork w (id :: active) (.entered id (active.count id + 1) :: trail) := by
  refine ⟨fun i => ?_, fun i => ?_, fun i => ?_⟩
  · by_cases hi : id = i
    · subst hi
      simp [counter]
    · simp [counter, hi, h.counter_eq i]
  · have hb := h.begun_eq i
    by_cases hi : id = i
    · subst hi
      simp [Event.begins, Event.ends]
      omega
    · simpa [Event.begins, Event.ends, hi] using hb
  · by_cases hi : id = i
    · subst hi
      simpa [World.limit, hc] using hdepth
    · simpa [hi] using h.le_limit i

/-- The innermost evaluation ends. -/
theorem left {id : ContextId} (h : AtWork w (id :: active) trail) (error? : Option EvalError) :
    AtWork w active (.left id error? :: trail) := by
  refine ⟨fun i => ?_, fun i => ?_, fun i => ?_⟩
  · have hc := h.counter_eq i
    by_cases hi : id = i
    · subst hi
      simp [counter, hc]
    · simpa [counter, hi] using hc
  · have hb := h.begun_eq i
    by_cases hi : id = i
    · subst hi
      simp [Event.begins, Event.ends] at hb ⊢
      omega
    · simpa [Event.begins, Event.ends, hi] using hb
  · have hl := h.le_limit i
    rw [List.count_cons] at hl
    omega

end AtWork

/-! ## Moments -/

/-- At every moment of what happens after the trail, some evaluations are active. -/
def Accounted (w : World) (events : List Event) (trail : Trail) : Prop :=
  ∀ moment, moment <:+ events → ∃ active, AtWork w active (moment ++ trail)

section Moments

variable {w : World} {active : List ContextId} {events : List Event} {trail : Trail}

theorem accounted_nil (h : AtWork w active trail) : Accounted w [] trail := by
  intro moment hm
  rw [List.suffix_nil.1 hm]
  exact ⟨active, h⟩

theorem Accounted.cons {event : Event} (h : Accounted w events trail)
    (hnow : AtWork w active (event :: events ++ trail)) : Accounted w (event :: events) trail := by
  intro moment hm
  rcases List.suffix_cons_iff.1 hm with rfl | hm
  · exact ⟨active, hnow⟩
  · exact h moment hm

theorem Accounted.append {second first : List Event} (hfirst : Accounted w first trail)
    (hsecond : Accounted w second (first ++ trail)) : Accounted w (second ++ first) trail := by
  intro moment hm
  obtain ⟨rest, hrest⟩ := hm
  rcases List.append_eq_append_iff.1 hrest with ⟨r, rfl, rfl⟩ | ⟨r, rfl, rfl⟩
  · rw [List.append_assoc]
    exact hsecond r (List.suffix_append _ _)
  · exact hfirst moment (List.suffix_append _ _)

/-- At every moment of a course the evaluations that are active are accounted for, and at its end they
are those from before. -/
theorem AtWork.course {error? : Option EvalError} (hcourse : Course w active events error?)
    (h : AtWork w active trail) : AtWork w active (events ++ trail) ∧ Accounted w events trail := by
  induction hcourse generalizing trail with
  | silent active => exact ⟨h, accounted_nil h⟩
  | invoked active mark =>
    have hnow := h.invoked mark
    exact ⟨hnow, (accounted_nil h).cons hnow⟩
  | asked active cursor query =>
    have hnow := h.asked cursor query
    exact ⟨hnow, (accounted_nil h).cons hnow⟩
  | failed active e =>
    have hnow := h.failed e
    exact ⟨hnow, (accounted_nil h).cons hnow⟩
  | followed _ _ ih₁ ih₂ =>
    obtain ⟨hmiddle, hfirst⟩ := ih₁ h
    obtain ⟨hend, hsecond⟩ := ih₂ hmiddle
    rw [List.append_assoc]
    exact ⟨hend, hfirst.append hsecond⟩
  | replaced _ _ _ ih₁ ih₂ =>
    obtain ⟨hmiddle, hfirst⟩ := ih₁ h
    obtain ⟨hend, hsecond⟩ := ih₂ hmiddle
    rw [List.append_assoc]
    exact ⟨hend, hfirst.append hsecond⟩
  | @within active events error? id c hc hdepth _ ih =>
    have hentered := h.entered hc hdepth
    obtain ⟨hend, hinner⟩ := ih hentered
    have hleft := hend.left error?
    have hevents : (.left id error? :: events ++ [.entered id (active.count id + 1)]) ++ trail =
        .left id error? :: (events ++ .entered id (active.count id + 1) :: trail) := by
      simp
    have hbefore := ((accounted_nil h).cons hentered).append hinner
    exact ⟨hevents ▸ hleft, hbefore.cons (hevents ▸ hleft)⟩

end Moments

/-! ## Evaluating with counters -/

namespace Evaluation

/-- Evaluates as the guard does that keeps a counter for each context: an evaluation reads the counter of
its context, is refused with the error `refusal` if the counter is at the limit, and otherwise raises the
counter until it ends. -/
def counted (refusal : Nat → Nat → EvalError) (w : World) : (levels : Nat) → Meaning
  | 0, _, _ => Run.unfinished
  | levels + 1, id, e => do
    let trail ← Run.trail
    match w.context? id with
    | none => Run.fail .contextDropped
    | some c =>
      let depth := counter id trail + 1
      if c.maxDepth < depth then Run.fail (refusal depth c.maxDepth)
      else Run.within id depth (valueOf w (counted refusal w levels) levels id c e)

theorem counted_succ (refusal : Nat → Nat → EvalError) (w : World) (levels : Nat) (id : ContextId)
    (e : Expr) (trail : Trail) :
    counted refusal w (levels + 1) id e trail =
      (match w.context? id with
        | none => Run.fail .contextDropped
        | some c =>
          if c.maxDepth < counter id trail + 1 then
            Run.fail (refusal (counter id trail + 1) c.maxDepth)
          else
            Run.within id (counter id trail + 1)
              (valueOf w (counted refusal w levels) levels id c e)) trail := rfl

/-- Every result counts, and runs are started while the given evaluations are active. -/
def working (w : World) (active : List ContextId) : Comparison where
  starts := AtWork w active
  counts _ := True
  starts_invoked mark _ h := h.invoked mark
  starts_asked cursor query _ h := h.asked cursor query
  starts_failed e _ h := h.failed e
  counts_of_isUndefined _ _ := trivial

/-- With counters everything is evaluated in the same way, and no evaluation is refused unless it finds
the counter exactly at the limit. -/
theorem evaluate_matchedBy_counted {refusal : Nat → Nat → EvalError}
    (hrefusal : ∀ limit, refusal (limit + 1) limit = .depthExceeded (limit + 1) limit) (w : World)
    (levels : Nat) (active : List ContextId) (id : ContextId) (e : Expr) :
    (evaluate w levels active id e).MatchedBy (working w active)
      (counted refusal w levels id e) := by
  induction levels generalizing active id e with
  | zero => exact Run.matchedBy_unfinished _
  | succ levels ih =>
    intro trail result trail' hstart h hcounts
    rw [counted_succ, hstart.counter_eq id]
    unfold evaluate guarded at h
    cases hc : w.context? id with
    | none =>
      rw [hc] at h
      exact Run.matchedBy_fail _ trail result trail' hstart h hcounts
    | some c =>
      rw [hc] at h
      dsimp only at h ⊢
      split at h
      · rename_i hdepth
        rw [if_pos hdepth]
        -- the counter is above the limit by no more than the evaluation that is refused
        have hlimit : active.count id = c.maxDepth := by
          have hle := hstart.le_limit id
          simp only [World.limit, hc, Option.map_some, Option.getD_some] at hle
          omega
        rw [hlimit] at h ⊢
        rw [hrefusal]
        exact Run.matchedBy_fail _ trail result trail' hstart h hcounts
      · rename_i hdepth
        rw [if_neg hdepth]
        have hentered : ∀ t, (working w active).starts t →
            (working w (id :: active)).starts (.entered id (active.count id + 1) :: t) :=
          fun _ ht => AtWork.entered ht hc (Nat.le_of_not_lt hdepth)
        have hleft : ∀ error? t, (working w (id :: active)).starts t →
            (working w active).starts (.left id error? :: t) :=
          fun error? _ ht => AtWork.left ht error?
        have hvalue := valueOf_matchedBy (w := w) (fun i e => ih (id :: active) i e)
          (Nat.le_refl levels) id c e
        exact hvalue.within hentered hleft (fun _ he => he) trail result trail' hstart h hcounts

end Evaluation
end TemplateExpressions
