import TemplateExpressions.Proofs.Evaluation.Counter
import TemplateExpressions.Proofs.Session.Effect

/-!
# Inquiries

What an inquiry does to a session is told by one run on its world (`Inquiry.run`), which takes a course
like those of evaluations (`Inquiry.takes`) and goes the same way with counters (`Inquiry.matchedBy`).
No other operation touches the trail (`trail_apply`), so no evaluation is active between operations
(`atWork_run`). Main statement: an inquiry leaves all contexts and all counters as it found them
(`inquiry_leaves_contexts`).
-/

set_option autoImplicit false

namespace TemplateExpressions

/-- The run that evaluates a source in a context. -/
def Source.run (w : World) (meaning : Meaning) (id : ContextId) : Source → Run Value
  | .compiled e => meaning id e
  | .text t =>
    match w.engine.compile t with
    | .ok e => meaning id e
    | .error (.fault error) => Run.fail (.compile error)
    | .error .endless => Run.unfinished

/-- The run that makes a value ready for output: some values stay as they are, all others become text. -/
def Evaluation.output (w : World) (meaning : Meaning) (forcings : Nat) (v : Value) : Run Value :=
  match v with
  | .default | .nothing | .text _ => return v
  | v => return .text (← Evaluation.textOf w meaning forcings v)

/-- The run of an inquiry, with its answer as a value. -/
def Inquiry.run (w : World) (meaning : Meaning) (forcings : Nat) : Inquiry → Run Value
  | .value id source => source.run w meaning id
  | .truth id source =>
    Value.bool <$> do
      let v ← source.run w meaning id
      return v.isTruthy w.live
  | .text id source => do
    let v ← source.run w meaning id
    Evaluation.output w meaning forcings v
  | .force v => Evaluation.force meaning v
  | .toText v => Value.text <$> Evaluation.textOf w meaning forcings v
  | .invoke v => (Evaluation.invoke? w meaning v).getD (return v)

/-! ## The run of an inquiry -/

section Runs

variable {w : World} {active : List ContextId} {meaning meaning' : Meaning}

theorem Source.takes (hm : ∀ id e, (meaning id e).Takes w active) (id : ContextId)
    (source : Source) : (source.run w meaning id).Takes w active := by
  cases source with
  | compiled e => exact hm id e
  | text t =>
    simp only [Source.run]
    split
    · exact hm id _
    · exact Run.takes_fail _
    · exact Run.takes_unfinished

/-- A source is mirrored in any world with the same engine. -/
theorem Source.mirroredBy {p : Pairing} {w' : World} (hengine : w'.engine = w.engine)
    (hm : ∀ id e, (meaning id e).MirroredBy p (meaning' id e)) (id : ContextId) (source : Source) :
    (source.run w meaning id).MirroredBy p (source.run w' meaning' id) := by
  cases source with
  | compiled e => exact hm id e
  | text t =>
    simp only [Source.run, hengine]
    split
    · exact hm id _
    · exact Run.mirroredBy_fail _
    · exact Run.mirroredBy_unfinished _

theorem Source.matchedBy {k : Comparison} (hm : ∀ id e, (meaning id e).MatchedBy k (meaning' id e))
    (id : ContextId) (source : Source) :
    (source.run w meaning id).MatchedBy k (source.run w meaning' id) :=
  Run.matchedBy_iff.2 (Source.mirroredBy rfl (fun id e => Run.matchedBy_iff.1 (hm id e)) id source)

namespace Evaluation

theorem output_takes (hm : ∀ id e, (meaning id e).Takes w active) (forcings : Nat) (v : Value) :
    (output w meaning forcings v).Takes w active := by
  unfold output
  split
  · exact Run.takes_pure _
  · exact Run.takes_pure _
  · exact Run.takes_pure _
  · exact (textOf_takes hm forcings _).bind fun _ => Run.takes_pure _

theorem output_matchedBy {k : Comparison}
    (hm : ∀ id e, (meaning id e).MatchedBy k (meaning' id e)) (forcings : Nat) (v : Value) :
    (output w meaning forcings v).MatchedBy k (output w meaning' forcings v) := by
  unfold output
  split
  · exact Run.matchedBy_pure _
  · exact Run.matchedBy_pure _
  · exact Run.matchedBy_pure _
  · exact (textOf_matchedBy hm (Nat.le_refl forcings) _).bind fun _ => Run.matchedBy_pure _

end Evaluation

namespace Inquiry

/-- The run of an inquiry takes a course if all evaluations do. -/
theorem takes (hm : ∀ id e, (meaning id e).Takes w active) (forcings : Nat) (inquiry : Inquiry) :
    (inquiry.run w meaning forcings).Takes w active := by
  cases inquiry with
  | value id source => exact Source.takes hm id source
  | truth id source =>
    refine Run.Takes.bind ?_ fun _ => Run.takes_pure _
    exact (Source.takes hm id source).bind fun _ => Run.takes_pure _
  | text id source =>
    exact (Source.takes hm id source).bind fun v => Evaluation.output_takes hm forcings v
  | force v => exact Evaluation.force_takes hm v
  | toText v => exact (Evaluation.textOf_takes hm forcings v).bind fun _ => Run.takes_pure _
  | invoke v =>
    simp only [run]
    cases hi : Evaluation.invoke? w meaning v with
    | none => exact Run.takes_pure v
    | some x => exact Evaluation.invoke?_takes hm hi

/-- The run of an inquiry is matched if all evaluations are. -/
theorem matchedBy {k : Comparison} (hm : ∀ id e, (meaning id e).MatchedBy k (meaning' id e))
    (forcings : Nat) (inquiry : Inquiry) :
    (inquiry.run w meaning forcings).MatchedBy k (inquiry.run w meaning' forcings) := by
  cases inquiry with
  | value id source => exact Source.matchedBy hm id source
  | truth id source =>
    refine Run.MatchedBy.bind ?_ fun _ => Run.matchedBy_pure _
    exact (Source.matchedBy hm id source).bind fun _ => Run.matchedBy_pure _
  | text id source =>
    exact (Source.matchedBy hm id source).bind fun v => Evaluation.output_matchedBy hm forcings v
  | force v => exact Evaluation.force_matchedBy hm v
  | toText v =>
    exact (Evaluation.textOf_matchedBy hm (Nat.le_refl forcings) v).bind fun _ =>
      Run.matchedBy_pure _
  | invoke v => exact Evaluation.invoke?_matchedBy hm v

end Inquiry

end Runs

namespace Session

variable {s s' : Session}

theorem evaluation_eq (s : Session) (id : ContextId) (source : Source) :
    s.evaluation id source = source.run s.world (Evaluation.meaning s.world) id := by
  cases source with
  | compiled e => rfl
  | text t => rfl

theorem done_of_perform {α : Type} {x : Run α} {result : Except EvalError α}
    (h : s.perform x = some (result, s')) : x s.trail = .done result s'.trail := by
  unfold perform at h
  split at h
  · rename_i r trail hdone
    simp only [Option.some.injEq, Prod.mk.injEq] at h
    obtain ⟨rfl, rfl⟩ := h
    exact hdone
  · cases h

theorem done_of_performValue {x : Run Value} {result : Except EvalError Value}
    (h : s.performValue x = some (result, s')) :
    ∃ result, x s.trail = .done result s'.trail := by
  unfold performValue at h
  split at h
  · rename_i v t ht
    simp only [Option.some.injEq, Prod.mk.injEq] at h
    have hkeep : (t.keep v).2.trail = t.trail := by
      unfold keep
      split <;> rfl
    rw [← h.2, hkeep]
    exact ⟨_, done_of_perform ht⟩
  · exact ⟨_, done_of_perform h⟩

theorem done_map {α β : Type} {x : Run α} {result : Except EvalError α} {trail trail' : Trail}
    (h : x trail = .done result trail') (f : α → β) :
    (f <$> x) trail = .done (result.map f) trail' := by
  change (x >>= Pure.pure ∘ f) trail = _
  rw [Run.bind_apply, h]
  cases result with
  | ok a => rfl
  | error e => rfl

/-- An inquiry leaves the trail as its run does. -/
theorem done_of_inquire {inquiry : Inquiry} (h : s.inquire inquiry = some s') :
    ∃ result, inquiry.run s.world (Evaluation.meaning s.world) (Evaluation.enough s.world) s.trail =
      .done result s'.trail := by
  cases inquiry with
  | value id source =>
    obtain ⟨⟨r, t⟩, ht, rfl⟩ := Option.map_eq_some_iff.1 h
    unfold evaluate at ht
    rw [evaluation_eq] at ht
    exact done_of_performValue ht
  | truth id source =>
    obtain ⟨⟨r, t⟩, ht, rfl⟩ := Option.map_eq_some_iff.1 h
    unfold evaluateBoolean at ht
    rw [evaluation_eq] at ht
    exact ⟨_, done_map (done_of_perform ht) Value.bool⟩
  | text id source =>
    obtain ⟨⟨r, t⟩, ht, rfl⟩ := Option.map_eq_some_iff.1 h
    unfold evaluateText at ht
    rw [evaluation_eq] at ht
    exact ⟨_, done_of_perform ht⟩
  | force v =>
    obtain ⟨⟨r, t⟩, ht, rfl⟩ := Option.map_eq_some_iff.1 h
    exact done_of_performValue ht
  | toText v =>
    obtain ⟨⟨r, t⟩, ht, rfl⟩ := Option.map_eq_some_iff.1 h
    exact ⟨_, done_map (done_of_perform ht) Value.text⟩
  | invoke v =>
    simp only [inquire, invoke?, Option.map_map] at h
    simp only [Inquiry.run]
    cases hv : Evaluation.invoke? s.world (Evaluation.meaning s.world) v with
    | none =>
      rw [hv] at h
      cases h
      exact ⟨.ok v, rfl⟩
    | some x =>
      rw [hv] at h
      obtain ⟨⟨r, t⟩, ht, rfl⟩ := Option.map_eq_some_iff.1 h
      exact done_of_performValue ht

/-! ## Between inquiries -/

/-- An inquiry adds a course to the trail. -/
theorem course_inquire {inquiry : Inquiry} (h : s.inquire inquiry = some s') :
    ∃ events error?, s'.trail = events ++ s.trail ∧ Course s.world [] events error? := by
  obtain ⟨result, hdone⟩ := done_of_inquire h
  have hmeaning : ∀ id e, (Evaluation.meaning s.world id e).Takes s.world [] :=
    fun id e => Evaluation.evaluate_takes s.world _ [] id e
  obtain ⟨events, htrail, hcourse⟩ := Inquiry.takes hmeaning _ inquiry _ _ _ hdone
  exact ⟨events, _, htrail, hcourse⟩

theorem trail_repeatOver {id : ContextId} {name : Text} {v : Value} {k : CursorId}
    (h : s.repeatOver id name v = .ok (k, s')) : s'.trail = s.trail := by
  obtain ⟨cursor, rfl | ⟨f, rfl⟩⟩ := eq_modify_of_repeatOver h
  · rfl
  · rfl

/-- The trail grows by a course at an inquiry and at the evaluation of a repeat, and at no other
operation. -/
theorem trail_apply {o : Operation} (h : s.apply o = some s') :
    ∃ events error?, s'.trail = events ++ s.trail ∧ Course s.world [] events error? := by
  have hsame : ∀ {t : Session}, t.trail = s.trail →
      ∃ events error?, t.trail = events ++ s.trail ∧ Course s.world [] events error? :=
    fun ht => ⟨[], none, ht, .silent []⟩
  cases o with
  | endScope id =>
    cases h
    refine hsame ?_
    unfold endScope
    split
    · rfl
    · rename_i c _
      cases c.endScope <;> rfl
  | inquire inquiry => exact course_inquire h
  | newCursor id name v =>
    cases h
    cases hn : s.newCursor id name v with
    | error e => exact hsame rfl
    | ok r =>
      obtain ⟨cursor, hr⟩ := eq_withCursor_of_newCursor hn
      exact hsame (by simp [Except.toOption, hr, withCursor])
  | setRepeat id name source =>
    obtain ⟨⟨result, t⟩, ht, rfl⟩ := Option.map_eq_some_iff.1 h
    have hvalue : ∀ {r u}, s.evaluate id source = some (r, u) →
        s.inquire (.value id source) = some u := fun hu => by simp [inquire, hu]
    rcases setRepeat_cases ht with ⟨e, he⟩ | ⟨v, u, he, ⟨e, -, rfl⟩ | ⟨k, hk⟩⟩
    · exact course_inquire (hvalue he)
    · exact course_inquire (hvalue he)
    · show ∃ events error?, t.trail = events ++ s.trail ∧ _
      rw [trail_repeatOver hk]
      exact course_inquire (hvalue he)
  | advance k =>
    cases h
    refine hsame ?_
    unfold advance
    split
    · rfl
    · split
      · rfl
      · split <;> rfl
  | _ =>
    cases h
    exact hsame rfl

/-- Between operations no evaluation is active. -/
theorem atWork_run {ops : List Operation} (h : s.run ops = some s') {w : World}
    (hs : AtWork w [] s.trail) : AtWork w [] s'.trail := by
  induction ops generalizing s with
  | nil =>
    cases h
    exact hs
  | cons o ops ih =>
    obtain ⟨t, ho, hr⟩ := run_cons h
    obtain ⟨events, error?, htrail, hcourse⟩ := trail_apply ho
    have ht := (AtWork.course hcourse (hs.idle s.world)).1
    rw [← htrail] at ht
    exact ih hr (ht.idle w)

end Session

/-- Whatever an inquiry answers, a value or an error, all contexts are as they were and all counters have
the values from before. At every moment of it the counter of a context is the number of evaluations that
have begun on it and not ended, and within its limit. It goes the same way with a guard that keeps the
counters and is free in what it answers unless the counter is exactly at the limit, so the guard never
raises any other error than that of a depth one above the limit. -/
theorem inquiry_leaves_contexts {g : Engine} {ops : List Operation} {s s' : Session}
    {inquiry : Inquiry} (hrun : (Session.start g).run ops = some s)
    (h : s.inquire inquiry = some s') :
    s'.world = s.world ∧
      (∀ id, counter id s'.trail = counter id s.trail) ∧
      (∃ events, s'.trail = events ++ s.trail ∧
        ∀ moment, moment <:+ events → ∀ id,
          begun id (moment ++ s.trail) =
              ended id (moment ++ s.trail) + counter id (moment ++ s.trail) ∧
            counter id (moment ++ s.trail) ≤ s.world.limit id) ∧
      ∃ result,
        inquiry.run s.world (Evaluation.meaning s.world) (Evaluation.enough s.world) s.trail =
            .done result s'.trail ∧
          ∀ refusal : Nat → Nat → EvalError,
            (∀ limit, refusal (limit + 1) limit = .depthExceeded (limit + 1) limit) →
            inquiry.run s.world (Evaluation.counted refusal s.world (Evaluation.enough s.world))
                (Evaluation.enough s.world) s.trail =
              .done result s'.trail := by
  have hstart : AtWork s.world [] s.trail := Session.atWork_run hrun (AtWork.start _)
  obtain ⟨events, error?, htrail, hcourse⟩ := Session.course_inquire h
  obtain ⟨hend, hmoments⟩ := AtWork.course hcourse hstart
  refine ⟨Session.world_inquire h, fun id => ?_, ⟨events, htrail, fun moment hmoment id => ?_⟩, ?_⟩
  · rw [htrail, hend.counter_eq, hstart.counter_eq]
  · obtain ⟨active, hat⟩ := hmoments moment hmoment
    rw [hat.counter_eq id]
    exact ⟨hat.begun_eq id, hat.le_limit id⟩
  · obtain ⟨result, hdone⟩ := Session.done_of_inquire h
    refine ⟨result, hdone, fun refusal hrefusal => ?_⟩
    have hmatched := Inquiry.matchedBy (w := s.world)
      (fun id e => Evaluation.evaluate_matchedBy_counted hrefusal s.world
        (Evaluation.enough s.world) [] id e) (Evaluation.enough s.world) inquiry
    exact (hmatched _ _ _ hstart hdone fun _ _ => trivial).1

/-- Two contexts that may each have one evaluation active on them; `x` of the first one is the deferred `y`
of the second one, and the other way round. -/
def twoContexts : List Operation :=
  [.newContext { ContextBuilder.ofEngine .standard with maxDepth := 1 },
   .newContext { ContextBuilder.ofEngine .standard with maxDepth := 1 },
   .setLocal 0 ['x'] (.deferred (.path ⟨"path".toList, ['y']⟩ .plain [.route ⟨['y'], []⟩]) 1),
   .setLocal 1 ['y'] (.deferred (.path ⟨"path".toList, ['x']⟩ .plain [.route ⟨['x'], []⟩]) 0)]

theorem inquiry_between_twoContexts :
    ∃ s s', (Session.start .standard).run twoContexts = some s ∧
      s.inquire (.text 0 (.text ['x'])) = some s' ∧
      .failed (.depthExceeded 2 1) ∈ s'.trail ∧
      s'.world = s.world ∧ counter 0 s'.trail = 0 ∧ counter 1 s'.trail = 0 := by
  obtain ⟨s, hrun, htrail, s', h, hfailed⟩ :
      ∃ s, (Session.start .standard).run twoContexts = some s ∧ s.trail = [] ∧
        ∃ s', s.inquire (.text 0 (.text ['x'])) = some s' ∧
          .failed (.depthExceeded 2 1) ∈ s'.trail :=
    ⟨_, rfl, rfl, _, rfl, by decide +kernel⟩
  obtain ⟨hworld, hcounter, -⟩ := inquiry_leaves_contexts hrun h
  rw [htrail] at hcounter
  exact ⟨s, s', hrun, h, hfailed, hworld, hcounter 0, hcounter 1⟩

end TemplateExpressions
