import TemplateExpressions.Proofs.Evaluation.Failure
import TemplateExpressions.Proofs.Evaluation.Matching

/-!
# Depth limits

Nothing but the guard reads the depth limits of contexts (`valueOf_withLimits`), and the guard refuses
fewer evaluations under higher limits. Main statement: what an evaluation ends with under some limits,
unless it is the error of an exceeded limit, it ends with under higher limits as well
(`result_under_higher_limits`).
-/

set_option autoImplicit false

namespace TemplateExpressions

namespace World

/-- The world with other depth limits of its contexts. -/
def withLimits (w : World) (limits : ContextId → Nat) : World :=
  { w with contexts := w.contexts.mapIdx fun id c => { c with maxDepth := limits id } }

theorem context?_withLimits (w : World) (limits : ContextId → Nat) (id : ContextId) :
    (w.withLimits limits).context? id =
      (w.context? id).map fun c => { c with maxDepth := limits id } := by
  rw [context?, context?, withLimits, List.getElem?_mapIdx, Option.filter_map]
  rfl

theorem live_withLimits (w : World) (limits : ContextId → Nat) :
    (w.withLimits limits).live = w.live := by
  simp only [live, withLimits, List.getElem?_mapIdx, Option.map_map]
  rfl

end World

namespace Evaluation

open World

variable {w : World} {limits limits' : ContextId → Nat} {meaning : Meaning}

/-- No limit leaks into a value. -/
theorem valueOf_withLimits (forcings : Nat) (id : ContextId) (c : Context) (limit : Nat)
    (e : Expr) :
    valueOf (w.withLimits limits) meaning forcings id { c with maxDepth := limit } e =
      valueOf w meaning forcings id c e := by
  apply valueOf_congr (live_withLimits w limits)
  all_goals rfl

/-- The guard compares the evaluations that are active on a context with its limit. -/
theorem evaluate_withLimits {id : ContextId} {c : Context} (hc : w.context? id = some c)
    (levels : Nat) (active : List ContextId) (e : Expr) :
    evaluate (w.withLimits limits) (levels + 1) active id e =
      if limits id < active.count id + 1 then
        Run.fail (.depthExceeded (active.count id + 1) (limits id))
      else
        Run.within id (active.count id + 1)
          (valueOf w (evaluate (w.withLimits limits) levels (id :: active)) levels id c e) := by
  simp only [evaluate, guarded, context?_withLimits, hc, Option.map_some, valueOf_withLimits]

/-- Evaluations are mirrored by evaluations under other limits, while other evaluations are active, if on
every context there is as much room for more of them. The trails have to go together also after evaluations
have begun and ended; errors of exceeded limits do not count. -/
theorem evaluate_mirroredBy_withLimits {p : Pairing} {R : List ContextId → List ContextId → Prop}
    (hroom : ∀ active active', R active active' →
      ∀ id, limits id + active'.count id ≤ limits' id + active.count id)
    (hcons : ∀ active active', R active active' → ∀ id, R (id :: active) (id :: active'))
    (hcounts : ∀ depth limit, ¬ p.counts (.depthExceeded depth limit))
    (hentered : ∀ active active', R active active' → ∀ id trail trail', p.pairs trail trail' →
      p.pairs (.entered id (active.count id + 1) :: trail)
        (.entered id (active'.count id + 1) :: trail'))
    (hleft : ∀ id error? trail trail', p.pairs trail trail' →
      p.pairs (.left id error? :: trail) (.left id error? :: trail'))
    {levels levels' : Nat} (hlevels : levels ≤ levels') {active active' : List ContextId}
    (hactive : R active active') (id : ContextId) (e : Expr) :
    (evaluate (w.withLimits limits) levels active id e).MirroredBy p
      (evaluate (w.withLimits limits') levels' active' id e) := by
  induction levels generalizing levels' active active' id e with
  | zero => exact Run.mirroredBy_unfinished _
  | succ levels ih =>
    obtain ⟨n, rfl⟩ := Nat.exists_eq_add_of_le' hlevels
    have hle : levels ≤ n + levels := Nat.le_add_left _ _
    cases hc : w.context? id with
    | none =>
      have hnone : ∀ l : ContextId → Nat, (w.withLimits l).context? id = none := by
        intro l
        rw [context?_withLimits, hc]
        rfl
      have heval : ∀ (l : ContextId → Nat) (m : Nat) (a : List ContextId),
          evaluate (w.withLimits l) (m + 1) a id e = Run.fail .contextDropped := by
        intro l m a
        simp only [evaluate, guarded, hnone]
      rw [heval, ← Nat.add_assoc, heval]
      exact Run.mirroredBy_fail _
    | some c =>
      rw [← Nat.add_assoc, evaluate_withLimits hc, evaluate_withLimits hc]
      split
      · exact Run.mirroredBy_of_not_counts (hcounts _ _) _
      · rename_i hdepth
        have hdepth' : ¬ limits' id < active'.count id + 1 := by
          have := hroom active active' hactive id
          omega
        rw [if_neg hdepth']
        refine Run.MirroredBy.within (fun t t' h => hentered active active' hactive id t t' h)
          (fun error? t t' h => hleft id error? t t' h) (fun _ h => h) ?_
        exact valueOf_mirroredBy (fun i e => ih hle (hcons active active' hactive id) i e) hle id c e

/-- Alternatives do not fall through the error of an exceeded limit. -/
theorem ne_depthExceeded_of_isUndefined (e : EvalError) (he : e.isUndefined = true) (depth limit : Nat) :
    e ≠ .depthExceeded depth limit := by
  rintro rfl
  cases he

/-- Every result counts but the error of an exceeded limit. -/
def unlimited : Comparison where
  starts _ := True
  counts e := ∀ depth limit, e ≠ .depthExceeded depth limit
  starts_invoked _ _ h := h
  starts_asked _ _ _ h := h
  starts_failed _ _ h := h
  counts_of_isUndefined := ne_depthExceeded_of_isUndefined

/-- Evaluations under higher limits match, also with more levels. -/
theorem evaluate_matchedBy_withLimits (hlimits : ∀ id, limits id ≤ limits' id) {levels levels' : Nat}
    (hlevels : levels ≤ levels') (active : List ContextId) (id : ContextId) (e : Expr) :
    (evaluate (w.withLimits limits) levels active id e).MatchedBy unlimited
      (evaluate (w.withLimits limits') levels' active id e) := by
  refine Run.matchedBy_iff.2 (evaluate_mirroredBy_withLimits (R := Eq) ?_ ?_ ?_ ?_ ?_ hlevels rfl id e)
  · rintro active _ rfl id
    exact Nat.add_le_add_right (hlimits id) _
  · rintro active _ rfl id
    rfl
  · exact fun depth limit h => h depth limit rfl
  · rintro active _ rfl id trail _ ⟨rfl, -⟩
    exact ⟨rfl, trivial⟩
  · rintro id error? trail _ ⟨rfl, -⟩
    exact ⟨rfl, trivial⟩

end Evaluation

/-- An evaluation that does not end with the error of an exceeded limit ends with the same result, and
leaves the same trail, under higher limits of any contexts. No limit was exceeded on its way. -/
theorem result_under_higher_limits {w : World} {limits limits' : ContextId → Nat}
    (hlimits : ∀ id, limits id ≤ limits' id) {levels levels' : Nat} (hlevels : levels ≤ levels')
    {active : List ContextId} {id : ContextId} {expression : Expr} {trail trail' : Trail}
    {result : Except EvalError Value}
    (h : Evaluation.evaluate (w.withLimits limits) levels active id expression trail =
      .done result trail')
    (hresult : ∀ depth limit, result ≠ .error (.depthExceeded depth limit)) :
    Evaluation.evaluate (w.withLimits limits') levels' active id expression trail =
        .done result trail' ∧
      ∃ events, trail' = events ++ trail ∧
        ∀ depth limit, ¬ CameUp (.depthExceeded depth limit) events := by
  constructor
  · have hmatched := Evaluation.evaluate_matchedBy_withLimits (w := w) hlimits hlevels active id
      expression
    refine (hmatched trail result trail' trivial h fun e he depth limit hlimit => ?_).1
    exact hresult depth limit (by rw [he, hlimit])
  · obtain ⟨events, htrail, hcourse⟩ := Evaluation.evaluate_takes _ _ _ _ _ _ _ _ h
    refine ⟨events, htrail, fun depth limit hup => ?_⟩
    have hend := hcourse.eq_of_cameUp rfl hup
    cases result with
    | ok v => cases hend
    | error e =>
      cases hend
      exact hresult depth limit rfl

/-- A site of a prefixed fallback that evaluates a deferred value: four evaluations inside one another. -/
def deferredInSite : Expr :=
  .path ⟨"standard".toList, "missing | string:$x".toList⟩ .plain
    [.route ⟨"missing".toList, []⟩,
     .nested (.template ⟨"string".toList, "$x".toList⟩
       [.site (.path ⟨"path".toList, ['x']⟩ .plain [.route ⟨['x'], []⟩])])]

/-- The context of the example, in which `x` is bound to the deferred `y`. -/
def deferringWorld : World :=
  ((Session.start .standard).getContext
    [(['x'], .deferred (.path ⟨"path".toList, ['y']⟩ .plain [.route ⟨['y'], []⟩]) 0),
     (['y'], .text ['t'])] []).1.world

theorem result_of_deferredInSite :
    (∃ trail', Evaluation.evaluate (deferringWorld.withLimits fun _ => 3) 6 [] 0 deferredInSite [] =
        .done (.error (.depthExceeded 4 3)) trail') ∧
      ∃ trail', Evaluation.evaluate (deferringWorld.withLimits fun _ => 4) 6 [] 0 deferredInSite [] =
          .done (.ok (.text ['t'])) trail' ∧
        Evaluation.evaluate (deferringWorld.withLimits fun _ => 9) 8 [] 0 deferredInSite [] =
          .done (.ok (.text ['t'])) trail' := by
  refine ⟨⟨_, rfl⟩, _, rfl, ?_⟩
  have hlimits : ∀ id : ContextId, (fun _ => 4) id ≤ (fun _ => 9) id := by
    intro id
    show 4 ≤ 9
    decide
  have hlevels : 6 ≤ 8 := by decide
  have hresult : ∀ depth limit, (.ok (.text ['t']) : Except EvalError Value) ≠
      .error (.depthExceeded depth limit) := fun _ _ h => by cases h
  exact (result_under_higher_limits hlimits hlevels rfl hresult).1

end TemplateExpressions
