import TemplateExpressions.Proofs.Evaluation.Limit

/-!
# Room for evaluations

What an evaluation comes to depends on how many others are active only as far as they use up the depth
that contexts allow. Main statement: wherever there is as much room, or more, an evaluation comes to the
same, unless it exceeds a limit, and the same is called and asked and fails on the way
(`evaluate_mirroredBy_alike`).
-/

set_option autoImplicit false

namespace TemplateExpressions

/-- Whether something was called or asked or failed, other than an evaluation that began or ended. -/
def Event.isDeed : Event → Bool
  | .entered _ _ | .left _ _ => false
  | .invoked _ | .asked _ _ | .failed _ => true

/-- What was called and asked and what failed, the latest first. -/
def deeds (trail : Trail) : Trail := trail.filter Event.isDeed

/-- Trails go together if they tell of the same deeds; every result counts but the error of an exceeded
limit. -/
def alike : Pairing where
  pairs trail trail' := deeds trail = deeds trail'
  counts e := ∀ depth limit, e ≠ .depthExceeded depth limit
  pairs_invoked mark _ _ h := congrArg (Event.invoked mark :: ·) h
  pairs_asked cursor query _ _ h := congrArg (Event.asked cursor query :: ·) h
  pairs_failed e _ _ h := congrArg (Event.failed e :: ·) h
  timesInvoked_eq mark trail trail' h := by
    have hcount : ∀ t : Trail, Evaluation.timesInvoked mark t = (deeds t).count (.invoked mark) := by
      intro t
      exact (List.count_filter rfl).symm
    rw [hcount, hcount, h]
  counts_of_isUndefined := Evaluation.ne_depthExceeded_of_isUndefined

/-- Where a context allows one evaluation more, there is as much room with one more active on it. -/
theorem room_of_spare {limits limits' : ContextId → Nat} (hlimits : ∀ id, limits id ≤ limits' id)
    {id : ContextId} (hspare : limits id < limits' id) (active : List ContextId) (j : ContextId) :
    limits j + (id :: active).count j ≤ limits' j + active.count j := by
  have hj := hlimits j
  by_cases hid : id = j
  · subst hid
    rw [List.count_cons_self]
    omega
  · rw [List.count_cons_of_ne hid]
    omega

/-- An evaluation is mirrored where every context has as much room, by its limit and the evaluations that
are active on it. -/
theorem Evaluation.evaluate_mirroredBy_alike {w : World} {limits limits' : ContextId → Nat}
    {active active' : List ContextId}
    (hroom : ∀ id, limits id + active'.count id ≤ limits' id + active.count id) {levels levels' : Nat}
    (hlevels : levels ≤ levels') (id : ContextId) (e : Expr) :
    (evaluate (w.withLimits limits) levels active id e).MirroredBy alike
      (evaluate (w.withLimits limits') levels' active' id e) := by
  refine evaluate_mirroredBy_withLimits
    (R := fun a a' => ∀ id, limits id + a'.count id ≤ limits' id + a.count id)
    (fun _ _ h => h) ?_ ?_ ?_ ?_ hlevels hroom id e
  · intro a a' h i j
    have := h j
    simp only [List.count_cons]
    omega
  · exact fun depth limit h => h depth limit rfl
  · exact fun _ _ _ _ _ _ h => h
  · exact fun _ _ _ _ h => h

end TemplateExpressions
