import TemplateExpressions.Proofs.Evaluation.Mirroring

/-!
# Runs that match

One run is matched by another if the other ends as the first one does, with the same result and the same
trail, whenever the first one ends with a result that counts. A `Comparison` says which errors count and
from which trails the runs are started. Runs match if they mirror one another with every trail paired with
itself (`matchedBy_iff`). Main statement: if one meaning of nested and deferred expressions is matched by
another, then so is every evaluation that is built on it (`valueOf_matchedBy`).
-/

set_option autoImplicit false

namespace TemplateExpressions

/-- What runs are compared by: the trails that they are started from, which calls, questions and
failures do not lead out of, and the errors that count, at least all that alternatives fall through. -/
structure Comparison where
  starts : Trail → Prop
  counts : EvalError → Prop
  starts_invoked : ∀ mark trail, starts trail → starts (.invoked mark :: trail)
  starts_asked : ∀ cursor query trail, starts trail → starts (.asked cursor query :: trail)
  starts_failed : ∀ e trail, starts trail → starts (.failed e :: trail)
  counts_of_isUndefined : ∀ e, e.isUndefined = true → counts e

/-- Every trail that runs are started from is paired with itself. -/
def Comparison.pairing (k : Comparison) : Pairing where
  pairs trail trail' := trail' = trail ∧ k.starts trail
  counts := k.counts
  pairs_invoked mark trail _ h := ⟨congrArg _ h.1, k.starts_invoked mark trail h.2⟩
  pairs_asked cursor query trail _ h := ⟨congrArg _ h.1, k.starts_asked cursor query trail h.2⟩
  pairs_failed e trail _ h := ⟨congrArg _ h.1, k.starts_failed e trail h.2⟩
  timesInvoked_eq mark trail _ h := by rw [h.1]
  counts_of_isUndefined := k.counts_of_isUndefined

namespace Run

variable {α β : Type} {k : Comparison}

/-- Whenever the first run ends with a result that counts, the second one ends in the same way, and both
may go on. -/
def MatchedBy (k : Comparison) (x y : Run α) : Prop :=
  ∀ trail result trail', k.starts trail → x trail = .done result trail' →
    (∀ e, result = .error e → k.counts e) → y trail = .done result trail' ∧ k.starts trail'

theorem matchedBy_iff {x y : Run α} : x.MatchedBy k y ↔ x.MirroredBy k.pairing y := by
  constructor
  · rintro h _ _ result left ⟨rfl, hstart⟩ hx hcounts
    obtain ⟨hy, hend⟩ := h _ result left hstart hx hcounts
    exact ⟨left, hy, rfl, hend⟩
  · intro h trail result left hstart hx hcounts
    obtain ⟨_, hy, rfl, hend⟩ := h trail trail result left ⟨rfl, hstart⟩ hx hcounts
    exact ⟨hy, hend⟩

theorem matchedBy_pure (a : α) : (Pure.pure a : Run α).MatchedBy k (Pure.pure a) :=
  matchedBy_iff.2 (mirroredBy_pure a)

theorem matchedBy_fail (e : EvalError) : (fail e : Run α).MatchedBy k (fail e) :=
  matchedBy_iff.2 (mirroredBy_fail e)

theorem matchedBy_unfinished (y : Run α) : (unfinished : Run α).MatchedBy k y :=
  matchedBy_iff.2 (mirroredBy_unfinished y)

theorem MatchedBy.bind {x y : Run α} {f f' : α → Run β} (hx : x.MatchedBy k y)
    (hf : ∀ a, (f a).MatchedBy k (f' a)) : (x >>= f).MatchedBy k (y >>= f') :=
  matchedBy_iff.2 ((matchedBy_iff.1 hx).bind fun a => matchedBy_iff.1 (hf a))

/-- Between entering and leaving a context runs may be compared from other trails. -/
theorem MatchedBy.within {k' : Comparison} {x y : Run α} {id : ContextId} {depth : Nat}
    (hentered : ∀ trail, k.starts trail → k'.starts (.entered id depth :: trail))
    (hleft : ∀ error? trail, k'.starts trail → k.starts (.left id error? :: trail))
    (hcounts : ∀ e, k.counts e → k'.counts e) (hx : x.MatchedBy k' y) :
    (within id depth x).MatchedBy k (within id depth y) := by
  refine matchedBy_iff.2 ((matchedBy_iff.1 hx).within ?_ ?_ ?_)
  · exact fun trail _ h => ⟨congrArg _ h.1, hentered trail h.2⟩
  · exact fun error? trail _ h => ⟨congrArg _ h.1, hleft error? trail h.2⟩
  · exact hcounts

end Run

namespace Evaluation

open Run

variable {k : Comparison} {w : World} {meaning meaning' : Meaning}
  (hm : ∀ id e, (meaning id e).MatchedBy k (meaning' id e))

include hm

theorem invoke?_matchedBy (v : Value) :
    ((invoke? w meaning v).getD (return v)).MatchedBy k
      ((invoke? w meaning' v).getD (return v)) :=
  matchedBy_iff.2 (invoke?_mirroredBy (fun id e => matchedBy_iff.1 (hm id e)) v)

/-- More forcings do no harm. -/
theorem textOf_matchedBy {forcings forcings' : Nat} (hle : forcings ≤ forcings') (v : Value) :
    (textOf w meaning forcings v).MatchedBy k (textOf w meaning' forcings' v) :=
  matchedBy_iff.2 (textOf_mirroredBy (fun id e => matchedBy_iff.1 (hm id e)) hle v)

theorem force_matchedBy (v : Value) : (force meaning v).MatchedBy k (force meaning' v) :=
  matchedBy_iff.2 (force_mirroredBy (fun id e => matchedBy_iff.1 (hm id e)) v)

/-- What is evaluated with one meaning of nested expressions is matched by what is evaluated with the
other, and with more forcings. -/
theorem valueOf_matchedBy {forcings forcings' : Nat} (hle : forcings ≤ forcings') (id : ContextId)
    (c : Context) (e : Expr) :
    (valueOf w meaning forcings id c e).MatchedBy k (valueOf w meaning' forcings' id c e) :=
  matchedBy_iff.2 (valueOf_mirroredBy (fun id e => matchedBy_iff.1 (hm id e)) hle id c e)

end Evaluation
end TemplateExpressions
