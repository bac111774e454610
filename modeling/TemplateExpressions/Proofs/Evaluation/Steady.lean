import TemplateExpressions.Proofs.Evaluation.Deferred

/-!
# Results that do not depend on the trail

Only a callable that counts its calls looks at what has happened before. Where none can be found in the
variables (`World.Uncounted`), what an expression evaluates to is the same on every trail: it does not matter
what was evaluated before (`evaluate_steady`).
-/

set_option autoImplicit false

namespace TemplateExpressions

open Evaluation

/-- The result of an outcome, if it has come to one. -/
def Outcome.result? {α : Type} : Outcome α → Option (Except EvalError α)
  | .done result _ => some result
  | .unfinished => none

namespace Run

variable {α β : Type} {P P' : α → Prop} {Q : β → Prop}

/-- The run comes to the same result on every trail, and a value that it comes to has the property. -/
structure Steady (P : α → Prop) (x : Run α) : Prop where
  same : ∀ trail trail', (x trail).result? = (x trail').result?
  yields : x.Yields P

theorem steady_pure {a : α} (h : P a) : (Pure.pure a : Run α).Steady P :=
  ⟨fun _ _ => rfl, yields_pure h⟩

theorem steady_fail (e : EvalError) : (fail e : Run α).Steady P := ⟨fun _ _ => rfl, yields_fail e⟩

theorem steady_unfinished : (unfinished : Run α).Steady P := ⟨fun _ _ => rfl, yields_unfinished⟩

theorem steady_ofExcept {result : Except EvalError α} (h : ∀ a, result = .ok a → P a) :
    (ofExcept result).Steady P := by
  cases result with
  | ok a => exact steady_pure (h a rfl)
  | error e => exact steady_fail e

theorem steady_note (event : Event) : (note event).Steady fun _ => True :=
  ⟨fun _ _ => rfl, yields_true _⟩

theorem Steady.mono {x : Run α} (hx : x.Steady P) (h : ∀ a, P a → P' a) : x.Steady P' :=
  ⟨hx.same, hx.yields.mono h⟩

/-- Two trails on which a run comes to the same. -/
theorem Steady.cases {x : Run α} (hx : x.Steady P) (trail trail' : Trail) :
    (x trail = .unfinished ∧ x trail' = .unfinished) ∨
      ∃ result after after', x trail = .done result after ∧ x trail' = .done result after' := by
  have hsame := hx.same trail trail'
  cases hfirst : x trail with
  | unfinished =>
    cases hsecond : x trail' with
    | unfinished => exact .inl ⟨rfl, rfl⟩
    | done result after' =>
      rw [hfirst, hsecond] at hsame
      cases hsame
  | done result after =>
    cases hsecond : x trail' with
    | unfinished =>
      rw [hfirst, hsecond] at hsame
      cases hsame
    | done result' after' =>
      rw [hfirst, hsecond] at hsame
      cases hsame
      exact .inr ⟨result, after, after', rfl, rfl⟩

theorem Steady.bind {x : Run α} {f : α → Run β} (hx : x.Steady P)
    (hf : ∀ a, P a → (f a).Steady Q) : (x >>= f).Steady Q := by
  refine ⟨fun trail trail' => ?_, hx.yields.bind fun a ha => (hf a ha).yields⟩
  rw [bind_apply, bind_apply]
  rcases hx.cases trail trail' with ⟨hfirst, hsecond⟩ | ⟨result, after, after', hfirst, hsecond⟩
  · rw [hfirst, hsecond]
  · rw [hfirst, hsecond]
    cases result with
    | ok a => exact (hf a (hx.yields _ _ _ hfirst)).same after after'
    | error e => rfl

theorem Steady.orElse {x y : Run α} (hx : x.Steady P) (hy : y.Steady P) : (x.orElse y).Steady P := by
  refine ⟨fun trail trail' => ?_, hx.yields.orElse hy.yields⟩
  rw [orElse_apply, orElse_apply]
  rcases hx.cases trail trail' with ⟨hfirst, hsecond⟩ | ⟨result, after, after', hfirst, hsecond⟩
  · rw [hfirst, hsecond]
  · rw [hfirst, hsecond]
    cases result with
    | ok a => rfl
    | error e =>
      dsimp only
      split
      · exact hy.same after after'
      · rfl

theorem Steady.within {x : Run α} (hx : x.Steady P) (id : ContextId) (depth : Nat) :
    (within id depth x).Steady P := by
  refine ⟨fun trail trail' => ?_, hx.yields.within id depth⟩
  rw [within_apply, within_apply]
  rcases hx.cases (.entered id depth :: trail) (.entered id depth :: trail') with
    ⟨hfirst, hsecond⟩ | ⟨result, after, after', hfirst, hsecond⟩
  · rw [hfirst, hsecond]
  · rw [hfirst, hsecond]
    rfl

end Run

/-! ## Nothing that counts -/

/-- Whether a value can be called and counts how often it was. -/
def Value.counts : Value → Bool
  | .callable _ .counts => true
  | .object _ host =>
    match host.call with
    | some .counts => true
    | _ => false
  | _ => false

/-- Variables have a property that evaluation hands on, and no value with the property counts its calls. -/
structure World.Uncounted (w : World) (P : Value → Prop) : Prop where
  data : ∀ v, v.isData = true → P v
  deferred : ∀ d : Closure, P d.value
  leads : ∀ v next, P v → w.Leads v next → P next
  base : ∀ id c name v, w.context? id = some c → baseValue c name = .ok v → P v
  not_counts : ∀ v, P v → v.counts = false

namespace Evaluation

open Run World

variable {w : World} {meaning : Meaning} {P : Value → Prop}

/-- A call that does not count comes to the same whenever it is made. -/
theorem perform_steady (mark : Option Mark) {act : Act Value} (hact : act ≠ .counts) :
    (perform w mark act).Steady fun _ => True := by
  have hmark : (mark.forM fun m => Run.note (.invoked m)).Steady fun _ => True := by
    cases mark with
    | none => exact steady_pure trivial
    | some m => exact steady_note _
  cases act with
  | returns v => exact hmark.bind fun _ _ => steady_pure trivial
  | fails e => exact hmark.bind fun _ _ => steady_fail e
  | counts => exact absurd rfl hact
  | asks k query =>
    refine hmark.bind fun _ _ => (steady_note _).bind fun _ _ => ?_
    cases w.cursor? k with
    | none => exact steady_fail _
    | some c =>
      dsimp only
      cases c.ask w.live query with
      | ok answer => exact steady_pure trivial
      | error e => exact steady_fail _

section Uncounted

variable (hw : w.Uncounted P)

include hw

theorem keeps_of_lookUpAll {v next : Value} {segments : List Text} (hv : P v)
    (h : lookUpAll w.live v segments = .ok next) : P next := by
  induction segments generalizing v with
  | nil =>
    cases h
    exact hv
  | cons segment segments ih =>
    unfold lookUpAll lookUp at h
    split at h
    · rename_i middle hmiddle
      split at hmiddle
      · rename_i hattribute
        cases hmiddle
        exact ih (hw.leads _ _ hv (.field hattribute)) h
      · exact ih (hw.leads _ _ hv (.item hmiddle)) h
    · cases h

theorem keeps_of_traverse {v next : Value} {traversal : Traversal} {segments : List Text} (hv : P v)
    (h : traverse w.live traversal v segments = .ok next) : P next := by
  unfold traverse at h
  split at h
  · exact keeps_of_lookUpAll hw hv h
  · exact keeps_of_lookUpAll hw hv h
  · split at h
    · cases h
    · exact keeps_of_lookUpAll hw hv h

variable (hm : ∀ id e, (meaning id e).Steady P)

include hm

omit hw in
theorem force_steady {v : Value} (hv : P v) : (force meaning v).Steady P := by
  cases v with
  | deferred e i => exact hm i e
  | _ => exact steady_pure hv

theorem call_steady {v : Value} (hv : P v) :
    ((invoke? w meaning v).getD (return v)).Steady P := by
  have hcounts := hw.not_counts v hv
  cases v with
  | callable mark act =>
    have hact : act ≠ .counts := by
      rintro rfl
      cases hcounts
    exact ⟨(perform_steady mark hact).same,
      fun _ u _ h => hw.leads _ u hv (.callable h)⟩
  | object mark host =>
    cases hcall : host.call with
    | none =>
      simp only [invoke?, hcall]
      exact steady_pure hv
    | some act =>
      have hact : act ≠ .counts := by
        rintro rfl
        simp [Value.counts, hcall] at hcounts
      simp only [invoke?, hcall]
      exact ⟨(perform_steady (some mark) hact).same,
        fun _ u _ h => hw.leads _ u hv (.object hcall h)⟩
  | deferred e i => exact hm i e
  | _ => exact steady_pure hv

omit hw in
/-- However often a value has to be evaluated for its text, the text is the same on every trail. -/
theorem textOf_steady (forcings : Nat) (v : Value) :
    (textOf w meaning forcings v).Steady fun _ => True := by
  induction forcings generalizing v with
  | zero =>
    cases v with
    | deferred e i => exact steady_unfinished
    | _ => exact steady_pure trivial
  | succ forcings ih =>
    cases v with
    | deferred e i => exact (hm i e).bind fun u _ => ih u
    | _ => exact steady_pure trivial

theorem alternative_steady {id : ContextId} {c : Context} (hc : w.context? id = some c)
    (traversal : Traversal) (a : Alternative Expr) :
    (alternative w meaning id c traversal a).Steady P := by
  cases a with
  | route route =>
    refine (steady_ofExcept fun _ _ => trivial).bind fun segments _ =>
      (steady_ofExcept fun base hbase => hw.base id c _ base hc hbase).bind fun base hbase => ?_
    exact (force_steady hm hbase).bind fun v hv =>
      steady_ofExcept fun next hnext => keeps_of_traverse hw hv hnext
  | nested e => exact hm id e

omit hw hm in
theorem resolve_steady (source : Text) {value : Alternative Expr → Run Value}
    (hv : ∀ a, (value a).Steady P) (alternatives : List (Alternative Expr)) :
    (resolve source value alternatives).Steady P := by
  induction alternatives with
  | nil => exact steady_fail _
  | cons first others ih =>
    cases others with
    | nil => exact hv first
    | cons second others => exact (hv first).orElse ih

omit hm in
theorem test_steady {value : Alternative Expr → Run Value}
    (hv : ∀ a, (value a).Steady P) (alternatives : List (Alternative Expr)) :
    (test value alternatives).Steady P := by
  induction alternatives with
  | nil => exact steady_pure (hw.data _ rfl)
  | cons first others ih =>
    exact Steady.orElse ((hv first).bind fun _ _ => steady_pure (hw.data _ rfl)) ih

omit hw hm in
theorem fill_steady {content : Expr → Run Text} (hc : ∀ e, (content e).Steady fun _ => True)
    (pieces : List (Piece Expr)) : (fill content pieces).Steady fun _ => True := by
  induction pieces with
  | nil => exact steady_pure trivial
  | cons piece pieces ih =>
    cases piece with
    | literal t => exact ih.bind fun _ _ => steady_pure trivial
    | site e => exact (hc e).bind fun _ _ => ih.bind fun _ _ => steady_pure trivial

theorem valueOf_steady (forcings : Nat) {id : ContextId} {c : Context} (hc : w.context? id = some c)
    (e : Expr) : (valueOf w meaning forcings id c e).Steady P := by
  cases e with
  | path heading traversal alternatives =>
    have hv := alternative_steady hw hm hc traversal
    simp only [valueOf]
    cases PathMode.ofTypeName heading.typeName with
    | testing => exact test_steady hw hv alternatives
    | holding => exact resolve_steady heading.source hv alternatives
    | invoking => exact (resolve_steady heading.source hv alternatives).bind fun v => call_steady hw hm
  | template heading pieces =>
    refine (fill_steady (fun e => ?_) pieces).bind fun t _ => steady_pure (hw.data _ rfl)
    exact (hm id e).bind fun v _ => textOf_steady hm forcings v
  | negation heading operand => exact (hm id operand).bind fun v _ => steady_pure (hw.data _ rfl)
  | deferral heading operand => exact steady_pure (hw.deferred (operand, id))
  | echo heading => exact steady_pure (hw.data _ rfl)

omit hm in
/-- What an expression evaluates to is the same whatever happened before. -/
theorem evaluate_steady (levels : Nat) (active : List ContextId) (id : ContextId) (e : Expr) :
    (evaluate w levels active id e).Steady P := by
  induction levels generalizing active id e with
  | zero => exact steady_unfinished
  | succ levels ih =>
    simp only [evaluate, guarded]
    cases hc : w.context? id with
    | none => exact steady_fail _
    | some c =>
      dsimp only
      split
      · exact steady_fail _
      · exact (valueOf_steady hw (ih (id :: active)) levels hc e).within id _

end Uncounted

end Evaluation
end TemplateExpressions
