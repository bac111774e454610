import Mathlib.Logic.Relation
import TemplateExpressions.Evaluation
import TemplateExpressions.Proofs.Mapping

/-!
# What evaluations leave deferred

A value can be looked into and called, and something deferred may come to light. Main statement: whatever
limits contexts have, a deferred value that can be reached from what an expression evaluates to is an operand
of a deferral or can be reached from what the evaluation has read (`evaluate_yields`).
-/

set_option autoImplicit false

namespace TemplateExpressions

open Evaluation

/-- An expression with the context that it is evaluated on. -/
abbrev Closure := Expr × ContextId

/-- The value that is a deferred expression. -/
def Closure.value (d : Closure) : Value := .deferred d.1 d.2

namespace Value

mutual

/-- Whether a value is plain data, without objects, callables, cursors and deferred values at any depth. -/
def isData : Value → Bool
  | .nothing | .default | .bool _ | .int _ | .float _ | .text _ => true
  | .list items => isDataItems items
  | .map entries => isDataEntries entries
  | .object _ _ | .callable _ _ | .registry _ | .iterator _ | .deferred _ _ => false

/-- Whether all elements of a list are plain data. -/
def isDataItems : List Value → Bool
  | [] => true
  | v :: vs => v.isData && isDataItems vs

/-- Whether all values of a mapping are plain data. -/
def isDataEntries : List (Text × Value) → Bool
  | [] => true
  | (_, v) :: es => v.isData && isDataEntries es

end

theorem isData_of_mem {items : List Value} (h : isDataItems items = true) {v : Value} (hv : v ∈ items) :
    v.isData = true := by
  induction items with
  | nil => cases hv
  | cons first items ih =>
    simp only [isDataItems, Bool.and_eq_true] at h
    rcases List.mem_cons.1 hv with rfl | hv
    · exact h.1
    · exact ih h.2 hv

theorem isData_of_mem_entries {entries : List (Text × Value)} (h : isDataEntries entries = true)
    {entry : Text × Value} (he : entry ∈ entries) : entry.2.isData = true := by
  induction entries with
  | nil => cases he
  | cons first entries ih =>
    simp only [isDataEntries, Bool.and_eq_true] at h
    rcases List.mem_cons.1 he with rfl | he
    · exact h.1
    · exact ih h.2 he

theorem isDataItems_of_forall_mem {items : List Value} (h : ∀ v ∈ items, v.isData = true) :
    isDataItems items = true := by
  induction items with
  | nil => rfl
  | cons v items ih =>
    obtain ⟨hv, hitems⟩ := List.forall_mem_cons.1 h
    rw [isDataItems, hv, ih hitems]
    rfl

theorem isDataEntries_of_forall_mem {entries : List (Text × Value)}
    (h : ∀ entry ∈ entries, entry.2.isData = true) : isDataEntries entries = true := by
  induction entries with
  | nil => rfl
  | cons entry entries ih =>
    obtain ⟨hentry, hentries⟩ := List.forall_mem_cons.1 h
    rw [isDataEntries, hentry, ih hentries]
    rfl

theorem mem_of_elementAt {α : Type} {elements : List α} {key : Text} {a : α}
    (h : elementAt elements key = .ok a) : a ∈ elements := by
  unfold elementAt at h
  split at h
  · cases h
  · split at h
    · rename_i helement
      cases h
      exact List.mem_of_getElem? helement
    · cases h

/-- What is looked up in plain data is plain data. -/
theorem isData_of_item {live : Live} {v next : Value} {key : Text} (hv : v.isData = true)
    (h : v.item live key = .ok next) : next.isData = true := by
  cases v with
  | list items => exact isData_of_mem hv (mem_of_elementAt h)
  | map entries =>
    cases hget : Mapping.get? entries key with
    | none =>
      simp only [item, hget] at h
      cases h
    | some value =>
      simp only [item, hget] at h
      cases h
      exact isData_of_mem_entries hv (Mapping.mem_of_get? hget)
  | text t =>
    cases helement : elementAt t key with
    | error e =>
      simp only [item, helement] at h
      cases h
    | ok c =>
      simp only [item, helement] at h
      cases h
      rfl
  | _ => first | cases h | cases hv

end Value

namespace World

/-- One value is looked up in another, or is what a call of it gives. Deferred values lead nowhere: to call
one is to evaluate its expression. -/
inductive Leads (w : World) : Value → Value → Prop
  | field {v next : Value} {name : Text} : v.attribute? name = some next → Leads w v next
  | item {v next : Value} {key : Text} : v.item w.live key = .ok next → Leads w v next
  | callable {mark : Option Mark} {act : Act Value} {v : Value} {trail trail' : Trail} :
      perform w mark act trail = .done (.ok v) trail' → Leads w (.callable mark act) v
  | object {mark : Mark} {host : Host Value} {act : Act Value} {v : Value} {trail trail' : Trail} :
      host.call = some act → perform w (some mark) act trail = .done (.ok v) trail' →
      Leads w (.object mark host) v

/-- A deferred value is, or can be found in, a value. -/
def Reaches (w : World) (v : Value) (d : Closure) : Prop := Relation.ReflTransGen w.Leads v d.value

/-- What an evaluation may leave deferred. A base that is deferred is evaluated at once, so only what that
leaves counts, and likewise for a deferred value that a path calls. -/
inductive Defers (w : World) : Closure → Closure → Prop
  | operand {heading : Heading} {operand : Expr} {id : ContextId} :
      Defers w (.deferral heading operand, id) (operand, id)
  | nested {heading : Heading} {traversal : Traversal} {alternatives : List (Alternative Expr)}
      {e : Expr} {id : ContextId} {d : Closure} : .nested e ∈ alternatives → Defers w (e, id) d →
      Defers w (.path heading traversal alternatives, id) d
  | read {heading : Heading} {traversal : Traversal} {alternatives : List (Alternative Expr)}
      {route : Route} {id : ContextId} {c : Context} {v : Value} {d : Closure} :
      .route route ∈ alternatives → w.context? id = some c → baseValue c route.base = .ok v →
      Relation.TransGen w.Leads v d.value → Defers w (.path heading traversal alternatives, id) d
  | forced {heading : Heading} {traversal : Traversal} {alternatives : List (Alternative Expr)}
      {route : Route} {id : ContextId} {c : Context} {base d : Closure} :
      .route route ∈ alternatives → w.context? id = some c →
      baseValue c route.base = .ok base.value → Defers w base d →
      Defers w (.path heading traversal alternatives, id) d
  | called {heading : Heading} {traversal : Traversal} {alternatives : List (Alternative Expr)}
      {id : ContextId} {callee d : Closure} :
      Defers w (.path heading traversal alternatives, id) callee → Defers w callee d →
      Defers w (.path heading traversal alternatives, id) d

/-- Everything deferred that can be reached from the value may have been left by the evaluation. -/
def Accounts (w : World) (a : Closure) (v : Value) : Prop := ∀ d, w.Reaches v d → w.Defers a d

variable {w : World} {v next : Value} {d : Closure}

theorem Reaches.head (h : w.Leads v next) (hnext : w.Reaches next d) : w.Reaches v d :=
  Relation.ReflTransGen.head h hnext

theorem not_leads_deferred : ¬ w.Leads d.value v := by
  intro h
  cases h with
  | field h => cases h
  | item h => cases h

/-- Only a deferred value is reached from a deferred one, itself. -/
theorem eq_of_reaches_value {base : Closure} (h : w.Reaches base.value d) : d = base := by
  rcases Relation.ReflTransGen.cases_head h with heq | ⟨_, hleads, -⟩
  · simp only [Closure.value, Value.deferred.injEq] at heq
    exact (Prod.ext heq.1 heq.2).symm
  · exact absurd hleads not_leads_deferred

/-- A property that looking into values and calling them preserves, and that no deferred value has, keeps
everything deferred out of reach. -/
theorem not_reaches_of_invariant {P : Value → Prop} (hstep : ∀ v next, P v → w.Leads v next → P next)
    (hdeferred : ∀ d : Closure, ¬ P d.value) (hv : P v) : ¬ w.Reaches v d := by
  intro h
  have hreached : ∀ u, Relation.ReflTransGen w.Leads v u → P u := by
    intro u hu
    induction hu with
    | refl => exact hv
    | tail _ hleads ih => exact hstep _ _ ih hleads
  exact hdeferred d (hreached _ h)

theorem isData_of_leads (hv : v.isData = true) (h : w.Leads v next) : next.isData = true := by
  cases h with
  | field h => cases v <;> first | cases h | cases hv
  | item h => exact Value.isData_of_item hv h
  | callable h => cases hv
  | object hcall h => cases hv

/-- Nothing deferred is found in plain data. -/
theorem not_reaches_of_isData (hv : v.isData = true) : ¬ w.Reaches v d :=
  not_reaches_of_invariant (P := fun v => v.isData = true) (fun _ _ => isData_of_leads)
    (fun _ h => by cases h) hv

end World

/-! ## Values of runs -/

namespace Run

variable {α β : Type} {P : α → Prop} {Q : β → Prop}

/-- Whatever value the run ends with has the property. -/
def Yields (P : α → Prop) (x : Run α) : Prop :=
  ∀ trail a trail', x trail = .done (.ok a) trail' → P a

theorem yields_pure {a : α} (h : P a) : (Pure.pure a : Run α).Yields P := by
  intro trail b trail' hrun
  cases hrun
  exact h

theorem yields_fail (e : EvalError) : (fail e : Run α).Yields P := by
  intro trail a trail' hrun
  cases hrun

theorem yields_unfinished : (unfinished : Run α).Yields P := by
  intro trail a trail' hrun
  cases hrun

theorem yields_ofExcept {result : Except EvalError α} (h : ∀ a, result = .ok a → P a) :
    (ofExcept result).Yields P := by
  cases result with
  | ok a => exact yields_pure (h a rfl)
  | error e => exact yields_fail e

theorem yields_true (x : Run α) : x.Yields fun _ => True := fun _ _ _ _ => trivial

theorem Yields.mono {P' : α → Prop} {x : Run α} (hx : x.Yields P) (h : ∀ a, P a → P' a) :
    x.Yields P' := fun trail a trail' hrun => h a (hx trail a trail' hrun)

theorem Yields.bind {x : Run α} {f : α → Run β} (hx : x.Yields P) (hf : ∀ a, P a → (f a).Yields Q) :
    (x >>= f).Yields Q := by
  intro trail b trail' h
  rw [bind_apply] at h
  split at h
  · rename_i a middle hfirst
    exact hf a (hx _ _ _ hfirst) _ _ _ h
  · cases h
  · cases h

theorem Yields.orElse {x y : Run α} (hx : x.Yields P) (hy : y.Yields P) : (x.orElse y).Yields P := by
  intro trail a trail' h
  rw [orElse_apply] at h
  split at h
  · split at h
    · exact hy _ _ _ h
    · cases h
  · exact hx _ _ _ h

theorem Yields.within {x : Run α} (hx : x.Yields P) (id : ContextId) (depth : Nat) :
    (within id depth x).Yields P := by
  intro trail a trail' h
  rw [within_apply] at h
  split at h
  · rename_i result middle hinner
    cases h
    exact hx _ _ _ hinner
  · cases h

/-- What comes after a run has to be the same only for the values that the run ends with. -/
theorem Yields.bind_congr {x : Run α} {f f' : α → Run β} (hx : x.Yields P)
    (hf : ∀ a, P a → f a = f' a) : x >>= f = x >>= f' := by
  funext trail
  rw [bind_apply, bind_apply]
  split
  · rename_i a middle hfirst
    rw [hf a (hx _ _ _ hfirst)]
  · rfl
  · rfl

end Run

namespace Evaluation

open Run World

variable {w : World} {meaning : Meaning}

/-! ## Looking into values -/

theorem reaches_of_lookUpAll {v next : Value} {d : Closure} {segments : List Text}
    (h : lookUpAll w.live v segments = .ok next) (hnext : w.Reaches next d) : w.Reaches v d := by
  induction segments generalizing v with
  | nil =>
    cases h
    exact hnext
  | cons segment segments ih =>
    unfold lookUpAll lookUp at h
    split at h
    · rename_i middle hmiddle
      split at hmiddle
      · rename_i hattribute
        cases hmiddle
        exact .head (.field hattribute) (ih h)
      · exact .head (.item hmiddle) (ih h)
    · cases h

theorem reaches_of_traverse {v next : Value} {d : Closure} {traversal : Traversal} {segments : List Text}
    (h : traverse w.live traversal v segments = .ok next) (hnext : w.Reaches next d) :
    w.Reaches v d := by
  unfold traverse at h
  split at h
  · exact reaches_of_lookUpAll h hnext
  · exact reaches_of_lookUpAll h hnext
  · split at h
    · cases h
    · exact reaches_of_lookUpAll h hnext

/-! ## What evaluations yield -/

theorem resolve_yields {P : Value → Prop} (source : Text) {value : Alternative Expr → Run Value}
    {alternatives : List (Alternative Expr)} (hv : ∀ a ∈ alternatives, (value a).Yields P) :
    (resolve source value alternatives).Yields P := by
  induction alternatives with
  | nil => exact yields_fail _
  | cons first others ih =>
    have hfirst : (value first).Yields P := hv first List.mem_cons_self
    cases others with
    | nil => exact hfirst
    | cons second others =>
      exact hfirst.orElse (ih fun a ha => hv a (List.mem_cons_of_mem _ ha))

theorem test_yields {value : Alternative Expr → Run Value} (alternatives : List (Alternative Expr)) :
    (test value alternatives).Yields fun v => ∃ b, v = .bool b := by
  induction alternatives with
  | nil => exact yields_pure ⟨false, rfl⟩
  | cons first others ih =>
    exact ((yields_true _).bind fun _ _ => yields_pure ⟨true, rfl⟩).orElse ih

section Meaning

variable (hm : ∀ id e, (meaning id e).Yields (w.Accounts (e, id)))

include hm

/-- What is reached from a base, or from what it evaluates to, is deferred by the path. -/
theorem follow_yields {id : ContextId} {c : Context} (hc : w.context? id = some c) (heading : Heading)
    (traversal : Traversal) {alternatives : List (Alternative Expr)} {route : Route}
    (hroute : .route route ∈ alternatives) :
    (follow w meaning c traversal route).Yields
      (w.Accounts (.path heading traversal alternatives, id)) := by
  refine (yields_true _).bind fun segments _ => (yields_ofExcept fun _ h => h).bind fun base hbase => ?_
  refine Yields.bind (P := fun v => w.Accounts (.path heading traversal alternatives, id) v) ?_
    fun v hv => yields_ofExcept fun next hnext d hd => hv d (reaches_of_traverse hnext hd)
  cases base with
  | deferred e i =>
    have hbase : baseValue c route.base = .ok (Closure.value (e, i)) := hbase
    exact fun trail v trail' h d hd => .forced hroute hc hbase (hm i e trail v trail' h d hd)
  | _ =>
    refine yields_pure fun d hd => .read hroute hc hbase ?_
    exact (Relation.reflTransGen_iff_eq_or_transGen.1 hd).resolve_left fun heq => by cases heq

theorem alternative_yields {id : ContextId} {c : Context} (hc : w.context? id = some c)
    (heading : Heading) (traversal : Traversal) {alternatives : List (Alternative Expr)}
    {a : Alternative Expr} (ha : a ∈ alternatives) :
    (alternative w meaning id c traversal a).Yields
      (w.Accounts (.path heading traversal alternatives, id)) := by
  cases a with
  | route route => exact follow_yields hm hc heading traversal ha
  | nested e => exact fun trail v trail' h d hd => .nested ha (hm id e trail v trail' h d hd)

theorem resolve_alternative_yields {id : ContextId} {c : Context} (hc : w.context? id = some c)
    (source : Text) (heading : Heading) (traversal : Traversal)
    (alternatives : List (Alternative Expr)) :
    (resolve source (alternative w meaning id c traversal) alternatives).Yields
      (w.Accounts (.path heading traversal alternatives, id)) :=
  resolve_yields source fun _ ha => alternative_yields hm hc heading traversal ha

/-- A path that calls what it arrives at leaves what the call leaves. -/
theorem called_yields {heading : Heading} {traversal : Traversal}
    {alternatives : List (Alternative Expr)} {id : ContextId} {v : Value}
    (hv : w.Accounts (.path heading traversal alternatives, id) v) :
    ((invoke? w meaning v).getD (return v)).Yields
      (w.Accounts (.path heading traversal alternatives, id)) := by
  cases v with
  | callable mark act => exact fun trail u trail' h d hd => hv d (.head (.callable h) hd)
  | object mark host =>
    cases hcall : host.call with
    | none =>
      simp only [invoke?, hcall]
      exact yields_pure hv
    | some act =>
      simp only [invoke?, hcall]
      exact fun trail u trail' h d hd => hv d (.head (.object hcall h) hd)
  | deferred e i =>
    have hcallee : w.Defers (.path heading traversal alternatives, id) (e, i) := hv (e, i) (.refl)
    exact fun trail u trail' h d hd => .called hcallee (hm i e trail u trail' h d hd)
  | _ => exact yields_pure hv

theorem valueOf_yields (forcings : Nat) {id : ContextId} {c : Context} (hc : w.context? id = some c)
    (e : Expr) : (valueOf w meaning forcings id c e).Yields (w.Accounts (e, id)) := by
  cases e with
  | path heading traversal alternatives =>
    have hresolved := resolve_alternative_yields hm hc heading.source heading traversal alternatives
    simp only [valueOf]
    cases PathMode.ofTypeName heading.typeName with
    | testing =>
      refine (test_yields alternatives).mono ?_
      rintro _ ⟨b, rfl⟩ d hd
      exact absurd hd (not_reaches_of_isData rfl)
    | holding => exact hresolved
    | invoking => exact hresolved.bind fun v hv => called_yields hm hv
  | template heading pieces =>
    exact (yields_true _).bind fun t _ => yields_pure fun d hd => absurd hd (not_reaches_of_isData rfl)
  | negation heading operand =>
    exact (yields_true _).bind fun v _ => yields_pure fun d hd => absurd hd (not_reaches_of_isData rfl)
  | deferral heading operand =>
    refine yields_pure fun d (hd : w.Reaches (Closure.value (operand, id)) d) => ?_
    rw [eq_of_reaches_value hd]
    exact .operand
  | echo heading => exact yields_pure fun d hd => absurd hd (not_reaches_of_isData rfl)

end Meaning

/-- Whatever an evaluation ends with, what is deferred in it has been left by the evaluation. -/
theorem evaluate_yields (w : World) (levels : Nat) (active : List ContextId) (id : ContextId) (e : Expr) :
    (evaluate w levels active id e).Yields (w.Accounts (e, id)) := by
  induction levels generalizing active id e with
  | zero => exact yields_unfinished
  | succ levels ih =>
    simp only [evaluate, guarded]
    cases hc : w.context? id with
    | none => exact yields_fail _
    | some c =>
      dsimp only
      split
      · exact yields_fail _
      · exact (valueOf_yields (ih (id :: active)) levels hc e).within id _

end Evaluation
end TemplateExpressions
