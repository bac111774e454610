import Mathlib.Algebra.Order.BigOperators.Group.Finset
import TemplateExpressions.Proofs.Evaluation.Mentioned

/-!
# Evaluations that end

Depth limits bound how many evaluations lie inside one another (`World.room`), but not how often a value is
evaluated to make text of it: a deferred value may come to another one time and again. Main statement: that is
the only way not to end; where no endless chain of deferred values can come about, every evaluation ends and
every value has a text (`text_ends`).
-/

set_option autoImplicit false

namespace TemplateExpressions

open Evaluation

/-! ## Runs that no longer depend on levels -/

namespace Run

variable {α β : Type} {P : α → Prop}

/-- From every trail, all runs of the family from some one on end in the same way. -/
def Settles (x : Nat → Run α) : Prop :=
  ∀ trail, ∃ n result trail', ∀ m, n ≤ m → x m trail = .done result trail'

theorem settles_pure (a : α) : Settles fun _ => (Pure.pure a : Run α) :=
  fun trail => ⟨0, _, trail, fun _ _ => rfl⟩

theorem settles_fail (e : EvalError) : Settles fun _ => (fail e : Run α) :=
  fun _ => ⟨0, _, _, fun _ _ => rfl⟩

theorem settles_ofExcept (result : Except EvalError α) : Settles fun _ => ofExcept result := by
  cases result with
  | ok a => exact settles_pure a
  | error e => exact settles_fail e

theorem settles_note (event : Event) : Settles fun _ => note event :=
  fun trail => ⟨0, _, event :: trail, fun _ _ => rfl⟩

theorem settles_trail : Settles fun _ => Run.trail := fun trail => ⟨0, _, trail, fun _ _ => rfl⟩

/-- It matters only what the family is from some place on. -/
theorem Settles.congr {x y : Nat → Run α} (hy : Settles y) {k : Nat} (h : ∀ m, k ≤ m → x m = y m) :
    Settles x := by
  intro trail
  obtain ⟨n, result, trail', hdone⟩ := hy trail
  refine ⟨max k n, result, trail', fun m hm => ?_⟩
  rw [h m (le_trans (le_max_left _ _) hm)]
  exact hdone m (le_trans (le_max_right _ _) hm)

theorem Settles.of_succ {x : Nat → Run α} (h : Settles fun m => x (m + 1)) : Settles x := by
  intro trail
  obtain ⟨n, result, trail', hdone⟩ := h trail
  refine ⟨n + 1, result, trail', fun m hm => ?_⟩
  obtain ⟨k, rfl⟩ := Nat.exists_eq_add_of_le' hm
  exact hdone (k + n) (Nat.le_add_left _ _)

theorem Settles.bind {x : Nat → Run α} {f : Nat → α → Run β} (hx : Settles x)
    (hP : ∀ m, (x m).Yields P) (hf : ∀ a, P a → Settles fun m => f m a) :
    Settles fun m => x m >>= f m := by
  intro trail
  obtain ⟨n, result, middle, hfirst⟩ := hx trail
  cases result with
  | error e =>
    refine ⟨n, .error e, middle, fun m hm => ?_⟩
    simp only [bind_apply, hfirst m hm]
  | ok a =>
    obtain ⟨n', result, trail', hsecond⟩ := hf a (hP n _ _ _ (hfirst n le_rfl)) middle
    refine ⟨max n n', result, trail', fun m hm => ?_⟩
    simp only [bind_apply, hfirst m (le_trans (le_max_left _ _) hm)]
    exact hsecond m (le_trans (le_max_right _ _) hm)

theorem Settles.orElse {x y : Nat → Run α} (hx : Settles x) (hy : Settles y) :
    Settles fun m => (x m).orElse (y m) := by
  intro trail
  obtain ⟨n, result, middle, hfirst⟩ := hx trail
  obtain ⟨n', result', trail', hsecond⟩ := hy middle
  by_cases hundefined : ∃ e, result = .error e ∧ e.isUndefined = true
  · obtain ⟨e, rfl, he⟩ := hundefined
    refine ⟨max n n', result', trail', fun m hm => ?_⟩
    simp only [orElse_apply, hfirst m (le_trans (le_max_left _ _) hm), he, if_true]
    exact hsecond m (le_trans (le_max_right _ _) hm)
  · refine ⟨n, result, middle, fun m hm => ?_⟩
    simp only [orElse_apply, hfirst m hm]
    cases result with
    | ok a => rfl
    | error e => simp only [if_neg fun he => hundefined ⟨e, rfl, he⟩]

theorem Settles.within {x : Nat → Run α} (hx : Settles x) (id : ContextId) (depth : Nat) :
    Settles fun m => within id depth (x m) := by
  intro trail
  obtain ⟨n, result, middle, hinner⟩ := hx (.entered id depth :: trail)
  refine ⟨n, result, .left id (error? result) :: middle, fun m hm => ?_⟩
  simp only [within_apply, hinner m hm]

end Run

/-! ## Room for evaluations inside one another -/

namespace World

/-- How many evaluations may begin inside the active ones, over all contexts. -/
def room (w : World) (active : List ContextId) : Nat :=
  (Finset.range w.contexts.length).sum fun id => w.limit id - active.count id

theorem limit_eq {w : World} {id : ContextId} {c : Context} (hc : w.context? id = some c) :
    w.limit id = c.maxDepth := by
  simp [limit, hc]

/-- There is less room inside an evaluation. -/
theorem room_cons_lt {w : World} {active : List ContextId} {id : ContextId} {c : Context}
    (hc : w.context? id = some c) (hdepth : active.count id < c.maxDepth) :
    w.room (id :: active) < w.room active := by
  have hid : id < w.contexts.length :=
    (List.getElem?_eq_some_iff.1 (Option.filter_eq_some_iff.1 hc).1).1
  have hlimit := limit_eq hc
  refine Finset.sum_lt_sum (fun i _ => ?_) ⟨id, Finset.mem_range.2 hid, ?_⟩
  · have hle : active.count i ≤ (id :: active).count i := List.count_le_count_cons
    omega
  · have hcount : (id :: active).count id = active.count id + 1 := List.count_cons_self
    omega

end World

/-! ## Chains that end -/

/-- Whether an alternative is a route. -/
def Alternative.isRoute : Alternative Expr → Bool
  | .route _ => true
  | .nested _ => false

/-- Whether a value is a deferred path without prefixed fallbacks. -/
def Value.defersRoutes : Value → Bool
  | .deferred (.path _ _ alternatives) _ => alternatives.all Alternative.isRoute
  | _ => false

theorem sizeOf_lt_of_nested {e : Expr} {heading : Heading} {traversal : Traversal}
    {alternatives : List (Alternative Expr)} (h : .nested e ∈ alternatives) :
    sizeOf e < sizeOf (Expr.path heading traversal alternatives) := by
  have hlt := List.sizeOf_lt_of_mem h
  simp only [Alternative.nested.sizeOf_spec] at hlt
  simp only [Expr.path.sizeOf_spec]
  omega

namespace World

/-- There is no endless chain of deferred values in which the evaluation of each may leave the next one. -/
def ChainsEnd (w : World) : Prop := WellFounded fun d d' => w.Defers d' d

/-- Every variable is plain, or a deferred path without prefixed fallbacks. -/
def BindsRoutes (w : World) : Prop :=
  ∀ id c name v, w.context? id = some c → baseValue c name = .ok v → v.Plain ∨ v.defersRoutes = true

theorem bindsRoutes_of_bindings {w : World} (h : ∀ c ∈ w.contexts,
    (c.roots.all fun entry => entry.2.isPlain) = true ∧
      (c.bindings.all fun entry => entry.2.isPlain || entry.2.defersRoutes) = true) :
    w.BindsRoutes := by
  intro id c name v hc hbase
  obtain ⟨hroots, hbindings⟩ := h c (List.mem_of_getElem? (Option.filter_eq_some_iff.1 hc).1)
  rcases baseValue_cases hbase with rfl | hentry
  · exact .inl (.entries fun entry he => Value.plain_of_isPlain (List.all_eq_true.1 hroots entry he))
  · have hvalue := List.all_eq_true.1 hbindings _ hentry
    exact (Bool.or_eq_true_iff.1 hvalue).imp_left Value.plain_of_isPlain

section Routes

variable {w : World} (hcursors : ∀ cursor ∈ w.cursors, Value.isDataItems cursor.behind = true)
  (hbinds : w.BindsRoutes)

include hcursors hbinds

theorem not_transGen_of_bindsRoutes {id : ContextId} {c : Context} {name : Text} {v : Value} {d : Closure}
    (hc : w.context? id = some c) (hbase : baseValue c name = .ok v) :
    ¬ Relation.TransGen w.Leads v d.value := by
  intro h
  rcases hbinds id c name v hc hbase with hplain | hroutes
  · exact not_reaches_of_plain hcursors hplain h.to_reflTransGen
  · obtain ⟨next, hleads, -⟩ := Relation.TransGen.head'_iff.1 h
    cases v with
    | deferred e i => exact not_leads_deferred (d := (e, i)) hleads
    | _ => cases hroutes

/-- Such paths leave nothing deferred, even if they lead back to one another. -/
theorem not_defers_of_routes {a d : Closure} (h : w.Defers a d) (ha : a.value.defersRoutes = true) :
    False := by
  induction h with
  | operand => cases ha
  | nested he _ _ => cases List.all_eq_true.1 ha _ he
  | read _ hc hbase hleads => exact not_transGen_of_bindsRoutes hcursors hbinds hc hbase hleads
  | forced _ hc hbase _ ih =>
    rcases hbinds _ _ _ _ hc hbase with hplain | hroutes
    · exact not_reaches_of_plain hcursors hplain .refl
    · exact ih hroutes
  | called _ _ ih _ => exact ih ha

/-- No chain is endless where variables are plain or deferred paths of routes, whichever of these are
evaluated in the course of one another. -/
theorem chainsEnd_of_bindsRoutes : w.ChainsEnd := by
  have hsmaller : ∀ a d, w.Defers a d → sizeOf d.1 < sizeOf a.1 := by
    intro a d h
    induction h with
    | operand => simp
    | nested he _ ih => exact ih.trans (sizeOf_lt_of_nested he)
    | read _ hc hbase hleads =>
      exact absurd hleads (not_transGen_of_bindsRoutes hcursors hbinds hc hbase)
    | forced hr hc hbase h _ =>
      rcases hbinds _ _ _ _ hc hbase with hplain | hroutes
      · exact absurd .refl (not_reaches_of_plain hcursors hplain)
      · exact (not_defers_of_routes hcursors hbinds h hroutes).elim
    | called _ _ ihcallee ih => exact ih.trans ihcallee
  exact Subrelation.wf (fun h => hsmaller _ _ h) (measure fun d : Closure => sizeOf d.1).wf

end Routes

end World

namespace Evaluation

open Run World

variable {w : World}

/-! ## Evaluations settle -/

theorem perform_settles (mark : Option Mark) (act : Act Value) :
    Settles fun _ => perform w mark act := by
  have hmark : Settles fun _ => mark.forM fun m => Run.note (.invoked m) := by
    cases mark with
    | none => exact settles_pure _
    | some m => exact settles_note _
  cases act with
  | returns v => exact hmark.bind (fun _ => yields_true _) fun _ _ => settles_pure _
  | fails e => exact hmark.bind (fun _ => yields_true _) fun _ _ => settles_fail _
  | counts =>
    refine hmark.bind (fun _ => yields_true _) fun _ _ => ?_
    exact settles_trail.bind (fun _ => yields_true _) fun _ _ => settles_pure _
  | asks k query =>
    refine hmark.bind (fun _ => yields_true _) fun _ _ => ?_
    refine (settles_note _).bind (fun _ => yields_true _) fun _ _ => ?_
    cases w.cursor? k with
    | none => exact settles_fail _
    | some c =>
      dsimp only
      cases c.ask w.live query with
      | ok answer => exact settles_pure _
      | error e => exact settles_fail _

/-- The text of a value that is not deferred is there at once. -/
theorem textOf_eq_pure {v : Value} (h : ∀ d : Closure, v ≠ d.value) :
    ∃ t, ∀ meaning forcings, textOf w meaning forcings v = return t := by
  cases v with
  | deferred e id => exact absurd rfl (h (e, id))
  | text t => exact ⟨t, fun _ forcings => by cases forcings <;> rfl⟩
  | _ => exact ⟨_, fun _ forcings => by cases forcings <;> rfl⟩

section Meaning

variable {meaning : Nat → Meaning} (hm : ∀ id e, Settles fun m => meaning m id e)

include hm

theorem force_settles (v : Value) : Settles fun m => force (meaning m) v := by
  cases v with
  | deferred e id => exact hm id e
  | _ => exact settles_pure _

theorem call_settles (v : Value) :
    Settles fun m => (invoke? w (meaning m) v).getD (return v) := by
  cases v with
  | callable mark act => exact perform_settles mark act
  | object mark host =>
    cases hcall : host.call with
    | none =>
      simp only [invoke?, hcall]
      exact settles_pure _
    | some act =>
      simp only [invoke?, hcall]
      exact perform_settles (some mark) act
  | deferred e id => exact hm id e
  | _ => exact settles_pure _

theorem alternative_settles (id : ContextId) (c : Context) (traversal : Traversal)
    (a : Alternative Expr) : Settles fun m => alternative w (meaning m) id c traversal a := by
  cases a with
  | route route =>
    refine (settles_ofExcept _).bind (fun _ => yields_true _) fun segments _ => ?_
    refine (settles_ofExcept _).bind (fun _ => yields_true _) fun base _ => ?_
    exact (force_settles hm base).bind (fun _ => yields_true _) fun v _ => settles_ofExcept _
  | nested e => exact hm id e

omit hm in
theorem resolve_settles (source : Text) {value : Nat → Alternative Expr → Run Value}
    (hv : ∀ a, Settles fun m => value m a) (alternatives : List (Alternative Expr)) :
    Settles fun m => resolve source (value m) alternatives := by
  induction alternatives with
  | nil => exact settles_fail _
  | cons first others ih =>
    cases others with
    | nil => exact hv first
    | cons second others => exact (hv first).orElse ih

omit hm in
theorem test_settles {value : Nat → Alternative Expr → Run Value}
    (hv : ∀ a, Settles fun m => value m a) (alternatives : List (Alternative Expr)) :
    Settles fun m => test (value m) alternatives := by
  induction alternatives with
  | nil => exact settles_pure _
  | cons first others ih =>
    exact Settles.orElse ((hv first).bind (fun _ => yields_true _) fun _ _ => settles_pure _) ih

omit hm in
theorem fill_settles {content : Nat → Expr → Run Text} (hc : ∀ e, Settles fun m => content m e)
    (pieces : List (Piece Expr)) : Settles fun m => fill (content m) pieces := by
  induction pieces with
  | nil => exact settles_pure _
  | cons piece pieces ih =>
    cases piece with
    | literal t => exact ih.bind (fun _ => yields_true _) fun _ _ => settles_pure _
    | site e =>
      refine (hc e).bind (fun _ => yields_true _) fun _ _ => ?_
      exact ih.bind (fun _ => yields_true _) fun _ _ => settles_pure _

variable (hchains : w.ChainsEnd) (hyields : ∀ m id e, (meaning m id e).Yields (w.Accounts (e, id)))

include hchains hyields

/-- A deferred value that does not begin an endless chain has a text, given ever more forcings. -/
theorem textOf_deferred_settles (d : Closure) {forcings : Nat → Nat}
    (hforcings : ∀ k, ∃ n, ∀ m, n ≤ m → k ≤ forcings m) :
    Settles fun m => textOf w (meaning m) (forcings m) d.value := by
  induction d using hchains.induction generalizing forcings with
  | _ d ih =>
    obtain ⟨n, hn⟩ := hforcings 1
    have hfewer : ∀ k, ∃ n, ∀ m, n ≤ m → k ≤ forcings m - 1 := fun k =>
      (hforcings (k + 1)).imp fun _ hk m hle => Nat.le_sub_of_add_le (hk m hle)
    have hnext : Settles fun m => meaning m d.2 d.1 >>= textOf w (meaning m) (forcings m - 1) := by
      refine (hm d.2 d.1).bind (fun m => hyields m d.2 d.1) fun v hv => ?_
      by_cases hdeferred : ∃ d' : Closure, v = d'.value
      · obtain ⟨d', rfl⟩ := hdeferred
        exact ih d' (hv d' .refl) hfewer
      · obtain ⟨t, ht⟩ := textOf_eq_pure (w := w) (not_exists.1 hdeferred)
        simp only [ht]
        exact settles_pure t
    refine hnext.congr fun m (hle : n ≤ m) => ?_
    obtain ⟨k, hk⟩ := Nat.exists_eq_add_of_le' (hn m hle)
    rw [hk]
    rfl

theorem textOf_settles (v : Value) : Settles fun m => textOf w (meaning m) m v := by
  by_cases hdeferred : ∃ d : Closure, v = d.value
  · obtain ⟨d, rfl⟩ := hdeferred
    exact textOf_deferred_settles hm hchains hyields d fun k => ⟨k, fun _ h => h⟩
  · obtain ⟨t, ht⟩ := textOf_eq_pure (w := w) (not_exists.1 hdeferred)
    simp only [ht]
    exact settles_pure t

theorem valueOf_settles (id : ContextId) (c : Context) (e : Expr) :
    Settles fun m => valueOf w (meaning m) m id c e := by
  cases e with
  | path heading traversal alternatives =>
    have hv := alternative_settles (w := w) hm id c traversal
    simp only [valueOf]
    cases PathMode.ofTypeName heading.typeName with
    | testing => exact test_settles hv alternatives
    | holding => exact resolve_settles heading.source hv alternatives
    | invoking =>
      refine (resolve_settles heading.source hv alternatives).bind (fun _ => yields_true _) ?_
      exact fun v _ => call_settles hm v
  | template heading pieces =>
    refine (fill_settles (fun e => ?_) pieces).bind (fun _ => yields_true _) fun _ _ => settles_pure _
    exact (hm id e).bind (fun _ => yields_true _) fun v _ => textOf_settles hm hchains hyields v
  | negation heading operand =>
    exact (hm id operand).bind (fun _ => yields_true _) fun _ _ => settles_pure _
  | deferral heading operand => exact settles_pure _
  | echo heading => exact settles_pure _

end Meaning

/-- Every evaluation ends, since inside of it there is less room for others. -/
theorem evaluate_settles (hchains : w.ChainsEnd) (active : List ContextId) (id : ContextId) (e : Expr) :
    Settles fun levels => evaluate w levels active id e := by
  induction active using (measure w.room).wf.induction generalizing id e with
  | _ active ih =>
    refine Settles.of_succ ?_
    simp only [evaluate, guarded]
    cases hc : w.context? id with
    | none => exact settles_fail _
    | some c =>
      dsimp only
      split
      · exact settles_fail _
      · rename_i hdepth
        have hroom : w.room (id :: active) < w.room active := room_cons_lt hc (by omega)
        exact (valueOf_settles (fun i e => ih (id :: active) hroom i e) hchains
          (fun m i e => evaluate_yields w m (id :: active) i e) id c e).within id _

/-- What comes back to itself whenever it is evaluated has no text. -/
theorem textOf_eq_unfinished {w : World} {meaning : Meaning} {d : Closure}
    (h : ∀ trail, meaning d.2 d.1 trail = .unfinished ∨
      ∃ trail', meaning d.2 d.1 trail = .done (.ok d.value) trail') (forcings : Nat) (trail : Trail) :
    textOf w meaning forcings d.value trail = .unfinished := by
  induction forcings generalizing trail with
  | zero => rfl
  | succ forcings ih =>
    change (meaning d.2 d.1 >>= textOf w meaning forcings) trail = .unfinished
    rw [bind_apply]
    rcases h trail with hnone | ⟨trail', hback⟩
    · rw [hnone]
    · rw [hback]
      exact ih trail'

end Evaluation

/-- Where no endless chain of deferred values can come about, values have texts and evaluations end, be it for
their values or for output: from some number of levels and forcings on they come to the same. -/
theorem text_ends {w : World} (hchains : w.ChainsEnd) (v : Value) (id : ContextId) (e : Expr) :
    (Run.Settles fun levels => textOf w (evaluate w levels []) levels v) ∧
      (Run.Settles fun levels => evaluate w levels [] id e) ∧
      Run.Settles fun levels =>
        (Inquiry.text id (.compiled e)).run w (evaluate w levels []) levels := by
  have hm : ∀ i e, Run.Settles fun levels => evaluate w levels [] i e :=
    evaluate_settles hchains []
  have hyields : ∀ m i e, (evaluate w m [] i e).Yields (w.Accounts (e, i)) :=
    fun m => evaluate_yields w m []
  refine ⟨textOf_settles hm hchains hyields v, hm id e, ?_⟩
  refine (hm id e).bind (fun _ => Run.yields_true _) fun u _ => ?_
  have htext := (textOf_settles hm hchains hyields u).bind (fun _ => Run.yields_true _)
    fun t _ => Run.settles_pure (Value.text t)
  cases u with
  | default => exact Run.settles_pure _
  | nothing => exact Run.settles_pure _
  | text t => exact Run.settles_pure _
  | _ => exact htext

/-- Two deferred values that are evaluated in the course of one another, on a context that allows two
evaluations at a time. -/
def mutualPaths : List Operation :=
  [.newContext { ContextBuilder.ofEngine .standard with maxDepth := 2 },
   .setLocal 0 ['x'] (.deferred (.path ⟨"path".toList, ['y']⟩ .plain [.route ⟨['y'], []⟩]) 0),
   .setLocal 0 ['y'] (.deferred (.path ⟨"path".toList, ['x']⟩ .plain [.route ⟨['x'], []⟩]) 0)]

theorem text_of_mutualPaths :
    ∃ s x, (Session.start .standard).run mutualPaths = some s ∧ s.get? 0 ['x'] = some x ∧
      (Run.Settles fun levels => textOf s.world (evaluate s.world levels []) levels x) ∧
      ∃ trail, textOf s.world (evaluate s.world 9 []) 9 x [] =
        .done (.error (.depthExceeded 3 2)) trail := by
  obtain ⟨s, x, hrun, hx, hcursors, ⟨c, hcontexts, hentries⟩, htext⟩ :
      ∃ s x, (Session.start .standard).run mutualPaths = some s ∧ s.get? 0 ['x'] = some x ∧
        s.world.cursors = [] ∧
        (∃ c, s.world.contexts = [c] ∧ (c.roots.all fun entry => entry.2.isPlain) = true ∧
          (c.bindings.all fun entry => entry.2.isPlain || entry.2.defersRoutes) = true) ∧
        ∃ trail, textOf s.world (evaluate s.world 9 []) 9 x [] =
          .done (.error (.depthExceeded 3 2)) trail :=
    ⟨_, _, rfl, rfl, rfl, ⟨_, rfl, rfl, rfl⟩, _, rfl⟩
  have hchains : s.world.ChainsEnd := by
    refine World.chainsEnd_of_bindsRoutes (fun cursor hcursor => ?_)
      (World.bindsRoutes_of_bindings fun c' hc' => ?_)
    · rw [hcursors] at hcursor
      cases hcursor
    · rw [hcontexts, List.mem_singleton] at hc'
      rw [hc']
      exact hentries
  exact ⟨s, x, hrun, hx, (text_ends hchains x 0 (.echo ⟨[], []⟩)).1, htext⟩

/-- The deferred `x/0`, which is not called. -/
def firstOfX : Closure :=
  (.path ⟨"nocall".toList, "x/0".toList⟩ .plain [.route ⟨['x'], [.fixed ['0']]⟩], 0)

/-- A value that an evaluation has deferred, kept in the list that it looks into, is evaluated to itself over
and over: no limit is ever exceeded, and no text comes of it. -/
theorem firstOfX_has_no_text :
    ∃ s t u, (Session.start .standard).run [.newContext (.ofEngine .standard)] = some s ∧
      s.evaluate 0 (.text "defer:nocall:x/0".toList) = some (.ok firstOfX.value, t) ∧
      t.run [.setLocal 0 ['x'] (.list [firstOfX.value])] = some u ∧
      (∀ levels trail, ∃ trail', evaluate u.world (levels + 1) [] 0 firstOfX.1 trail =
        .done (.ok firstOfX.value) trail') ∧
      ∀ levels forcings trail,
        textOf u.world (evaluate u.world levels []) forcings firstOfX.value trail = .unfinished := by
  obtain ⟨s, t, u, hs, ht, hu, hworld⟩ :
      ∃ s t u, (Session.start .standard).run [.newContext (.ofEngine .standard)] = some s ∧
        s.evaluate 0 (.text "defer:nocall:x/0".toList) = some (.ok firstOfX.value, t) ∧
        t.run [.setLocal 0 ['x'] (.list [firstOfX.value])] = some u ∧
        u.world = ((Session.ofRoots []).setLocal 0 ['x'] (.list [firstOfX.value])).world :=
    ⟨_, _, _, rfl, rfl, rfl, rfl⟩
  have hback : ∀ levels trail, ∃ trail', evaluate u.world (levels + 1) [] 0 firstOfX.1 trail =
      .done (.ok firstOfX.value) trail' := by
    rw [hworld]
    exact fun _ _ => ⟨_, rfl⟩
  refine ⟨s, t, u, hs, ht, hu, hback, fun levels forcings trail => ?_⟩
  refine textOf_eq_unfinished (fun trail => ?_) forcings trail
  cases levels with
  | zero => exact .inl rfl
  | succ levels => exact .inr (hback levels trail)

end TemplateExpressions
