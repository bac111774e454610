import TemplateExpressions.Evaluation

/-!
# Runs that mirror one another

A run is mirrored by another if the other one, started from a trail that goes with its own, ends with the
same result on a trail that goes with its own again, whenever the first one ends with a result that counts.
A `Pairing` says which trails go together and which errors count. Main statement: if one meaning of nested
and deferred expressions is mirrored by another, then so is every evaluation that is built on it
(`valueOf_mirroredBy`).
-/

set_option autoImplicit false

namespace TemplateExpressions

/-- Which trails go together, and which errors count, at least all that alternatives fall through. Trails
that go together still do after the same call, question or failure, and tell of as many calls. -/
structure Pairing where
  pairs : Trail → Trail → Prop
  counts : EvalError → Prop
  pairs_invoked : ∀ mark trail trail', pairs trail trail' →
    pairs (.invoked mark :: trail) (.invoked mark :: trail')
  pairs_asked : ∀ cursor query trail trail', pairs trail trail' →
    pairs (.asked cursor query :: trail) (.asked cursor query :: trail')
  pairs_failed : ∀ e trail trail', pairs trail trail' → pairs (.failed e :: trail) (.failed e :: trail')
  timesInvoked_eq : ∀ mark trail trail', pairs trail trail' →
    Evaluation.timesInvoked mark trail = Evaluation.timesInvoked mark trail'
  counts_of_isUndefined : ∀ e, e.isUndefined = true → counts e

namespace Run

variable {α β : Type} {p : Pairing}

/-- Whenever the first run ends with a result that counts, the second one ends with the same result, and
their trails go together as they did before. -/
def MirroredBy (p : Pairing) (x y : Run α) : Prop :=
  ∀ trail trail' result left, p.pairs trail trail' → x trail = .done result left →
    (∀ e, result = .error e → p.counts e) → ∃ left', y trail' = .done result left' ∧ p.pairs left left'

theorem mirroredBy_pure (a : α) : (Pure.pure a : Run α).MirroredBy p (Pure.pure a) := by
  intro trail trail' result left hpairs h _
  cases h
  exact ⟨trail', rfl, hpairs⟩

theorem mirroredBy_fail (e : EvalError) : (fail e : Run α).MirroredBy p (fail e) := by
  intro trail trail' result left hpairs h _
  cases h
  exact ⟨_, rfl, p.pairs_failed e trail trail' hpairs⟩

/-- A failure that does not count is mirrored by anything. -/
theorem mirroredBy_of_not_counts {e : EvalError} (he : ¬ p.counts e) (y : Run α) :
    (fail e : Run α).MirroredBy p y := by
  intro trail trail' result left _ h hcounts
  cases h
  exact absurd (hcounts e rfl) he

theorem mirroredBy_unfinished (y : Run α) : (unfinished : Run α).MirroredBy p y := by
  intro trail trail' result left _ h _
  cases h

theorem mirroredBy_ofExcept (result : Except EvalError α) :
    (ofExcept result).MirroredBy p (ofExcept result) := by
  cases result with
  | ok a => exact mirroredBy_pure a
  | error e => exact mirroredBy_fail e

theorem mirroredBy_note {event : Event} (hevent : ∀ trail trail', p.pairs trail trail' →
    p.pairs (event :: trail) (event :: trail')) : (note event).MirroredBy p (note event) := by
  intro trail trail' result left hpairs h _
  cases h
  exact ⟨_, rfl, hevent trail trail' hpairs⟩

/-- What is read off the trail has to be the same for trails that go together. -/
theorem mirroredBy_read {f : Trail → α} (hf : ∀ trail trail', p.pairs trail trail' → f trail = f trail') :
    (Run.trail >>= fun trail => Pure.pure (f trail)).MirroredBy p
      (Run.trail >>= fun trail => Pure.pure (f trail)) := by
  intro trail trail' result left hpairs h _
  cases h
  refine ⟨trail', ?_, hpairs⟩
  rw [hf trail trail' hpairs]
  rfl

theorem MirroredBy.bind {x y : Run α} {f f' : α → Run β} (hx : x.MirroredBy p y)
    (hf : ∀ a, (f a).MirroredBy p (f' a)) : (x >>= f).MirroredBy p (y >>= f') := by
  intro trail trail' result left hpairs h hcounts
  rw [bind_apply] at h ⊢
  split at h
  · rename_i a middle hfirst
    obtain ⟨middle', hy, hmiddle⟩ := hx trail trail' _ _ hpairs hfirst (fun e he => by cases he)
    rw [hy]
    exact hf a _ _ _ _ hmiddle h hcounts
  · rename_i e middle hfirst
    cases h
    have hcount : p.counts e := hcounts e rfl
    obtain ⟨middle', hy, hmiddle⟩ :=
      hx trail trail' _ _ hpairs hfirst (fun e' he => by cases he; exact hcount)
    rw [hy]
    exact ⟨middle', rfl, hmiddle⟩
  · cases h

/-- An error that is fallen through counts, so both runs fall back. -/
theorem MirroredBy.orElse {x x' y y' : Run α} (hx : x.MirroredBy p x') (hy : y.MirroredBy p y') :
    (x.orElse y).MirroredBy p (x'.orElse y') := by
  intro trail trail' result left hpairs h hcounts
  rw [orElse_apply] at h ⊢
  split at h
  · rename_i e middle hfirst
    have hcount : p.counts e := by
      split at h
      · rename_i hundefined
        exact p.counts_of_isUndefined e hundefined
      · cases h
        exact hcounts e rfl
    obtain ⟨middle', hx', hmiddle⟩ :=
      hx trail trail' _ _ hpairs hfirst (fun e' he => by cases he; exact hcount)
    rw [hx']
    split at h
    · rename_i hundefined
      simp only [hundefined, if_true]
      exact hy _ _ _ _ hmiddle h hcounts
    · rename_i hundefined
      cases h
      simp only [hundefined, Bool.false_eq_true, if_false]
      exact ⟨middle', rfl, hmiddle⟩
  · rename_i hnot
    obtain ⟨left', hx', hend⟩ := hx trail trail' _ _ hpairs h hcounts
    rw [hx']
    cases result with
    | ok a => exact ⟨left', rfl, hend⟩
    | error e => exact absurd h (hnot e left)

/-- Between entering and leaving a context runs may be paired in another way, and the depths may differ. -/
theorem MirroredBy.within {p' : Pairing} {x y : Run α} {id : ContextId} {depth depth' : Nat}
    (hentered : ∀ trail trail', p.pairs trail trail' →
      p'.pairs (.entered id depth :: trail) (.entered id depth' :: trail'))
    (hleft : ∀ error? trail trail', p'.pairs trail trail' →
      p.pairs (.left id error? :: trail) (.left id error? :: trail'))
    (hcounts : ∀ e, p.counts e → p'.counts e) (hx : x.MirroredBy p' y) :
    (within id depth x).MirroredBy p (within id depth' y) := by
  intro trail trail' result left hpairs h hresult
  rw [within_apply] at h ⊢
  split at h
  · rename_i r middle hinner
    cases h
    obtain ⟨middle', hy, hmiddle⟩ := hx _ _ _ _ (hentered trail trail' hpairs) hinner
      (fun e he => hcounts e (hresult e he))
    rw [hy]
    exact ⟨_, rfl, hleft _ _ _ hmiddle⟩
  · cases h

end Run

namespace Evaluation

open Run

variable {p : Pairing} {w : World} {meaning meaning' : Meaning}

/-! ## What is read of the world -/

theorem expand_congr {c c' : Context} (hscopes : c'.scopes = c.scopes) (live : Live) (segments : List Segment) :
    expand live c' segments = expand live c segments := by
  induction segments with
  | nil => rfl
  | cons segment segments ih =>
    cases segment with
    | fixed text => simp only [expand, ih]
    | dynamic name => simp only [expand, hscopes, ih]

section Reads

variable {w' : World} (hlive : w'.live = w.live)

include hlive

/-- Of the world a call reads the cursors and what values are read against. -/
theorem perform_congr (hcursors : w'.cursors = w.cursors) : perform w' = perform w := by
  funext mark act
  cases act with
  | asks cursor query => simp only [perform, World.cursor?, hlive, hcursors]
  | _ => rfl

theorem invoke?_congr (hcursors : w'.cursors = w.cursors) (meaning : Meaning) (v : Value) :
    invoke? w' meaning v = invoke? w meaning v := by
  have hperform := perform_congr hlive hcursors
  cases v with
  | callable mark act => simp only [invoke?, hperform]
  | object mark host => simp only [invoke?, hperform]
  | _ => rfl

theorem textOf_congr (meaning : Meaning) (forcings : Nat) (v : Value) :
    textOf w' meaning forcings v = textOf w meaning forcings v := by
  induction forcings generalizing v with
  | zero => cases v <;> simp only [textOf, hlive]
  | succ forcings ih =>
    cases v with
    | deferred e id =>
      simp only [textOf]
      exact congrArg _ (funext ih)
    | _ => simp only [textOf, hlive]

theorem alternative_congr {c c' : Context} (hscopes : c'.scopes = c.scopes) (hroots : c'.roots = c.roots)
    (meaning : Meaning) (id : ContextId) (traversal : Traversal) :
    alternative w' meaning id c' traversal = alternative w meaning id c traversal := by
  funext a
  cases a with
  | route route => simp only [alternative, follow, hlive, expand_congr hscopes, baseValue, hscopes, hroots]
  | nested e => rfl

/-- Of the context an evaluation reads the scopes and the roots. -/
theorem valueOf_congr (hcursors : w'.cursors = w.cursors) {c c' : Context} (hscopes : c'.scopes = c.scopes)
    (hroots : c'.roots = c.roots) (meaning : Meaning) (forcings : Nat) (id : ContextId) (e : Expr) :
    valueOf w' meaning forcings id c' e = valueOf w meaning forcings id c e := by
  cases e with
  | path heading traversal alternatives =>
    simp only [valueOf, alternative_congr hlive hscopes hroots, invoke?_congr hlive hcursors]
  | template heading pieces => simp only [valueOf, textOf_congr hlive]
  | negation heading operand => simp only [valueOf, hlive]
  | deferral heading operand => rfl
  | echo heading => rfl

end Reads

/-! ## Evaluations that mirror one another -/

theorem perform_mirroredBy (mark : Option Mark) (act : Act Value) :
    (perform w mark act).MirroredBy p (perform w mark act) := by
  have hmark : (mark.forM fun m => Run.note (.invoked m)).MirroredBy p
      (mark.forM fun m => Run.note (.invoked m)) := by
    cases mark with
    | none => exact mirroredBy_pure _
    | some m => exact mirroredBy_note (p.pairs_invoked m)
  cases act with
  | returns value => exact hmark.bind fun _ => mirroredBy_pure value
  | fails e => exact hmark.bind fun _ => mirroredBy_fail e
  | counts =>
    refine hmark.bind fun _ => mirroredBy_read fun trail trail' hpairs => ?_
    cases mark with
    | none => rfl
    | some m => simp only [Option.map_some, p.timesInvoked_eq m trail trail' hpairs]
  | asks cursor query =>
    refine hmark.bind fun _ => (mirroredBy_note (p.pairs_asked cursor query)).bind fun _ => ?_
    cases w.cursor? cursor with
    | none => exact mirroredBy_fail _
    | some c =>
      dsimp only
      cases c.ask w.live query with
      | ok answer => exact mirroredBy_pure _
      | error e => exact mirroredBy_fail _

section Meaning

variable (hm : ∀ id e, (meaning id e).MirroredBy p (meaning' id e))

include hm

theorem invoke?_mirroredBy (v : Value) :
    ((invoke? w meaning v).getD (return v)).MirroredBy p
      ((invoke? w meaning' v).getD (return v)) := by
  cases v with
  | callable mark act => exact perform_mirroredBy mark act
  | object mark host =>
    cases hcall : host.call with
    | none =>
      simp only [invoke?, hcall]
      exact mirroredBy_pure _
    | some act =>
      simp only [invoke?, hcall]
      exact perform_mirroredBy (some mark) act
  | deferred e id => exact hm id e
  | _ => exact mirroredBy_pure _

/-- More forcings do no harm. -/
theorem textOf_mirroredBy {forcings forcings' : Nat} (hle : forcings ≤ forcings') (v : Value) :
    (textOf w meaning forcings v).MirroredBy p (textOf w meaning' forcings' v) := by
  induction forcings generalizing forcings' v with
  | zero =>
    cases v with
    | deferred e id => exact mirroredBy_unfinished _
    | _ => cases forcings' <;> exact mirroredBy_pure _
  | succ forcings ih =>
    obtain ⟨n, rfl⟩ := Nat.exists_eq_add_of_le' hle
    cases v with
    | deferred e id => exact (hm id e).bind fun v => ih (Nat.le_add_left _ _) v
    | _ => exact mirroredBy_pure _

theorem force_mirroredBy (v : Value) : (force meaning v).MirroredBy p (force meaning' v) := by
  cases v with
  | deferred e id => exact hm id e
  | _ => exact mirroredBy_pure _

theorem alternative_mirroredBy (id : ContextId) (c : Context) (traversal : Traversal)
    (a : Alternative Expr) :
    (alternative w meaning id c traversal a).MirroredBy p
      (alternative w meaning' id c traversal a) := by
  cases a with
  | route route =>
    refine (mirroredBy_ofExcept _).bind fun segments => (mirroredBy_ofExcept _).bind fun base => ?_
    exact (force_mirroredBy hm base).bind fun base => mirroredBy_ofExcept _
  | nested e => exact hm id e

end Meaning

theorem resolve_mirroredBy (source : Text) {value value' : Alternative Expr → Run Value}
    (hv : ∀ a, (value a).MirroredBy p (value' a)) (alternatives : List (Alternative Expr)) :
    (resolve source value alternatives).MirroredBy p (resolve source value' alternatives) := by
  induction alternatives with
  | nil => exact mirroredBy_fail _
  | cons first others ih =>
    cases others with
    | nil => exact hv first
    | cons second others => exact (hv first).orElse ih

theorem test_mirroredBy {value value' : Alternative Expr → Run Value}
    (hv : ∀ a, (value a).MirroredBy p (value' a)) (alternatives : List (Alternative Expr)) :
    (test value alternatives).MirroredBy p (test value' alternatives) := by
  induction alternatives with
  | nil => exact mirroredBy_pure _
  | cons first others ih =>
    exact MirroredBy.orElse ((hv first).bind fun _ => mirroredBy_pure _) ih

theorem fill_mirroredBy {content content' : Expr → Run Text}
    (hc : ∀ e, (content e).MirroredBy p (content' e)) (pieces : List (Piece Expr)) :
    (fill content pieces).MirroredBy p (fill content' pieces) := by
  induction pieces with
  | nil => exact mirroredBy_pure _
  | cons piece pieces ih =>
    cases piece with
    | literal text => exact ih.bind fun _ => mirroredBy_pure _
    | site e => exact (hc e).bind fun _ => ih.bind fun _ => mirroredBy_pure _

/-- What is evaluated with one meaning of nested expressions is mirrored by what is evaluated with the
other, and with more forcings. -/
theorem valueOf_mirroredBy (hm : ∀ id e, (meaning id e).MirroredBy p (meaning' id e))
    {forcings forcings' : Nat} (hle : forcings ≤ forcings') (id : ContextId) (c : Context)
    (e : Expr) :
    (valueOf w meaning forcings id c e).MirroredBy p (valueOf w meaning' forcings' id c e) := by
  cases e with
  | path heading traversal alternatives =>
    have hv := alternative_mirroredBy (w := w) hm id c traversal
    simp only [valueOf]
    cases PathMode.ofTypeName heading.typeName with
    | testing => exact test_mirroredBy hv alternatives
    | holding => exact resolve_mirroredBy heading.source hv alternatives
    | invoking =>
      exact (resolve_mirroredBy heading.source hv alternatives).bind fun v => invoke?_mirroredBy hm v
  | template heading pieces =>
    refine (fill_mirroredBy (fun e => ?_) pieces).bind fun _ => mirroredBy_pure _
    exact (hm id e).bind fun v => textOf_mirroredBy hm hle v
  | negation heading operand => exact (hm id operand).bind fun _ => mirroredBy_pure _
  | deferral heading operand => exact mirroredBy_pure _
  | echo heading => exact mirroredBy_pure _

end Evaluation
end TemplateExpressions
