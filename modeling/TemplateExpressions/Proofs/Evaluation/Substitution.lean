import TemplateExpressions.Evaluation
import TemplateExpressions.Proofs.Number.Decimal
import TemplateExpressions.Proofs.Route.Writing
import TemplateExpressions.Proofs.Session.Fallback
import Mathlib.Data.List.Forall2

/-!
# Variables among the segments of a path

A variable among the segments of a route stands for texts (`Value.Segments`) or for none, and then it is
known what is wrong with it (`Context.Unfit`); there is no third case (`segments_or_unfit`). A route
expands to one without variables (`Route.Expands`), which leads to the same value (`alternative_of_expands`).
Main statement: a path means the same as the path that is written with the variables replaced by what
they stand for, and a route with a variable that stands for nothing fails before its base is looked up
(`variables_are_replaced`).
-/

set_option autoImplicit false

namespace TemplateExpressions

open Text

/-! ## What variables stand for -/

/-- What an element stands for as a segment: a text for itself, if it is allowed, and an integer for
its decimal digits. -/
inductive Value.IsSegment (allowed : Text → Prop) : Value → Text → Prop
  | text {t : Text} : allowed t → IsSegment allowed (.text t) t
  | int (i : Int64) : IsSegment allowed (.int i) (Number.intText i.toInt)

/-- What a variable stands for among segments: a text for itself, every other value for its elements
in order. -/
inductive Value.Segments (allowed : Text → Prop) (live : Live) : Value → List Text → Prop
  | text {t : Text} : allowed t → Segments allowed live (.text t) [t]
  | elements {v : Value} {items : List Value} {texts : List Text} : (∀ t, v ≠ .text t) →
      v.elements live = .ok items → List.Forall₂ (IsSegment allowed) items texts →
      Segments allowed live v texts

/-- What is wrong with a variable that stands for no segments: it is missing, it has no elements, or
one of them is neither a text nor an integer. -/
inductive Context.Unfit (live : Live) (c : Context) (name : Text) : EvalError → Prop
  | missing : c.scopes.get? name = none → Unfit live c name (.nameNotFound name)
  | noElements {v : Value} {e : EvalError} : c.scopes.get? name = some v →
      v.elements live = .error e → Unfit live c name (.notIterable v.typeName)
  | otherKind {v other : Value} {front back : List Value} : c.scopes.get? name = some v →
      (∀ t, v ≠ .text t) → v.elements live = .ok (front ++ other :: back) →
      (∀ x ∈ front, ∃ t, x.IsSegment (fun _ => True) t) →
      (∀ t, ¬other.IsSegment (fun _ => True) t) →
      Unfit live c name (.typeMismatch ("path segments from ?".toList ++ name ++
        " must be text or integers, not ".toList ++ other.typeName))

/-- Segments with the variables among them replaced by what they stand for in a context. -/
inductive Segment.Expands (allowed : Text → Prop) (live : Live) (c : Context) :
    List Segment → List Text → Prop
  | nil : Expands allowed live c [] []
  | fixed {t : Text} {segments : List Segment} {texts : List Text} :
      Expands allowed live c segments texts → Expands allowed live c (.fixed t :: segments) (t :: texts)
  | dynamic {name : Text} {v : Value} {first texts : List Text} {segments : List Segment} :
      c.scopes.get? name = some v → v.Segments allowed live first →
      Expands allowed live c segments texts →
      Expands allowed live c (.dynamic name :: segments) (first ++ texts)

/-- A route and the route without variables that it stands for in a context. -/
inductive Route.Expands (allowed : Text → Prop) (live : Live) (c : Context) : Route → Route → Prop
  | intro {base : Text} {segments : List Segment} {texts : List Text} :
      Segment.Expands allowed live c segments texts →
      Expands allowed live c ⟨base, segments⟩ ⟨base, texts.map .fixed⟩

namespace Context.Unfit

variable {live : Live} {c : Context} {name : Text} {e : EvalError}

/-- Alternatives fall through what is wrong with a variable. -/
theorem isUndefined (h : c.Unfit live name e) : e.isUndefined = true := by
  cases h <;> rfl

end Context.Unfit

section Variables

variable {allowed allowed' : Text → Prop} {live : Live} {c : Context} {name : Text}

theorem Value.IsSegment.mono {v : Value} {t : Text} (h : v.IsSegment allowed t)
    (hallowed : ∀ t, allowed t → allowed' t) : v.IsSegment allowed' t := by
  cases h with
  | text ht => exact .text (hallowed _ ht)
  | int i => exact .int i

theorem Value.Segments.mono {v : Value} {texts : List Text} (h : v.Segments allowed live texts)
    (hallowed : ∀ t, allowed t → allowed' t) : v.Segments allowed' live texts := by
  cases h with
  | text ht => exact .text (hallowed _ ht)
  | elements hv hitems htexts =>
    exact .elements hv hitems (htexts.imp fun _ _ hx => hx.mono hallowed)

theorem Segment.Expands.mono {segments : List Segment} {texts : List Text}
    (h : Expands allowed live c segments texts) (hallowed : ∀ t, allowed t → allowed' t) :
    Expands allowed' live c segments texts := by
  induction h with
  | nil => exact .nil
  | fixed _ ih => exact .fixed ih
  | dynamic hname hfirst _ ih => exact .dynamic hname (hfirst.mono hallowed) ih

/-- Elements are texts and integers, or there is a first one that is neither. -/
theorem segments_or_otherKind (items : List Value) :
    (∃ texts, List.Forall₂ (Value.IsSegment fun _ => True) items texts) ∨
      ∃ front other back, items = front ++ other :: back ∧
        (∀ x ∈ front, ∃ t, x.IsSegment (fun _ => True) t) ∧
        ∀ t, ¬other.IsSegment (fun _ => True) t := by
  induction items with
  | nil => exact .inl ⟨[], .nil⟩
  | cons x items ih =>
    by_cases hx : ∃ t, x.IsSegment (fun _ => True) t
    · obtain ⟨t, ht⟩ := hx
      rcases ih with ⟨texts, htexts⟩ | ⟨front, other, back, rfl, hfront, hother⟩
      · exact .inl ⟨t :: texts, .cons ht htexts⟩
      · exact .inr ⟨x :: front, other, back, rfl, List.forall_mem_cons.2 ⟨⟨t, ht⟩, hfront⟩, hother⟩
    · exact .inr ⟨[], x, items, rfl, by simp, not_exists.1 hx⟩

/-- A variable stands for segments, or it is known what is wrong with it. -/
theorem segments_or_unfit (live : Live) (c : Context) (name : Text) :
    (∃ v texts, c.scopes.get? name = some v ∧ v.Segments (fun _ => True) live texts) ∨
      ∃ e, c.Unfit live name e := by
  cases hname : c.scopes.get? name with
  | none => exact .inr ⟨_, .missing hname⟩
  | some v =>
    by_cases htext : ∃ t, v = .text t
    · obtain ⟨t, rfl⟩ := htext
      exact .inl ⟨_, [t], rfl, .text trivial⟩
    · have hv := not_exists.1 htext
      cases hitems : v.elements live with
      | error e => exact .inr ⟨_, .noElements hname hitems⟩
      | ok items =>
        rcases segments_or_otherKind items with
          ⟨texts, htexts⟩ | ⟨front, other, back, rfl, hfront, hother⟩
        · exact .inl ⟨v, texts, rfl, .elements hv hitems htexts⟩
        · exact .inr ⟨_, .otherKind hname hv hitems hfront hother⟩

end Variables

/-! ## Expanding segments -/

namespace Evaluation

theorem mapM_of_forall₂ {α β ε : Type} {f : α → Except ε β} {l : List α} {bs : List β}
    (h : List.Forall₂ (fun a b => f a = .ok b) l bs) : l.mapM f = .ok bs := by
  induction h with
  | nil => rfl
  | cons hfirst _ ih =>
    rw [List.mapM_cons, hfirst, ih]
    rfl

theorem mapM_append_of_error {α β ε : Type} {f : α → Except ε β} {front back : List α} {a : α}
    {e : ε} (hfront : ∀ x ∈ front, ∃ b, f x = .ok b) (ha : f a = .error e) :
    (front ++ a :: back).mapM f = .error e := by
  induction front with
  | nil =>
    rw [List.nil_append, List.mapM_cons, ha]
    rfl
  | cons x front ih =>
    obtain ⟨⟨b, hb⟩, hfront⟩ := List.forall_mem_cons.1 hfront
    rw [List.cons_append, List.mapM_cons, hb, ih hfront]
    rfl

variable {allowed : Text → Prop} {live : Live} {c : Context} {name : Text}

theorem segmentOfElement_of_isSegment {v : Value} {t : Text} (h : v.IsSegment allowed t) :
    segmentOfElement name v = .ok t := by
  cases h <;> rfl

theorem segmentOfElement_eq_error {v : Value} (h : ∀ t, ¬v.IsSegment (fun _ => True) t) :
    segmentOfElement name v = .error (.typeMismatch ("path segments from ?".toList ++ name ++
      " must be text or integers, not ".toList ++ v.typeName)) := by
  cases v with
  | text t => exact absurd (.text trivial) (h t)
  | int i => exact absurd (.int i) (h _)
  | _ => rfl

/-- Only values without elements have none to give. -/
theorem elements_eq_error {v : Value} {e : EvalError} (h : v.elements live = .error e) :
    e = .notIterable v.typeName := by
  cases v with
  | object mark host =>
    simp only [Value.elements] at h
    split at h <;> cases h
    rfl
  | _ => cases h <;> rfl

theorem segmentsOfVariable_eq {v : Value} (hv : ∀ t, v ≠ .text t) {items : List Value}
    (hitems : v.elements live = .ok items) :
    segmentsOfVariable live name (some v) = items.mapM (segmentOfElement name) := by
  cases v with
  | text t => exact absurd rfl (hv t)
  | _ => simp only [segmentsOfVariable, hitems]

theorem segmentsOfVariable_of_segments (name : Text) {v : Value} {texts : List Text}
    (h : v.Segments allowed live texts) :
    segmentsOfVariable live name (some v) = .ok texts := by
  cases h with
  | text ht => rfl
  | elements hv hitems htexts =>
    rw [segmentsOfVariable_eq hv hitems]
    exact mapM_of_forall₂ (htexts.imp fun _ _ hx => segmentOfElement_of_isSegment hx)

theorem segmentsOfVariable_of_unfit {e : EvalError} (h : c.Unfit live name e) :
    segmentsOfVariable live name (c.scopes.get? name) = .error e := by
  cases h with
  | missing hname => rw [hname, segmentsOfVariable]
  | @noElements v e hname hitems =>
    rw [hname, ← elements_eq_error hitems]
    cases v with
    | text t => cases hitems
    | _ => simp only [segmentsOfVariable, hitems]
  | otherKind hname hv hitems hfront hother =>
    rw [hname, segmentsOfVariable_eq hv hitems]
    refine mapM_append_of_error (fun x hx => ?_) (segmentOfElement_eq_error hother)
    obtain ⟨t, ht⟩ := hfront x hx
    exact ⟨t, segmentOfElement_of_isSegment ht⟩

theorem expand_of_expands {segments : List Segment} {texts : List Text}
    (h : Segment.Expands allowed live c segments texts) : expand live c segments = .ok texts := by
  induction h with
  | nil => rfl
  | fixed _ ih =>
    rw [expand, ih]
    rfl
  | dynamic hname hfirst _ ih =>
    rw [expand, hname, segmentsOfVariable_of_segments _ hfirst, ih]
    rfl

theorem expand_map_fixed (live : Live) (c : Context) (texts : List Text) :
    expand live c (texts.map .fixed) = .ok texts := by
  induction texts with
  | nil => rfl
  | cons t texts ih =>
    rw [List.map_cons, expand, ih]
    rfl

/-- The first variable that stands for nothing is what expanding fails with. -/
theorem expand_of_unfit {front back : List Segment} {texts : List Text} {e : EvalError}
    (hfront : Segment.Expands allowed live c front texts) (hname : c.Unfit live name e) :
    expand live c (front ++ .dynamic name :: back) = .error e := by
  induction hfront with
  | nil =>
    rw [List.nil_append, expand, segmentsOfVariable_of_unfit hname]
    rfl
  | fixed _ ih =>
    rw [List.cons_append, expand, ih]
    rfl
  | dynamic hx hfirst _ ih =>
    rw [List.cons_append, expand, hx, segmentsOfVariable_of_segments _ hfirst, ih]
    rfl

/-- A variable that stands for segments is not one that stands for nothing. -/
theorem not_unfit_of_expands {segments : List Segment} {texts : List Text}
    (h : Segment.Expands allowed live c segments texts) (hmem : .dynamic name ∈ segments) (e : EvalError) :
    ¬c.Unfit live name e := by
  induction h with
  | nil => cases hmem
  | fixed _ ih =>
    rcases List.mem_cons.1 hmem with heq | hmem
    · cases heq
    · exact ih hmem
  | dynamic hx hfirst _ ih =>
    rcases List.mem_cons.1 hmem with heq | hmem
    · cases heq
      intro hunfit
      have hok := segmentsOfVariable_of_segments name hfirst
      rw [← hx, segmentsOfVariable_of_unfit hunfit] at hok
      cases hok
    · exact ih hmem

/-- Segments expand, or there is a first variable that stands for nothing. -/
theorem expands_or_unfit (live : Live) (c : Context) (segments : List Segment) :
    (∃ texts, Segment.Expands (fun _ => True) live c segments texts) ∨
      ∃ front name back e, segments = front ++ .dynamic name :: back ∧ c.Unfit live name e ∧
        ∃ texts, Segment.Expands (fun _ => True) live c front texts := by
  induction segments with
  | nil => exact .inl ⟨[], .nil⟩
  | cons segment segments ih =>
    -- a segment that stands for texts comes in front of what the others expand to
    have hcons : ∀ first, (∀ {segments texts}, Segment.Expands (fun _ => True) live c segments texts →
        Segment.Expands (fun _ => True) live c (segment :: segments) (first ++ texts)) →
        (∃ texts, Segment.Expands (fun _ => True) live c (segment :: segments) texts) ∨
          ∃ front name back e, segment :: segments = front ++ .dynamic name :: back ∧
            c.Unfit live name e ∧ ∃ texts, Segment.Expands (fun _ => True) live c front texts := by
      intro first hfirst
      rcases ih with ⟨texts, htexts⟩ | ⟨front, name, back, e, rfl, hunfit, texts, htexts⟩
      · exact .inl ⟨_, hfirst htexts⟩
      · exact .inr ⟨segment :: front, name, back, e, rfl, hunfit, _, hfirst htexts⟩
    cases segment with
    | fixed t => exact hcons [t] .fixed
    | dynamic x =>
      rcases segments_or_unfit live c x with ⟨v, first, hx, hfirst⟩ | ⟨e, hunfit⟩
      · exact hcons first (.dynamic hx hfirst)
      · exact .inr ⟨[], x, segments, e, rfl, hunfit, [], .nil⟩

/-! ## Following routes -/

variable {w : World} {meaning : Meaning} {id : ContextId} {traversal : Traversal}

/-- A route without variables leads where the route leads that it was expanded from. -/
theorem follow_of_expands {r r' : Route} (h : r.Expands allowed w.live c r') :
    follow w meaning c traversal r' = follow w meaning c traversal r := by
  cases h with
  | intro hsegments =>
    unfold follow
    rw [expand_of_expands hsegments, expand_map_fixed]

/-- Nothing is looked up for a route with a variable that stands for nothing. -/
theorem follow_of_unfit {front back : List Segment} {texts : List Text} {e : EvalError}
    (hfront : Segment.Expands allowed w.live c front texts) (hname : c.Unfit w.live name e) (base : Text) :
    follow w meaning c traversal ⟨base, front ++ .dynamic name :: back⟩ = Run.fail e := by
  unfold follow
  rw [expand_of_unfit hfront hname]
  rfl

end Evaluation

/-- An alternative and the one without variables that it stands for in a context. -/
inductive Alternative.Expands (live : Live) (c : Context) : Alternative Expr → Alternative Expr → Prop
  | route {r r' : Route} : r.Expands (fun _ => True) live c r' → Expands live c (.route r) (.route r')
  | nested (e : Expr) : Expands live c (.nested e) (.nested e)

namespace Evaluation

section Alternatives

variable {w : World} {meaning : Meaning} {id : ContextId} {c : Context} {traversal : Traversal}

theorem alternative_of_expands {a a' : Alternative Expr} (h : a.Expands w.live c a') :
    alternative w meaning id c traversal a' = alternative w meaning id c traversal a := by
  cases h with
  | route hroute => exact follow_of_expands hroute
  | nested e => rfl

variable {alternatives alternatives' : List (Alternative Expr)}
  (h : List.Forall₂ (Alternative.Expands w.live c) alternatives alternatives')

include h

theorem resolve_of_expands (hne : alternatives ≠ []) (source source' : Text) :
    resolve source' (alternative w meaning id c traversal) alternatives' =
      resolve source (alternative w meaning id c traversal) alternatives := by
  induction h with
  | nil => exact absurd rfl hne
  | cons hfirst hothers ih =>
    cases hothers with
    | nil => exact alternative_of_expands hfirst
    | cons _ _ =>
      exact congrArg₂ Run.orElse (alternative_of_expands hfirst) (ih (List.cons_ne_nil _ _))

theorem test_of_expands :
    test (alternative w meaning id c traversal) alternatives' =
      test (alternative w meaning id c traversal) alternatives := by
  induction h with
  | nil => rfl
  | cons hfirst _ ih => rw [test, test, alternative_of_expands hfirst, ih]

/-- Paths whose alternatives stand for each other mean the same. -/
theorem evaluate_of_expands (hc : w.context? id = some c) (hne : alternatives ≠ []) (typeName : Text)
    (source source' : Text) (levels : Nat) (active : List ContextId) :
    evaluate w levels active id (.path ⟨typeName, source'⟩ traversal alternatives') =
      evaluate w levels active id (.path ⟨typeName, source⟩ traversal alternatives) := by
  cases levels with
  | zero => rfl
  | succ levels =>
    simp only [evaluate, guarded, hc, valueOf]
    rw [test_of_expands h, resolve_of_expands h hne source source']

end Alternatives

/-- A path with nothing but a route with a variable that stands for nothing fails at once, or tells so
if it only tests. -/
theorem evaluate_of_unfit {allowed : Text → Prop} {w : World} {id : ContextId} {c : Context}
    {name : Text} {front back : List Segment} {texts : List Text} {e : EvalError}
    {active : List ContextId} (hc : w.context? id = some c) (hdepth : active.count id < c.maxDepth)
    (hfront : Segment.Expands allowed w.live c front texts) (hname : c.Unfit w.live name e)
    (levels : Nat) (heading : Heading) (traversal : Traversal) (base : Text) (trail : Trail) :
    evaluate w (levels + 1) active id
        (.path heading traversal [.route ⟨base, front ++ .dynamic name :: back⟩]) trail =
      let result :=
        if PathMode.ofTypeName heading.typeName = .testing then .ok (.bool false) else .error e
      .done result (.left id (Run.error? result) :: .failed e ::
        .entered id (active.count id + 1) :: trail) := by
  have hfollow : ∀ meaning,
      follow w meaning c traversal ⟨base, front ++ .dynamic name :: back⟩ = Run.fail e :=
    fun meaning => follow_of_unfit hfront hname base
  simp only [evaluate, guarded, hc, if_neg (Nat.not_lt.2 hdepth), valueOf, Run.within_apply]
  cases PathMode.ofTypeName heading.typeName with
  | testing =>
    simp only [test, alternative, hfollow, Run.orElse_apply, Run.bind_apply, Run.fail, hname.isUndefined,
      if_true]
    rfl
  | _ =>
    simp only [resolve, alternative, hfollow]
    rfl

end Evaluation

/-! ## Paths as they are written -/

/-- The stretches of a path with the variables of its routes replaced by what they stand for; around a
route there may be any blanks. A prefixed alternative stays as it is, with all that follows it. -/
inductive Replaced (live : Live) (c : Context) : List Text → List Text → Prop
  | nil : Replaced live c [] []
  | route {stretch source : Text} {offset : Nat} {r : Route} {s : Spaced} {stretches replaced : List Text} :
      hasPrefix (trimStart stretch) = false → Route.read source offset stretch = .ok r →
      r.Expands (fun t => (Segment.fixed t).IsWritable) live c s.route →
      s.route.EndsUnblank → (∀ ch ∈ s.before, isBlank ch = true) → (∀ ch ∈ s.after, isBlank ch = true) →
      Replaced live c stretches replaced → Replaced live c (stretch :: stretches) (s.write :: replaced)
  | prefixed {stretch : Text} {stretches : List Text} : hasPrefix (trimStart stretch) = true →
      Replaced live c (stretch :: stretches) (stretch :: stretches)

/-- The decimal form of an integer stands for itself as a segment. -/
theorem Segment.isWritable_intText (i : Int) : (Segment.fixed (Number.intText i)).IsWritable := by
  have hnot : ∀ c : Char, Number.isNumeric c = false → c ∉ Number.intText i := by
    intro c hc hmem
    rw [Number.isNumeric_of_mem_intText hmem] at hc
    cases hc
  refine .fixed (hnot '/' (by decide)) (hnot '|' (by decide)) fun n _ heq => ?_
  exact hnot '?' (by decide) (heq ▸ List.mem_cons_self)

section Replacing

variable {live : Live} {c : Context}

theorem Value.Segments.isWritable {v : Value} {texts : List Text}
    (h : v.Segments (fun t => (Segment.fixed t).IsWritable) live texts) :
    ∀ t ∈ texts, (Segment.fixed t).IsWritable := by
  cases h with
  | text ht => exact List.forall_mem_singleton.2 ht
  | elements _ _ htexts =>
    clear * - htexts
    induction htexts with
    | nil => simp
    | cons hfirst _ ih =>
      refine List.forall_mem_cons.2 ⟨?_, ih⟩
      cases hfirst with
      | text ht => exact ht
      | int i => exact Segment.isWritable_intText _

theorem Segment.Expands.isWritable {segments : List Segment} {texts : List Text}
    (h : Segment.Expands (fun t => (Segment.fixed t).IsWritable) live c segments texts)
    (hsegments : ∀ s ∈ segments, s.IsWritable) : ∀ t ∈ texts, (Segment.fixed t).IsWritable := by
  induction h with
  | nil => simp
  | fixed _ ih =>
    obtain ⟨hfirst, hothers⟩ := List.forall_mem_cons.1 hsegments
    exact List.forall_mem_cons.2 ⟨hfirst, ih hothers⟩
  | dynamic _ hfirst _ ih =>
    obtain ⟨-, hothers⟩ := List.forall_mem_cons.1 hsegments
    exact List.forall_mem_append.2 ⟨hfirst.isWritable, ih hothers⟩

/-- What a writable route expands to is writable, if it does not end in a blank. -/
theorem Route.Expands.isWritable {r r' : Route}
    (h : r.Expands (fun t => (Segment.fixed t).IsWritable) live c r') (hr : r.IsWritable)
    (hlast : r'.EndsUnblank) : r'.IsWritable := by
  cases h with
  | intro hsegments =>
    exact ⟨hr.base, List.forall_mem_map.2 (hsegments.isWritable hr.segments), hlast⟩

theorem Route.Expands.mono {allowed allowed' : Text → Prop} {r r' : Route} (h : r.Expands allowed live c r')
    (hallowed : ∀ t, allowed t → allowed' t) : r.Expands allowed' live c r' := by
  cases h with
  | intro hsegments => exact .intro (hsegments.mono hallowed)

/-- The alternatives of the replaced stretches are those of the stretches, expanded. -/
theorem compileAlternatives_of_replaced {compile : Compiler} {source : Text} {offset : Nat}
    {stretches replaced : List Text} (h : Replaced live c stretches replaced)
    (hbar : ∀ t ∈ stretches, '|' ∉ t) {alternatives : List (Alternative Expr)}
    (halternatives : compileAlternatives compile source offset stretches = .ok alternatives)
    (source' : Text) (offset' : Nat) :
    ∃ alternatives', compileAlternatives compile source' offset' replaced = .ok alternatives' ∧
      List.Forall₂ (Alternative.Expands live c) alternatives alternatives' := by
  induction h generalizing alternatives offset offset' with
  | nil =>
    cases halternatives
    exact ⟨[], rfl, .nil⟩
  | @route _ _ _ _ s _ _ hplain hread hexpands hlast hbefore hafter _ ih =>
    obtain ⟨hstretch, hothers⟩ := List.forall_mem_cons.1 hbar
    have hs : s.IsWritable :=
      ⟨hbefore, hexpands.isWritable (Route.isWritable_of_read hread hstretch) hlast, hafter⟩
    rcases compileAlternatives_cases halternatives with ⟨hprefixed, -⟩ | ⟨-, r', others, hread', hrest, rfl⟩
    · rw [hplain] at hprefixed
      cases hprefixed
    · cases (Route.read_eq_ok hread).symm.trans hread'
      obtain ⟨others', hrest', hall⟩ := ih hothers hrest (offset' + bytes s.write + 1)
      refine ⟨.route s.route :: others', ?_, .cons (.route (hexpands.mono fun _ _ => trivial)) hall⟩
      rw [compileAlternatives, Spaced.hasPrefix_write hs, if_neg Bool.false_ne_true, Spaced.read_write hs,
        hrest']
      rfl
  | prefixed hprefixed =>
    rcases compileAlternatives_cases halternatives with ⟨-, e, hnested, rfl⟩ | ⟨hplain, -⟩
    · refine ⟨[.nested e], ?_, .cons (.nested e) .nil⟩
      rw [compileAlternatives, if_pos hprefixed, hnested]
      rfl
    · rw [hprefixed] at hplain
      cases hplain

theorem Replaced.ne_nil {stretches replaced : List Text} (h : Replaced live c stretches replaced)
    (hne : stretches ≠ []) : replaced ≠ [] := by
  cases h with
  | nil => exact hne
  | _ => exact List.cons_ne_nil _ _

/-- The bars of a path with its variables replaced are those between its stretches. -/
theorem bar_notMem_of_replaced {stretches replaced : List Text} (h : Replaced live c stretches replaced)
    (hbar : ∀ t ∈ stretches, '|' ∉ t) : ∀ t ∈ replaced, '|' ∉ t := by
  induction h with
  | nil => simp
  | route _ hread hexpands hlast hbefore hafter _ ih =>
    obtain ⟨hstretch, hothers⟩ := List.forall_mem_cons.1 hbar
    refine List.forall_mem_cons.2 ⟨Spaced.bar_notMem ⟨hbefore, ?_, hafter⟩, ih hothers⟩
    exact hexpands.isWritable (Route.isWritable_of_read hread hstretch) hlast
  | prefixed _ => exact hbar

end Replacing

/-- A path that compiles means the same as the path that is written with the variables of its routes
replaced by what they stand for in the context. A route with a variable that stands for nothing fails
with what is wrong with the first such variable, whatever its base is and without looking anything up. -/
theorem variables_are_replaced {w : World} {id : ContextId} {c : Context} (hc : w.context? id = some c) :
    (∀ compile site? traversal typeName text e stretches,
      (Factory.path traversal).build compile site? typeName text = .ok e →
      Replaced w.live c (pieces '|' text) stretches →
      ∃ e', (Factory.path traversal).build compile site? typeName (joinWith ['|'] stretches) = .ok e' ∧
        ∀ levels active,
          Evaluation.evaluate w levels active id e' = Evaluation.evaluate w levels active id e) ∧
    ∀ segments, (∃ name e, .dynamic name ∈ segments ∧ c.Unfit w.live name e) →
      ∃ front name back e, segments = front ++ .dynamic name :: back ∧ c.Unfit w.live name e ∧
        (∀ x e', .dynamic x ∈ front → ¬c.Unfit w.live x e') ∧ e.isUndefined = true ∧
        (∀ meaning traversal base,
          Evaluation.follow w meaning c traversal ⟨base, segments⟩ = Run.fail e) ∧
        ∀ levels active heading traversal base trail, active.count id < c.maxDepth →
          Evaluation.evaluate w (levels + 1) active id
              (.path heading traversal [.route ⟨base, segments⟩]) trail =
            let result :=
              if PathMode.ofTypeName heading.typeName = .testing then .ok (.bool false) else .error e
            .done result (.left id (Run.error? result) :: .failed e ::
              .entered id (active.count id + 1) :: trail) := by
  refine ⟨fun compile site? traversal typeName text e stretches hbuild hreplaced => ?_,
    fun segments hsegments => ?_⟩
  · have hbar := separator_notMem_of_mem_pieces '|' text
    have hne : pieces '|' text ≠ [] := pieces_ne_nil '|' text
    obtain ⟨alternatives, halternatives, rfl⟩ := compilePath_eq_ok hbuild
    obtain ⟨alternatives', halternatives', hexpands⟩ :=
      compileAlternatives_of_replaced hreplaced hbar halternatives (joinWith ['|'] stretches) 0
    have hpieces := pieces_joinWith (hreplaced.ne_nil hne) (bar_notMem_of_replaced hreplaced hbar)
    refine ⟨.path ⟨typeName, joinWith ['|'] stretches⟩ traversal alternatives', ?_, fun levels active => ?_⟩
    · rw [Factory.build, compilePath, hpieces, halternatives']
      rfl
    · have hsome := Evaluation.compileAlternatives_ne_nil hne halternatives
      exact Evaluation.evaluate_of_expands hexpands hc hsome typeName text _ levels active
  · obtain ⟨x, ex, hmem, hx⟩ := hsegments
    rcases Evaluation.expands_or_unfit w.live c segments with
      ⟨texts, htexts⟩ | ⟨front, name, back, e, rfl, hname, texts, hfront⟩
    · exact absurd hx (Evaluation.not_unfit_of_expands htexts hmem ex)
    · refine ⟨front, name, back, e, rfl, hname, fun y ey hy => ?_, hname.isUndefined, ?_, ?_⟩
      · exact Evaluation.not_unfit_of_expands hfront hy ey
      · exact fun meaning traversal base => Evaluation.follow_of_unfit hfront hname base
      · exact fun levels active heading traversal base trail hdepth =>
          Evaluation.evaluate_of_unfit hc hdepth hfront hname levels heading traversal base trail

/-- A world whose context has a list and an empty list to put among segments. -/
def listedRoots : World :=
  (Session.ofRoots [(['a'], .map [(['p'], .map [(['3'], .map [(['q'], .text ['v'])])])]),
    (['x'], .list [.text ['p'], .int 3]), (['e'], .list []), (['n'], .int 5)]).world

theorem replaced_in_listedRoots :
    ∃ c e e', listedRoots.context? 0 = some c ∧
      (Factory.path .plain).build Engine.standard.compile none "path".toList " a/?x/q/?e |string:z".toList =
        .ok e ∧
      (Factory.path .plain).build Engine.standard.compile none "path".toList "a/p/3/q\u3000|string:z".toList =
        .ok e' ∧
      Evaluation.evaluate listedRoots 1 [] 0 e' [] = Evaluation.evaluate listedRoots 1 [] 0 e [] ∧
      Evaluation.evaluate listedRoots 1 [] 0 e [] = .done (.ok (.text ['v'])) [.left 0 none, .entered 0 1] ∧
      Evaluation.follow listedRoots (Evaluation.meaning listedRoots) c .plain
        ⟨['b'], [.dynamic ['x'], .dynamic ['n'], .dynamic ['y']]⟩ =
          Run.fail (.notIterable "int".toList) := by
  obtain ⟨c, hc⟩ : ∃ c, listedRoots.context? 0 = some c := ⟨_, rfl⟩
  have hx : c.scopes.get? ['x'] = some (.list [.text ['p'], .int 3]) := by
    cases hc
    rfl
  have he : c.scopes.get? ['e'] = some (.list []) := by
    cases hc
    rfl
  have hn : c.scopes.get? ['n'] = some (.int 5) := by
    cases hc
    rfl
  have hp : (Segment.fixed ['p']).IsWritable :=
    .fixed (by decide) (by decide) fun n _ heq => by cases heq
  obtain ⟨hforth, hback⟩ := variables_are_replaced hc
  obtain ⟨e, hbuild⟩ : ∃ e, (Factory.path .plain).build Engine.standard.compile none "path".toList
      " a/?x/q/?e |string:z".toList = .ok e := ⟨_, rfl⟩
  have hlist : (Value.list [.text ['p'], .int 3]).Segments (fun t => (Segment.fixed t).IsWritable)
      listedRoots.live [['p'], ['3']] := .elements (by simp) rfl (.cons (.text hp) (.cons (.int 3) .nil))
  have hreplaced : Replaced listedRoots.live c (pieces '|' " a/?x/q/?e |string:z".toList)
      ["a/p/3/q\u3000".toList, "string:z".toList] := by
    refine @Replaced.route _ _ _ [] 0 _ ⟨[], ⟨['a'], [['p'], ['3'], ['q']].map .fixed⟩, ['\u3000']⟩ _ _
      (by decide) rfl (.intro ?_) ?_ (by simp) (List.forall_mem_singleton.2 (by decide))
      (.prefixed (by decide))
    · exact .dynamic hx hlist (.fixed (.dynamic he (.elements (by simp) rfl .nil) .nil))
    · intro t ht ch hch
      cases ht
      cases hch
      decide
  obtain ⟨e', hbuild', heq⟩ := hforth _ _ _ _ _ _ _ hbuild hreplaced
  obtain ⟨-, -, -, error, -, -, -, -, hfollow, -⟩ :=
    hback [.dynamic ['x'], .dynamic ['n'], .dynamic ['y']] ⟨['n'], _, by simp, .noElements hn rfl⟩
  have hfails := hfollow (Evaluation.meaning listedRoots) .plain ['b']
  have herror : (Run.fail (.notIterable "int".toList) : Run Value) [] = Run.fail error [] := by
    rw [← hfails]
    cases hc
    rfl
  cases herror
  exact ⟨c, e, e', hc, hbuild, hbuild', congrFun (heq 1 []) [], by cases hbuild; rfl, hfails⟩

end TemplateExpressions
