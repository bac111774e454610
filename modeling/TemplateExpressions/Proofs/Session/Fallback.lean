import Mathlib.Data.List.Forall2
import TemplateExpressions.Proofs.Engine.Dispatch
import TemplateExpressions.Proofs.Evaluation.Room
import TemplateExpressions.Proofs.Session.Modes

/-!
# Prefixed fallbacks

The first alternative of a path with a type prefix takes the rest of the text and is compiled as that text
alone would be (`compile_fallback`). Main statement: if the alternatives before it have no value, the path
comes to what the fallback comes to by itself, but for the call with which the path ends
(`fallback_is_called`).
-/

set_option autoImplicit false

namespace TemplateExpressions

open Text

/-! ## The text of a path with a prefixed fallback -/

/-- An alternative that stands for itself: a stretch without a prefix behind its blanks. -/
structure Text.IsPlainStretch (a : Text) : Prop where
  no_bar : '|' ∉ a
  no_prefix : hasPrefix (trimStart a) = false

namespace Text

theorem pieces_leftOf_append {alternatives : List Text} (h : ∀ a ∈ alternatives, '|' ∉ a) (t : Text) :
    pieces '|' (Route.leftOf alternatives ++ t) = alternatives ++ pieces '|' t := by
  induction alternatives with
  | nil => rfl
  | cons a alternatives ih =>
    have hothers := ih fun b hb => h b (List.mem_cons_of_mem _ hb)
    rw [Route.leftOf_cons, List.append_assoc, List.cons_append,
      pieces_append_separator '|' (h a List.mem_cons_self), hothers, List.cons_append]

theorem splitPrefix_blank {b : Char} (hb : isBlank b = true) (t : Text) : splitPrefix (b :: t) = none := by
  refine Option.eq_none_iff_forall_ne_some.2 fun ⟨n, r⟩ h => ?_
  obtain ⟨hname, heq⟩ := splitPrefix_eq_some_iff.1 h
  cases n with
  | nil => cases hname
  | cons c n =>
    obtain ⟨rfl, -⟩ := List.cons_eq_cons.1 heq
    simp only [isName, Bool.and_eq_true] at hname
    rw [isBlank_eq_false_of_isAlpha hname.1] at hb
    cases hb

/-- A text with a prefix starts with no blank. -/
theorem trimStart_of_hasPrefix {e : Text} (h : hasPrefix e = true) : trimStart e = e := by
  refine trimStart_eq_self fun c hc => ?_
  cases hblank : isBlank c with
  | false => rfl
  | true =>
    obtain ⟨t, rfl⟩ := List.head?_eq_some_iff.1 hc
    rw [hasPrefix, splitPrefix_blank hblank] at h
    cases h

/-- A bar behind a plain stretch keeps what follows from giving the text a prefix. -/
theorem IsPlainStretch.splitPrefix_eq_none {a : Text} (ha : a.IsPlainStretch) (t : Text) :
    splitPrefix (a ++ '|' :: t) = none := by
  have hbar : ∀ c, ('|' :: t).head? = some c → isNamePart c = false ∧ c ≠ ':' := by
    rintro c ⟨⟩
    decide
  have hplain : splitPrefix a = none := by
    refine Option.not_isSome_iff_eq_none.1 fun hprefixed => ?_
    have hnone := ha.no_prefix
    rw [trimStart_of_hasPrefix hprefixed, hasPrefix, hprefixed] at hnone
    cases hnone
  rw [splitPrefix_append hbar, hplain]
  rfl

end Text

/-! ## Compilation -/

theorem Route.read_eq_ok {source source' : Text} {offset offset' : Nat} {t : Text} {r : Route}
    (h : Route.read source offset t = .ok r) : Route.read source' offset' t = .ok r := by
  unfold Route.read at h ⊢
  cases hp : Text.pieces '/' (trim t) with
  | nil => exact absurd hp (pieces_ne_nil _ _)
  | cons base segments =>
    simp only [hp] at h ⊢
    split at h
    · rename_i hname
      rw [if_pos hname]
      exact h
    · cases h

/-- The routes that plain stretches are read as. -/
def ReadAs (alternatives : List Text) (routes : List Route) : Prop :=
  List.Forall₂ (fun a r => Route.read a 0 a = .ok r) alternatives routes

theorem ReadAs.readAll_eq_ok {alternatives : List Text} {routes : List Route} (h : ReadAs alternatives routes)
    (source : Text) (offset : Nat) : Route.readAll source offset alternatives = .ok routes := by
  induction h generalizing offset with
  | nil => rfl
  | cons hread _ ih =>
    rw [Route.readAll, Route.read_eq_ok hread, ih]
    rfl

section Compilation

variable {alternatives : List Text} {routes : List Route} {blanks e : Text}
  (hplain : ∀ a ∈ alternatives, a.IsPlainStretch) (hroutes : ReadAs alternatives routes)
  (hblanks : ∀ c ∈ blanks, isBlank c = true) (hprefixed : hasPrefix e = true)

include hplain hroutes hblanks hprefixed

theorem compilePath_fallback (f : Compiler) (traversal : Traversal) (typeName : Text) :
    compilePath f traversal typeName (Route.leftOf alternatives ++ (blanks ++ e)) = do
      let expr ← f e
      return .path ⟨typeName, Route.leftOf alternatives ++ (blanks ++ e)⟩ traversal
        (routes.map .route ++ [.nested expr]) := by
  obtain ⟨first, others, hrest⟩ := List.exists_cons_of_ne_nil (pieces_ne_nil '|' (blanks ++ e))
  have hjoin : joinWith ['|'] (first :: others) = blanks ++ e := by rw [← hrest, joinWith_pieces]
  have htrim : trimStart (joinWith ['|'] (first :: others)) = e := by
    rw [hjoin, trimStart_append_of_forall hblanks, trimStart_of_hasPrefix hprefixed]
  have hpieces := pieces_leftOf_append (fun a ha => (hplain a ha).no_bar) (blanks ++ e)
  rw [hrest] at hpieces
  have hfirst : hasPrefix (trimStart first) = true := by
    rw [← hasPrefix_trimStart_joinWith first others, htrim]
    exact hprefixed
  rw [compilePath_of_prefixed (fun a ha => IsPlainStretch.no_prefix (hplain a ha)) hpieces hfirst, htrim,
    hroutes.readAll_eq_ok]
  rfl

/-- A path of the default type with a prefixed fallback. -/
theorem Engine.compile_fallback {g : Engine} {traversal : Traversal}
    (hdefault : g.types.get? g.defaultType = some (.path traversal))
    (hne : alternatives ≠ [] ∨ blanks ≠ []) :
    g.compile (Route.leftOf alternatives ++ (blanks ++ e)) = do
      let expr ← g.compile e
      return .path ⟨g.defaultType, Route.leftOf alternatives ++ (blanks ++ e)⟩ traversal
        (routes.map .route ++ [.nested expr]) := by
  have hsplit : splitPrefix (Route.leftOf alternatives ++ (blanks ++ e)) = none := by
    cases alternatives with
    | cons a others =>
      have htext : Route.leftOf (a :: others) ++ (blanks ++ e) =
          a ++ '|' :: (Route.leftOf others ++ (blanks ++ e)) := by
        rw [Route.leftOf_cons, List.append_assoc, List.cons_append]
      rw [htext]
      exact (hplain a List.mem_cons_self).splitPrefix_eq_none _
    | nil =>
      cases blanks with
      | nil => simp at hne
      | cons b blanks => exact splitPrefix_blank (hblanks b List.mem_cons_self) _
  rw [compile_eq_compileOver]
  simp only [compileOver, dispatch, hsplit, Option.getD_none, hdefault]
  exact compilePath_fallback hplain hroutes hblanks hprefixed g.compile traversal g.defaultType

end Compilation

/-! ## Evaluation -/

namespace Evaluation

/-- What evaluating a text on a context comes to. -/
def ofText (w : World) (levels : Nat) (active : List ContextId) (id : ContextId) (text : Text)
    (trail : Trail) : Outcome Value :=
  (Source.text text).run w (evaluate w levels active) id trail

theorem ofText_of_compile {w : World} {text : Text} {e : Expr} (h : w.engine.compile text = .ok e)
    (levels : Nat) (active : List ContextId) (id : ContextId) :
    ofText w levels active id text = evaluate w levels active id e := by
  funext trail
  simp only [ofText, Source.run, h]

/-- Plain stretches that have no value by themselves: taken as they are, one after the other, each fails with
an error that alternatives fall through. -/
inductive FallsThrough (w : World) (levels : Nat) (active : List ContextId) (id : ContextId) :
    List Text → Trail → Trail → Prop
  | nil (trail : Trail) : FallsThrough w levels active id [] trail trail
  | cons {a : Text} {others : List Text} {trail middle left : Trail} {err : EvalError} :
      under w levels active id a trail "nocall".toList = .done (.error err) middle →
      err.isUndefined = true → FallsThrough w levels active id others middle left →
      FallsThrough w levels active id (a :: others) trail left

theorem resolve_cons_append (source : Text) (value : Alternative Expr → Run Value)
    (first : Alternative Expr) (others : List (Alternative Expr)) (last : Alternative Expr) :
    resolve source value (first :: (others ++ [last])) =
      (value first).orElse (resolve source value (others ++ [last])) := by
  cases others with
  | nil => rfl
  | cons second others => rfl

section Stretch

variable {w : World} {traversal : Traversal} {limits limits' : ContextId → Nat} {levels levels' : Nat}
  {active : List ContextId} {id : ContextId} {c : Context} {trail middle : Trail} {err : EvalError}

/-- A plain stretch that has no value is a route all the same. -/
theorem exists_route_of_under (hnocall : w.engine.IsPathType traversal "nocall".toList) {a : Text}
    (ha : a.IsPlainStretch)
    (h : under w levels active id a trail "nocall".toList = .done (.error err) middle)
    (herr : err.isUndefined = true) :
    ∃ r, Route.read a 0 a = .ok r ∧
      evaluate w levels active id (.path ⟨"nocall".toList, a⟩ traversal [.route r]) trail =
        .done (.error err) middle := by
  have hcompile := w.engine.compile_prefixed hnocall.1 hnocall.2 a
  simp only [Engine.build, Factory.build, compilePath, pieces_eq_singleton '|' ha.no_bar,
    compileAlternatives, ha.no_prefix] at hcompile
  rcases Route.read_cases a 0 a with ⟨-, r, hread⟩ | ⟨-, hread⟩
  · refine ⟨r, hread, ?_⟩
    rw [hread] at hcompile
    have hpath : w.engine.compile ("nocall".toList ++ ':' :: a) =
        .ok (.path ⟨"nocall".toList, a⟩ traversal [.route r]) := hcompile
    simpa only [under, Source.run, hpath] using h
  · rw [hread] at hcompile
    have hfault : w.engine.compile ("nocall".toList ++ ':' :: a) = .error (.fault _) := hcompile
    simp only [under, Source.run, hfault] at h
    cases h
    cases herr

/-- Inside the evaluation the route fails in the same way, and so it does where contexts have as much room. -/
theorem route_fails_of_evaluate (hlimits : ∀ id, limits id ≤ limits' id) (hlevels : levels ≤ levels')
    (hc : w.context? id = some c) {a : Text} {r : Route}
    (h : evaluate (w.withLimits limits) levels active id
      (.path ⟨"nocall".toList, a⟩ traversal [.route r]) trail = .done (.error err) middle)
    (herr : err.isUndefined = true) {t : Trail} (ht : deeds t = deeds trail) :
    ∃ t', deeds t' = deeds middle ∧
      alternative w (evaluate (w.withLimits limits') levels' (id :: active)) id c traversal (.route r) t =
        .done (.error err) t' := by
  cases levels with
  | zero => cases h
  | succ levels =>
    rw [evaluate_withLimits hc] at h
    split at h
    · cases h
      cases herr
    · rw [Run.within_apply] at h
      split at h
      · rename_i result inner hinner
        cases h
        have hmeaning : ∀ i e, (evaluate (w.withLimits limits) levels (id :: active) i e).MirroredBy alike
            (evaluate (w.withLimits limits') levels' (id :: active) i e) :=
          evaluate_mirroredBy_alike (fun j => Nat.add_le_add_right (hlimits j) _) (Nat.le_of_succ_le hlevels)
        have hroute : alternative w (evaluate (w.withLimits limits) levels (id :: active)) id c traversal
            (.route r) (.entered id (active.count id + 1) :: trail) = .done (.error err) inner := hinner
        have hmirrored := alternative_mirroredBy (w := w) hmeaning id c traversal (.route r)
        obtain ⟨t', hdone, hpairs⟩ := hmirrored (.entered id (active.count id + 1) :: trail) t _ _
            ht.symm hroute fun e he => by
          cases he
          exact ne_depthExceeded_of_isUndefined err herr
        exact ⟨t', hpairs.symm, hdone⟩
      · cases h

/-- An evaluation that ends within the limit of its context has begun within it. -/
theorem count_lt_of_evaluate (hc : w.context? id = some c) {e : Expr} {result : Except EvalError Value}
    {left : Trail} (h : evaluate (w.withLimits limits) levels active id e trail = .done result left)
    (hresult : ∀ depth limit, result ≠ .error (.depthExceeded depth limit)) :
    active.count id < limits id := by
  cases levels with
  | zero => cases h
  | succ levels =>
    rw [evaluate_withLimits hc] at h
    split at h
    · cases h
      exact absurd rfl (hresult _ _)
    · omega

/-- Alternatives without a value leave it to the last one. -/
theorem resolve_fallsThrough (hnocall : w.engine.IsPathType traversal "nocall".toList)
    (hlimits : ∀ id, limits id ≤ limits' id) (hlevels : levels ≤ levels') (hc : w.context? id = some c)
    {alternatives : List Text} (hplain : ∀ a ∈ alternatives, a.IsPlainStretch)
    (h : FallsThrough (w.withLimits limits) levels active id alternatives trail middle) :
    ∃ routes, ReadAs alternatives routes ∧ ∀ source last t, deeds t = deeds trail →
      ∃ t', deeds t' = deeds middle ∧
        resolve source (alternative w (evaluate (w.withLimits limits') levels' (id :: active)) id c traversal)
            (routes.map .route ++ [last]) t =
          alternative w (evaluate (w.withLimits limits') levels' (id :: active)) id c traversal last t' := by
  induction h with
  | nil trail => exact ⟨[], .nil, fun source last t ht => ⟨t, ht, rfl⟩⟩
  | @cons a others trail middle left err hunder herr _ ih =>
    obtain ⟨r, hread, hevaluate⟩ :=
      exists_route_of_under (w := w.withLimits limits) hnocall (hplain a List.mem_cons_self) hunder herr
    obtain ⟨routes, hroutes, hresolve⟩ := ih fun b hb => hplain b (List.mem_cons_of_mem _ hb)
    refine ⟨r :: routes, .cons hread hroutes, fun source last t ht => ?_⟩
    obtain ⟨t₁, ht₁, hfails⟩ := route_fails_of_evaluate hlimits hlevels hc hevaluate herr ht
    obtain ⟨t₂, ht₂, hlast⟩ := hresolve source last t₁ ht₁
    refine ⟨t₂, ht₂, ?_⟩
    rw [List.map_cons, List.cons_append, resolve_cons_append, Run.orElse_apply, hfails]
    simp only [herr, if_true]
    exact hlast

end Stretch

end Evaluation

open Evaluation

/-- A prefixed fallback behind alternatives that have no value, or behind blanks alone, in a path of the
default type. If the fallback does not compile, the path fails with the same error at once. Otherwise say
that the fallback by itself comes to a result on a context that allows one evaluation less. Then it does so
here too, and the path comes to the same error, or to the same value if that cannot be called; a value that
can be called is called once before the evaluation of the path ends. Up to then the same is called and asked
and fails. -/
theorem fallback_is_called {w : World} {traversal : Traversal}
    (hdefault : w.engine.types.get? w.engine.defaultType = some (.path traversal))
    (hmode : PathMode.ofTypeName w.engine.defaultType = .invoking)
    (hnocall : w.engine.IsPathType traversal "nocall".toList)
    {limits limits' : ContextId → Nat} (hlimits : ∀ id, limits id ≤ limits' id)
    {levels levels' : Nat} (hlevels : levels ≤ levels') {active : List ContextId} {id : ContextId}
    {c : Context} (hc : w.context? id = some c) (hspare : limits id < limits' id)
    {alternatives : List Text} {blanks e : Text} (hplain : ∀ a ∈ alternatives, a.IsPlainStretch)
    (hblanks : ∀ ch ∈ blanks, isBlank ch = true) (hprefixed : hasPrefix e = true)
    (hne : alternatives ≠ [] ∨ blanks ≠ []) {trail middle : Trail}
    (hmissed : FallsThrough (w.withLimits limits) levels active id alternatives trail middle) :
    (∀ fault, w.engine.compile e = .error (.fault fault) →
      ofText (w.withLimits limits') (levels' + 1) active id (Route.leftOf alternatives ++ (blanks ++ e))
          trail = ofText (w.withLimits limits') (levels' + 1) active id e trail) ∧
    ∀ expression result left, w.engine.compile e = .ok expression →
      ofText (w.withLimits limits) levels active id e middle = .done result left →
      (∀ depth limit, result ≠ .error (.depthExceeded depth limit)) →
      ofText (w.withLimits limits') (levels' + 1) active id e middle = .done result left ∧
      ∃ inner, deeds inner = deeds left ∧
        ofText (w.withLimits limits') (levels' + 1) active id (Route.leftOf alternatives ++ (blanks ++ e))
            trail =
          (Outcome.done result (.left id (Run.error? result) :: inner)).called w
            (evaluate (w.withLimits limits') levels' (id :: active)) id := by
  obtain ⟨routes, hroutes, hresolve⟩ :=
    resolve_fallsThrough hnocall hlimits hlevels hc hplain hmissed
  have hcompile := Engine.compile_fallback hplain hroutes hblanks hprefixed hdefault hne
  have hengine : ∀ l : ContextId → Nat, (w.withLimits l).engine = w.engine := fun _ => rfl
  refine ⟨fun fault hfault => ?_, fun expression result left hexpression halone hresult => ?_⟩
  · rw [hfault] at hcompile
    simp only [ofText, Source.run, hengine, hfault]
    rw [hcompile]
    rfl
  · rw [hexpression] at hcompile
    rw [ofText_of_compile (w := w.withLimits limits) hexpression] at halone
    rw [ofText_of_compile (w := w.withLimits limits') hexpression,
      ofText_of_compile (w := w.withLimits limits') hcompile]
    have hcount := count_lt_of_evaluate hc halone hresult
    have hguard : ¬ limits' id < active.count id + 1 := by omega
    obtain ⟨t, ht, hlast⟩ := hresolve (Route.leftOf alternatives ++ (blanks ++ e)) (.nested expression)
      (.entered id (active.count id + 1) :: trail) rfl
    have hmirrored := evaluate_mirroredBy_alike (w := w) (room_of_spare hlimits hspare active) hlevels id
      expression
    obtain ⟨inner, hinner, hdeeds⟩ := hmirrored middle t result left ht.symm halone
      fun err herr depth limit hlimit => hresult depth limit (by rw [herr, hlimit])
    refine ⟨?_, inner, hdeeds.symm, ?_⟩
    · have hmatched := evaluate_matchedBy_withLimits (w := w) hlimits (Nat.le_succ_of_le hlevels) active id
        expression
      exact (hmatched middle result left trivial halone
        fun err herr depth limit hlimit => hresult depth limit (by rw [herr, hlimit])).1
    · rw [evaluate_withLimits hc, if_neg hguard]
      simp only [valueOf, hmode]
      rw [Run.within_invoking, Run.within_apply, hlast]
      simp only [alternative, hinner]

/-- A context with two callables; what the second one fails with, alternatives fall through. -/
def twoCallables : World :=
  (Session.ofRoots [(['f'], .callable (some 0) (.returns (.text ['t']))),
    (['g'], .callable (some 1) (.fails (.undefined ['u'])))]).world

/-- The path to `f`, taken as it is. -/
def uncalledF : Expr := .path ⟨"nocall".toList, ['f']⟩ .plain [.route ⟨['f'], []⟩]

theorem compile_uncalledF : twoCallables.engine.compile "nocall:f".toList = .ok uncalledF := rfl

theorem fallback_of_uncalledF :
    ∃ middle left inner,
      FallsThrough (twoCallables.withLimits fun _ => 1) 3 [] 0 [['m']] [] middle ∧
      ofText (twoCallables.withLimits fun _ => 1) 3 [] 0 "nocall:f".toList middle =
        .done (.ok (.callable (some 0) (.returns (.text ['t'])))) left ∧
      ofText (twoCallables.withLimits fun _ => 2) 4 [] 0 "m|nocall:f".toList [] =
        .done (.ok (.text ['t'])) (.left 0 none :: .invoked 0 :: inner) ∧
      deeds inner = deeds left := by
  have hplain : ∀ a ∈ [['m']], Text.IsPlainStretch a := by
    intro a ha
    rw [List.mem_singleton.1 ha]
    exact ⟨by decide, by decide⟩
  obtain ⟨middle, hmissed⟩ : ∃ middle,
      FallsThrough (twoCallables.withLimits fun _ => 1) 3 [] 0 [['m']] [] middle :=
    ⟨_, .cons rfl rfl (.nil _)⟩
  obtain ⟨left, halone⟩ : ∃ left,
      ofText (twoCallables.withLimits fun _ => 1) 3 [] 0 "nocall:f".toList middle =
        .done (.ok (.callable (some 0) (.returns (.text ['t'])))) left := by
    rw [ofText_of_compile (w := twoCallables.withLimits fun _ => 1) compile_uncalledF]
    exact ⟨_, rfl⟩
  have hlimits : ∀ id : ContextId, (fun _ => 1) id ≤ (fun _ => 2) id := by
    intro id
    show 1 ≤ 2
    decide
  have hspare : (fun _ : ContextId => 1) 0 < (fun _ : ContextId => 2) 0 := by
    show 1 < 2
    decide
  have hdefault : twoCallables.engine.types.get? twoCallables.engine.defaultType = some (.path .plain) := rfl
  have hblanks : ∀ ch ∈ ([] : Text), isBlank ch = true := by simp
  have hprefixed : hasPrefix "nocall:f".toList = true := by decide
  obtain ⟨-, hall⟩ := fallback_is_called hdefault rfl ⟨by decide, rfl⟩ hlimits (Nat.le_refl 3) rfl
    hspare hplain hblanks hprefixed (.inl (List.cons_ne_nil _ _)) hmissed
  obtain ⟨-, inner, hdeeds, hwhole⟩ := hall uncalledF _ left compile_uncalledF halone
    fun _ _ h => by cases h
  exact ⟨middle, left, inner, hmissed, halone, hwhole, hdeeds⟩

/-- By itself the fallback is not called. It is called behind an alternative that has no value, and behind a
blank. An alternative that has a value is not fallen through, even if calling that fails. -/
theorem fallback_differs_from_itself :
    ∃ missed alone whole blank failing fallback kept : Trail,
      FallsThrough twoCallables 3 [] 0 [['m']] [] missed ∧
      ofText twoCallables 3 [] 0 "nocall:f".toList [] =
        .done (.ok (.callable (some 0) (.returns (.text ['t'])))) alone ∧
      ofText twoCallables 3 [] 0 "m|nocall:f".toList [] = .done (.ok (.text ['t'])) whole ∧
      ofText twoCallables 3 [] 0 " nocall:f".toList [] = .done (.ok (.text ['t'])) blank ∧
      (.invoked 0 ∉ alone ∧ .invoked 0 ∈ whole ∧ .invoked 0 ∈ blank) ∧
      ofText twoCallables 3 [] 0 ['g'] [] = .done (.error (.undefined ['u'])) failing ∧
      ofText twoCallables 3 [] 0 "string:t".toList [] = .done (.ok (.text ['t'])) fallback ∧
      ofText twoCallables 3 [] 0 "g|string:t".toList [] = .done (.error (.undefined ['u'])) kept := by
  have hwhole : twoCallables.engine.compile "m|nocall:f".toList =
      .ok (.path ⟨"standard".toList, "m|nocall:f".toList⟩ .plain
        [.route ⟨['m'], []⟩, .nested uncalledF]) := rfl
  have hblank : twoCallables.engine.compile " nocall:f".toList =
      .ok (.path ⟨"standard".toList, " nocall:f".toList⟩ .plain [.nested uncalledF]) := rfl
  have hfailing : twoCallables.engine.compile ['g'] =
      .ok (.path ⟨"standard".toList, ['g']⟩ .plain [.route ⟨['g'], []⟩]) := rfl
  have hfallback : twoCallables.engine.compile "string:t".toList =
      .ok (.template ⟨"string".toList, ['t']⟩ [.literal ['t']]) := rfl
  have hkept : twoCallables.engine.compile "g|string:t".toList =
      .ok (.path ⟨"standard".toList, "g|string:t".toList⟩ .plain
        [.route ⟨['g'], []⟩, .nested (.template ⟨"string".toList, ['t']⟩ [.literal ['t']])]) := rfl
  rw [ofText_of_compile compile_uncalledF, ofText_of_compile hwhole, ofText_of_compile hblank,
    ofText_of_compile hfailing, ofText_of_compile hfallback, ofText_of_compile hkept]
  exact ⟨_, _, _, _, _, _, _, .cons rfl rfl (.nil _), rfl, rfl, rfl,
    ⟨by decide, by decide, by decide⟩, rfl, rfl, rfl⟩

end TemplateExpressions
