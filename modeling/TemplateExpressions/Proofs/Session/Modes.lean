import TemplateExpressions.Proofs.Engine.Nested
import TemplateExpressions.Proofs.Session.Inquiry

/-!
# Modes of paths

A path can be taken as it is, tested, or taken with its value called. Testing is a loop of its own, which
goes on after the last alternative where taking stops; both come to the same (`test_eq`). Main statements:
what testing and calling make of a path follows from what taking it as it is comes to
(`evaluate_testing`, `evaluate_invoking`), and so for the same text under the types of the three modes
(`path_modes_agree`).
-/

set_option autoImplicit false

namespace TemplateExpressions

/-- What testing a path comes to, given what taking it as it is comes to. -/
def Outcome.tested (id : ContextId) : Outcome Value → Outcome Value
  | .done (.ok _) trail => .done (.ok (.bool true)) trail
  | .done (.error e) trail =>
    if e.isUndefined then .done (.ok (.bool false)) (.left id none :: trail.tail)
    else .done (.error e) trail
  | .unfinished => .unfinished

/-- A test ends with no error that alternatives fall through. -/
theorem Outcome.isUndefined_of_tested {id : ContextId} {outcome : Outcome Value} {err : EvalError}
    {trail : Trail} (h : outcome.tested id = .done (.error err) trail) : err.isUndefined = false := by
  cases outcome with
  | unfinished => cases h
  | done result trail' =>
    cases result with
    | ok v => cases h
    | error e =>
      cases hu : e.isUndefined with
      | true => simp [tested, hu] at h
      | false =>
        simp only [tested, hu, Bool.false_eq_true, if_false] at h
        cases h
        exact hu

/-- An outcome within an evaluation, with the end of that evaluation on the trail. -/
def Outcome.leave (id : ContextId) : Outcome Value → Outcome Value
  | .done result trail => .done result (.left id (Run.error? result) :: trail)
  | .unfinished => .unfinished

/-- What taking a path with its value called comes to, given what taking it as it is comes to: a value
that can be called is called before the evaluation ends. -/
def Outcome.called (w : World) (meaning : Meaning) (id : ContextId) : Outcome Value → Outcome Value
  | .done (.ok v) trail =>
    match Evaluation.invoke? w meaning v with
    | none => .done (.ok v) trail
    | some call => (call trail.tail).leave id
  | .done (.error e) trail => .done (.error e) trail
  | .unfinished => .unfinished

/-- The name selects a type that compiles paths. -/
def Engine.IsPathType (g : Engine) (traversal : Traversal) (name : Text) : Prop :=
  Text.isName name = true ∧ g.types.get? name = some (.path traversal)

/-- The mark that calls of a value are noted with. -/
def Value.mark? : Value → Option Mark
  | .callable mark _ => mark
  | .object mark _ => some mark
  | _ => none

namespace Run

variable {α β : Type}

/-- A fallback within a test is a fallback of the test. -/
theorem bind_orElse (x y : Run α) (b : β) (z : Run β) :
    ((x.orElse y) >>= fun _ => Pure.pure b).orElse z =
      (x >>= fun _ => Pure.pure b).orElse ((y >>= fun _ => Pure.pure b).orElse z) := by
  funext trail
  simp only [orElse_apply, bind_apply]
  cases x trail with
  | done result trail =>
    cases result with
    | ok a => rfl
    | error e => cases hu : e.isUndefined <;> simp [hu]
  | unfinished => rfl

theorem within_testing (id : ContextId) (depth : Nat) (x : Run Value) (trail : Trail) :
    within id depth (Run.orElse (do let _ ← x; return .bool true) (return .bool false)) trail =
      (within id depth x trail).tested id := by
  simp only [within_apply, orElse_apply, bind_apply]
  cases x (.entered id depth :: trail) with
  | done result trail =>
    cases result with
    | ok v => rfl
    | error e =>
      cases hu : e.isUndefined with
      | true =>
        simp only [hu, if_true, Outcome.tested, List.tail_cons]
        rfl
      | false => simp [hu, Outcome.tested]
  | unfinished => rfl

theorem within_invoking (w : World) (meaning : Meaning) (id : ContextId) (depth : Nat)
    (x : Run Value) (trail : Trail) :
    within id depth (x >>= fun v => (Evaluation.invoke? w meaning v).getD (return v)) trail =
      (within id depth x trail).called w meaning id := by
  simp only [within_apply, bind_apply]
  cases x (.entered id depth :: trail) with
  | done result trail =>
    cases result with
    | ok v =>
      simp only [Outcome.called, error?]
      cases Evaluation.invoke? w meaning v with
      | none => rfl
      | some call =>
        simp only [Option.getD_some, List.tail_cons]
        cases call trail <;> rfl
    | error e => rfl
  | unfinished => rfl

end Run

namespace Evaluation

variable {w : World}

/-- Testing is taking with `true` in place of the value and `false` to fall back on. -/
theorem test_eq (source : Text) (value : Alternative Expr → Run Value)
    {alternatives : List (Alternative Expr)} (h : alternatives ≠ []) :
    test value alternatives =
      Run.orElse (do let _ ← resolve source value alternatives; return .bool true)
        (return .bool false) := by
  induction alternatives with
  | nil => exact absurd rfl h
  | cons first others ih =>
    cases others with
    | nil => rfl
    | cons second others =>
      simp only [test, resolve]
      rw [Run.bind_orElse, ← ih (List.cons_ne_nil _ _)]
      rfl

section Paths

variable (w) (levels : Nat) (active : List ContextId) (id : ContextId) (source : Text)
  (traversal : Traversal) (trail : Trail)

theorem evaluate_testing {alternatives : List (Alternative Expr)} (h : alternatives ≠ []) :
    evaluate w (levels + 1) active id (.path ⟨"exists".toList, source⟩ traversal alternatives)
        trail =
      (evaluate w (levels + 1) active id (.path ⟨"nocall".toList, source⟩ traversal alternatives)
        trail).tested id := by
  unfold evaluate guarded
  cases w.context? id with
  | none => rfl
  | some c =>
    dsimp only
    split
    · rfl
    · rw [← Run.within_testing]
      show Run.within id _ (test _ alternatives) trail = _
      rw [test_eq source _ h]
      rfl

theorem evaluate_invoking {name : Text} (hname : PathMode.ofTypeName name = .invoking)
    (alternatives : List (Alternative Expr)) :
    evaluate w (levels + 1) active id (.path ⟨name, source⟩ traversal alternatives) trail =
      (evaluate w (levels + 1) active id (.path ⟨"nocall".toList, source⟩ traversal alternatives)
        trail).called w (evaluate w levels (id :: active)) id := by
  unfold evaluate guarded
  cases w.context? id with
  | none => rfl
  | some c =>
    dsimp only
    split
    · rfl
    · rw [← Run.within_invoking]
      simp only [valueOf, hname]
      rfl

end Paths

/-- A call is noted first, if it has a mark, and calls nothing else. -/
theorem perform_done (w : World) (mark : Option Mark) (act : Act Value) (trail : Trail) :
    ∃ result events, perform w mark act trail =
        .done result (events ++ (mark.map Event.invoked).toList ++ trail) ∧
      ∀ m, .invoked m ∉ events := by
  have hmark : (mark.forM fun m => Run.note (.invoked m)) trail =
      .done (.ok ()) ((mark.map Event.invoked).toList ++ trail) := by
    cases mark <;> rfl
  cases act with
  | returns value =>
    rw [perform, Run.bind_apply, hmark]
    exact ⟨_, [], rfl, by simp⟩
  | fails e =>
    rw [perform, Run.bind_apply, hmark]
    exact ⟨_, [.failed e], rfl, by simp⟩
  | counts =>
    rw [perform, Run.bind_apply, hmark]
    exact ⟨_, [], rfl, by simp⟩
  | asks cursor query =>
    rw [perform, Run.bind_apply, hmark]
    dsimp only
    rw [Run.bind_apply]
    cases w.cursor? cursor with
    | none => exact ⟨_, [.failed _, .asked cursor query], rfl, by simp⟩
    | some c =>
      dsimp only
      cases c.ask w.live query with
      | ok answer => exact ⟨_, [.asked cursor query], rfl, by simp⟩
      | error e => exact ⟨_, [.failed _, .asked cursor query], rfl, by simp⟩

/-- A value that is not deferred is called once, and its call calls nothing else. -/
theorem call_once {meaning : Meaning} {v : Value} {call : Run Value}
    (h : invoke? w meaning v = some call)
    (hdeferred : ∀ expression context, v ≠ .deferred expression context) (trail : Trail) :
    ∃ result events, call trail =
        .done result (events ++ (v.mark?.map Event.invoked).toList ++ trail) ∧
      ∀ m, .invoked m ∉ events := by
  cases v with
  | callable mark act =>
    cases h
    exact perform_done w mark act trail
  | object mark host =>
    obtain ⟨act, -, rfl⟩ := Option.map_eq_some_iff.1 h
    exact perform_done w (some mark) act trail
  | deferred e id => exact absurd rfl (hdeferred e id)
  | _ => cases h

/-- An evaluation has its end on the trail, unless it was refused. -/
theorem eq_left_of_evaluate {levels : Nat} {active : List ContextId} {id : ContextId} {e : Expr}
    {trail trail' : Trail} {result : Except EvalError Value}
    (h : evaluate w levels active id e trail = .done result trail')
    (hresult : ∀ err, result = .error err → err.isUndefined = true) :
    ∃ inner, trail' = .left id (Run.error? result) :: inner := by
  cases levels with
  | zero => cases h
  | succ levels =>
    unfold evaluate guarded at h
    cases hc : w.context? id with
    | none =>
      rw [hc] at h
      cases h
      cases hresult _ rfl
    | some c =>
      rw [hc] at h
      dsimp only at h
      split at h
      · cases h
        cases hresult _ rfl
      · rw [Run.within_apply] at h
        split at h
        · rename_i inner _
          cases h
          exact ⟨inner, rfl⟩
        · cases h

/-! ## Texts under the types of the modes -/

/-- What evaluating a text under a type comes to. -/
def under (w : World) (levels : Nat) (active : List ContextId) (id : ContextId) (e : Text)
    (trail : Trail) (typeName : Text) : Outcome Value :=
  (Source.text (typeName ++ ':' :: e)).run w (evaluate w levels active) id trail

theorem compileAlternatives_ne_nil {compile : Compiler} {source : Text} {offset : Nat}
    {stretches : List Text} (hstretches : stretches ≠ []) {alternatives : List (Alternative Expr)}
    (h : compileAlternatives compile source offset stretches = .ok alternatives) :
    alternatives ≠ [] := by
  rintro rfl
  cases stretches with
  | nil => exact hstretches rfl
  | cons stretch stretches =>
    rcases compileAlternatives_cases h with ⟨-, e, -, hnested⟩ | ⟨-, r, others, -, -, hroute⟩
    · cases hnested
    · cases hroute

/-- Under any path type a text has the same alternatives, at least one, or fails to compile for the same
reason. -/
theorem under_of_path (w : World) (traversal : Traversal) (levels : Nat) (active : List ContextId)
    (id : ContextId) (e : Text) (trail : Trail) :
    (∃ alternatives, alternatives ≠ [] ∧ ∀ {name}, w.engine.IsPathType traversal name →
      under w levels active id e trail name =
        evaluate w levels active id (.path ⟨name, e⟩ traversal alternatives) trail) ∨
    (∃ fault, ∀ {name}, w.engine.IsPathType traversal name →
      under w levels active id e trail name = Run.fail (.compile fault) trail) ∨
    (∀ {name}, w.engine.IsPathType traversal name →
      under w levels active id e trail name = .unfinished) := by
  have hcompile : ∀ {name}, w.engine.IsPathType traversal name →
      w.engine.compile (name ++ ':' :: e) = compilePath w.engine.compile traversal name e :=
    fun hname => w.engine.compile_prefixed hname.1 hname.2 e
  cases ha : compileAlternatives w.engine.compile e 0 (Text.pieces '|' e) with
  | ok alternatives =>
    refine Or.inl ⟨alternatives, compileAlternatives_ne_nil (Text.pieces_ne_nil '|' e) ha, ?_⟩
    intro name hname
    simp only [under, Source.run, hcompile hname, compilePath, ha]
    rfl
  | error halt =>
    cases halt with
    | fault error =>
      refine Or.inr (Or.inl ⟨error, ?_⟩)
      intro name hname
      simp only [under, Source.run, hcompile hname, compilePath, ha]
      rfl
    | endless =>
      refine Or.inr (Or.inr ?_)
      intro name hname
      simp only [under, Source.run, hcompile hname, compilePath, ha]
      rfl

section Texts

variable {traversal : Traversal} {levels : Nat} {active : List ContextId} {id : ContextId} {e : Text}
  {trail : Trail} (hnocall : w.engine.IsPathType traversal "nocall".toList)

include hnocall

theorem under_exists (hexists : w.engine.IsPathType traversal "exists".toList) :
    under w (levels + 1) active id e trail "exists".toList =
      (under w (levels + 1) active id e trail "nocall".toList).tested id := by
  rcases under_of_path w traversal (levels + 1) active id e trail with
    ⟨alternatives, hne, h⟩ | ⟨fault, h⟩ | h
  · rw [h hexists, h hnocall]
    exact evaluate_testing w levels active id e traversal trail hne
  · rw [h hexists, h hnocall]
    rfl
  · rw [h hexists, h hnocall]
    rfl

theorem under_invoking {name : Text} (hname : w.engine.IsPathType traversal name)
    (hmode : PathMode.ofTypeName name = .invoking) :
    under w (levels + 1) active id e trail name =
      (under w (levels + 1) active id e trail "nocall".toList).called w
        (evaluate w levels (id :: active)) id := by
  rcases under_of_path w traversal (levels + 1) active id e trail with
    ⟨alternatives, hne, h⟩ | ⟨fault, h⟩ | h
  · rw [h hname, h hnocall]
    exact evaluate_invoking w levels active id e traversal trail hmode alternatives
  · rw [h hname, h hnocall]
    rfl
  · rw [h hname, h hnocall]
    rfl

/-- A path taken as it is has the end of its evaluation on the trail, unless it ends with an error that
alternatives do not fall through. -/
theorem eq_left_of_under {result : Except EvalError Value} {trail' : Trail}
    (h : under w levels active id e trail "nocall".toList = .done result trail')
    (hresult : ∀ err, result = .error err → err.isUndefined = true) :
    ∃ inner, trail' = .left id (Run.error? result) :: inner := by
  rcases under_of_path w traversal levels active id e trail with
    ⟨alternatives, -, hpath⟩ | ⟨fault, hpath⟩ | hpath
  · rw [hpath hnocall] at h
    exact eq_left_of_evaluate h hresult
  · rw [hpath hnocall] at h
    cases h
    cases hresult _ rfl
  · rw [hpath hnocall] at h
    cases h

end Texts

end Evaluation

open Evaluation in
/-- A text in the three modes of paths. Say that taken as it is it has a value: then it tests as `true`, and
where its value is called, it has that value if it cannot be called, and otherwise comes to what calling it
once within the evaluation comes to, whatever that is. An error of the text taken as it is stands where its
value is called, and in a test too unless it is one that alternatives fall through: then it tests as
`false`. Testing and taking leave the same trail up to the end of the evaluation. -/
theorem path_modes_agree {w : World} {traversal : Traversal} {name : Text}
    (hnocall : w.engine.IsPathType traversal "nocall".toList)
    (hexists : w.engine.IsPathType traversal "exists".toList)
    (hname : w.engine.IsPathType traversal name) (hmode : PathMode.ofTypeName name = .invoking)
    (levels : Nat) (active : List ContextId) (id : ContextId) (e : Text) (trail : Trail) :
    (∀ err trail', under w (levels + 1) active id e trail "exists".toList = .done (.error err) trail' →
      err.isUndefined = false) ∧
    match under w (levels + 1) active id e trail "nocall".toList with
    | .done (.ok v) trail' =>
      under w (levels + 1) active id e trail "exists".toList = .done (.ok (.bool true)) trail' ∧
      ∃ inner, trail' = .left id none :: inner ∧
        match invoke? w (evaluate w levels (id :: active)) v with
        | none => under w (levels + 1) active id e trail name = .done (.ok v) trail'
        | some call =>
          under w (levels + 1) active id e trail name = (call inner).leave id ∧
          ((∀ expression context, v ≠ .deferred expression context) →
            ∃ result events, call inner =
                .done result (events ++ (v.mark?.map Event.invoked).toList ++ inner) ∧
              ∀ m, .invoked m ∉ events)
    | .done (.error err) trail' =>
      under w (levels + 1) active id e trail name = .done (.error err) trail' ∧
      if err.isUndefined then
        ∃ inner, trail' = .left id (some err) :: inner ∧
          under w (levels + 1) active id e trail "exists".toList =
            .done (.ok (.bool false)) (.left id none :: inner)
      else under w (levels + 1) active id e trail "exists".toList = .done (.error err) trail'
    | .unfinished =>
      under w (levels + 1) active id e trail "exists".toList = .unfinished ∧
        under w (levels + 1) active id e trail name = .unfinished := by
  rw [under_exists hnocall hexists, under_invoking hnocall hname hmode]
  refine ⟨fun err trail' herr => Outcome.isUndefined_of_tested herr, ?_⟩
  cases h : under w (levels + 1) active id e trail "nocall".toList with
  | unfinished => exact ⟨rfl, rfl⟩
  | done result trail' =>
    cases result with
    | error err =>
      refine ⟨rfl, ?_⟩
      cases hu : err.isUndefined with
      | true =>
        obtain ⟨inner, rfl⟩ := eq_left_of_under hnocall h fun err' he => by cases he; exact hu
        simp only [if_true]
        refine ⟨inner, rfl, ?_⟩
        simp [Outcome.tested, hu]
      | false => simp [Outcome.tested, hu]
    | ok v =>
      obtain ⟨inner, rfl⟩ := eq_left_of_under hnocall h fun err' he => by cases he
      refine ⟨rfl, inner, rfl, ?_⟩
      simp only [Outcome.called, List.tail_cons]
      cases hv : invoke? w (evaluate w levels (id :: active)) v with
      | none => rfl
      | some call => exact ⟨rfl, fun hdeferred => call_once hv hdeferred inner⟩

/-- A world in which `f` calls and fails with an error that alternatives would fall through. -/
def failingCall : World :=
  ((Session.start .standard).getContext
    [(['f'], .callable (some 0) (.fails (.nameNotFound ['n']))), (['b'], .int 1)] []).1.world

theorem path_modes_of_failingCall :
    Evaluation.under failingCall 2 [] 0 "f | b".toList [] "nocall".toList =
        .done (.ok (.callable (some 0) (.fails (.nameNotFound ['n']))))
          [.left 0 none, .entered 0 1] ∧
      Evaluation.under failingCall 2 [] 0 "f | b".toList [] "exists".toList =
        .done (.ok (.bool true)) [.left 0 none, .entered 0 1] ∧
      Evaluation.under failingCall 2 [] 0 "f | b".toList [] "path".toList =
        .done (.error (.nameNotFound ['n']))
          [.left 0 (some (.nameNotFound ['n'])), .failed (.nameNotFound ['n']), .invoked 0,
           .entered 0 1] := by
  have htype : ∀ name ∈ ["nocall".toList, "exists".toList, "path".toList],
      failingCall.engine.IsPathType .plain name := by
    unfold Engine.IsPathType
    decide +kernel
  have hnocall : Evaluation.under failingCall (1 + 1) [] 0 "f | b".toList [] "nocall".toList =
      .done (.ok (.callable (some 0) (.fails (.nameNotFound ['n'])))) [.left 0 none, .entered 0 1] :=
    rfl
  have hmodes := (path_modes_agree (htype _ (by simp)) (htype _ (by simp))
    (htype "path".toList (by simp)) rfl 1 [] 0 "f | b".toList []).2
  rw [hnocall] at hmodes
  obtain ⟨hexists, inner, hinner, hcall, -⟩ := hmodes
  cases hinner
  exact ⟨hnocall, hexists, hcall⟩

end TemplateExpressions
