import TemplateExpressions.Proofs.Evaluation.Mirroring
import TemplateExpressions.Session

/-!
# Sessions without places

Where in the document a context stands is kept for reports of failures only. To leave it out before an operation
comes to the same as to leave it out afterwards: evaluations are the same runs (`Evaluation.evaluate_unplaced`),
and so every operation that a batch is made of gives the same answer (`setRepeat_unplaced`, `advance_unplaced`,
`evaluateText_unplaced`).
-/

set_option autoImplicit false

namespace TemplateExpressions

/-- The context without its place in the document. -/
def Context.unplaced (c : Context) : Context := { c with position := ⟨none, none⟩, file := none }

/-- The failure without the place where it came up. -/
def Failure.unplaced : Failure → Failure
  | .evaluation info expression => .evaluation ⟨info.error, ⟨none, none⟩, none⟩ expression
  | failure => failure

/-! ## Worlds -/

namespace World

/-- The world without the places of its contexts. -/
def unplaced (w : World) : World := { w with contexts := w.contexts.map Context.unplaced }

variable (w : World)

theorem context?_unplaced (id : ContextId) : w.unplaced.context? id = (w.context? id).map Context.unplaced := by
  rw [context?, context?, unplaced, List.getElem?_map, Option.filter_map]
  rfl

theorem live_unplaced : w.unplaced.live = w.live := by
  simp only [live, unplaced, List.getElem?_map, Option.map_map]
  rfl

/-- A change, and what it is without places. -/
theorem unplaced_modifyContext {f g : Context → Context} (h : ∀ c, (f c).unplaced = g c.unplaced) (id : ContextId) :
    (w.modifyContext id f).unplaced = w.unplaced.modifyContext id g := by
  have hcontexts : (w.contexts.modify id f).map Context.unplaced = (w.contexts.map Context.unplaced).modify id g := by
    refine List.ext_getElem? fun i => ?_
    simp only [List.getElem?_modify, List.getElem?_map]
    cases w.contexts[i]? with
    | none => rfl
    | some c =>
      by_cases hi : id = i
      · simp [hi, h]
      · simp [hi]
  rw [modifyContext, modifyContext, unplaced, unplaced, hcontexts]

end World

namespace Evaluation

/-- No evaluation reads a place. -/
theorem evaluate_unplaced (w : World) (levels : Nat) : evaluate w.unplaced levels = evaluate w levels := by
  induction levels with
  | zero => rfl
  | succ levels ih =>
    funext active id e
    rw [evaluate, evaluate, ih, guarded, guarded, w.context?_unplaced]
    cases w.context? id with
    | none => rfl
    | some c =>
      have hvalue : ∀ meaning, valueOf w.unplaced meaning levels id c.unplaced e =
          valueOf w meaning levels id c e := by
        intro meaning
        apply valueOf_congr w.live_unplaced
        all_goals rfl
      simp only [Option.map_some, hvalue]
      rfl

theorem enough_unplaced (w : World) : enough w.unplaced = enough w := by
  rw [enough, enough, World.unplaced, List.map_map]
  rfl

theorem meaning_unplaced (w : World) : meaning w.unplaced = meaning w := by
  rw [meaning, meaning, enough_unplaced, evaluate_unplaced]

end Evaluation

/-! ## Operations -/

namespace Session

/-- The session without the places of its contexts. -/
def unplaced (s : Session) : Session := { s with world := s.world.unplaced }

variable (s : Session) (id : ContextId)

theorem unplaced_modify (f g : Context → Context) (h : ∀ c, (f c).unplaced = g c.unplaced) :
    (s.modify id f).unplaced = s.unplaced.modify id g := by
  rw [modify, unplaced, s.world.unplaced_modifyContext h]
  rfl

/-- A change of nothing but a place. -/
theorem unplaced_modify_eq_self {f : Context → Context} (h : ∀ c, (f c).unplaced = c.unplaced) :
    (s.modify id f).unplaced = s.unplaced := by
  have hself : s.unplaced.world.contexts.modify id (fun c => c) = s.unplaced.world.contexts := List.modify_id id _
  rw [s.unplaced_modify id f (fun c => c) h, modify, World.modifyContext, hself]

theorem unplaced_setPosition (position : Position) : (s.setPosition id position).unplaced = s.unplaced :=
  s.unplaced_modify_eq_self id fun _ => rfl

theorem unplaced_setFile (file : Option Text) : (s.setFile id file).unplaced = s.unplaced :=
  s.unplaced_modify_eq_self id fun _ => rfl

theorem perform_unplaced {α : Type} (run : Run α) :
    s.unplaced.perform run = (s.perform run).map (Prod.map (·) unplaced) := by
  simp only [perform, unplaced]
  cases run s.trail <;> rfl

theorem performValue_unplaced (run : Run Value) :
    s.unplaced.performValue run = (s.performValue run).map (Prod.map (·) unplaced) := by
  rw [performValue, performValue, perform_unplaced]
  cases s.perform run with
  | none => rfl
  | some answer =>
    obtain ⟨result, t⟩ := answer
    cases result with
    | error e => rfl
    | ok v =>
      cases v with
      | callable mark act => cases mark <;> rfl
      | _ => rfl

theorem evaluation_unplaced (source : Source) : s.unplaced.evaluation id source = s.evaluation id source := by
  have hmeaning : Evaluation.meaning s.unplaced.world = Evaluation.meaning s.world :=
    Evaluation.meaning_unplaced s.world
  cases source with
  | compiled e => rw [evaluation, evaluation, hmeaning]
  | text t =>
    rw [evaluation, evaluation, hmeaning]
    rfl

theorem evaluate_unplaced (source : Source) :
    s.unplaced.evaluate id source = (s.evaluate id source).map (Prod.map (·) unplaced) := by
  rw [evaluate, evaluation_unplaced, performValue_unplaced]
  rfl

theorem textOf_unplaced (v : Value) : s.unplaced.textOf v = s.textOf v := by
  have hmeaning : Evaluation.meaning s.unplaced.world = Evaluation.meaning s.world :=
    Evaluation.meaning_unplaced s.world
  have henough : Evaluation.enough s.unplaced.world = Evaluation.enough s.world :=
    Evaluation.enough_unplaced s.world
  rw [textOf, textOf, hmeaning, henough]
  exact Evaluation.textOf_congr s.world.live_unplaced _ _ v

theorem evaluateText_unplaced (source : Source) :
    s.unplaced.evaluateText id source = (s.evaluateText id source).map (Prod.map (·) unplaced) := by
  rw [evaluateText, perform_unplaced, evaluateText]
  simp only [evaluation_unplaced, textOf_unplaced]

theorem beginScope_unplaced : s.unplaced.beginScope id = (s.beginScope id).unplaced :=
  (s.unplaced_modify id Context.beginScope Context.beginScope fun _ => rfl).symm

theorem setLocal_unplaced (name : Text) (value : Value) :
    s.unplaced.setLocal id name value = (s.setLocal id name value).unplaced :=
  (s.unplaced_modify id (fun c => c.setLocal name value) (fun c => c.setLocal name value) fun _ => rfl).symm

theorem context?_unplaced : s.unplaced.world.context? id = (s.world.context? id).map Context.unplaced :=
  s.world.context?_unplaced id

theorem endScope_unplaced : s.unplaced.endScope id = (s.endScope id).map unplaced := by
  rw [endScope, endScope, context?_unplaced]
  cases s.world.context? id with
  | none => rfl
  | some c =>
    have hend : c.unplaced.endScope = c.endScope.map Context.unplaced := by
      rw [Context.endScope, Context.endScope, Context.unplaced]
      cases c.scopes.pop <;> rfl
    simp only [Option.map_some, hend]
    cases c.endScope with
    | error e => rfl
    | ok d => exact congrArg Except.ok (s.unplaced_modify id (fun _ => d) (fun _ => d.unplaced) fun _ => rfl).symm

theorem install_unplaced (name : Text) (cursor : CursorId) :
    s.unplaced.install id name cursor = (s.install id name cursor).map unplaced := by
  rw [install, install, context?_unplaced]
  cases s.world.context? id with
  | none => rfl
  | some c =>
    have hinstall : c.unplaced.install name cursor = (c.install name cursor).map Context.unplaced := by
      rw [Context.install, Context.install, Context.unplaced]
      cases c.scopes.record name (c.registry.get? name) <;> rfl
    simp only [Option.map_some, hinstall]
    cases c.install name cursor with
    | error e => rfl
    | ok d => exact congrArg Except.ok (s.unplaced_modify id (fun _ => d) (fun _ => d.unplaced) fun _ => rfl).symm

theorem newCursor_unplaced (name : Text) (sequence : Value) :
    s.unplaced.newCursor id name sequence = (s.newCursor id name sequence).map (Prod.map (·) unplaced) := by
  have hlive : s.unplaced.live = s.live := s.world.live_unplaced
  rw [newCursor, newCursor, hlive]
  cases Cursor.ofSequence s.live id name sequence <;> rfl

theorem repeatOver_unplaced (name : Text) (sequence : Value) :
    s.unplaced.repeatOver id name sequence = (s.repeatOver id name sequence).map (Prod.map (·) unplaced) := by
  have hlive : s.unplaced.live = s.live := s.world.live_unplaced
  have hdepth : (s.unplaced.world.context? id).map (fun c => c.scopes.depth) =
      (s.world.context? id).map fun c => c.scopes.depth := by
    rw [context?_unplaced, Option.map_map]
    rfl
  rw [repeatOver, repeatOver, hlive, hdepth, newCursor_unplaced]
  split
  · rfl
  · split
    · rfl
    · cases s.newCursor id name sequence with
      | error e => rfl
      | ok r =>
        obtain ⟨cursor, t⟩ := r
        change (do let u ← t.unplaced.install id name cursor; return (cursor, u)) =
          Except.map (Prod.map (·) unplaced) (do let u ← t.install id name cursor; return (cursor, u))
        rw [install_unplaced]
        cases t.install id name cursor <;> rfl

theorem setRepeat_unplaced (name : Text) (source : Source) :
    s.unplaced.setRepeat id name source = (s.setRepeat id name source).map (Prod.map (·) unplaced) := by
  rw [setRepeat, setRepeat, evaluate_unplaced]
  cases s.evaluate id source with
  | none => rfl
  | some answer =>
    obtain ⟨result, t⟩ := answer
    cases result with
    | error e => rfl
    | ok sequence =>
      simp only [Option.map_some, Prod.map_apply, t.repeatOver_unplaced]
      cases t.repeatOver id name sequence <;> rfl

theorem advance_unplaced (cursor : CursorId) :
    s.unplaced.advance cursor = (s.advance cursor).map (Prod.map (·) unplaced) := by
  have hcursor : s.unplaced.world.cursor? cursor = s.world.cursor? cursor := rfl
  rw [advance, advance, hcursor]
  cases s.world.cursor? cursor with
  | none => rfl
  | some c =>
    dsimp only
    cases c.next? with
    | none => rfl
    | some r =>
      obtain ⟨v, next⟩ := r
      simp only [context?_unplaced]
      cases s.world.context? next.context with
      | none => rfl
      | some _ =>
        have hmoved : ({ s with world := s.world.setCursor cursor next } : Session).unplaced =
            { s.unplaced with world := s.unplaced.world.setCursor cursor next } := rfl
        simp only [Option.map_some, ← hmoved, setLocal_unplaced]
        rfl

/-- The place is all that a report can tell of it. -/
theorem failure_unplaced (expression : Text) (e : EvalError) :
    s.unplaced.failure id expression e = (s.failure id expression e).unplaced := by
  have hof : ∀ position file, (Failure.ofEvalError position file expression e).unplaced =
      Failure.ofEvalError ⟨none, none⟩ none expression e := by
    intro position file
    cases e <;> rfl
  rw [failure, failure, hof, errorInfo, context?_unplaced]
  cases s.world.context? id <;> rfl

end Session
end TemplateExpressions
