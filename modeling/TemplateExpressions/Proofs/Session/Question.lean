import TemplateExpressions.Proofs.Evaluation.Substitution
import TemplateExpressions.Proofs.Session.Modes
import TemplateExpressions.Proofs.Session.Origin

/-!
# Questions to cursors through paths

A path can lead over the registry to a cursor and to a question to it (`questionRoute`); there it finds a
call that asks the cursor (`follow_questionRoute`). What the call comes to is the answer that the cursor
gives when it is asked directly, with numbers taken to 64 bits with a sign. Main statement: the path and,
under the type `nocall`, any later call of what it finds give the answer of the cursor at that moment,
exactly if the answer is no number of 2^63 or above (`questions_through_paths`).
-/

set_option autoImplicit false

namespace TemplateExpressions

open Text

/-! ## The ways to a question -/

/-- The ways to the registry of a context: the variables `repeat` and `loop`, unless something else is bound
to them, and the roots by these names. -/
inductive Context.WayToRegistry (c : Context) : Text → List Text → Prop
  | unbound {root : Text} : root = "repeat".toList ∨ root = "loop".toList →
      c.scopes.get? root = c.roots.get? root → WayToRegistry c root []
  | root {root : Text} : root = "repeat".toList ∨ root = "loop".toList →
      WayToRegistry c contextsBase [root]

/-- The route to a question to the cursor of a name, on a way to the registry. -/
def questionRoute (base : Text) (way : List Text) (name : Text) (q : Query) : Route :=
  ⟨base, (way ++ [name, q.name]).map .fixed⟩

theorem Query.ofName?_name (q : Query) : ofName? q.name = some q := by
  cases q <;> rfl

theorem Query.isName_name (q : Query) : isName q.name = true := by
  cases q <;> decide

theorem Segment.isWritable_of_isName {t : Text} (h : isName t = true) : (Segment.fixed t).IsWritable := by
  refine .fixed (notMem_of_isName h (by decide)) (notMem_of_isName h (by decide)) fun n _ heq => ?_
  exact notMem_of_isName h (c := '?') (by decide) (heq ▸ List.mem_cons_self)

section Routes

variable {c : Context} {base name : Text} {way : List Text}

theorem Context.WayToRegistry.isName (h : c.WayToRegistry base way) :
    Text.isName base = true ∧ ∀ t ∈ way, Text.isName t = true := by
  cases h with
  | unbound hroot _ => exact ⟨by rcases hroot with rfl | rfl <;> decide, by simp⟩
  | root hroot =>
    refine ⟨by decide, List.forall_mem_singleton.2 ?_⟩
    rcases hroot with rfl | rfl <;> decide

theorem isWritable_questionRoute (hway : c.WayToRegistry base way) (hname : isName name = true)
    (q : Query) : (questionRoute base way name q).IsWritable := by
  obtain ⟨hbase, hsegments⟩ := hway.isName
  refine ⟨hbase, List.forall_mem_map.2 fun t ht => Segment.isWritable_of_isName ?_, fun t ht ch hch => ?_⟩
  · simp only [List.mem_append, List.mem_cons, List.not_mem_nil, or_false] at ht
    rcases ht with ht | rfl | rfl
    · exact hsegments t ht
    · exact hname
    · exact q.isName_name
  · have hlast : t = q.name := by simpa [questionRoute, eq_comm] using ht
    exact isBlank_getLast?_of_isName q.isName_name (hlast ▸ hch)

end Routes

/-! ## Paths of one route -/

namespace Engine

variable {g : Engine} {traversal : Traversal} {r : Route}

theorem compilePath_route (compile : Compiler) (typeName : Text) (h : r.IsWritable) :
    compilePath compile traversal typeName r.write =
      .ok (.path ⟨typeName, r.write⟩ traversal [.route r]) := by
  have hspaced : Spaced.IsWritable ⟨[], r, []⟩ := ⟨by simp, h, by simp⟩
  have hcompile := compilePath_write compile traversal typeName (List.cons_ne_nil _ [])
    (List.forall_mem_singleton.2 hspaced)
  simpa [Spaced.write, joinWith] using hcompile

/-- A written route is a path of the default type. -/
theorem compile_route (hdefault : g.types.get? g.defaultType = some (.path traversal)) (h : r.IsWritable) :
    g.compile r.write = .ok (.path ⟨g.defaultType, r.write⟩ traversal [.route r]) := by
  have hspaced : Spaced.IsWritable ⟨[], r, []⟩ := ⟨by simp, h, by simp⟩
  have hplain := Spaced.hasPrefix_write hspaced
  rw [Spaced.write, List.nil_append, List.append_nil,
    trimStart_eq_self fun _ hc => h.isBlank_head? hc] at hplain
  have hsplit : splitPrefix r.write = none := by simpa [hasPrefix] using hplain
  rw [compile, compileWithin_succ, compileOver, dispatch, hsplit, Option.getD_none, hdefault]
  exact compilePath_route _ _ h

/-- A written route behind a type for paths is a path of that type. -/
theorem compile_route_under {name : Text} (hname : g.IsPathType traversal name) (h : r.IsWritable) :
    g.compile (name ++ ':' :: r.write) = .ok (.path ⟨name, r.write⟩ traversal [.route r]) :=
  (g.compile_prefixed hname.1 hname.2 r.write).trans (compilePath_route _ _ h)

end Engine

namespace Evaluation

variable {w : World} {meaning : Meaning} {id : ContextId} {c : Context} {base name : Text}
  {way : List Text} {cursor : CursorId}

theorem lookUpAll_question (hc : w.context? id = some c) (hcursor : c.registry.get? name = some cursor)
    (q : Query) :
    lookUpAll w.live (.registry id) [name, q.name] = .ok (.callable none (.asks cursor q)) := by
  have hregistry : w.live.registry id = c.registry := by
    simp [World.live, (Option.filter_eq_some_iff.1 hc).1]
  simp [lookUpAll, lookUp, Value.attribute?, Value.item, hregistry, hcursor, q.ofName?_name]

/-- Every way to a question ends at a call that asks the cursor. -/
theorem follow_questionRoute (hc : w.context? id = some c) (hgenuine : c.Genuine id)
    (hway : c.WayToRegistry base way) (hcursor : c.registry.get? name = some cursor) (q : Query) :
    follow w meaning c .plain (questionRoute base way name q) =
      Pure.pure (.callable none (.asks cursor q)) := by
  have hlook := lookUpAll_question hc hcursor q
  unfold follow questionRoute
  simp only [expand_map_fixed]
  cases hway with
  | unbound hroot hbound =>
    have hbase : baseValue c base = .ok (.registry id) := by
      have hne : base ≠ contextsBase := by rcases hroot with rfl | rfl <;> decide
      rw [baseValue, if_neg hne, hbound, hgenuine.roots base hroot]
    rw [hbase]
    change Run.ofExcept (lookUpAll w.live (.registry id) [name, q.name]) = _
    rw [hlook]
    rfl
  | @root root hroot =>
    have hbase : baseValue c contextsBase = .ok (.map c.roots) := if_pos rfl
    rw [hbase]
    change Run.ofExcept (lookUpAll w.live (.map c.roots) (root :: [name, q.name])) = _
    have hfirst : lookUp w.live (.map c.roots) root = .ok (.registry id) := by
      simp [lookUp, Value.attribute?, Value.item, hgenuine.roots root hroot]
    rw [lookUpAll, hfirst]
    dsimp only
    rw [hlook]
    rfl

end Evaluation

/-! ## Answers -/

/-- The answer of a cursor as the result of an evaluation. -/
def Answer.result : Except CursorError Answer → Except EvalError Value
  | .ok answer => .ok answer.toValue
  | .error e => .error (.cursor e)

/-- No number, or one that 64 bits with a sign can hold. -/
def Answer.Fits (answer : Except CursorError Answer) : Prop :=
  ∀ n, answer = .ok (.number n) → n < Number.twoTo 63

namespace Session

/-- A result says what the answer of a cursor says: the same number, the same error, and so on. An
element is given as it is handed out. -/
inductive Agrees (s : Session) : Except CursorError Answer → Except EvalError Value → Prop
  | error (e : CursorError) : Agrees s (.error e) (.error (.cursor e))
  | number {n : Nat} {i : Int64} : i.toInt = n → Agrees s (.ok (.number n)) (.ok (.int i))
  | flag (b : Bool) : Agrees s (.ok (.flag b)) (.ok (.bool b))
  | word (t : Text) : Agrees s (.ok (.word t)) (.ok (.text t))
  | item (v : Value) : Agrees s (.ok (.item v)) (.ok (s.keep v).1)

/-- The result of an evaluation as it is handed out. -/
def handOut (s : Session) (result : Except EvalError Value) : Except EvalError Value :=
  result.map fun v => (s.keep v).1

/-- What is made of an answer agrees with it exactly if it fits. -/
theorem agrees_handOut_iff (s : Session) (answer : Except CursorError Answer) :
    s.Agrees answer (s.handOut (Answer.result answer)) ↔ Answer.Fits answer := by
  cases answer with
  | error e => exact ⟨fun _ n hn => (by cases hn), fun _ => .error e⟩
  | ok answer =>
    cases answer with
    | number n =>
      refine ⟨fun h m hm => ?_, fun h => .number (Int64.toInt_ofNat_of_lt (h n rfl))⟩
      cases hm
      cases h with
      | number hn =>
        have hlt := Int64.toInt_lt (Int64.ofNat n)
        rw [hn] at hlt
        exact Int.ofNat_lt.1 hlt
    | flag b => exact ⟨fun _ n hn => (by cases hn), fun _ => .flag b⟩
    | word t => exact ⟨fun _ n hn => (by cases hn), fun _ => .word t⟩
    | item v => exact ⟨fun _ n hn => (by cases hn), fun _ => .item v⟩

variable {s : Session} {id : ContextId} {c : Context} {base name : Text} {way : List Text} {cursor : CursorId}

theorem performValue_of_done {run : Run Value} {result : Except EvalError Value} {trail : Trail}
    (h : run s.trail = .done result trail) :
    ∃ t, s.performValue run = some (s.handOut result, t) := by
  unfold performValue perform
  rw [h]
  cases result with
  | ok v =>
    cases v with
    | callable mark act => cases mark <;> exact ⟨_, rfl⟩
    | _ => exact ⟨_, rfl⟩
  | error e => exact ⟨_, rfl⟩

/-- A call that asks a cursor gives what the cursor answers. -/
theorem perform_asks (s : Session) (mark : Option Mark) (cursor : CursorId) (q : Query) (trail : Trail) :
    ∃ trail', Evaluation.perform s.world mark (.asks cursor q) trail =
      .done (Answer.result (s.query cursor q)) trail' := by
  obtain ⟨noted, hnoted⟩ : ∃ noted, (mark.forM fun m => Run.note (.invoked m)) trail =
      .done (.ok ()) noted := by
    cases mark with
    | none => exact ⟨trail, rfl⟩
    | some m => exact ⟨.invoked m :: trail, rfl⟩
  simp only [Evaluation.perform, Run.bind_apply, hnoted, Run.note, query, live]
  cases s.world.cursor? cursor with
  | none => exact ⟨_, rfl⟩
  | some k =>
    dsimp only
    cases k.ask s.world.live q with
    | ok answer => exact ⟨_, rfl⟩
    | error e => exact ⟨_, rfl⟩

/-- Between operations a text is evaluated as the first evaluation on its context. -/
theorem evaluation_of_compile {t : Text} {e : Expr} (hc : s.world.context? id = some c)
    (hdepth : c.maxDepth ≠ 0) (hcompile : s.world.engine.compile t = .ok e) :
    ∃ meaning forcings, s.evaluation id (.text t) =
      Run.within id 1 (Evaluation.valueOf s.world meaning forcings id c e) := by
  obtain ⟨levels, hlevels⟩ := exists_enough_eq_succ s.world
  have hlimit : ¬c.maxDepth < 1 := fun h => hdepth (Nat.lt_one_iff.1 h)
  refine ⟨Evaluation.evaluate s.world levels [id], levels, ?_⟩
  simp only [evaluation, hcompile, Evaluation.meaning, hlevels, Evaluation.evaluate, Evaluation.guarded, hc,
    List.count_nil, Nat.zero_add, if_neg hlimit]

section Evaluating

variable {typeName source t : Text} {r : Route} {q : Query} (hc : s.world.context? id = some c)
  (hdepth : c.maxDepth ≠ 0)
  (hcompile : s.world.engine.compile t = .ok (.path ⟨typeName, source⟩ .plain [.route r]))
  (hfollow : ∀ meaning, Evaluation.follow s.world meaning c .plain r =
    Pure.pure (.callable none (.asks cursor q)))

include hc hdepth hcompile hfollow

/-- A path that ends at a question and calls it gives the answer. -/
theorem evaluate_asking (hmode : PathMode.ofTypeName typeName = .invoking) :
    ∃ t', s.evaluate id (.text t) = some (s.handOut (Answer.result (s.query cursor q)), t') := by
  obtain ⟨meaning, forcings, hevaluation⟩ := evaluation_of_compile hc hdepth hcompile
  obtain ⟨trail', hasks⟩ := s.perform_asks none cursor q (.entered id 1 :: s.trail)
  have hcall : ∀ (f : Value → Run Value) v trail, (Pure.pure v >>= f) trail = f v trail := fun _ _ _ => rfl
  have hdone : s.evaluation id (.text t) s.trail = .done (Answer.result (s.query cursor q))
      (.left id (Run.error? (Answer.result (s.query cursor q))) :: trail') := by
    simp only [hevaluation, Run.within_apply, Evaluation.valueOf, hmode, Evaluation.resolve,
      Evaluation.alternative, hfollow]
    rw [hcall, Evaluation.invoke?, Option.getD_some, hasks]
  exact performValue_of_done hdone

/-- A path that ends at a question and does not call it gives the call. -/
theorem evaluate_holding (hmode : PathMode.ofTypeName typeName = .holding) :
    ∃ t', s.evaluate id (.text t) = some (.ok (.callable (some s.nextMark) (.asks cursor q)), t') := by
  obtain ⟨meaning, forcings, hevaluation⟩ := evaluation_of_compile hc hdepth hcompile
  have hdone : s.evaluation id (.text t) s.trail =
      .done (.ok (.callable none (.asks cursor q))) (.left id none :: .entered id 1 :: s.trail) := by
    simp only [hevaluation, Run.within_apply, Evaluation.valueOf, hmode, Evaluation.resolve,
      Evaluation.alternative, hfollow]
    rfl
  exact performValue_of_done hdone

end Evaluating

end Session

/-- In every session that a driver can get to, with paths as texts without a prefix: for every cursor in the
registry of a context, under a name, and every question, the path over the registry to the question has a
result, and it agrees with the answer that the cursor gives when it is asked directly, unless that is a
number that does not fit. Under `nocall` the same path gives a call, and whatever happens after that, the
call agrees with what the cursor answers then, unless that is a number that does not fit. -/
theorem questions_through_paths {g : Engine} {ops : List Operation} {s : Session} {id : ContextId}
    {c : Context} {base name : Text} {way : List Text} {cursor : CursorId}
    (hrun : (Session.start g).run ops = some s) (hc : s.world.context? id = some c)
    (hdefault : s.world.engine.types.get? s.world.engine.defaultType = some (.path .plain))
    (hinvoking : PathMode.ofTypeName s.world.engine.defaultType = .invoking)
    (hnocall : s.world.engine.IsPathType .plain "nocall".toList) (hname : isName name = true)
    (hway : c.WayToRegistry base way) (hcursor : c.registry.get? name = some cursor) (q : Query) :
    (∃ result t, s.evaluate id (.text (questionRoute base way name q).write) = some (result, t) ∧
      (s.Agrees (s.query cursor q) result ↔ Answer.Fits (s.query cursor q))) ∧
    ∃ call t, s.evaluate id (.text ("nocall:".toList ++ (questionRoute base way name q).write)) =
        some (.ok call, t) ∧
      ∀ later u, t.run later = some u → ∃ result u', u.invoke? call = some (some (result, u')) ∧
        (u.Agrees (u.query cursor q) result ↔ Answer.Fits (u.query cursor q)) := by
  have hgenuine := Session.genuine_run hrun hc
  have hdepth : c.maxDepth ≠ 0 := by
    intro h
    rw [(hgenuine.idle h).1] at hcursor
    cases hcursor
  have hroute := isWritable_questionRoute hway hname q
  have hfollow : ∀ meaning, Evaluation.follow s.world meaning c .plain (questionRoute base way name q) =
      Pure.pure (.callable none (.asks cursor q)) :=
    fun meaning => Evaluation.follow_questionRoute hc hgenuine hway hcursor q
  refine ⟨?_, ?_⟩
  · have hcompile := Engine.compile_route hdefault hroute
    obtain ⟨t, ht⟩ := Session.evaluate_asking hc hdepth hcompile hfollow hinvoking
    exact ⟨_, t, ht, s.agrees_handOut_iff _⟩
  · have hcompile := Engine.compile_route_under hnocall hroute
    obtain ⟨t, ht⟩ := Session.evaluate_holding hc hdepth hcompile hfollow rfl
    refine ⟨_, t, ht, fun later u _ => ?_⟩
    obtain ⟨trail, hasks⟩ := u.perform_asks (some s.nextMark) cursor q u.trail
    obtain ⟨u', hu'⟩ := Session.performValue_of_done hasks
    exact ⟨_, u', congrArg some hu', u.agrees_handOut_iff _⟩

/-- A repeat over two items that is at its first one. -/
def firstOfTwo : List Operation :=
  [.newContext ((ContextBuilder.ofEngine .standard).roots [(['l'], .list [.text ['a'], .text ['b']])]),
   .beginScope 0, .setRepeat 0 ['x'] (.text ['l']), .advance 0]

theorem questions_in_firstOfTwo :
    ∃ s, (Session.start .standard).run firstOfTwo = some s ∧
      (∃ result t, s.evaluate 0 (.text "CONTEXTS/repeat/x/number".toList) = some (result, t) ∧
        s.Agrees (.ok (.number 1)) result) ∧
      ∃ call t u result u',
        s.evaluate 0 (.text "nocall:CONTEXTS/repeat/x/number".toList) = some (.ok call, t) ∧
          t.run [.advance 0] = some u ∧ u.invoke? call = some (some (result, u')) ∧
          u.Agrees (.ok (.number 2)) result := by
  obtain ⟨s, c, hrun, hc, hcursor, hdefault, hinvoking, hnocall, hfirst⟩ :
      ∃ s c, (Session.start .standard).run firstOfTwo = some s ∧ s.world.context? 0 = some c ∧
        c.registry.get? ['x'] = some 0 ∧
        s.world.engine.types.get? s.world.engine.defaultType = some (.path .plain) ∧
        PathMode.ofTypeName s.world.engine.defaultType = .invoking ∧
        s.world.engine.IsPathType .plain "nocall".toList ∧
        s.query 0 .number = .ok (.number 1) ∧
        ∃ call t u, s.evaluate 0 (.text "nocall:CONTEXTS/repeat/x/number".toList) = some (.ok call, t) ∧
          t.run [.advance 0] = some u ∧ u.query 0 .number = .ok (.number 2) :=
    ⟨_, _, rfl, rfl, rfl, rfl, rfl, ⟨rfl, rfl⟩, rfl, _, _, _, rfl, rfl, rfl⟩
  obtain ⟨hfirst, call, t, u, hcall, hlater, hsecond⟩ := hfirst
  have hname : isName ['x'] = true := by decide
  have hfits : ∀ n < Number.twoTo 63, Answer.Fits (.ok (.number n)) := by
    rintro n hn m ⟨⟩
    exact hn
  obtain ⟨⟨result, t', ht', hagrees⟩, call', t'', hcall', hinvoked⟩ :=
    questions_through_paths hrun hc hdefault hinvoking hnocall hname (.root (.inl rfl)) hcursor .number
  cases hcall.symm.trans hcall'
  obtain ⟨result', u', hu', hagrees'⟩ := hinvoked [.advance 0] u hlater
  rw [hfirst] at hagrees
  rw [hsecond] at hagrees'
  exact ⟨s, hrun, ⟨result, t', ht', hagrees.2 (hfits 1 (by decide))⟩, call, t, u, result', u', hcall,
    hlater, hu', hagrees'.2 (hfits 2 (by decide))⟩

/-- A repeat over an object that reports a length of 2^63. -/
def longRepeat : List Operation :=
  [.newContext ((ContextBuilder.ofEngine .standard).roots [(['o'], .object 0
    ⟨['T'], [], none, some [.text ['a']], some (Number.twoTo 63), none, none⟩)]),
   .beginScope 0, .setRepeat 0 ['x'] (.text ['o'])]

/-- The length comes out of the path as a negative number. -/
theorem length_of_longRepeat :
    ∃ s c t i, (Session.start .standard).run longRepeat = some s ∧ s.world.context? 0 = some c ∧
      c.registry.get? ['x'] = some 0 ∧ c.WayToRegistry "repeat".toList [] ∧
      s.query 0 .length = .ok (.number (Number.twoTo 63)) ∧
      s.evaluate 0 (.text "repeat/x/length".toList) = some (.ok (.int i), t) ∧
      i.toInt = -(Number.twoTo 63 : Int) ∧ ¬s.Agrees (s.query 0 .length) (.ok (.int i)) := by
  refine ⟨_, _, _, _, rfl, rfl, rfl, .unbound (.inl rfl) rfl, rfl, rfl, by decide, fun h => ?_⟩
  cases h with
  | number hi =>
    revert hi
    decide

end TemplateExpressions
