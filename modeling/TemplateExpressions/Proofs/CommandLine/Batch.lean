import TemplateExpressions.CommandLine
import TemplateExpressions.Proofs.Context.Stack
import TemplateExpressions.Proofs.Json.Data
import TemplateExpressions.Proofs.Session.Plain

/-!
# Batches

A batch evaluates expressions, once or once for each item of a repeat. The rounds of a batch are sessions
that are set up independently of one another (`Rounds`). Since evaluations leave the world as it is and
their results depend on nothing else (`Session.evaluateText_congr`), each comes out in the batch as it does
alone in its round. Main statement: the output is that of all evaluations alone, one after the other, the
batch succeeds if all of them do, and no scope is left open (`batch_evaluates_each_alone`).
-/

set_option autoImplicit false

namespace TemplateExpressions.CommandLine

variable {s t : Session} {id : ContextId} {rep : Repeat} {items : List Value}

/-! ## What is written -/

namespace Written

/-- Everything, one after the other. -/
def concat (l : List Written) : Written := l.foldr append nothing

theorem output_concat (l : List Written) : (concat l).output = l.flatMap output := by
  induction l with
  | nil => rfl
  | cons w l ih =>
    rw [List.flatMap_cons, ← ih]
    rfl

theorem ok_concat (l : List Written) : (concat l).ok = l.all ok := by
  induction l with
  | nil => rfl
  | cons w l ih =>
    rw [List.all_cons, ← ih]
    rfl

theorem append_assoc (a b c : Written) : (a.append b).append c = a.append (b.append c) := by
  simp [append, Bool.and_assoc]

theorem concat_append (l l' : List Written) : concat (l ++ l') = (concat l).append (concat l') := by
  induction l with
  | nil => rfl
  | cons w l ih =>
    show w.append (concat (l ++ l')) = (w.append (concat l)).append (concat l')
    rw [ih, append_assoc]

end Written

/-! ## One evaluation -/

/-- What an expression comes to for output, if its evaluation ends. -/
def outcome (s : Session) (id : ContextId) (expression : Text) : Option (Except EvalError Value) :=
  (s.evaluateText id (.text expression)).map Prod.fst

/-- The line for an outcome: the text of a success, which is empty for the null value and the default marker,
and nothing for a failure. -/
def printed : Option (Except EvalError Value) → Text
  | some (.ok (.text t)) => t ++ ['\n']
  | some (.ok .nothing) | some (.ok .default) => ['\n']
  | _ => []

/-- Texts come out for output, and values that stand for no text. -/
theorem cases_of_evaluateText {source : Source} {v : Value}
    (h : s.evaluateText id source = some (.ok v, t)) :
    v = .nothing ∨ v = .default ∨ ∃ t, v = .text t := by
  have hyields : ((Inquiry.text id source).run s.world (Evaluation.meaning s.world)
      (Evaluation.enough s.world)).Yields fun v => v = .nothing ∨ v = .default ∨ ∃ t, v = .text t := by
    refine (Run.yields_true _).bind fun v _ => ?_
    unfold Evaluation.output
    split
    · exact Run.yields_pure (.inr (.inl rfl))
    · exact Run.yields_pure (.inl rfl)
    · exact Run.yields_pure (.inr (.inr ⟨_, rfl⟩))
    · exact (Run.yields_true _).bind fun t _ => Run.yields_pure (.inr (.inr ⟨t, rfl⟩))
  unfold Session.evaluateText at h
  rw [Session.evaluation_eq] at h
  exact hyields _ _ _ (Session.done_of_perform h)

theorem output_interpret (s : Session) (id : ContextId) (expression : Text) :
    (interpret s id expression).1.output = printed (outcome s id expression) := by
  unfold interpret outcome
  cases h : s.evaluateText id (.text expression) with
  | none => rfl
  | some answer =>
    obtain ⟨result, t⟩ := answer
    cases result with
    | error e => rfl
    | ok v => rcases cases_of_evaluateText h with rfl | rfl | ⟨u, rfl⟩ <;> rfl

theorem ok_interpret (s : Session) (id : ContextId) (expression : Text) :
    (interpret s id expression).1.ok = true ↔ ∃ v, outcome s id expression = some (.ok v) := by
  unfold interpret outcome
  cases h : s.evaluateText id (.text expression) with
  | none => simp [Written.endless]
  | some answer =>
    obtain ⟨result, t⟩ := answer
    cases result with
    | error e => simp [Written.failure]
    | ok v => simp [Written.line]

theorem world_interpret (s : Session) (id : ContextId) (expression : Text) :
    (interpret s id expression).2.world = s.world := by
  unfold interpret
  split
  · rfl
  · rename_i h
    exact Session.world_perform h
  · rename_i h
    exact Session.world_perform h

theorem failure_congr (hw : s.world = t.world) (id : ContextId) (expression : Text) (e : EvalError) :
    s.failure id expression e = t.failure id expression e := by
  unfold Session.failure Session.errorInfo
  rw [hw]

/-- What is written for an expression depends on the world alone. -/
theorem interpret_congr (hplain : t.world.IsPlain) (hw : s.world = t.world) (id : ContextId)
    (expression : Text) : (interpret s id expression).1 = (interpret t id expression).1 := by
  have hsame := Session.evaluateText_congr hplain hw id (.text expression)
  unfold interpret
  cases hs : s.evaluateText id (.text expression) with
  | none =>
    rw [hs] at hsame
    rw [Option.map_eq_none_iff.1 hsame.symm]
  | some answer =>
    rw [hs] at hsame
    obtain ⟨answer', ht, hfst⟩ := Option.map_eq_some_iff.1 hsame.symm
    rw [ht]
    obtain ⟨result, s'⟩ := answer
    obtain ⟨result', t'⟩ := answer'
    cases hfst
    have hw' : s'.world = t'.world :=
      (Session.world_perform hs).trans (hw.trans (Session.world_perform ht).symm)
    cases result with
    | ok v => rfl
    | error e => exact congrArg Written.failure (failure_congr hw' id expression e)

/-! ## All expressions of a round -/

theorem world_interpretAll (s : Session) (id : ContextId) (expressions : List Text) :
    (interpretAll s id expressions).2.world = s.world := by
  induction expressions generalizing s with
  | nil => rfl
  | cons expression others ih => exact (ih _).trans (world_interpret s id expression)

/-- The first evaluations of a round alter none of the later ones. -/
theorem interpretAll_eq (hplain : t.world.IsPlain) (hw : s.world = t.world) (id : ContextId)
    (expressions : List Text) :
    (interpretAll s id expressions).1 = .concat (expressions.map fun e => (interpret t id e).1) := by
  induction expressions generalizing s with
  | nil => rfl
  | cons expression others ih =>
    have hrest := ih ((world_interpret s id expression).trans hw)
    show (interpret s id expression).1.append
      (interpretAll (interpret s id expression).2 id others).1 = _
    rw [hrest, interpret_congr hplain hw]
    rfl

/-- What is written when the expressions are evaluated in one session after the other. -/
def writtenIn (id : ContextId) (expressions : List Text) (ts : List Session) : Written :=
  .concat (ts.flatMap fun t => expressions.map fun e => (interpret t id e).1)

theorem writtenIn_cons (id : ContextId) (expressions : List Text) (t : Session) (ts : List Session) :
    writtenIn id expressions (t :: ts) =
      (Written.concat (expressions.map fun e => (interpret t id e).1)).append
        (writtenIn id expressions ts) := by
  rw [writtenIn, List.flatMap_cons, Written.concat_append]
  rfl

theorem output_writtenIn (id : ContextId) (expressions : List Text) (ts : List Session) :
    (writtenIn id expressions ts).output =
      ts.flatMap fun t => expressions.flatMap fun e => printed (outcome t id e) := by
  simp only [writtenIn, Written.output_concat, List.flatMap_assoc, List.flatMap_map, output_interpret]

theorem ok_writtenIn (id : ContextId) (expressions : List Text) (ts : List Session) :
    (writtenIn id expressions ts).ok = true ↔
      ∀ t ∈ ts, ∀ e ∈ expressions, ∃ v, outcome t id e = some (.ok v) := by
  simp only [writtenIn, Written.ok_concat, List.all_flatMap, List.all_map, List.all_eq_true,
    Function.comp_apply, ok_interpret]

/-! ## Rounds -/

/-- The items of a repeat, in the scope that is opened for it: none if the value of its expression does not
count as true, the elements of the value otherwise. -/
def itemsOf (s : Session) (id : ContextId) (rep : Repeat) : Option (Except EvalError (List Value)) :=
  match (s.beginScope id).evaluate id (.text rep.expression) with
  | none => none
  | some (.error e, _) => some (.error e)
  | some (.ok v, t) => some (if v.isTruthy t.live then v.elements t.live else .ok [])

/-- A session that was set up for the item of the given index alone. -/
structure AtItem (s : Session) (id : ContextId) (rep : Repeat) (items : List Value) (i : Nat)
    (t : Session) : Prop where
  /-- A scope was opened, the repeat was set up in it, and its cursor was advanced up to the item. -/
  run : s.run (.beginScope id :: .setRepeat id rep.name (.text rep.expression) ::
    List.replicate (i + 1) (.advance s.world.cursors.length)) = some t
  depth : (t.world.context? id).map (fun c => c.scopes.depth) = some 1
  bound : ∃ v, items[i]? = some v ∧ t.get? id rep.name = some v
  others : ∀ x, x ≠ rep.name → t.get? id x = s.get? id x
  active : (t.registry id).get? rep.name = some s.world.cursors.length
  stands : t.Stands s.world.cursors.length items (i + 1)

/-- The sessions in which the expressions of a batch are to be evaluated: the given one without a repeat, one
for each item with a repeat, unless the items cannot be had. -/
inductive Rounds (s : Session) (id : ContextId) :
    Option Repeat → Option (Except EvalError (List Session)) → Prop
  | once : Rounds s id none (some (.ok [s]))
  | endless {rep : Repeat} : itemsOf s id rep = none → Rounds s id (some rep) none
  | failing {rep : Repeat} {e : EvalError} : itemsOf s id rep = some (.error e) →
      Rounds s id (some rep) (some (.error e))
  | repeated {rep : Repeat} {items : List Value} {ts : List Session} :
      itemsOf s id rep = some (.ok items) → ts.length = items.length →
      (∀ i t, ts[i]? = some t → AtItem s id rep items i t) → Rounds s id (some rep) (some (.ok ts))

/-- The sessions, if there are any. -/
def sessions : Option (Except EvalError (List Session)) → List Session
  | some (.ok ts) => ts
  | _ => []

/-! ## Walking through the items -/

/-- A repeat in whose scope a context is: its cursor has gone past the first `place` items and bound the last
one of these, and closing the scope brings back the context from before it. -/
structure Walking (before : Context) (id : ContextId) (name : Text) (cursor : CursorId)
    (items : List Value) (place : Nat) (t : Session) (c : Context) : Prop where
  context? : t.world.context? id = some c
  cursor? : ∃ sequence, t.world.cursor? cursor = some (.past id name sequence items place)
  active : items ≠ [] → c.registry.get? name = some cursor
  depth : c.scopes.depth = before.scopes.depth + 1
  closed : c.after .closed = before
  others : ∀ x, x ≠ name → c.scopes.get? x = before.scopes.get? x
  bound : ∀ i, place = i + 1 → c.scopes.get? name = items[i]?

namespace Walking

variable {before c : Context} {name : Text} {cursor : CursorId} {place : Nat}

theorem inner_ne_nil (h : Walking before id name cursor items place t c) : c.scopes.inner ≠ [] := by
  intro hnil
  have hdepth := h.depth
  rw [Scopes.depth, hnil] at hdepth
  exact absurd hdepth.symm (Nat.succ_ne_zero _)

/-- With items ahead the cursor moves to the next one. -/
theorem moves (h : Walking before id name cursor items place t c) (hplace : place < items.length) :
    ∃ u cu, t.advance cursor = .ok (true, u) ∧
      Walking before id name cursor items (place + 1) u cu := by
  obtain ⟨sequence, hk⟩ := h.cursor?
  have hadvance := Session.advance_of_next?_eq_some hk (Cursor.next?_past id name sequence hplace) h.context?
  have hget := fun x => Scopes.get?_bindLocal c.scopes name x items[place]
  refine ⟨_, c.after (.boundLocal name items[place]), hadvance, ?_, ⟨sequence, ?_⟩, h.active, ?_, ?_,
    fun x hx => ?_, fun i hi => ?_⟩
  · exact Session.context?_modify_self (s := t.withMoved cursor _) h.context? rfl
  · exact Session.cursor?_withMoved_self hk _
  · rw [← Context.length_unwound, Context.isStack_unwound.others c _ trivial (by simp) (by simp),
      Context.length_unwound]
    exact h.depth
  · rw [Context.after_closed_after_boundLocal h.inner_ne_nil]
    exact h.closed
  · exact ((hget x).trans (if_neg hx)).trans (h.others x hx)
  · cases hi
    exact ((hget name).trans (if_pos rfl)).trans (List.getElem?_eq_getElem hplace).symm

/-- Past all items it does not move. -/
theorem stops (h : Walking before id name cursor items place t c) (hplace : items.length ≤ place) :
    t.advance cursor = .ok (false, t) := by
  obtain ⟨sequence, hk⟩ := h.cursor?
  exact Session.advance_past_end hk hplace

/-- A session that walked up to an item is one that was set up for it. -/
theorem atItem {i : Nat} (hc : s.world.context? id = some before) (hdepth : before.scopes.depth = 0)
    (h : Walking before id rep.name s.world.cursors.length items (i + 1) t c) (hi : i < items.length)
    (hrun : s.run (.beginScope id :: .setRepeat id rep.name (.text rep.expression) ::
      List.replicate (i + 1) (.advance s.world.cursors.length)) = some t) :
    AtItem s id rep items i t where
  run := hrun
  depth := by rw [h.context?, Option.map_some, h.depth, hdepth]
  bound := by
    refine ⟨items[i], List.getElem?_eq_getElem hi, ?_⟩
    rw [Session.get?_eq h.context?, h.bound i rfl, List.getElem?_eq_getElem hi]
  others x hx := by rw [Session.get?_eq h.context?, Session.get?_eq hc, h.others x hx]
  active := by
    rw [Session.registry_eq h.context?]
    exact h.active (List.ne_nil_of_length_pos (Nat.zero_lt_of_lt hi))
  stands := by
    obtain ⟨sequence, hk⟩ := h.cursor?
    exact Session.stands_of_cursor? hk hi

end Walking

/-- What advancing a cursor does depends on the world alone. -/
theorem advance_congr {k : CursorId} {moved : Bool} {u : Session} (hw : s.world = t.world)
    (h : t.advance k = .ok (moved, u)) :
    ∃ u', s.advance k = .ok (moved, u') ∧ u'.world = u.world := by
  unfold Session.advance at h ⊢
  rw [hw]
  cases hk : t.world.cursor? k with
  | none =>
    simp only [hk] at h ⊢
    cases h
    exact ⟨s, rfl, hw⟩
  | some cursor =>
    cases hnext : cursor.next? with
    | none =>
      simp only [hk, hnext] at h ⊢
      cases h
      exact ⟨s, rfl, hw⟩
    | some r =>
      cases hc : t.world.context? r.2.context with
      | none =>
        simp only [hk, hnext, hc] at h
        cases h
      | some c =>
        simp only [hk, hnext, hc] at h ⊢
        cases h
        exact ⟨_, rfl, rfl⟩

/-- The rounds of a repeat that is under way: each is that of a session in which only the cursor was
advanced. -/
theorem interpretRepeated_eq {before c : Context} {cursor : CursorId} {place : Nat} (passes : Nat)
    (expressions : List Text) (hplain : t.world.IsPlain)
    (hwalk : Walking before id rep.name cursor items place t c) (hw : s.world = t.world) (hpasses : items.length - place < passes) :
    ∃ ts, ts.length = items.length - place ∧
      (∀ i u, ts[i]? = some u → t.run (List.replicate (i + 1) (.advance cursor)) = some u ∧
        ∃ cu, Walking before id rep.name cursor items (place + i + 1) u cu) ∧
      (interpretRepeated id rep cursor expressions passes s).1 = writtenIn id expressions ts ∧
      ∃ cu, (interpretRepeated id rep cursor expressions passes s).2.world.context? id = some cu ∧
        cu.after .closed = before := by
  induction passes generalizing s t c place with
  | zero => exact absurd hpasses (Nat.not_lt_zero _)
  | succ passes ih =>
    by_cases hplace : place < items.length
    · obtain ⟨u, cu, hadvance, hnext⟩ := hwalk.moves hplace
      obtain ⟨s', hs', hw'⟩ := advance_congr hw hadvance
      have happly : t.apply (.advance cursor) = some u := by simp [Session.apply, hadvance, Except.toOption]
      have hplain' := Session.isPlain_apply hplain (o := .advance cursor) trivial happly
      obtain ⟨ts, hlength, hts, hwritten, hend⟩ :=
        ih (s := (interpretAll s' id expressions).2) hplain' hnext
          ((world_interpretAll s' id expressions).trans hw') (by omega)
      have hrepeated : interpretRepeated id rep cursor expressions (passes + 1) s =
          (((interpretAll s' id expressions).1.append
            (interpretRepeated id rep cursor expressions passes (interpretAll s' id expressions).2).1),
            (interpretRepeated id rep cursor expressions passes (interpretAll s' id expressions).2).2) := by
        simp only [interpretRepeated, hs']
      rw [hrepeated]
      refine ⟨u :: ts, by rw [List.length_cons]; omega, fun i v hv => ?_, ?_, hend⟩
      · cases i with
        | zero =>
          cases hv
          exact ⟨by simp [Session.run, happly], cu, hnext⟩
        | succ i =>
          obtain ⟨hrun, cv, hv⟩ := hts i v hv
          have hsum : place + 1 + i + 1 = place + (i + 1) + 1 := by omega
          exact ⟨by rw [List.replicate_succ, Session.run, happly]; exact hrun, cv, hsum ▸ hv⟩
      · rw [writtenIn_cons, ← interpretAll_eq hplain' hw', ← hwritten]
    · -- nothing is ahead, so there are no more rounds
      obtain ⟨s', hs', hw'⟩ := advance_congr hw (hwalk.stops (Nat.le_of_not_lt hplace))
      have hrepeated : interpretRepeated id rep cursor expressions (passes + 1) s = (.nothing, s') := by
        simp only [interpretRepeated, hs']
      rw [hrepeated]
      refine ⟨[], ?_, by simp, rfl, c, ?_, hwalk.closed⟩
      · rw [List.length_nil]
        omega
      · rw [hw']
        exact hwalk.context?

/-! ## Whole batches -/

/-- A repeat over a value, in a scope that was just opened. -/
theorem repeatOver_cases {before : Context} (ht : t.world.context? id = some (before.after .opened))
    (name : Text) (v : Value) :
    (∃ e, (if v.isTruthy t.live then v.elements t.live else .ok []) = .error e ∧
      t.repeatOver id name v = .error e) ∨
    ∃ items u c, (if v.isTruthy t.live then v.elements t.live else .ok []) = .ok items ∧
      t.repeatOver id name v = .ok (t.world.cursors.length, u) ∧
      Walking before id name t.world.cursors.length items 0 u c := by
  cases htruthy : v.isTruthy t.live with
  | false =>
    -- the cursor has nothing to walk, and it is not installed
    refine .inr ⟨[], t.withCursor (.empty id name), before.after .opened, rfl,
      Session.repeatOver_of_not_isTruthy id name htruthy, ?_⟩
    exact ⟨ht, ⟨.list [], Session.cursor?_withCursor_self t (.empty id name)⟩, fun h => absurd rfl h,
      rfl, Context.after_closed_after_opened before, fun _ _ => rfl, fun i hi => nomatch hi⟩
  | true =>
    have hinner : (before.after .opened).scopes.inner ≠ [] := List.cons_ne_nil _ _
    cases helements : v.elements t.live with
    | error e =>
      exact .inl ⟨e, rfl, Session.repeatOver_of_elements_eq_error ht htruthy hinner helements⟩
    | ok items =>
      refine .inr ⟨items, _, (before.after .opened).after (.installed name t.world.cursors.length), rfl,
        Session.repeatOver_of_elements_eq_ok name ht htruthy hinner helements, ?_⟩
      refine ⟨Session.context?_modify_self ht rfl, ⟨v, Session.cursor?_withCursor_self t _⟩, fun _ => ?_,
        rfl, ?_, fun _ _ => rfl, fun i hi => nomatch hi⟩
      · exact Mapping.get?_put_self before.registry name _
      · rw [Context.after_closed_after_installed hinner, Context.after_closed_after_opened]

/-- How a repeat is set up in the scope that is opened for it. -/
theorem setRepeat_cases {before : Context} (hc : s.world.context? id = some before) (rep : Repeat) :
    (itemsOf s id rep = none ∧
      (s.beginScope id).setRepeat id rep.name (.text rep.expression) = none) ∨
    (∃ e t, itemsOf s id rep = some (.error e) ∧
      (s.beginScope id).setRepeat id rep.name (.text rep.expression) = some (.error e, t) ∧
      t.world.context? id = some (before.after .opened)) ∨
    ∃ items t c, itemsOf s id rep = some (.ok items) ∧
      (s.beginScope id).setRepeat id rep.name (.text rep.expression) =
        some (.ok s.world.cursors.length, t) ∧
      Walking before id rep.name s.world.cursors.length items 0 t c := by
  have hopened : (s.beginScope id).world.context? id = some (before.after .opened) :=
    Session.context?_modify_self hc rfl
  unfold itemsOf Session.setRepeat
  cases he : (s.beginScope id).evaluate id (.text rep.expression) with
  | none => exact .inl ⟨rfl, rfl⟩
  | some answer =>
    obtain ⟨result, t⟩ := answer
    have hw : t.world = (s.beginScope id).world := Session.world_performValue he
    have ht : t.world.context? id = some (before.after .opened) := hw ▸ hopened
    have hlength : t.world.cursors.length = s.world.cursors.length := by
      rw [hw]
      rfl
    cases result with
    | error e => exact .inr (.inl ⟨e, t, rfl, rfl, ht⟩)
    | ok v =>
      dsimp only
      rcases repeatOver_cases ht rep.name v with
        ⟨e, hitems, hrepeat⟩ | ⟨items, u, c, hitems, hrepeat, hwalk⟩
      · rw [hitems, hrepeat]
        exact .inr (.inl ⟨e, t, rfl, rfl, ht⟩)
      · rw [hitems, hrepeat]
        rw [hlength] at hwalk ⊢
        exact .inr (.inr ⟨items, u, c, rfl, rfl, hwalk⟩)

theorem context?_closeScope {c : Context} (hc : t.world.context? id = some c) :
    (closeScope t id).world.context? id = some (c.after .closed) := by
  have hclosed := Session.context?_endScope (i := id) hc
  rw [if_pos rfl] at hclosed
  have heq : closeScope t id = (t.endScope id).toOption.getD t := by
    unfold closeScope
    cases t.endScope id <;> rfl
  rw [heq]
  exact hclosed

/-- What a batch leaves behind, told by its rounds: what these write on their own, and the context from
before. -/
structure Concludes (before : Context) (id : ContextId) (expressions : List Text)
    (rounds : Option (Except EvalError (List Session))) (ending : Written × Session) : Prop where
  output : ending.1.output = (writtenIn id expressions (sessions rounds)).output
  ok : ending.1.ok = true ↔
    (∃ ts, rounds = some (.ok ts)) ∧ (writtenIn id expressions (sessions rounds)).ok = true
  context? : ending.2.world.context? id = some before

theorem concludes_of_written {before : Context} {expressions : List Text} {ts : List Session}
    {ending : Written × Session} (hwritten : ending.1 = writtenIn id expressions ts)
    (hcontext : ending.2.world.context? id = some before) :
    Concludes before id expressions (some (.ok ts)) ending where
  output := congrArg Written.output hwritten
  ok := by
    rw [hwritten]
    exact ⟨fun h => ⟨⟨ts, rfl⟩, h⟩, And.right⟩
  context? := hcontext

/-- The rounds of a repeat whose items can be had. -/
theorem runBatch_repeated {before c : Context} (hplain : s.world.IsPlain)
    (hc : s.world.context? id = some before) (hdepth : before.scopes.depth = 0) (expressions : List Text)
    (hset : (s.beginScope id).setRepeat id rep.name (.text rep.expression) =
      some (.ok s.world.cursors.length, t))
    (hwalk : Walking before id rep.name s.world.cursors.length items 0 t c) :
    ∃ ts, ts.length = items.length ∧ (∀ i u, ts[i]? = some u → AtItem s id rep items i u) ∧
      Concludes before id expressions (some (.ok ts)) (runBatch s id (some rep) expressions) := by
  obtain ⟨sequence, hk⟩ := hwalk.cursor?
  have happly : (s.beginScope id).apply (.setRepeat id rep.name (.text rep.expression)) = some t := by
    simp [Session.apply, hset]
  have hplain' : t.world.IsPlain :=
    Session.isPlain_apply (o := .setRepeat id rep.name (.text rep.expression))
      (Session.isPlain_after hplain .opened trivial id) trivial happly
  obtain ⟨ts, hlength, hts, hwritten, cu, hcu, hclosed⟩ :=
    interpretRepeated_eq (items.length + 1) expressions hplain' hwalk rfl (Nat.lt_succ_self _)
  have hrun : runBatch s id (some rep) expressions =
      ((interpretRepeated id rep s.world.cursors.length expressions (items.length + 1) t).1,
        closeScope (interpretRepeated id rep s.world.cursors.length expressions
          (items.length + 1) t).2 id) := by
    simp only [runBatch, hset, hk]
    rfl
  refine ⟨ts, hlength, fun i u hu => ?_, ?_⟩
  · obtain ⟨hrunu, cv, hv⟩ := hts i u hu
    have hi : i < items.length := by
      have hlt := (List.getElem?_eq_some_iff.1 hu).1
      omega
    rw [Nat.zero_add] at hv
    refine hv.atItem hc hdepth hi ?_
    rw [Session.run, Session.apply, Option.bind_some, Session.run, happly]
    exact hrunu
  · rw [hrun]
    exact concludes_of_written hwritten (hclosed ▸ context?_closeScope hcu)

/-- A batch does what its rounds do on their own. -/
theorem runBatch_rounds {before : Context} (hplain : s.world.IsPlain)
    (hc : s.world.context? id = some before) (hdepth : before.scopes.depth = 0)
    (repeat? : Option Repeat) (expressions : List Text) :
    ∃ rounds, Rounds s id repeat? rounds ∧
      Concludes before id expressions rounds (runBatch s id repeat? expressions) := by
  cases repeat? with
  | none =>
    refine ⟨_, .once, concludes_of_written ?_ ?_⟩
    · rw [runBatch, interpretAll_eq hplain rfl, writtenIn, List.flatMap_singleton]
    · rw [runBatch, world_interpretAll]
      exact hc
  | some rep =>
    rcases setRepeat_cases hc rep with ⟨hitems, hset⟩ | ⟨e, t, hitems, hset, ht⟩ |
      ⟨items, t, c, hitems, hset, hwalk⟩
    · have hopened : (s.beginScope id).world.context? id = some (before.after .opened) :=
        Session.context?_modify_self hc rfl
      have hrun : runBatch s id (some rep) expressions =
          (.endless, closeScope (s.beginScope id) id) := by simp only [runBatch, hset]
      rw [hrun]
      exact ⟨_, .endless hitems, rfl, by simp [Written.endless], context?_closeScope hopened⟩
    · have hrun : runBatch s id (some rep) expressions =
          (.failure (t.failure id rep.expression e), closeScope t id) := by simp only [runBatch, hset]
      rw [hrun]
      exact ⟨_, .failing hitems, rfl, by simp [Written.failure], context?_closeScope ht⟩
    · obtain ⟨ts, hlength, hat, hconcludes⟩ := runBatch_repeated hplain hc hdepth expressions hset hwalk
      exact ⟨_, .repeated hitems hlength hat, hconcludes⟩

/-! ## Batches from the command line -/

/-- A session with one context of roots. -/
def fresh (g : Engine) (roots : List Root) (maxDepth : Nat) (file : Option Text) : Session :=
  let s := Session.start g
  let builder := s.builder.roots (roots.map fun r => (r.name, r.value))
  (s.newContext { builder with maxDepth := maxDepth }).1.setFile 0 file

/-- Expressions among the arguments are a batch. -/
theorem run_of_expressions {invocation : Invocation} (h : invocation.expressions ≠ []) (input : Text) :
    run invocation input =
      (runBatch (fresh .standard invocation.roots invocation.maxDepth none) 0 invocation.repeat?
        invocation.expressions).1 := by
  have hsome : (!invocation.expressions.isEmpty) = true := by simp [h]
  unfold run
  dsimp only
  rw [if_pos hsome]
  rfl

/-- So are the lines of the input, if there is a repeat. -/
theorem run_of_repeat {invocation : Invocation} {rep : Repeat} (h : invocation.expressions = [])
    (hrepeat : invocation.repeat? = some rep) (input : Text) :
    run invocation input =
      (runBatch (fresh .standard invocation.roots invocation.maxDepth (some "<stdin>".toList)) 0
        (some rep) ((numberedLines input).map Prod.snd)).1 := by
  unfold run
  rw [h, hrepeat]
  rfl

/-- The roots that a command line gives are data. -/
theorem isPlain_fresh {g : Engine} {roots : List Root} {maxDepth : Nat} {file : Option Text}
    (hroots : ∀ root ∈ roots, ∃ t, Root.read t = .ok root) :
    (fresh g roots maxDepth file).world.IsPlain := by
  have hstart : (Session.start g).world.IsPlain := ⟨by simp [Session.start], by simp [Session.start],
    by simp [Session.start]⟩
  have hmapped : ∀ entry ∈ Mapping.putAll [] (roots.map fun r => (r.name, r.value)), entry.2.Plain := by
    refine Mapping.forall_mem_putAll (by simp) (List.forall_mem_map.2 fun root hroot => ?_)
    obtain ⟨t, ht⟩ := hroots root hroot
    exact .data (isData_of_readRoot ht)
  have hnew : (Operation.newContext ⟨[], Mapping.putAll [] (roots.map fun r => (r.name, r.value)),
      maxDepth, .identity⟩).IsPlain := ⟨by simp, hmapped⟩
  have hfile : (Operation.setFile 0 file).IsPlain := trivial
  exact Session.isPlain_run hstart
    (List.forall_mem_cons.2 ⟨hnew, List.forall_mem_singleton.2 hfile⟩) rfl

/-- A batch on a fresh context of roots that are JSON or text. Its output is, round by round and in each
round in the order of the expressions, what is printed for the outcome of each evaluation; and each of these
is performed alone, right after the round was set up from the fresh context, whatever the evaluations before
it in the batch came to. The batch succeeds if the items of the repeat can be had and all evaluations
succeed. In any case the context is left as it was, without an open scope or an active cursor. -/
theorem batch_evaluates_each_alone (g : Engine) (roots : List Root) (maxDepth : Nat) (file : Option Text)
    (hroots : ∀ root ∈ roots, ∃ t, Root.read t = .ok root) (repeat? : Option Repeat)
    (expressions : List Text) :
    ∃ rounds, Rounds (fresh g roots maxDepth file) 0 repeat? rounds ∧
      ∃ written s', runBatch (fresh g roots maxDepth file) 0 repeat? expressions = (written, s') ∧
        written.output = ((sessions rounds).flatMap fun t =>
          expressions.flatMap fun e => printed (outcome t 0 e)) ∧
        (written.ok = true ↔ (∃ ts, rounds = some (.ok ts)) ∧
          ∀ t ∈ sessions rounds, ∀ e ∈ expressions, ∃ v, outcome t 0 e = some (.ok v)) ∧
        s'.world.context? 0 = (fresh g roots maxDepth file).world.context? 0 ∧
        ∃ c, s'.world.context? 0 = some c ∧ c.scopes.depth = 0 ∧ c.registry = [] := by
  obtain ⟨c, hc, hdepth, hregistry⟩ : ∃ c, (fresh g roots maxDepth file).world.context? 0 = some c ∧
    c.scopes.depth = 0 ∧ c.registry = [] := ⟨_, rfl, rfl, rfl⟩
  obtain ⟨rounds, hrounds, hends⟩ :=
    runBatch_rounds (isPlain_fresh hroots) hc hdepth repeat? expressions
  refine ⟨rounds, hrounds, _, _, rfl, ?_, ?_, hends.context?.trans hc.symm, c, hends.context?, hdepth,
    hregistry⟩
  · exact hends.output.trans (output_writtenIn 0 expressions (sessions rounds))
  · exact hends.ok.trans (and_congr_right fun _ => ok_writtenIn 0 expressions (sessions rounds))

/-- A batch over two items in which the second expression names nothing: the evaluations of the first one
alone print its lines, and not all evaluations succeed. -/
theorem batch_over_two_items :
    Root.read "l=[1,2]".toList = .ok ⟨['l'], .list [.int 1, .int 2]⟩ ∧
      ∃ rounds, Rounds (fresh .standard [⟨['l'], .list [.int 1, .int 2]⟩] 1000 none) 0
          (some ⟨['x'], ['l']⟩) rounds ∧
        ((sessions rounds).flatMap fun t =>
          [['x'], ['y']].flatMap fun e => printed (outcome t 0 e)) = "1\n2\n".toList ∧
        ¬((∃ ts, rounds = some (.ok ts)) ∧
          ∀ t ∈ sessions rounds, ∀ e ∈ [['x'], ['y']], ∃ v, outcome t 0 e = some (.ok v)) := by
  have hread : Root.read "l=[1,2]".toList = .ok ⟨['l'], .list [.int 1, .int 2]⟩ := rfl
  obtain ⟨rounds, hrounds, written, s', hrun, houtput, hok, -⟩ :=
    batch_evaluates_each_alone .standard [⟨['l'], .list [.int 1, .int 2]⟩] 1000 none
      (by simpa using ⟨_, hread⟩) (some ⟨['x'], ['l']⟩) [['x'], ['y']]
  have hlines : written.output = "1\n2\n".toList := congrArg (fun r => r.1.output) hrun.symm
  have hfails : written.ok = false := congrArg (fun r => r.1.ok) hrun.symm
  refine ⟨hread, rounds, hrounds, houtput.symm.trans hlines, ?_⟩
  rw [← hok, hfails]
  exact Bool.false_ne_true

end TemplateExpressions.CommandLine
