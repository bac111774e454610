import TemplateExpressions.Proofs.Session.Gone

/-!
# Walking with a cursor

A cursor that was just made over a sequence (`StartsOver`) stands in front of the first of its items, and
each time it is advanced it goes on by one, whatever else a driver does in between (`cursor?_walk`). What it
answers follows from where it stands (`Stands`), what it binds is the item that it gets to (`StepsTo`). Main
statement: a new cursor is advanced with success as often as there are items and no more, and letting go of
its context stops it where it stands (`cursor_walks_its_items`).
-/

set_option autoImplicit false

namespace TemplateExpressions

/-- Whether an operation advances the cursor. -/
def Operation.advances (cursor : CursorId) : Operation → Bool
  | .advance k => k == cursor
  | _ => false

theorem Operation.advances_eq_true {cursor : CursorId} {o : Operation} :
    o.advances cursor = true ↔ o = .advance cursor := by
  cases o with
  | advance k => simp [advances]
  | _ => simp [advances]

namespace Session

/-- What a run answers where it advances the cursor, one after the other. -/
def answers (cursor : CursorId) (s : Session) : List Operation → List (Except EvalError Bool)
  | [] => []
  | o :: ops =>
    (if o.advances cursor then [(s.advance cursor).map Prod.fst] else []) ++
      ((s.apply o).map fun t => t.answers cursor ops).getD []

/-- A cursor was just made for the items: over a value by itself, over nothing, or by a repeat over a
value. -/
inductive StartsOver (s : Session) (id : ContextId) (name : Text) :
    List Value → CursorId → Session → Prop
  | new {v : Value} {items : List Value} {cursor : CursorId} {s₀ : Session} :
      v.elements s.live = .ok items → s.newCursor id name v = .ok (cursor, s₀) →
      StartsOver s id name items cursor s₀
  | empty {cursor : CursorId} {s₀ : Session} : s.emptyCursor id name = (cursor, s₀) →
      StartsOver s id name [] cursor s₀
  | repeated {v : Value} {items : List Value} {cursor : CursorId} {s₀ : Session} :
      v.isTruthy s.live = true → v.elements s.live = .ok items →
      s.repeatOver id name v = .ok (cursor, s₀) → StartsOver s id name items cursor s₀

/-- What a cursor answers when it has gone past the first `place` of its items. -/
structure Stands (s : Session) (cursor : CursorId) (items : List Value) (place : Nat) : Prop where
  /-- In front of the first item there is no position. -/
  unplaced : place = 0 → ∀ q, q ≠ .start → q ≠ .end → q ≠ .length →
    s.query cursor q = .error .noPosition
  number : 0 < place → s.query cursor .number = .ok (.number place)
  index : 0 < place → s.query cursor .index = .ok (.number (place - 1))
  item : 0 < place → ∃ v, items[place - 1]? = some v ∧ s.query cursor .item = .ok (.item v)
  /-- Even and odd are said of the index. -/
  even : 0 < place → s.query cursor .even = .ok (.flag ((place - 1) % 2 == 0))
  odd : 0 < place → s.query cursor .odd = .ok (.flag ((place - 1) % 2 == 1))
  /-- The parity is that of the number. -/
  parity : 0 < place → s.query cursor .parity =
    .ok (.word (if place % 2 = 1 then "odd".toList else "even".toList))
  start : s.query cursor .start = .ok (.flag (place == 1))
  «end» : s.query cursor .end = .ok (.flag (place != 0 && place == items.length))

/-- Advancing the cursor succeeds and binds the value under the name, in the frame in force of the context
and nowhere else. -/
structure StepsTo (s : Session) (cursor : CursorId) (id : ContextId) (name : Text) (v : Value)
    (s' : Session) : Prop where
  advance_eq : s.advance cursor = .ok (true, s')
  /-- The name has the value, and every other name in force has what it had. -/
  bound : ∃ c c', s.world.context? id = some c ∧ s'.world.context? id = some c' ∧
    (∀ x, c'.scopes.get? x = if x = name then some v else c.scopes.get? x) ∧
    c'.scopes.frames.tail = c.scopes.frames.tail ∧
    c'.registry = c.registry ∧ c'.scopes.undoLists = c.scopes.undoLists ∧ c'.roots = c.roots
  contexts : ∀ i, i ≠ id → s'.world.context? i = s.world.context? i
  cursors : ∀ k, k ≠ cursor → s'.world.cursor? k = s.world.cursor? k

variable {s s' : Session} {id : ContextId} {c : Context} {name : Text} {sequence : Value}
  {items : List Value} {cursor : CursorId} {place : Nat}

/-! ## New cursors -/

theorem newCursor_eq (id : ContextId) (name : Text) {v : Value} (h : v.elements s.live = .ok items) :
    s.newCursor id name v =
      .ok (s.world.cursors.length, s.withCursor (.past id name v items 0)) := by
  rw [newCursor, Cursor.ofSequence_eq_past id name h]
  rfl

/-- A repeat over a value that counts as true needs an open scope. -/
theorem inner_ne_nil_of_repeatOver {v : Value} (hc : s.world.context? id = some c)
    (hv : v.isTruthy s.live = true) (h : s.repeatOver id name v = .ok (cursor, s')) :
    c.scopes.inner ≠ [] := by
  intro hinner
  rw [repeatOver_of_inner_eq_nil name hc hv hinner] at h
  cases h

/-- A new cursor stands in front of its first item, and its context is still in use. -/
theorem StartsOver.cursor? (h : s.StartsOver id name items cursor s')
    (hc : s.world.context? id = some c) :
    (∃ c', s'.world.context? id = some c') ∧
      ∃ sequence, s'.world.cursor? cursor = some (.past id name sequence items 0) := by
  cases h with
  | new hitems hnew =>
    rw [newCursor_eq id name hitems] at hnew
    cases hnew
    exact ⟨⟨c, hc⟩, _, cursor?_withCursor_self s _⟩
  | empty hempty =>
    cases hempty
    exact ⟨⟨c, hc⟩, _, cursor?_withCursor_self s (.empty id name)⟩
  | repeated hv hitems hrepeat =>
    have hinner := inner_ne_nil_of_repeatOver hc hv hrepeat
    rw [repeatOver_of_elements_eq_ok name hc hv hinner hitems] at hrepeat
    cases hrepeat
    exact ⟨⟨_, context?_modify_self hc rfl⟩, _, cursor?_withCursor_self s _⟩

/-! ## Where a cursor stands -/

theorem stands_of_cursor? (hk : s.world.cursor? cursor = some (.past id name sequence items place))
    (hplace : place ≤ items.length) : s.Stands cursor items place := by
  have hquery : ∀ q, s.query cursor q =
      (Cursor.past id name sequence items place).ask s.live q := by
    intro q
    rw [query, hk]
  have hstart := (hquery .start).trans (Cursor.ask_start_past id name sequence hplace)
  have hend := (hquery .end).trans (Cursor.ask_end_past id name sequence hplace)
  cases place with
  | zero =>
    have hnone : ¬ 0 < 0 := Nat.lt_irrefl 0
    refine ⟨fun _ q hs he hl => ?_, fun h => absurd h hnone, fun h => absurd h hnone,
      fun h => absurd h hnone, fun h => absurd h hnone, fun h => absurd h hnone,
      fun h => absurd h hnone, hstart, hend⟩
    exact (hquery q).trans (Cursor.ask_past_zero id name sequence hs he hl)
  | succ i =>
    have hi : i < items.length := hplace
    refine ⟨fun h => (Nat.succ_ne_zero i h).elim, fun _ => ?_, fun _ => ?_, fun _ => ?_, fun _ => ?_,
      fun _ => ?_, fun _ => ?_, hstart, hend⟩
    · exact (hquery .number).trans (Cursor.ask_number_past id name sequence hi)
    · exact (hquery .index).trans (Cursor.ask_index_past id name sequence hi)
    · exact ⟨items[i], List.getElem?_eq_getElem hi,
        (hquery .item).trans (Cursor.ask_item_past id name sequence hi)⟩
    · exact (hquery .even).trans (Cursor.ask_even_past id name sequence hi)
    · exact (hquery .odd).trans (Cursor.ask_odd_past id name sequence hi)
    · exact (hquery .parity).trans (Cursor.ask_parity_past id name sequence hi)

/-- A cursor with items ahead binds the next one. -/
theorem exists_stepsTo (hc : s.world.context? id = some c)
    (hk : s.world.cursor? cursor = some (.past id name sequence items place))
    (hplace : place < items.length) :
    ∃ t, s.StepsTo cursor id name items[place] t ∧
      t.world.cursor? cursor = some (.past id name sequence items (place + 1)) := by
  have hnext := Cursor.next?_past id name sequence hplace
  have hmoved := cursor?_withMoved_self hk (.past id name sequence items (place + 1))
  refine ⟨_, ⟨advance_of_next?_eq_some hk hnext hc, ⟨c, c.after (.boundLocal name items[place]), hc,
    context?_modify_self (s := s.withMoved cursor _) hc rfl,
    fun x => Scopes.get?_bindLocal c.scopes name x _, ?_, rfl, ?_, rfl⟩, fun i hi => ?_,
    fun k hk' => ?_⟩, hmoved⟩
  · show (c.scopes.bindLocal name items[place]).frames.tail = _
    rw [Scopes.frames_bindLocal, List.tail_cons]
  · show (c.scopes.bindLocal name items[place]).undoLists = _
    unfold Scopes.bindLocal Scopes.undoLists
    cases hi : c.scopes.inner with
    | nil => rfl
    | cons scope outer => rfl
  · exact World.context?_modifyContext_of_ne _ hi.symm
  · simp [withMoved, setLocal, modify, World.modifyContext, World.setCursor, World.cursor?, Ne.symm hk']

/-- A cursor that has gone past all items does not move. -/
theorem advance_past_end (hk : s.world.cursor? cursor = some (.past id name sequence items place))
    (hplace : items.length ≤ place) : s.advance cursor = .ok (false, s) :=
  advance_of_next?_eq_none hk (Cursor.next?_past_eq_none id name sequence hplace)

/-! ## Runs -/

/-- An operation moves a cursor by one item if it advances it and there is one, and answers whether there
is. -/
theorem cursor?_step {o : Operation} (hc : s.world.context? id = some c)
    (hk : s.world.cursor? cursor = some (.past id name sequence items place))
    (hplace : place ≤ items.length) (ho : o.advances cursor = true) (h : s.apply o = some s') :
    s'.world.cursor? cursor =
        some (.past id name sequence items (min (place + 1) items.length)) ∧
      (s.advance cursor).map Prod.fst = .ok (decide (place < items.length)) := by
  obtain rfl := Operation.advances_eq_true.1 ho
  by_cases hlt : place < items.length
  · obtain ⟨t, ht, hmoved⟩ := exists_stepsTo hc hk hlt
    rw [apply, ht.advance_eq] at h
    cases h
    rw [Nat.min_eq_left hlt, ht.advance_eq, decide_eq_true hlt]
    exact ⟨hmoved, rfl⟩
  · have hend := advance_past_end hk (Nat.le_of_not_lt hlt)
    rw [apply, hend] at h
    cases h
    have hsame : min (place + 1) items.length = place := by omega
    rw [hsame, hend, decide_eq_false hlt]
    exact ⟨hk, rfl⟩

/-- A run moves a cursor by as many items as it advances it, or up to the end. The first answers are that
there was an item, and the others, if there are others, that there was none. -/
theorem cursor?_walk {ops : List Operation} (hc : s.world.context? id = some c)
    (hk : s.world.cursor? cursor = some (.past id name sequence items place))
    (hplace : place ≤ items.length) (hdrop : .drop id ∉ ops) (h : s.run ops = some s') :
    ∃ moves idle, moves + idle = ops.countP (·.advances cursor) ∧
      min (place + ops.countP (·.advances cursor)) items.length = place + moves ∧
      s'.world.cursor? cursor = some (.past id name sequence items (place + moves)) ∧
      s.answers cursor ops = List.replicate moves (.ok true) ++ List.replicate idle (.ok false) := by
  induction ops generalizing s c place with
  | nil =>
    cases h
    exact ⟨0, 0, rfl, Nat.min_eq_left hplace, hk, rfl⟩
  | cons o ops ih =>
    obtain ⟨t, ht, hr⟩ := run_cons h
    have hct := context?_apply ht hc fun e => hdrop (by simp [e])
    have hrest : .drop id ∉ ops := fun hm => hdrop (List.mem_cons_of_mem o hm)
    cases ho : o.advances cursor with
    | false =>
      have hkt := cursor?_apply ht hk fun e => by rw [e] at ho; simp [Operation.advances] at ho
      obtain ⟨moves, idle, hsum, hmin, hcursor, hanswers⟩ := ih hct hkt hplace hrest hr
      rw [List.countP_cons_of_neg (by simp [ho])]
      refine ⟨moves, idle, hsum, hmin, hcursor, ?_⟩
      simpa [answers, ho, ht] using hanswers
    | true =>
      obtain ⟨hkt, hanswer⟩ := cursor?_step hc hk hplace ho ht
      obtain ⟨moves, idle, hsum, hmin, hcursor, hanswers⟩ :=
        ih hct hkt (Nat.min_le_right _ _) hrest hr
      rw [List.countP_cons_of_pos (by simpa using ho)]
      by_cases hlt : place < items.length
      · -- one more item was ahead
        rw [Nat.min_eq_left hlt] at hmin hcursor
        refine ⟨moves + 1, idle, by omega, by omega, ?_, ?_⟩
        · rw [hcursor]
          congr 2
          omega
        · rw [decide_eq_true hlt] at hanswer
          simp [answers, ho, ht, hanswer, hanswers, List.replicate_succ]
      · -- the end was reached before, and no later answer is that there was an item
        have hend : min (place + 1) items.length = place := by omega
        rw [hend] at hmin hcursor
        have hmoves : moves = 0 := by omega
        subst hmoves
        refine ⟨0, idle + 1, by omega, by omega, hcursor, ?_⟩
        rw [decide_eq_false hlt] at hanswer
        simp [answers, ho, ht, hanswer, hanswers, List.replicate_succ]

/-- Of a sequence that can be walked a cursor can be made. Whichever way one was made, in a context in use,
and whatever a driver did since without letting go of this context: if it advanced the cursor `k` times and
`p` is the smaller one of `k` and the number of items, then the first `p` of these times there was an item
and no other time; the cursor answers that it has gone past `p` items; to advance it further binds the next
item under its name in the frame in force and changes no other binding, or, at the end, answers that there
is none and changes nothing. When then the context is let go of, the cursor stands where it stood for good.
To advance it changes nothing; it fails, if there are items ahead, and answers as before, if there are
none. -/
theorem cursor_walks_its_items (hc : s.world.context? id = some c) (name : Text) :
    (∀ v items, v.elements s.live = .ok items →
      ∃ cursor s₀, s.newCursor id name v = .ok (cursor, s₀)) ∧
    ∀ items cursor s₀, s.StartsOver id name items cursor s₀ →
      ∀ ops s₁, s₀.run ops = some s₁ → .drop id ∉ ops →
        ∀ k p, k = ops.countP (·.advances cursor) → p = min k items.length →
          s₀.answers cursor ops =
              List.replicate p (.ok true) ++ List.replicate (k - p) (.ok false) ∧
            s₁.Stands cursor items p ∧
            (∀ hp : p < items.length, ∃ s₂, s₁.StepsTo cursor id name items[p] s₂) ∧
            (p = items.length → s₁.advance cursor = .ok (false, s₁)) ∧
            ∀ ops' s₂, s₁.run (.drop id :: ops') = some s₂ →
              s₂.Stands cursor items p ∧ s₂.apply (.advance cursor) = some s₂ ∧
                s₂.advance cursor =
                  if p < items.length then .error .contextDropped else .ok (false, s₂) := by
  refine ⟨fun v items hitems => ⟨_, _, newCursor_eq id name hitems⟩, ?_⟩
  rintro items cursor s₀ hstart ops s₁ hrun hdrop k p rfl hp
  obtain ⟨⟨c₀, hc₀⟩, sequence, hk₀⟩ := hstart.cursor? hc
  obtain ⟨moves, idle, hsum, hmin, hk₁, hanswers⟩ :=
    cursor?_walk hc₀ hk₀ (Nat.zero_le _) hdrop hrun
  have hmoves : moves = p := by omega
  have hidle : idle = ops.countP (·.advances cursor) - p := by omega
  have hple : p ≤ items.length := by omega
  rw [Nat.zero_add, hmoves] at hk₁
  have hc₁ := context?_run hrun hc₀ hdrop
  refine ⟨by rw [hanswers, hmoves, hidle], stands_of_cursor? hk₁ hple, fun hlt => ?_, fun he => ?_, ?_⟩
  · obtain ⟨t, ht, -⟩ := exists_stepsTo hc₁ hk₁ hlt
    exact ⟨t, ht⟩
  · exact advance_past_end hk₁ (Nat.le_of_eq he.symm)
  · intro ops' s₂ hrun'
    obtain ⟨t, ht, hrun'⟩ := run_cons hrun'
    cases ht
    have hgone : (s₁.drop id).Gone (Cursor.past id name sequence items p).context := gone_drop hc₁
    have hk₂ := cursor?_run_of_gone (s := s₁.drop id) hk₁ hgone hrun'
    obtain ⟨hadvance, hsame⟩ := advance_of_gone hk₂ (gone_run hgone hrun')
    refine ⟨stands_of_cursor? hk₂ hple, hsame, ?_⟩
    rw [hadvance]
    have hahead : (Cursor.past id name sequence items p).ahead = [] ↔ ¬ p < items.length := by
      rw [Nat.not_lt]
      exact List.drop_eq_nil_iff
    by_cases hlt : p < items.length
    · rw [if_pos hlt, if_neg fun h => hahead.1 h hlt]
    · rw [if_neg hlt, if_pos (hahead.2 hlt)]

/-- A walk over two items that stops at the first one, when its context is let go of. -/
theorem walk_over_first_of_two :
    ∃ cursor s₀ s₁ s₂,
      (ofRoots []).newCursor 0 ['x'] (.list [.int 1, .int 2]) = .ok (cursor, s₀) ∧
      s₀.run [.advance cursor, .beginScope 0] = some s₁ ∧
      s₀.answers cursor [.advance cursor, .beginScope 0] = [.ok true] ∧
      (∃ t, s₁.StepsTo cursor 0 ['x'] (.int 2) t) ∧
      s₁.run [.drop 0, .advance cursor] = some s₂ ∧
      s₂.Stands cursor [.int 1, .int 2] 1 ∧ s₂.advance cursor = .error .contextDropped := by
  obtain ⟨c, hc⟩ : ∃ c, (ofRoots []).world.context? 0 = some c := ⟨_, rfl⟩
  obtain ⟨hnew, hwalk⟩ := cursor_walks_its_items hc ['x']
  obtain ⟨cursor, s₀, hnew⟩ := hnew (.list [.int 1, .int 2]) _ rfl
  obtain ⟨s₁, hrun⟩ : ∃ s₁, s₀.run [.advance cursor, .beginScope 0] = some s₁ := ⟨_, rfl⟩
  have hcount : [Operation.advance cursor, .beginScope 0].countP (·.advances cursor) = 1 := by
    simp [Operation.advances]
  obtain ⟨hanswers, -, hstep, -, hgone⟩ := hwalk [.int 1, .int 2] cursor s₀ (.new rfl hnew) _ s₁ hrun
    (by simp) 1 1 hcount.symm rfl
  obtain ⟨s₂, hrun'⟩ : ∃ s₂, s₁.run [.drop 0, .advance cursor] = some s₂ := ⟨_, rfl⟩
  obtain ⟨hstands, -, hadvance⟩ := hgone _ s₂ hrun'
  exact ⟨cursor, s₀, s₁, s₂, hnew, hrun, hanswers, hstep Nat.one_lt_two, hrun', hstands, hadvance⟩

end Session
end TemplateExpressions
