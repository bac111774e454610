import TemplateExpressions.Proofs.Cursor
import TemplateExpressions.Proofs.Session.Balanced

/-!
# Loops of a driver

A driver repeats over a sequence by opening a scope, setting up a cursor, and running a body in a
scope of its own as long as the cursor moves (`Passes`). `Looping` is the invariant of such a loop.
Main statement: the body runs once for each item, finds the item under the name of the loop, and
after the loop all is as before, save for what the bodies have bound globally
(`repeat_visits_each_item_once`).
-/

set_option autoImplicit false

namespace TemplateExpressions

/-- The items that a loop walks: the elements of a list, the keys of a mapping, the characters of a
text. -/
inductive Value.Items : Value → List Value → Prop
  | list (items : List Value) : Items (.list items) items
  | map (entries : List (Text × Value)) : Items (.map entries) (entries.map fun e => .text e.1)
  | text (t : Text) : Items (.text t) (t.map fun ch => .text [ch])

namespace Value.Items

variable {v : Value} {items : List Value}

theorem elements_eq (h : v.Items items) (live : Live) : v.elements live = .ok items := by
  cases h <;> rfl

/-- A sequence counts as true if it has items. -/
theorem isTruthy_eq (h : v.Items items) (live : Live) : v.isTruthy live = !items.isEmpty := by
  cases h <;> simp [isTruthy]

end Value.Items

/-- Passes of a loop, each with the session in which its body starts and the body: the cursor moves,
then the body runs in a scope of its own, which closes what it opens and leaves the cursor alone. -/
inductive Passes (id : ContextId) (cursor : CursorId) :
    Session → List (Session × List Operation) → Session → Prop
  | nil (s : Session) : Passes id cursor s [] s
  | cons {s t u s' : Session} {body : List Operation} {passes : List (Session × List Operation)} :
      s.advance cursor = .ok (true, t) → Balanced id body → .advance cursor ∉ body →
      t.run (enclosed id body) = some u → Passes id cursor u passes s' →
      Passes id cursor s ((t, body) :: passes) s'

/-- What a body finds in the pass of the given index. -/
structure AtPass (id : ContextId) (name : Text) (cursor : CursorId) (items : List Value) (i : Nat)
    (s : Session) : Prop where
  value : ∃ v, items[i]? = some v ∧ s.get? id name = some v ∧ s.query cursor .item = .ok (.item v)
  registered : (s.registry id).get? name = some cursor
  index : s.query cursor .index = .ok (.number i)
  number : s.query cursor .number = .ok (.number (i + 1))
  start : s.query cursor .start = .ok (.flag (i == 0))
  last : s.query cursor .end = .ok (.flag (i + 1 == items.length))

/-- The invariant of a loop in whose scope a context is: the cursor has gone past `count` items,
it is the active one of its name if there are items at all, and closing the scope brings back the
registry that was there before, and the values of the `kept` variables. -/
structure Looping (before : Context) (kept : Text → Prop) (id : ContextId) (name : Text)
    (cursor : CursorId) (items : List Value) (count : Nat) (s : Session) (c : Context) : Prop where
  context? : s.world.context? id = some c
  cursor? : ∃ sequence, s.world.cursor? cursor = some (.past id name sequence items count)
  registered : items ≠ [] → c.registry.get? name = some cursor
  unwound : c.unwound = before.registry :: before.unwound
  values : ∀ x, kept x →
    Context.valuesBelow x c = before.scopes.get? x :: Context.valuesBelow x before

namespace Looping

variable {before c : Context} {kept : Text → Prop} {id : ContextId} {name : Text}
  {cursor : CursorId} {items : List Value} {count : Nat} {s s' : Session}

/-- The setting up of a loop in a new scope. -/
theorem start {t : Session} {source : Source} {v : Value} (name : Text)
    (hc : s.world.context? id = some before)
    (hv : (s.beginScope id).evaluate id source = some (.ok v, t)) (hitems : v.Items items) :
    ∃ cursor s₀ c₀, (s.beginScope id).setRepeat id name source = some (.ok cursor, s₀) ∧
      ∀ kept, Looping before kept id name cursor items 0 s₀ c₀ := by
  have ht : t.world.context? id = some (before.after .opened) := by
    rw [Session.world_performValue hv]
    exact Session.apply_beginScope hc rfl
  have hset : ∀ k u, t.repeatOver id name v = .ok (k, u) →
      (s.beginScope id).setRepeat id name source = some (.ok k, u) := by
    intro k u hr
    simp [Session.setRepeat, hv, hr]
  have htruthy := hitems.isTruthy_eq t.live
  by_cases hnil : items = []
  · -- nothing is installed for a sequence without items
    subst hnil
    have hr := Session.repeatOver_of_not_isTruthy id name htruthy
    refine ⟨_, _, before.after .opened, hset _ _ hr, fun kept => ⟨ht, ⟨.list [], ?_⟩,
      fun h => absurd rfl h, Context.unwound_after_opened before,
      fun x _ => Context.valuesBelow_after_opened x before⟩⟩
    rw [← Cursor.empty_eq_past]
    exact Session.cursor?_withCursor_self t _
  · have htrue : v.isTruthy t.live = true := by
      rw [htruthy, List.isEmpty_eq_false_iff.2 hnil]
      rfl
    have hinner : (before.after .opened).scopes.inner ≠ [] := List.cons_ne_nil _ _
    have hr := Session.repeatOver_of_elements_eq_ok name ht htrue hinner
      (hitems.elements_eq t.live)
    refine ⟨_, _, (before.after .opened).after (.installed name t.world.cursors.length),
      hset _ _ hr, fun kept => ⟨?_, ⟨v, ?_⟩, fun _ => ?_, ?_, fun x _ => ?_⟩⟩
    · exact Session.context?_modify_self ht rfl
    · exact Session.cursor?_withCursor_self t _
    · exact Mapping.get?_put_self before.registry name _
    · exact Context.unwound_after_installed (before.after .opened) name _
    · exact ((Context.isStack_valuesBelow x).others _ _ (by simp) (by simp) (by simp)).trans
        (Context.valuesBelow_after_opened x before)

/-- A cursor that has gone past all items does not move. -/
theorem advance_eq_false (h : Looping before kept id name cursor items count s c)
    (hcount : items.length ≤ count) : s.advance cursor = .ok (false, s) := by
  obtain ⟨sequence, hk⟩ := h.cursor?
  exact Session.advance_of_next?_eq_none hk (Cursor.next?_past_eq_none id name sequence hcount)

/-- A cursor with items ahead moves to the next one and binds it. -/
theorem advance_eq_true (h : Looping before kept id name cursor items count s c)
    (hcount : count < items.length) :
    ∃ t ct, s.advance cursor = .ok (true, t) ∧
      Looping before kept id name cursor items (count + 1) t ct ∧
      ct.scopes.get? name = some items[count] := by
  obtain ⟨sequence, hk⟩ := h.cursor?
  have hnext := Cursor.next?_past id name sequence hcount
  have hadvance := Session.advance_of_next?_eq_some hk hnext h.context?
  have hmoved := Session.cursor?_withMoved_self hk (.past id name sequence items (count + 1))
  have hbound : ((s.withMoved cursor (.past id name sequence items (count + 1))).setLocal id name
      items[count]).world.context? id = some (c.after (.boundLocal name items[count])) :=
    Session.context?_modify_self h.context? rfl
  refine ⟨_, _, hadvance, ⟨hbound, ⟨sequence, hmoved⟩, h.registered, ?_, fun x hx => ?_⟩, ?_⟩
  · exact (Context.isStack_unwound.others c _ trivial (by simp) (by simp)).trans h.unwound
  · exact ((Context.isStack_valuesBelow x).others c _ (by simp) (by simp) (by simp)).trans
      (h.values x hx)
  · exact (Scopes.get?_bindLocal _ _ _ _).trans (if_pos rfl)

/-- A body in a scope of its own leaves the loop where it is. -/
theorem enclosed_run {body : List Operation}
    (h : Looping before kept id name cursor items count s c) (hbody : Balanced id body)
    (hcursor : .advance cursor ∉ body)
    (hkept : ∀ x, kept x → ∀ value, .setGlobal id x value ∉ body)
    (hrun : s.run (enclosed id body) = some s') :
    ∃ c', Looping before kept id name cursor items count s' c' := by
  obtain ⟨c', hc', hregistry, hunwound⟩ := hbody.enclosed_run h.context? hrun
  obtain ⟨sequence, hk⟩ := h.cursor?
  have hcursor' : .advance cursor ∉ enclosed id body := by simpa [enclosed] using hcursor
  refine ⟨c', hc', ⟨sequence, Session.cursor?_run hrun hk hcursor'⟩, ?_, ?_, fun x hx => ?_⟩
  · exact hregistry ▸ h.registered
  · exact hunwound.trans h.unwound
  · have hallowed : ∀ o ∈ enclosed id body, ∀ s value,
        Operation.change s id o ≠ .boundGlobal x value := by
      intro o ho s
      refine Operation.change_ne_boundGlobal fun value e => hkept x hx value ?_
      simpa [enclosed, e] using ho
    obtain ⟨c₂, hc₂, hvalues⟩ :=
      hbody.enclosed.view_eq (Context.isStack_valuesBelow x) hallowed h.context? hrun
    cases hc'.symm.trans hc₂
    exact hvalues.trans (h.values x hx)

/-- The next pass finds the next item. -/
theorem atPass {i : Nat} (h : Looping before kept id name cursor items (i + 1) s c)
    (hi : i < items.length) (hvalue : c.scopes.get? name = some items[i]) :
    AtPass id name cursor items i s := by
  obtain ⟨sequence, hk⟩ := h.cursor?
  have hquery : ∀ q, s.query cursor q =
      (Cursor.past id name sequence items (i + 1)).ask s.live q := by
    intro q
    rw [Session.query, hk]
  refine ⟨⟨items[i], List.getElem?_eq_getElem hi, ?_, ?_⟩, ?_, ?_, ?_, ?_, ?_⟩
  · exact (Session.get?_eq h.context? name).trans hvalue
  · exact (hquery .item).trans (Cursor.ask_item_past id name sequence hi)
  · rw [Session.registry_eq h.context?]
    exact h.registered (List.ne_nil_of_length_pos (Nat.zero_lt_of_lt hi))
  · exact (hquery .index).trans (Cursor.ask_index_past id name sequence hi)
  · exact (hquery .number).trans (Cursor.ask_number_past id name sequence hi)
  · rw [hquery, Cursor.ask_start_past id name sequence hi]
    simp
  · rw [hquery, Cursor.ask_end_past id name sequence hi]
    simp

/-- As long as a loop goes on, every pass finds its item. -/
theorem passes {passes : List (Session × List Operation)}
    (h : Looping before kept id name cursor items count s c)
    (hpasses : Passes id cursor s passes s') (hcount : count ≤ items.length)
    (hkept : ∀ x, kept x → ∀ p ∈ passes, ∀ value, .setGlobal id x value ∉ p.2) :
    (∃ c', Looping before kept id name cursor items (count + passes.length) s' c') ∧
      count + passes.length ≤ items.length ∧
      ∀ i p, passes[i]? = some p → AtPass id name cursor items (count + i) p.1 := by
  induction hpasses generalizing count c with
  | nil s => exact ⟨⟨c, h⟩, hcount, by simp⟩
  | @cons s t u s' body passes hadvance hbody hcursor hrun _ ih =>
    -- the cursor has moved, so there was an item ahead
    have hlt : count < items.length := by
      refine Nat.lt_of_not_le fun hle => ?_
      rw [h.advance_eq_false hle] at hadvance
      cases hadvance
    obtain ⟨t', ct, hadvance', ht, hvalue⟩ := h.advance_eq_true hlt
    cases hadvance.symm.trans hadvance'
    obtain ⟨cu, hu⟩ := ht.enclosed_run hbody hcursor
      (fun x hx => hkept x hx (t, body) List.mem_cons_self) hrun
    obtain ⟨⟨c', hend⟩, hle, hat⟩ :=
      ih hu hlt fun x hx p hp => hkept x hx p (List.mem_cons_of_mem _ hp)
    rw [List.length_cons]
    have hsum : count + 1 + passes.length = count + (passes.length + 1) := by omega
    refine ⟨⟨c', hsum ▸ hend⟩, hsum ▸ hle, fun i p hp => ?_⟩
    cases i with
    | zero =>
      cases hp
      exact ht.atPass hlt hvalue
    | succ i =>
      have hshift : count + 1 + i = count + (i + 1) := by omega
      exact hshift ▸ hat i p hp

/-- Closing the scope of a loop brings back what was there before it. -/
theorem endScope (h : Looping before kept id name cursor items count s c) :
    ∃ t ct, s.endScope id = .ok t ∧ t.world.context? id = some ct ∧
      ct.registry = before.registry ∧ ct.scopes.depth = before.scopes.depth ∧
      ∀ x, kept x → ct.scopes.get? x = before.scopes.get? x := by
  have hdepth : c.scopes.depth = before.scopes.depth + 1 := by
    rw [← Context.length_unwound, h.unwound, List.length_cons, Context.length_unwound]
  obtain ⟨t, ht⟩ := Session.endScope_eq_ok h.context? (by omega)
  have hct := Session.context?_endScope (i := id) h.context?
  rw [ht, if_pos rfl] at hct
  refine ⟨t, _, ht, hct, ?_, ?_, fun x hx => ?_⟩
  · rw [Context.registry_after_closed, h.unwound]
    rfl
  · rw [← Context.length_unwound, Context.unwound_after_closed, h.unwound, List.tail_cons,
      Context.length_unwound]
  · rw [Context.get?_after_closed, h.values x hx]
    rfl

end Looping

/-- A driver opens a scope, sets up a repeat over a sequence with items, runs a body in a scope of
its own as long as the cursor moves, and closes the scope. Whatever the bodies do, balanced and
without moving the cursor: there is one pass for each item, the pass of index `i` finds the item of
index `i` under the name, and the cursor of this loop under it in the registry; and after the loop
the registry, the number of open scopes and every variable that no body binds globally are as they
were before. -/
theorem repeat_visits_each_item_once {s t : Session} {id : ContextId} {c : Context}
    {source : Source} {v : Value} {items : List Value} (name : Text)
    (hc : s.world.context? id = some c)
    (hv : (s.beginScope id).evaluate id source = some (.ok v, t)) (hitems : v.Items items) :
    ∃ cursor s₀, (s.beginScope id).setRepeat id name source = some (.ok cursor, s₀) ∧
      ∀ passes s₁, Passes id cursor s₀ passes s₁ →
        passes.length ≤ items.length ∧
        ((∃ s₂, s₁.advance cursor = .ok (true, s₂)) ↔ passes.length < items.length) ∧
        (s₁.advance cursor = .ok (false, s₁) ↔ passes.length = items.length) ∧
        (∀ i p, passes[i]? = some p → AtPass id name cursor items i p.1) ∧
        ∃ s₂ c₂, s₁.endScope id = .ok s₂ ∧ s₂.world.context? id = some c₂ ∧
          c₂.registry = c.registry ∧ c₂.scopes.depth = c.scopes.depth ∧
          ∀ x, (∀ p ∈ passes, ∀ value, .setGlobal id x value ∉ p.2) →
            c₂.scopes.get? x = c.scopes.get? x := by
  obtain ⟨cursor, s₀, c₀, hset, hstart⟩ := Looping.start name hc hv hitems
  refine ⟨cursor, s₀, hset, fun passes s₁ hpasses => ?_⟩
  obtain ⟨⟨c₁, hend⟩, hle, hat⟩ := (hstart fun x => ∀ p ∈ passes, ∀ value,
    .setGlobal id x value ∉ p.2).passes hpasses (Nat.zero_le _) fun x hx => hx
  simp only [Nat.zero_add] at hend hle hat
  have hmore : (∃ s₂, s₁.advance cursor = .ok (true, s₂)) ↔ passes.length < items.length := by
    refine ⟨fun ⟨s₂, h₂⟩ => Nat.lt_of_not_le fun hge => ?_, fun hlt => ?_⟩
    · rw [hend.advance_eq_false hge] at h₂
      cases h₂
    · obtain ⟨s₂, -, h₂, -⟩ := hend.advance_eq_true hlt
      exact ⟨s₂, h₂⟩
  have hdone : s₁.advance cursor = .ok (false, s₁) ↔ passes.length = items.length := by
    refine ⟨fun h => ?_, fun h => hend.advance_eq_false (Nat.le_of_eq h.symm)⟩
    have hnot : ¬passes.length < items.length := fun hlt => by
      obtain ⟨s₂, h₂⟩ := hmore.2 hlt
      cases h.symm.trans h₂
    omega
  exact ⟨hle, hmore, hdone, hat, hend.endScope⟩

/-- A loop of the same name inside a loop, which is left after the first of its items. -/
def innerLoop (cursor : CursorId) : List Operation :=
  [.setRepeat 0 ['x'] (.text ['l']), .advance cursor]

theorem balanced_innerLoop (cursor : CursorId) : Balanced 0 (innerLoop cursor) :=
  .cons ⟨by simp, by simp, by simp⟩ (.cons ⟨by simp, by simp, by simp⟩ .nil)

theorem repeat_over_two_items :
    ∃ cursor s₀ passes s₁ s₂ c₂,
      ((Session.ofRoots [(['l'], .list [.int 1, .int 2])]).beginScope 0).setRepeat 0 ['x']
        (.text ['l']) = some (.ok cursor, s₀) ∧
      Passes 0 cursor s₀ passes s₁ ∧ passes.map Prod.snd = [innerLoop 1, innerLoop 2] ∧
      s₁.advance cursor = .ok (false, s₁) ∧ s₁.endScope 0 = .ok s₂ ∧
      s₂.world.context? 0 = some c₂ ∧ c₂.registry = [] ∧ c₂.scopes.depth = 0 := by
  obtain ⟨cursor, s₀, hset, hloop⟩ := @repeat_visits_each_item_once
    (Session.ofRoots [(['l'], .list [.int 1, .int 2])]) _ 0 _ (.text ['l']) _ _ ['x'] rfl rfl
    (.list [.int 1, .int 2])
  have hfirst : (((Session.ofRoots [(['l'], .list [.int 1, .int 2])]).beginScope 0).setRepeat 0
      ['x'] (.text ['l'])).map (fun r => r.1.toOption) = some (some 0) := by decide +kernel
  have hends : (((Session.ofRoots [(['l'], .list [.int 1, .int 2])]).beginScope 0).run
      (.setRepeat 0 ['x'] (.text ['l']) :: .advance 0 :: enclosed 0 (innerLoop 1) ++
        .advance 0 :: enclosed 0 (innerLoop 2))).isSome = true := by decide +kernel
  obtain ⟨s₁, hrun⟩ := Option.isSome_iff_exists.1 hends
  rw [hset] at hfirst
  cases hfirst
  obtain ⟨t₀, ht₀, hrun⟩ := Session.run_cons hrun
  rw [Session.apply, hset] at ht₀
  cases ht₀
  -- the first pass
  obtain ⟨-, hmore, -⟩ := hloop [] s₀ (.nil s₀)
  obtain ⟨t₁, ht₁⟩ := hmore.2 Nat.two_pos
  obtain ⟨t, ht, hrun⟩ := Session.run_cons hrun
  rw [Session.apply, ht₁] at ht
  cases ht
  obtain ⟨u₁, hu₁, hrun⟩ := Session.run_append hrun
  have hpass : Passes 0 0 s₀ [(t₁, innerLoop 1)] u₁ :=
    .cons ht₁ (balanced_innerLoop 1) (by simp [innerLoop]) hu₁ (.nil u₁)
  -- the second pass
  obtain ⟨-, hmore, -⟩ := hloop _ u₁ hpass
  obtain ⟨t₂, ht₂⟩ := hmore.2 Nat.one_lt_two
  obtain ⟨t, ht, hrun⟩ := Session.run_cons hrun
  rw [Session.apply, ht₂] at ht
  cases ht
  have hpasses : Passes 0 0 s₀ [(t₁, innerLoop 1), (t₂, innerLoop 2)] s₁ :=
    .cons ht₁ (balanced_innerLoop 1) (by simp [innerLoop]) hu₁
      (.cons ht₂ (balanced_innerLoop 2) (by simp [innerLoop]) hrun (.nil s₁))
  obtain ⟨-, -, hdone, -, s₂, c₂, hend, hc₂, hregistry, hdepth, -⟩ := hloop _ s₁ hpasses
  exact ⟨0, s₀, _, s₁, s₂, c₂, hset, hpasses, rfl, hdone.2 rfl, hend, hc₂, hregistry, hdepth⟩

end TemplateExpressions
