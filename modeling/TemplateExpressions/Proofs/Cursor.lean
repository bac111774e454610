import TemplateExpressions.Cursor

/-!
# Cursors by how far they have gone

Everything about a cursor over known items follows from the number of those it has gone past
(`Cursor.past`): where it moves (`next?_past`) and what it answers about its position.
-/

set_option autoImplicit false

namespace TemplateExpressions.Cursor

/-- The cursor that has gone past `count` of its items. -/
def past (context : ContextId) (name : Text) (sequence : Value) (items : List Value)
    (count : Nat) : Cursor :=
  ⟨name, sequence, (items.take count).reverse, items.drop count, context⟩

variable {live : Live} {items : List Value} {count : Nat}
  (context : ContextId) (name : Text) (sequence : Value)

theorem ofSequence_eq_past {sequence : Value} (h : sequence.elements live = .ok items) :
    ofSequence live context name sequence = .ok (past context name sequence items 0) := by
  rw [ofSequence, h]
  rfl

theorem empty_eq_past : empty context name = past context name (.list []) [] 0 := rfl

/-- The item just gone past is the first of those behind. -/
theorem behind_past (h : count < items.length) :
    (past context name sequence items (count + 1)).behind =
      items[count] :: (past context name sequence items count).behind := by
  unfold past
  rw [List.take_succ_eq_append_getElem h, List.reverse_append]
  rfl

theorem length_behind_past (h : count ≤ items.length) :
    (past context name sequence items count).behind.length = count := by
  simp [past, h]

/-- A cursor with items ahead moves to the next one. -/
theorem next?_past (h : count < items.length) :
    (past context name sequence items count).next? =
      some (items[count], past context name sequence items (count + 1)) := by
  have hahead : (past context name sequence items count).ahead =
      items[count] :: (past context name sequence items (count + 1)).ahead :=
    List.drop_eq_getElem_cons h
  rw [next?, hahead]
  simp only
  rw [← behind_past context name sequence h]
  rfl

/-- A cursor that has gone past all items does not move. -/
theorem next?_past_eq_none (h : items.length ≤ count) :
    (past context name sequence items count).next? = none := by
  have hahead : (past context name sequence items count).ahead = [] := List.drop_eq_nil_of_le h
  rw [next?, hahead]

theorem position_past (h : count < items.length) :
    (past context name sequence items (count + 1)).position = .ok (count + 1) := by
  have hbehind := behind_past context name sequence h
  have hlength := length_behind_past context name sequence (Nat.succ_le_of_lt h)
  rw [position, hlength, hbehind]
  rfl

theorem ask_index_past (h : count < items.length) :
    (past context name sequence items (count + 1)).ask live .index = .ok (.number count) := by
  rw [ask, position_past context name sequence h]
  rfl

theorem ask_number_past (h : count < items.length) :
    (past context name sequence items (count + 1)).ask live .number = .ok (.number (count + 1)) := by
  rw [ask, position_past context name sequence h]
  rfl

theorem ask_even_past (h : count < items.length) :
    (past context name sequence items (count + 1)).ask live .even =
      .ok (.flag (count % 2 == 0)) := by
  rw [ask, position_past context name sequence h]
  rfl

theorem ask_odd_past (h : count < items.length) :
    (past context name sequence items (count + 1)).ask live .odd =
      .ok (.flag (count % 2 == 1)) := by
  rw [ask, position_past context name sequence h]
  rfl

/-- The parity is that of the position counted from one. -/
theorem ask_parity_past (h : count < items.length) :
    (past context name sequence items (count + 1)).ask live .parity =
      .ok (.word (if (count + 1) % 2 = 1 then "odd".toList else "even".toList)) := by
  rw [ask, position_past context name sequence h]
  rfl

/-- In front of the first item there is nothing to say about a position. -/
theorem ask_past_zero {q : Query} (hstart : q ≠ .start) (hend : q ≠ .end) (hlength : q ≠ .length) :
    (past context name sequence items 0).ask live q = .error .noPosition := by
  cases q with
  | start => exact absurd rfl hstart
  | «end» => exact absurd rfl hend
  | length => exact absurd rfl hlength
  | _ => rfl

theorem ask_item_past (h : count < items.length) :
    (past context name sequence items (count + 1)).ask live .item = .ok (.item items[count]) := by
  rw [ask, behind_past context name sequence h]

theorem ask_start_past (h : count ≤ items.length) :
    (past context name sequence items count).ask live .start = .ok (.flag (count == 1)) := by
  rw [ask, length_behind_past context name sequence h]

theorem ask_end_past (h : count ≤ items.length) :
    (past context name sequence items count).ask live .end =
      .ok (.flag (count != 0 && count == items.length)) := by
  have hbehind : (past context name sequence items count).behind.isEmpty = (count == 0) := by
    rw [Bool.eq_iff_iff, List.isEmpty_iff, ← List.length_eq_zero_iff,
      length_behind_past context name sequence h, beq_iff_eq]
  have hahead : (past context name sequence items count).ahead.isEmpty =
      (count == items.length) := by
    have hdrop : items.drop count = [] ↔ count = items.length := by
      rw [List.drop_eq_nil_iff]
      omega
    rw [Bool.eq_iff_iff, List.isEmpty_iff, beq_iff_eq]
    exact hdrop
  rw [ask, hbehind, hahead]
  rfl

/-- An answer about the position says that there is one. -/
theorem exists_position {c : Cursor} {about : Nat → Answer} {answer : Answer}
    (h : c.position.map about = .ok answer) : ∃ n, c.position = .ok n ∧ about n = answer := by
  cases hposition : c.position with
  | error e =>
    rw [hposition] at h
    cases h
  | ok n =>
    rw [hposition] at h
    cases h
    exact ⟨n, rfl, rfl⟩

/-- The only value that a cursor answers with is its current element. -/
theorem mem_behind_of_ask {c : Cursor} {live : Live} {query : Query} {v : Value}
    (h : c.ask live query = .ok (.item v)) : v ∈ c.behind := by
  cases query with
  | item =>
    simp only [ask] at h
    split at h
    · cases h
    · rename_i hbehind
      cases h
      rw [hbehind]
      exact List.mem_cons_self
  | length =>
    simp only [ask] at h
    split at h
    · cases h
    · cases h
  | start => cases h
  | «end» => cases h
  | _ =>
    obtain ⟨n, -, hanswer⟩ := exists_position h
    cases hanswer

end TemplateExpressions.Cursor
