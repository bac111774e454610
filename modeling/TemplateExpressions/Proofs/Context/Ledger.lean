import Mathlib.Data.List.Find
import Mathlib.Data.List.Infix
import TemplateExpressions.Proofs.Context.Change

/-!
# The last visible write

A ledger follows the changes of a context without any frame: it numbers the scopes in the order of
their opening, knows which are open, and enters every binding once, with the scope that was innermost
then. Main statement: every frame of the context holds, name by name, the last entry that is visible
from it (`Ledger.Fits.foldl`), so the value of a variable is that of the last visible write.
-/

set_option autoImplicit false

namespace TemplateExpressions

/-- Where a binding was made. -/
inductive Reach where
  /-- In every frame. -/
  | everywhere
  /-- With no scope open. -/
  | atRoot
  /-- With the scope of this number innermost. -/
  | inScope (number : Nat)

/-- Whether a binding is in force while the scopes of the given numbers are open. -/
def Reach.isVisible (opened : List Nat) : Reach → Bool
  | .everywhere | .atRoot => true
  | .inScope number => number ∈ opened

/-- A binding as the ledger enters it. -/
structure Write where
  name : Text
  value : Value
  reach : Reach

/-- The changes of a context as far as they concern its variables. -/
structure Ledger where
  /-- How many scopes have been opened so far. -/
  count : Nat
  /-- The numbers of the open scopes, the innermost first. -/
  opened : List Nat
  /-- All bindings, the latest first. -/
  writes : List Write

namespace Ledger

/-- A ledger without entries. -/
def blank : Ledger := ⟨0, [], []⟩

/-- Where a local binding is made. -/
def innermost (l : Ledger) : Reach :=
  match l.opened with
  | [] => .atRoot
  | number :: _ => .inScope number

/-- Enters a binding. -/
def enter (l : Ledger) (w : Write) : Ledger := { l with writes := w :: l.writes }

/-- Follows a change. -/
def follow (l : Ledger) : Change → Ledger
  | .opened => { l with count := l.count + 1, opened := l.count :: l.opened }
  | .closed => { l with opened := l.opened.tail }
  | .boundLocal name value => l.enter ⟨name, value, l.innermost⟩
  | .boundGlobal name value => l.enter ⟨name, value, .everywhere⟩
  | _ => l

/-- What a name stands for while the given scopes are open: the value of the last binding that is in
force then, or else what the root frame began with. -/
def seen (root : Mapping Value) (writes : List Write) (opened : List Nat) (name : Text) :
    Option Value :=
  ((writes.find? fun w => w.name = name && w.reach.isVisible opened).map Write.value).or
    (root.get? name)

/-- What a name stands for now. -/
def lastVisible? (l : Ledger) (root : Mapping Value) (name : Text) : Option Value :=
  seen root l.writes l.opened name

theorem seen_cons_write (root : Mapping Value) (w : Write) (writes : List Write)
    (opened : List Nat) (name : Text) :
    seen root (w :: writes) opened name =
      if w.name = name ∧ w.reach.isVisible opened then some w.value
      else seen root writes opened name := by
  unfold seen
  rw [List.find?_cons]
  by_cases hn : w.name = name <;> by_cases hv : w.reach.isVisible opened <;> simp [hn, hv]

/-- A scope in which nothing has been bound shows nothing new. -/
theorem seen_cons_opened (root : Mapping Value) {writes : List Write} {number : Nat}
    (opened : List Nat) (name : Text) (h : ∀ w ∈ writes, w.reach ≠ .inScope number) :
    seen root writes (number :: opened) name = seen root writes opened name := by
  unfold seen
  congr 2
  refine List.find?_congr fun w hw => ?_
  congr 1
  have hne := h w hw
  cases hr : w.reach with
  | everywhere => rfl
  | atRoot => rfl
  | inScope n =>
    have hn : n ≠ number := fun e => hne (by rw [hr, e])
    simp [Reach.isVisible, hn]

variable {l : Ledger} {root : Mapping Value}

theorem innermost_isVisible (l : Ledger) : l.innermost.isVisible l.opened = true := by
  unfold innermost
  split
  · rfl
  · rename_i number opened ho
    simp [Reach.isVisible, ho]

/-- A local binding is not seen from the frames below. -/
theorem innermost_isVisible_below (h : l.opened.Nodup) {opened : List Nat}
    (ho : opened ∈ l.opened.tails.tail) : l.innermost.isVisible opened = false := by
  unfold innermost
  split
  · rename_i hnil
    simp [hnil] at ho
  · rename_i number outer hcons
    rw [hcons, List.tails_cons, List.tail_cons, List.mem_tails] at ho
    have hnew : number ∉ outer := (List.nodup_cons.1 (hcons ▸ h)).1
    simp only [Reach.isVisible, decide_eq_false_iff_not]
    exact fun hm => hnew (ho.subset hm)

/-- A ledger fits scopes if its numbers are in order and every frame shows the last binding that is
visible from it. -/
structure Fits (root : Mapping Value) (l : Ledger) (s : Scopes Value CursorId) : Prop where
  lt_count_of_opened : ∀ number ∈ l.opened, number < l.count
  opened_nodup : l.opened.Nodup
  lt_count_of_writes : ∀ w ∈ l.writes, ∀ number, w.reach = .inScope number → number < l.count
  frames : ∀ name, (s.frames.map fun f => f.get? name) =
    l.opened.tails.map fun opened => seen root l.writes opened name

theorem tails_eq_cons (opened : List Nat) : opened.tails = opened :: opened.tails.tail := by
  cases opened <;> rfl

namespace Fits

variable {s : Scopes Value CursorId}

/-- The frame in force and the frames below it. -/
theorem frames_cons (h : l.Fits root s) (name : Text) :
    s.current.get? name = seen root l.writes l.opened name ∧
      (s.frames.tail.map fun f => f.get? name) =
        l.opened.tails.tail.map fun opened => seen root l.writes opened name := by
  have hf := h.frames name
  rw [s.frames_eq_cons, tails_eq_cons, List.map_cons, List.map_cons] at hf
  exact List.cons_eq_cons.1 hf

/-- The frame in force shows the last visible binding. -/
theorem get?_eq (h : l.Fits root s) (name : Text) : s.get? name = l.lastVisible? root name :=
  (h.frames_cons name).1

/-- The ledger knows how many scopes are open. -/
theorem depth_eq (h : l.Fits root s) : s.depth = l.opened.length := by
  have hf := congrArg List.length (h.frames [])
  simp only [List.length_map, List.length_tails, s.length_frames, s.length_undoLists] at hf
  omega

/-- Before any change only the root frame is there. -/
theorem blank_ofRoot (root : Mapping Value) : blank.Fits root (Scopes.ofRoot root) where
  lt_count_of_opened := by simp [blank]
  opened_nodup := by simp [blank]
  lt_count_of_writes := by simp [blank]
  frames := by simp [blank, seen, Scopes.frames_ofRoot]

/-- A change that is no matter of variables. -/
theorem of_frames_eq (h : l.Fits root s) {s' : Scopes Value CursorId}
    (hf : s'.frames = s.frames) : l.Fits root s' :=
  { h with frames := fun name => by rw [hf]; exact h.frames name }

theorem opened (h : l.Fits root s) : (l.follow .opened).Fits root s.push where
  lt_count_of_opened := by
    intro number hn
    rcases List.mem_cons.1 hn with rfl | hn
    · exact Nat.lt_succ_self _
    · exact Nat.lt_succ_of_lt (h.lt_count_of_opened number hn)
  opened_nodup := by
    refine List.nodup_cons.2 ⟨fun hc => ?_, h.opened_nodup⟩
    exact Nat.lt_irrefl _ (h.lt_count_of_opened _ hc)
  lt_count_of_writes := fun w hw number hr =>
    Nat.lt_succ_of_lt (h.lt_count_of_writes w hw number hr)
  frames := by
    intro name
    have hnew : ∀ w ∈ l.writes, w.reach ≠ .inScope l.count := fun w hw hr =>
      Nat.lt_irrefl _ (h.lt_count_of_writes w hw l.count hr)
    simp only [Scopes.frames_push, follow, List.map_cons, List.tails_cons]
    rw [h.frames name, seen_cons_opened root l.opened name hnew, (h.frames_cons name).1]

theorem closed (h : l.Fits root s) {scope : Scope Value CursorId}
    {outer : List (Scope Value CursorId)} (hs : s.inner = scope :: outer) :
    (l.follow .closed).Fits root { s with inner := outer } where
  lt_count_of_opened := fun number hn => h.lt_count_of_opened number (List.mem_of_mem_tail hn)
  opened_nodup := h.opened_nodup.sublist (List.tail_sublist _)
  lt_count_of_writes := h.lt_count_of_writes
  frames := by
    intro name
    have hd := h.depth_eq
    rw [Scopes.depth, hs] at hd
    have htail : l.opened.tail.tails = l.opened.tails.tail := by
      cases ho : l.opened with
      | nil => simp [ho] at hd
      | cons number opened => rfl
    have hbelow := (h.frames_cons name).2
    simp only [Scopes.frames, hs, List.map_cons, List.cons_append, List.tail_cons] at hbelow
    simpa only [follow, Scopes.frames, htail] using hbelow

theorem boundLocal (h : l.Fits root s) (name : Text) (value : Value) :
    (l.follow (.boundLocal name value)).Fits root (s.bindLocal name value) where
  lt_count_of_opened := h.lt_count_of_opened
  opened_nodup := h.opened_nodup
  lt_count_of_writes := by
    intro w hw number hr
    rcases List.mem_cons.1 hw with rfl | hw
    · cases ho : l.opened with
      | nil => simp [innermost, ho] at hr
      | cons n opened =>
        simp only [innermost, ho, Reach.inScope.injEq] at hr
        exact hr ▸ h.lt_count_of_opened n (by simp [ho])
    · exact h.lt_count_of_writes w hw number hr
  frames := by
    intro other
    obtain ⟨htop, hbelow⟩ := h.frames_cons other
    simp only [Scopes.frames_bindLocal, follow, enter]
    rw [tails_eq_cons, List.map_cons, List.map_cons]
    refine List.cons_eq_cons.2 ⟨?_, hbelow.trans (List.map_congr_left fun opened ho => ?_)⟩
    · rw [Mapping.get?_put, seen_cons_write, htop]
      simp [innermost_isVisible, eq_comm]
    · rw [seen_cons_write, innermost_isVisible_below h.opened_nodup ho]
      simp

theorem boundGlobal (h : l.Fits root s) (name : Text) (value : Value) :
    (l.follow (.boundGlobal name value)).Fits root (s.bindGlobal name value) where
  lt_count_of_opened := h.lt_count_of_opened
  opened_nodup := h.opened_nodup
  lt_count_of_writes := by
    intro w hw number hr
    rcases List.mem_cons.1 hw with rfl | hw
    · cases hr
    · exact h.lt_count_of_writes w hw number hr
  frames := by
    intro other
    have hf := congrArg (List.map fun old => if other = name then some value else old)
      (h.frames other)
    simp only [List.map_map, Function.comp_def] at hf
    simp only [Scopes.frames_bindGlobal, follow, enter, List.map_map, Function.comp_def,
      Mapping.get?_put, seen_cons_write, Reach.isVisible, and_true]
    simpa only [eq_comm] using hf

/-- A change of a context keeps the ledger that follows it fitting. -/
theorem follow {c : Context} (h : l.Fits root c.scopes) (change : Change) :
    (l.follow change).Fits root (c.after change).scopes := by
  cases change with
  | nothing => exact h
  | opened => exact h.opened
  | closed =>
    cases hs : c.scopes.inner with
    | nil =>
      have hd := h.depth_eq
      simp only [Scopes.depth, hs, List.length_nil] at hd
      have ho : l.opened = [] := List.eq_nil_of_length_eq_zero hd.symm
      rw [Context.after_closed_of_inner_eq_nil hs]
      simpa only [Ledger.follow, ho, List.tail_nil] using ho ▸ h
    | cons scope outer =>
      rw [Context.after_closed_of_inner_eq_cons hs]
      exact h.closed hs
  | boundLocal name value => exact h.boundLocal name value
  | boundGlobal name value => exact h.boundGlobal name value
  | installed name cursor => exact h.of_frames_eq (c.frames_after_installed name cursor)
  | moved position => exact h
  | filed file => exact h

/-- However a context changes, a ledger that fits it at first and follows the changes fits it. -/
theorem foldl {c : Context} (h : l.Fits root c.scopes) (changes : List Change) :
    (changes.foldl Ledger.follow l).Fits root (changes.foldl Context.after c).scopes := by
  induction changes generalizing l c with
  | nil => exact h
  | cons change changes ih => exact ih (h.follow change)

end Fits
end Ledger
end TemplateExpressions
