import Mathlib.Data.List.Induction
import Mathlib.Data.List.Shortlex
import TemplateExpressions.Proofs.Cursor

/-!
# Letter numerals

The letters `a` to `z` are the digits one to twenty-six of a numeral system without a zero. A number is one more
than a multiple of 26 and a digit (`bijective_succ`), so reading and writing numerals are inverse to each other
(`lettersValue_bijective`, `bijective_lettersValue`). Of two numbers the greater one has the greater numeral,
longer numerals coming after shorter ones: it has the greater quotient or, of equal quotients, the greater last
digit (`shortlex_bijective`). Main statement: `letters_number_indices`.
-/

set_option autoImplicit false

namespace TemplateExpressions.Number

/-! ## Digits -/

/-- The value of a letter as a digit, one for `a` to twenty-six for `z`. -/
def letterValue (c : Char) : Nat := c.toNat - 'a'.toNat + 1

/-- The value of a row of letters as a numeral in base 26 without a zero, the first letter counting most. -/
def lettersValue (t : Text) : Nat := t.foldl (fun n c => 26 * n + letterValue c) 0

/-- At least one of the letters `a` to `z`, and nothing else. -/
def IsLetters (t : Text) : Prop := t ≠ [] ∧ ∀ c ∈ t, 'a' ≤ c ∧ c ≤ 'z'

theorem letterValue_digit : ∀ k < 26, letterValue (Char.ofNat ('a'.toNat + k)) = k + 1 := by decide

theorem isLetter_digit :
    ∀ k < 26, 'a' ≤ Char.ofNat ('a'.toNat + k) ∧ Char.ofNat ('a'.toNat + k) ≤ 'z' := by decide

theorem toUpper_digit : ∀ k < 26, (Char.ofNat ('a'.toNat + k)).toUpper = Char.ofNat ('A'.toNat + k) := by decide

theorem isUpperLetter_digit :
    ∀ k < 26, 'A' ≤ Char.ofNat ('A'.toNat + k) ∧ Char.ofNat ('A'.toNat + k) ≤ 'Z' := by decide

theorem digit_lt_digit :
    ∀ k < 26, ∀ j < k, Char.ofNat ('a'.toNat + j) < Char.ofNat ('a'.toNat + k) := by decide

theorem exists_digit {c : Char} (h : 'a' ≤ c ∧ c ≤ 'z') : ∃ k < 26, c = Char.ofNat ('a'.toNat + k) := by
  have hlow : 'a'.toNat ≤ c.toNat := h.1
  have hhigh : c.toNat ≤ 'z'.toNat := h.2
  refine ⟨c.toNat - 'a'.toNat, ?_, ?_⟩
  · have hspan : 'z'.toNat = 'a'.toNat + 25 := by decide
    omega
  · rw [Nat.add_sub_cancel' hlow, Char.ofNat_toNat]

/-! ## Numerals -/

@[simp] theorem bijective_zero (first : Char) : bijective first 0 = [] := by rw [bijective]

theorem bijective_succ (first : Char) {n k : Nat} (hk : k < 26) :
    bijective first (26 * n + k + 1) = bijective first n ++ [Char.ofNat (first.toNat + k)] := by
  rw [bijective, show (26 * n + k) / 26 = n by omega, show (26 * n + k) % 26 = k by omega]

/-- A number is zero, or it has a last digit and fewer of the next higher ones. -/
theorem digitInduction {motive : Nat → Prop} (zero : motive 0)
    (digit : ∀ n k, k < 26 → motive n → motive (26 * n + k + 1)) (n : Nat) : motive n := by
  induction n using Nat.strongRecOn with
  | ind n ih =>
    cases n with
    | zero => exact zero
    | succ n =>
      have hstep := digit (n / 26) (n % 26) (Nat.mod_lt n (by decide)) (ih (n / 26) (by omega))
      rwa [Nat.div_add_mod] at hstep

theorem lettersValue_concat (t : Text) (c : Char) : lettersValue (t ++ [c]) = 26 * lettersValue t + letterValue c := by
  simp [lettersValue]

/-- The numeral of a number has its value. -/
theorem lettersValue_bijective (n : Nat) : lettersValue (bijective 'a' n) = n := by
  induction n using digitInduction with
  | zero => simp [lettersValue]
  | digit n k hk ih => rw [bijective_succ 'a' hk, lettersValue_concat, ih, letterValue_digit k hk, Nat.add_assoc]

/-- Letters are the numeral of their value. -/
theorem bijective_lettersValue {t : Text} (ht : ∀ c ∈ t, 'a' ≤ c ∧ c ≤ 'z') : bijective 'a' (lettersValue t) = t := by
  induction t using List.reverseRecOn with
  | nil => simp [lettersValue]
  | append_singleton t c ih =>
    rw [List.forall_mem_append, List.forall_mem_singleton] at ht
    obtain ⟨k, hk, rfl⟩ := exists_digit ht.2
    rw [lettersValue_concat, letterValue_digit k hk, ← Nat.add_assoc, bijective_succ 'a' hk, ih ht.1]

/-- A numeral is made of the 26 characters from the first digit on. -/
theorem forall_mem_bijective {first : Char} {P : Char → Prop} (h : ∀ k < 26, P (Char.ofNat (first.toNat + k)))
    (n : Nat) : ∀ c ∈ bijective first n, P c := by
  induction n using digitInduction with
  | zero => simp
  | digit n k hk ih =>
    rw [bijective_succ first hk, List.forall_mem_append, List.forall_mem_singleton]
    exact ⟨ih, h k hk⟩

theorem upper_bijective (n : Nat) : Text.upper (bijective 'a' n) = bijective 'A' n := by
  induction n using digitInduction with
  | zero => simp [Text.upper]
  | digit n k hk ih =>
    rw [Text.upper] at ih
    rw [Text.upper, bijective_succ 'a' hk, bijective_succ 'A' hk, List.map_append, ih, List.map_singleton,
      toUpper_digit k hk]

/-! ## The order of numerals -/

theorem lex_append {s t : Text} (h : List.Lex (· < ·) s t) (hlength : s.length = t.length) (s' t' : Text) :
    List.Lex (· < ·) (s ++ s') (t ++ t') := by
  induction h with
  | nil => cases hlength
  | cons _ ih => exact .cons (ih (Nat.succ.inj hlength))
  | rel hlt => exact .rel hlt

theorem shortlex_concat {s t : Text} (h : List.Shortlex (· < ·) s t) (c d : Char) :
    List.Shortlex (· < ·) (s ++ [c]) (t ++ [d]) := by
  rcases List.shortlex_def.1 h with hlength | ⟨hlength, hlex⟩
  · exact .of_length_lt (by simpa using hlength)
  · exact .of_lex (by simpa using hlength) (lex_append hlex hlength [c] [d])

theorem shortlex_bijective {i j : Nat} (h : i < j) :
    List.Shortlex (· < ·) (bijective 'a' i) (bijective 'a' j) := by
  induction j using digitInduction generalizing i with
  | zero => cases h
  | digit n k hk ih =>
    rw [bijective_succ 'a' hk]
    cases i using digitInduction with
    | zero => exact .of_length_lt (by simp)
    | digit m j hj =>
      rw [bijective_succ 'a' hj]
      rcases Nat.lt_or_ge m n with hlt | hge
      · exact shortlex_concat (ih hlt) _ _
      · obtain ⟨rfl, hdigit⟩ : m = n ∧ j < k := by omega
        exact .append_left ((List.shortlex_singleton_iff _ _).2 (digit_lt_digit k hk j hdigit)) _

/-! ## Indices -/

theorem isLetters_letters (index : Nat) : IsLetters (letters 'a' index) := by
  refine ⟨fun hnil => ?_, forall_mem_bijective isLetter_digit (index + 1)⟩
  have hvalue := lettersValue_bijective (index + 1)
  rw [letters] at hnil
  rw [hnil] at hvalue
  cases hvalue

theorem lettersValue_letters (index : Nat) : lettersValue (letters 'a' index) = index + 1 :=
  lettersValue_bijective (index + 1)

theorem lettersValue_pos {t : Text} (ht : t ≠ []) : 0 < lettersValue t := by
  cases t using List.reverseRecOn with
  | nil => exact absurd rfl ht
  | append_singleton t c =>
    rw [lettersValue_concat, letterValue]
    omega

theorem existsUnique_letters {t : Text} (ht : IsLetters t) : ∃! index, letters 'a' index = t := by
  refine ⟨lettersValue t - 1, ?_, fun index hindex => ?_⟩
  · show bijective 'a' (lettersValue t - 1 + 1) = t
    rw [Nat.sub_add_cancel (lettersValue_pos ht.1), bijective_lettersValue ht.2]
  · rw [← hindex, lettersValue_letters, Nat.add_sub_cancel]

theorem lt_iff_shortlex_letters {i j : Nat} :
    i < j ↔ List.Shortlex (· < ·) (letters 'a' i) (letters 'a' j) := by
  refine ⟨fun h => shortlex_bijective (Nat.succ_lt_succ h), fun h => ?_⟩
  by_contra hge
  rcases Nat.lt_or_eq_of_le (Nat.le_of_not_lt hge) with hgt | rfl
  · exact asymm_of _ h (shortlex_bijective (Nat.succ_lt_succ hgt))
  · exact irrefl_of _ _ h

/-- Letter numerals and indices are in bijection. The numeral of an index is a row of letters whose value in base 26
without a zero is one more; every row of letters is the numeral of one index; greater indices have greater numerals,
by length, then alphabetically; the numeral in upper case is the same row of capital letters. A cursor at an index
answers with these. -/
theorem letters_number_indices :
    (∀ index, IsLetters (letters 'a' index) ∧ lettersValue (letters 'a' index) = index + 1) ∧
      (∀ t, IsLetters t → ∃! index, letters 'a' index = t) ∧
      (∀ i j, i < j ↔ List.Shortlex (· < ·) (letters 'a' i) (letters 'a' j)) ∧
      (∀ index, letters 'A' index = Text.upper (letters 'a' index) ∧ ∀ c ∈ letters 'A' index, 'A' ≤ c ∧ c ≤ 'Z') ∧
      ∀ (live : Live) (c : Cursor) (index : Nat), c.ask live .index = .ok (.number index) →
        c.ask live .letter = .ok (.word (letters 'a' index)) ∧
          c.ask live .upperLetter = .ok (.word (letters 'A' index)) := by
  refine ⟨fun index => ⟨isLetters_letters index, lettersValue_letters index⟩, fun t ht => existsUnique_letters ht,
    fun i j => lt_iff_shortlex_letters, fun index => ⟨(upper_bijective _).symm, ?_⟩, fun live c index h => ?_⟩
  · exact forall_mem_bijective isUpperLetter_digit (index + 1)
  · obtain ⟨n, hposition, hanswer⟩ := Cursor.exists_position h
    cases hanswer
    simp only [Cursor.ask, hposition]
    exact ⟨rfl, rfl⟩

/-- One letter has run out at the twenty-seventh of as many items. -/
theorem letters_of_twentySeventh :
    IsLetters "aa".toList ∧ (∃! index, letters 'a' index = "aa".toList) ∧
      let items := List.replicate 27 (Value.bool true)
      let c : Cursor := .past 0 "row".toList (.list items) items 27
      ∀ live : Live, c.ask live .index = .ok (.number 26) ∧ c.ask live .letter = .ok (.word "aa".toList) ∧
        c.ask live .upperLetter = .ok (.word "AA".toList) := by
  have hletters : IsLetters "aa".toList := by simp [IsLetters]
  obtain ⟨-, hunique, -, -, hcursor⟩ := letters_number_indices
  refine ⟨hletters, hunique _ hletters, ?_⟩
  intro items c live
  have hindex : c.ask live .index = .ok (.number 26) := rfl
  obtain ⟨hletter, hupper⟩ := hcursor live c 26 hindex
  have haa : letters 'a' 26 = "aa".toList := by simp [letters, bijective]
  have hAA : letters 'A' 26 = "AA".toList := by simp [letters, bijective]
  exact ⟨hindex, haa ▸ hletter, hAA ▸ hupper⟩

end TemplateExpressions.Number
