import TemplateExpressions.Number.Integer
import TemplateExpressions.Proofs.Text.Bytes

/-!
# Integers in decimal, read and written

`Denotes t k` says of a text that it is an optional sign and decimal digits, and of which integer. Main
statements: the readers read exactly such texts, those of 64 bits among them (`readSigned?_eq_some_iff`,
`readInteger?_eq_some_iff`), and every integer is written as a text that denotes it (`denotes_intText`); so
two written integers are told apart, whatever stands behind them (`intText_append_injective`).
-/

set_option autoImplicit false

namespace TemplateExpressions.Number

/-! ## Reading -/

/-- At least one decimal digit, and nothing else. -/
def IsDigits (t : Text) : Prop := t ≠ [] ∧ ∀ c ∈ t, c.isDigit = true

/-- A text of an optional sign and decimal digits denotes an integer; zeros may lead. -/
inductive Denotes : Text → Int → Prop
  | unsigned {digits : Text} : IsDigits digits → Denotes digits (Nat.ofDigitChars 10 digits 0)
  | positive {digits : Text} : IsDigits digits → Denotes ('+' :: digits) (Nat.ofDigitChars 10 digits 0)
  | negative {digits : Text} : IsDigits digits → Denotes ('-' :: digits) (-(Nat.ofDigitChars 10 digits 0 : Int))

theorem digitsValue_eq (start : Nat) (t : Text) : digitsValue start t = Nat.ofDigitChars 10 t start := by
  unfold digitsValue digitValue
  simp only [Nat.ofDigitChars_eq_foldl, Nat.mul_comm]

theorem readDigits?_eq_some_iff {t : Text} {n : Nat} :
    readDigits? t = some n ↔ IsDigits t ∧ n = Nat.ofDigitChars 10 t 0 := by
  have hiff : (!t.isEmpty && t.all Char.isDigit) = true ↔ IsDigits t := by simp [IsDigits]
  rw [readDigits?, digitsValue_eq]
  split
  · rename_i h
    rw [Option.some.injEq, eq_comm, iff_and_self]
    exact fun _ => hiff.1 h
  · rename_i h
    simp [mt hiff.2 h]

theorem readSigned?_of_denotes {t : Text} {k : Int} (h : Denotes t k) : readSigned? t = some k := by
  cases h with
  | unsigned h =>
    obtain ⟨c, digits, rfl⟩ := List.exists_cons_of_ne_nil h.1
    have hdigit : c.isDigit = true := h.2 c List.mem_cons_self
    have hread := readDigits?_eq_some_iff.2 ⟨h, rfl⟩
    -- a digit is no sign, so the text is read as it is
    unfold readSigned?
    split
    · rename_i heq
      cases heq
      exact absurd hdigit (by decide)
    · rename_i heq
      cases heq
      exact absurd hdigit (by decide)
    · rw [hread]
      rfl
  | positive h =>
    rw [readSigned?, readDigits?_eq_some_iff.2 ⟨h, rfl⟩]
    rfl
  | negative h =>
    rw [readSigned?, readDigits?_eq_some_iff.2 ⟨h, rfl⟩]
    rfl

theorem readSigned?_eq_some_iff {t : Text} {k : Int} : readSigned? t = some k ↔ Denotes t k := by
  refine ⟨fun h => ?_, readSigned?_of_denotes⟩
  unfold readSigned? at h
  split at h
  all_goals
    obtain ⟨i, hi, rfl⟩ := Option.map_eq_some_iff.1 h
    obtain ⟨n, hn, heq⟩ := Option.bind_eq_some_iff.1 hi
    cases heq
    obtain ⟨hdigits, rfl⟩ := readDigits?_eq_some_iff.1 hn
  · exact .negative hdigits
  · exact .positive hdigits
  · exact .unsigned hdigits

/-- A text denotes one integer at most. -/
theorem Denotes.unique {t : Text} {i j : Int} (h : Denotes t i) (h' : Denotes t j) : i = j :=
  Option.some.inj ((readSigned?_of_denotes h).symm.trans (readSigned?_of_denotes h'))

theorem fitsInt64_iff {i : Int} : fitsInt64 i = true ↔ ∃ k : Int64, i = k.toInt := by
  have hlimit : (twoTo 63 : Int) = 2 ^ 63 := rfl
  simp only [fitsInt64, Bool.and_eq_true, decide_eq_true_eq, hlimit]
  constructor
  · rintro ⟨hlow, hhigh⟩
    exact ⟨Int64.ofInt i, (Int64.toInt_ofInt_of_le hlow hhigh).symm⟩
  · rintro ⟨k, rfl⟩
    exact ⟨k.le_toInt, k.toInt_lt⟩

/-- What is read as an integer of 64 bits is what denotes one. -/
theorem readInteger?_eq_some_iff {t : Text} {i : Int} :
    readInteger? t = some i ↔ ∃ k : Int64, i = k.toInt ∧ Denotes t k.toInt := by
  rw [readInteger?, Option.filter_eq_some_iff, readSigned?_eq_some_iff, fitsInt64_iff]
  constructor
  · rintro ⟨hdenotes, k, rfl⟩
    exact ⟨k, rfl, hdenotes⟩
  · rintro ⟨k, rfl, hdenotes⟩
    exact ⟨hdenotes, k, rfl⟩

theorem readInteger?_eq_none_iff {t : Text} : readInteger? t = none ↔ ∀ k : Int64, ¬ Denotes t k.toInt := by
  rw [Option.eq_none_iff_forall_ne_some]
  constructor
  · intro h k hdenotes
    exact h k.toInt (readInteger?_eq_some_iff.2 ⟨k, rfl, hdenotes⟩)
  · intro h i hread
    obtain ⟨k, rfl, hdenotes⟩ := readInteger?_eq_some_iff.1 hread
    exact h k hdenotes

/-! ## Writing -/

theorem isDigits_natText (n : Nat) : IsDigits (natText n) :=
  ⟨Nat.toDigits_ne_nil, fun _ hc => Nat.isDigit_of_mem_toDigits (by decide) (by decide) hc⟩

/-- What is written for an integer denotes it. -/
theorem denotes_intText (i : Int) : Denotes (intText i) i := by
  have hvalue : ∀ n, Nat.ofDigitChars 10 (natText n) 0 = n := fun n => Nat.ofDigitChars_ten_toDigits
  cases i with
  | ofNat n =>
    have h := Denotes.unsigned (isDigits_natText n)
    rwa [hvalue] at h
  | negSucc n =>
    have h := Denotes.negative (isDigits_natText (n + 1))
    rwa [hvalue] at h

/-- Whether integers are written with a character. -/
def isNumeric (c : Char) : Bool := c.isDigit || c == '-'

theorem isNumeric_of_mem_intText {i : Int} {c : Char} (h : c ∈ intText i) : isNumeric c = true := by
  have hdigit : ∀ n, c ∈ natText n → isNumeric c = true := by
    intro n hc
    rw [isNumeric, (isDigits_natText n).2 c hc, Bool.true_or]
  cases i with
  | ofNat n => exact hdigit n h
  | negSucc n =>
    rcases List.mem_cons.1 h with rfl | h
    · rfl
    · exact hdigit (n + 1) h

theorem intText_ne_nil (i : Int) : intText i ≠ [] := by
  cases i with
  | ofNat n => exact Nat.toDigits_ne_nil
  | negSucc n => exact List.cons_ne_nil _ _

/-- What does not go on like an integer. -/
def EndsInteger (r : Text) : Prop := ∀ c ∈ r.head?, isNumeric c = false

/-- Written integers are told apart, if what stands behind them ends an integer. -/
theorem intText_append_injective {i j : Int} {r r' : Text} (hr : EndsInteger r) (hr' : EndsInteger r')
    (h : intText i ++ r = intText j ++ r') : i = j ∧ r = r' := by
  obtain ⟨heq, hrest⟩ := Text.append_inj_of_ends (fun _ => isNumeric_of_mem_intText)
    (fun _ => isNumeric_of_mem_intText) hr hr' h
  exact ⟨(heq ▸ denotes_intText i).unique (denotes_intText j), hrest⟩

end TemplateExpressions.Number
