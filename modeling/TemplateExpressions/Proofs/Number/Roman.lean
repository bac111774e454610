import Mathlib.Data.List.Infix
import Mathlib.Tactic.IntervalCases
import TemplateExpressions.Proofs.Cursor

/-!
# Roman numerals

Each decimal place below the thousands has symbols for one, five and ten of its unit (`Place`), by which its digit
is written (`Place.digit`). Taking from a number what goes into it, greatest first, writes it digit by digit
(`romanWith_place`), so that a Roman numeral is a row of `M` for the thousands and a standard numeral for the rest
(`roman_eq`). The symbols at one place are greater than that which the next lower digit begins with (`Above`), and
so the value, the subtractions and the rows of equal symbols are those of the digits (`readings_append`,
`row_append`). Main statement: `roman_is_canonical`.
-/

set_option autoImplicit false

namespace TemplateExpressions.Number

/-! ## Reading -/

/-- The value of a Roman symbol. -/
def symbolValue : Char → Nat
  | 'M' => 1000
  | 'D' => 500
  | 'C' => 100
  | 'L' => 50
  | 'X' => 10
  | 'V' => 5
  | 'I' => 1
  | _ => 0

/-- The symbols of a Roman numeral, each with its right neighbour if that is greater. -/
def readings : Text → List (Char × Option Char)
  | [] => []
  | a :: t => (a, t.head?.filter (symbolValue a < symbolValue ·)) :: readings t

/-- What a symbol adds to the value of a numeral: it is subtracted if its right neighbour is greater. -/
def readingValue : Char × Option Char → Int
  | (a, some _) => -symbolValue a
  | (a, none) => symbolValue a

/-- The value of a Roman numeral. -/
def romanValue (t : Text) : Int := ((readings t).map readingValue).sum

/-- The subtracted symbols of a Roman numeral, each with its right neighbour. -/
def subtractions (t : Text) : List (Char × Char) := (readings t).filterMap fun (a, b?) => b?.map (a, ·)

theorem readings_replicate (k : Nat) (c : Char) : readings (List.replicate k c) = List.replicate k (c, none) := by
  induction k with
  | zero => rfl
  | succ k ih =>
    have hlast : (List.replicate k c).head?.filter (symbolValue c < symbolValue ·) = none := by
      cases k <;> simp [List.replicate_succ]
    rw [List.replicate_succ, readings, hlast, ih, List.replicate_succ]

theorem romanValue_replicate (k : Nat) (c : Char) : romanValue (List.replicate k c) = k * symbolValue c := by
  simp [romanValue, readings_replicate, readingValue]

theorem subtractions_replicate (k : Nat) (c : Char) : subtractions (List.replicate k c) = [] := by
  simp [subtractions, readings_replicate]

/-- The symbols of the first text are greater than the one that the second text begins with. -/
def Above (s t : Text) : Prop := ∀ a ∈ s, ∀ b ∈ t.head?, symbolValue b < symbolValue a

theorem Above.append {s t u : Text} (ht : Above s t) (hu : Above s u) : Above s (t ++ u) := by
  cases t with
  | nil => exact hu
  | cons b t => exact ht

section Above

variable {s t : Text} (h : Above s t)

include h

theorem readings_append : readings (s ++ t) = readings s ++ readings t := by
  induction s with
  | nil => rfl
  | cons a s ih =>
    have hneighbour : (s ++ t).head?.filter (symbolValue a < symbolValue ·) =
        s.head?.filter (symbolValue a < symbolValue ·) := by
      cases s with
      | nil =>
        rw [List.nil_append, List.head?_nil, Option.filter_none, Option.filter_eq_none_iff]
        intro b hb
        simpa using (h a List.mem_cons_self b hb).le
      | cons b s => rfl
    rw [List.cons_append, readings, hneighbour, ih fun c hc => h c (List.mem_cons_of_mem _ hc)]
    rfl

theorem romanValue_append : romanValue (s ++ t) = romanValue s + romanValue t := by
  rw [romanValue, readings_append h, List.map_append, List.sum_append]
  rfl

theorem subtractions_append : subtractions (s ++ t) = subtractions s ++ subtractions t := by
  rw [subtractions, readings_append h, List.filterMap_append]
  rfl

/-- A row of equal symbols stands in one of the two texts. -/
theorem row_append {k : Nat} {c : Char} (hrow : List.replicate k c <:+: s ++ t) :
    List.replicate k c <:+: s ∨ List.replicate k c <:+: t := by
  rcases List.infix_append_iff.1 hrow with hs | ht | ⟨front, back, hsplit, hfront, hback⟩
  · exact .inl hs
  · exact .inr ht
  · cases front with
    | nil =>
      rw [hsplit]
      exact .inr hback.isInfix
    | cons a front =>
      cases back with
      | nil =>
        rw [hsplit, List.append_nil]
        exact .inl hfront.isInfix
      | cons b back =>
        -- a symbol on either side of the boundary would be greater than itself
        have hsame : ∀ d ∈ a :: front ++ b :: back, d = c := by
          rw [← hsplit]
          exact fun d => List.eq_of_mem_replicate
        obtain ⟨rest, rfl⟩ := hback
        have hlt := h a (hfront.mem List.mem_cons_self) b rfl
        rw [hsame a (by simp), hsame b (by simp)] at hlt
        exact absurd hlt (Nat.lt_irrefl _)

end Above

/-! ## Decimal places -/

/-- A decimal place with the symbols for one, five and ten of its unit. -/
structure Place where
  unit : Nat
  one : Char
  five : Char
  ten : Char
  unit_pos : 0 < unit
  value_one : symbolValue one = unit
  value_five : symbolValue five = 5 * unit
  value_ten : symbolValue ten = 10 * unit

def hundreds : Place := ⟨100, 'C', 'D', 'M', by decide, rfl, rfl, rfl⟩

def tens : Place := ⟨10, 'X', 'L', 'C', by decide, rfl, rfl, rfl⟩

def ones : Place := ⟨1, 'I', 'V', 'X', by decide, rfl, rfl, rfl⟩

namespace Place

/-- The Roman numeral of a decimal digit at a place. -/
def digit (p : Place) : Nat → Text
  | 1 => [p.one]
  | 2 => [p.one, p.one]
  | 3 => [p.one, p.one, p.one]
  | 4 => [p.one, p.five]
  | 5 => [p.five]
  | 6 => [p.five, p.one]
  | 7 => [p.five, p.one, p.one]
  | 8 => [p.five, p.one, p.one, p.one]
  | 9 => [p.one, p.ten]
  | _ => []

variable (p : Place) (d : Nat)

theorem unit_lt_five : p.unit < 5 * p.unit := by
  have hunit := p.unit_pos
  omega

theorem unit_lt_ten : p.unit < 10 * p.unit := by
  have hunit := p.unit_pos
  omega

theorem romanValue_digit (hd : d < 10) : romanValue (p.digit d) = d * p.unit := by
  have hfive := p.unit_lt_five
  have hten := p.unit_lt_ten
  interval_cases d <;>
    simp [digit, romanValue, readings, readingValue, Option.filter_some, p.value_one, p.value_five, p.value_ten,
      hfive, hten, hfive.not_gt] <;> omega

theorem subtractions_digit : (subtractions (p.digit d)).Sublist [(p.one, p.ten), (p.one, p.five)] := by
  have hfive := p.unit_lt_five
  have hten := p.unit_lt_ten
  fun_cases digit p d <;>
    simp [subtractions, readings, Option.filter_some, p.value_one, p.value_five, p.value_ten, hfive, hten,
      hfive.not_gt]

theorem unit_le_of_mem {a : Char} (h : a ∈ p.digit d) : p.unit ≤ symbolValue a := by
  have hsymbol : a = p.one ∨ a = p.five ∨ a = p.ten := by
    revert h
    fun_cases digit p d <;> simp <;> tauto
  rcases hsymbol with rfl | rfl | rfl
  · exact p.value_one.ge
  · exact p.value_five ▸ p.unit_lt_five.le
  · exact p.value_ten ▸ p.unit_lt_ten.le

theorem head_digit_le {b : Char} (h : b ∈ (p.digit d).head?) : symbolValue b ≤ 5 * p.unit := by
  have hsymbol : b = p.one ∨ b = p.five := by
    revert h
    fun_cases digit p d <;> simp <;> tauto
  rcases hsymbol with rfl | rfl
  · exact p.value_one ▸ p.unit_lt_five.le
  · exact p.value_five.le

theorem eq_eight_or_length_lt : d = 8 ∨ (p.digit d).length < 4 := by
  fun_cases digit p d <;> simp

/-- No digit has four equal symbols. -/
theorem not_row_digit (c : Char) : ¬ List.replicate 4 c <:+: p.digit d := by
  intro h
  rcases p.eq_eight_or_length_lt d with rfl | hshort
  · have hrow : List.replicate 4 c = [p.five, p.one, p.one, p.one] := h.eq_of_length rfl
    obtain ⟨hfive, hone⟩ : c = p.five ∧ c = p.one := by simpa [List.replicate_succ] using hrow
    have hlt := p.unit_lt_five
    rw [← p.value_five, ← hfive, hone, p.value_one] at hlt
    exact Nat.lt_irrefl _ hlt
  · have hlength := h.length_le
    rw [List.length_replicate] at hlength
    omega

/-- Symbols of a higher place are above a digit. -/
theorem above_digit {s : Text} (h : ∀ a ∈ s, 10 * p.unit ≤ symbolValue a) : Above s (p.digit d) := by
  intro a ha b hb
  have hunit := p.unit_pos
  have hlow := p.head_digit_le d hb
  have hhigh := h a ha
  omega

end Place

/-- The standard numeral of a number below a thousand. -/
def standardRoman (m : Nat) : Text :=
  hundreds.digit (m / 100) ++ (tens.digit (m / 10 % 10) ++ ones.digit (m % 10))

section Standard

variable (m : Nat)

theorem above_lower : Above (hundreds.digit (m / 100)) (tens.digit (m / 10 % 10) ++ ones.digit (m % 10)) := by
  have hmem : ∀ a ∈ hundreds.digit (m / 100), 100 ≤ symbolValue a := fun _ => hundreds.unit_le_of_mem _
  exact .append (tens.above_digit _ hmem) (ones.above_digit _ fun a ha => Nat.le_trans (by decide) (hmem a ha))

theorem above_ones : Above (tens.digit (m / 10 % 10)) (ones.digit (m % 10)) :=
  ones.above_digit _ fun _ => tens.unit_le_of_mem _

theorem above_standardRoman {s : Text} (h : ∀ a ∈ s, 1000 ≤ symbolValue a) : Above s (standardRoman m) :=
  .append (hundreds.above_digit _ h)
    (.append (tens.above_digit _ fun a ha => Nat.le_trans (by decide) (h a ha))
      (ones.above_digit _ fun a ha => Nat.le_trans (by decide) (h a ha)))

theorem romanValue_standardRoman (hm : m < 1000) : romanValue (standardRoman m) = m := by
  rw [standardRoman, romanValue_append (above_lower m), romanValue_append (above_ones m),
    hundreds.romanValue_digit _ (by omega), tens.romanValue_digit _ (by omega), ones.romanValue_digit _ (by omega)]
  simp only [hundreds, tens, ones]
  omega

theorem subtractions_standardRoman :
    (subtractions (standardRoman m)).Sublist
      [('C', 'M'), ('C', 'D'), ('X', 'C'), ('X', 'L'), ('I', 'X'), ('I', 'V')] := by
  rw [standardRoman, subtractions_append (above_lower m), subtractions_append (above_ones m)]
  exact .append (hundreds.subtractions_digit _) (.append (tens.subtractions_digit _) (ones.subtractions_digit _))

theorem not_row_standardRoman (c : Char) : ¬ List.replicate 4 c <:+: standardRoman m := by
  intro h
  rcases row_append (above_lower m) h with hhundreds | hlower
  · exact hundreds.not_row_digit _ c hhundreds
  · rcases row_append (above_ones m) hlower with htens | hones
    · exact tens.not_row_digit _ c htens
    · exact ones.not_row_digit _ c hones

end Standard

/-! ## Writing -/

/-- An entry for so many units. -/
def scaled (unit : Nat) (entry : Nat × Text) : Nat × Text := (entry.1 * unit, entry.2)

/-- Entries down to one for so many units write how often the unit goes into a number and leave the rest of it. -/
theorem romanWith_scaled (unit : Nat) (entries rest : List (Nat × Text)) (one : Text) (n : Nat) :
    romanWith ((entries ++ [(1, one)]).map (scaled unit) ++ rest) n =
      romanWith (entries ++ [(1, one)]) (n / unit) ++ romanWith rest (n % unit) := by
  induction entries generalizing n with
  | nil => simp [scaled, romanWith]
  | cons entry entries ih =>
    obtain ⟨value, symbol⟩ := entry
    simp only [List.cons_append, List.map_cons, scaled, romanWith] at ih ⊢
    rw [ih, Nat.mul_comm value unit, ← Nat.div_div_eq_div_mul, Nat.mod_mul_right_div_self, Nat.mod_mul_right_mod,
      List.append_assoc]

namespace Place

/-- What is written at a place, and for how many of its units. -/
def entries (p : Place) : List (Nat × Text) := [(9, [p.one, p.ten]), (5, [p.five]), (4, [p.one, p.five]), (1, [p.one])]

theorem romanWith_entries (p : Place) {d : Nat} (hd : d < 10) : romanWith p.entries d = p.digit d := by
  interval_cases d <;> rfl

/-- The entries of a place write its digit. -/
theorem romanWith_place (p : Place) (rest : List (Nat × Text)) {n : Nat} (hn : n / p.unit < 10) :
    romanWith (p.entries.map (scaled p.unit) ++ rest) n = p.digit (n / p.unit) ++ romanWith rest (n % p.unit) := by
  rw [← p.romanWith_entries hn]
  exact romanWith_scaled p.unit [(9, [p.one, p.ten]), (5, [p.five]), (4, [p.one, p.five])] rest [p.one] n

end Place

theorem romanSymbols_eq :
    romanSymbols = (1000, ['M']) :: (hundreds.entries.map (scaled hundreds.unit) ++
      (tens.entries.map (scaled tens.unit) ++ (ones.entries.map (scaled ones.unit) ++ []))) := rfl

/-- A Roman numeral is a row of `M` for the thousands and a standard numeral for the rest. -/
theorem roman_eq (n : Nat) : roman n = List.replicate (n / 1000) 'M' ++ standardRoman (n % 1000) := by
  have hhundreds : n % 1000 / hundreds.unit < 10 := by simp only [hundreds]; omega
  have htens : n % 1000 % hundreds.unit / tens.unit < 10 := by simp only [hundreds, tens]; omega
  have hones : n % 1000 % hundreds.unit % tens.unit / ones.unit < 10 := by simp only [hundreds, tens, ones]; omega
  rw [roman, romanSymbols_eq, romanWith, hundreds.romanWith_place _ hhundreds, tens.romanWith_place _ htens,
    ones.romanWith_place _ hones, romanWith, List.append_nil, List.flatten_replicate_singleton, standardRoman]
  congr 3
  · simp only [hundreds, tens]
    congr 1
    omega
  · simp only [hundreds, tens, ones]
    congr 1
    omega

theorem mem_of_mem_romanWith {entries : List (Nat × Text)} {n : Nat} {c : Char} (h : c ∈ romanWith entries n) :
    ∃ entry ∈ entries, c ∈ entry.2 := by
  induction entries generalizing n with
  | nil => cases h
  | cons entry entries ih =>
    obtain ⟨value, symbol⟩ := entry
    rcases List.mem_append.1 h with hsymbol | hrest
    · obtain ⟨t, ht, hc⟩ := List.mem_flatten.1 hsymbol
      cases List.eq_of_mem_replicate ht
      exact ⟨_, List.mem_cons_self, hc⟩
    · obtain ⟨entry, hentry, hc⟩ := ih hrest
      exact ⟨entry, List.mem_cons_of_mem _ hentry, hc⟩

section Roman

variable (n : Nat)

theorem above_rest : Above (List.replicate (n / 1000) 'M') (standardRoman (n % 1000)) :=
  above_standardRoman _ fun _ hc => by
    rw [List.eq_of_mem_replicate hc]
    decide

/-- A Roman numeral has the value of its number. -/
theorem romanValue_roman : romanValue (roman n) = n := by
  rw [roman_eq, romanValue_append (above_rest n), romanValue_replicate,
    romanValue_standardRoman _ (Nat.mod_lt n (by decide)), show symbolValue 'M' = 1000 from rfl]
  omega

theorem subtractions_roman : subtractions (roman n) = subtractions (standardRoman (n % 1000)) := by
  rw [roman_eq, subtractions_append (above_rest n), subtractions_replicate, List.nil_append]

theorem eq_of_row_roman {c : Char} (h : List.replicate 4 c <:+: roman n) : c = 'M' := by
  rw [roman_eq] at h
  rcases row_append (above_rest n) h with hthousands | hrest
  · exact List.eq_of_mem_replicate (hthousands.mem (by simp))
  · exact absurd hrest (not_row_standardRoman _ c)

end Roman

/-- Roman numerals denote their numbers and are canonical. Read by the usual rule, a numeral has the value of its
number; it is a row of `M` for the thousands and a standard numeral for the rest; no other symbol than `M` stands
four times in a row; subtracted are at most the one of `CM`, `CD`, `XC`, `XL`, `IX` and `IV`, each at most once.
Different numbers have different numerals. A cursor answers with the numeral of its number, and in lower case with
the same text in small letters. -/
theorem roman_is_canonical :
    (∀ n, romanValue (roman n) = n ∧ roman n = List.replicate (n / 1000) 'M' ++ standardRoman (n % 1000) ∧
      (∀ c, List.replicate 4 c <:+: roman n → c = 'M') ∧
      (subtractions (roman n)).Sublist
        [('C', 'M'), ('C', 'D'), ('X', 'C'), ('X', 'L'), ('I', 'X'), ('I', 'V')] ∧
      ∀ c ∈ roman n, c ∈ "MDCLXVI".toList) ∧
    (∀ m n, m ≠ n → roman m ≠ roman n) ∧
    ∀ (live : Live) (c : Cursor) (n : Nat), c.ask live .number = .ok (.number n) →
      c.ask live .upperRoman = .ok (.word (roman n)) ∧
        c.ask live .roman = .ok (.word ((roman n).map Char.toLower)) := by
  refine ⟨fun n => ⟨romanValue_roman n, roman_eq n, fun c => eq_of_row_roman n, ?_, fun c hc => ?_⟩,
    fun m n hne heq => ?_, fun live c n h => ?_⟩
  · rw [subtractions_roman]
    exact subtractions_standardRoman _
  · obtain ⟨entry, hentry, hc⟩ := mem_of_mem_romanWith hc
    have hsymbols : ∀ entry ∈ romanSymbols, ∀ c ∈ entry.2, c ∈ "MDCLXVI".toList := by simp [romanSymbols]
    exact hsymbols entry hentry c hc
  · have hvalue := romanValue_roman m
    rw [heq, romanValue_roman n] at hvalue
    exact hne (Int.ofNat.inj hvalue).symm
  · obtain ⟨n, hposition, hanswer⟩ := Cursor.exists_position h
    cases hanswer
    simp only [Cursor.ask, hposition]
    exact ⟨rfl, rfl⟩

/-- The fourth of six items has not the numeral of the last. -/
theorem roman_of_fourth :
    4 ≠ 6 ∧ roman 4 ≠ roman 6 ∧
      let items := List.replicate 6 (Value.bool true)
      let c : Cursor := .past 0 "row".toList (.list items) items 4
      ∀ live : Live, c.ask live .number = .ok (.number 4) ∧ c.ask live .upperRoman = .ok (.word "IV".toList) ∧
        c.ask live .roman = .ok (.word "iv".toList) := by
  obtain ⟨-, hdistinct, hcursor⟩ := roman_is_canonical
  have hne : 4 ≠ 6 := by decide
  refine ⟨hne, hdistinct 4 6 hne, ?_⟩
  intro items c live
  have hnumber : c.ask live .number = .ok (.number 4) := rfl
  exact ⟨hnumber, hcursor live c 4 hnumber⟩

end TemplateExpressions.Number
