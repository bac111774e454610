import TemplateExpressions.Proofs.Text.Bytes

/-!
# Texts made of pieces

Texts that are joined with a separator that none of them holds come apart again
(`pieces_joinWith`), and blanks that are put around a text that neither starts nor ends with one are
trimmed away again (`trim_surrounded`).
-/

set_option autoImplicit false

namespace TemplateExpressions.Text

/-! ## Joining and splitting -/

theorem joinWith_append_cons (separator : Char) (left : List Text) (stretch : Text)
    (right : List Text) :
    joinWith [separator] (left ++ stretch :: right) =
      left.flatMap (· ++ [separator]) ++ joinWith [separator] (stretch :: right) := by
  induction left with
  | nil => rfl
  | cons first left ih =>
    obtain ⟨second, others, hrest⟩ := List.exists_cons_of_ne_nil
      (List.append_ne_nil_of_right_ne_nil left (List.cons_ne_nil stretch right))
    rw [List.cons_append, List.flatMap_cons, List.append_assoc, ← ih, hrest, joinWith_cons_cons]

theorem pieces_append_separator (separator : Char) {s : Text} (hs : separator ∉ s) (t : Text) :
    pieces separator (s ++ separator :: t) = s :: pieces separator t := by
  induction s with
  | nil => simp [pieces]
  | cons c s ih =>
    obtain ⟨hc, hs⟩ := not_or.1 (mt List.mem_cons.2 hs)
    simp only [List.cons_append, pieces, if_neg (Ne.symm hc), ih hs]

theorem pieces_eq_singleton (separator : Char) {t : Text} (h : separator ∉ t) :
    pieces separator t = [t] := by
  induction t with
  | nil => rfl
  | cons c t ih =>
    obtain ⟨hc, ht⟩ := not_or.1 (mt List.mem_cons.2 h)
    simp only [pieces, if_neg (Ne.symm hc), ih ht]

/-- Texts that do not hold the separator come apart as they were joined. -/
theorem pieces_joinWith {separator : Char} {texts : List Text} (hne : texts ≠ [])
    (h : ∀ t ∈ texts, separator ∉ t) : pieces separator (joinWith [separator] texts) = texts := by
  induction texts with
  | nil => exact absurd rfl hne
  | cons first others ih =>
    obtain ⟨hfirst, hothers⟩ := List.forall_mem_cons.1 h
    cases others with
    | nil => exact pieces_eq_singleton separator hfirst
    | cons second others =>
      rw [joinWith_cons_cons, List.append_assoc, List.singleton_append,
        pieces_append_separator separator hfirst, ih (List.cons_ne_nil _ _) hothers]

theorem mem_joinWith {separator : Text} {texts : List Text} {t : Text} {c : Char} (hc : c ∈ t)
    (ht : t ∈ texts) : c ∈ joinWith separator texts := by
  induction texts with
  | nil => cases ht
  | cons first others ih =>
    cases others with
    | nil =>
      rw [List.mem_singleton] at ht
      exact ht ▸ hc
    | cons second others =>
      rw [joinWith_cons_cons, List.mem_append, List.mem_append]
      rcases List.mem_cons.1 ht with rfl | ht
      · exact .inl (.inl hc)
      · exact .inr (ih ht)

theorem mem_of_mem_pieces {separator : Char} {t p : Text} {c : Char} (hp : p ∈ pieces separator t)
    (hc : c ∈ p) : c ∈ t :=
  joinWith_pieces separator t ▸ mem_joinWith hc hp

/-- A joined text ends as its last part does, or with the separator if that part is empty. -/
theorem getLast?_joinWith {separator c : Char} {left : List Text} {last : Text}
    (h : (joinWith [separator] (left ++ [last])).getLast? = some c) :
    last.getLast? = some c ∨ c = separator := by
  rw [joinWith_append_cons, joinWith, List.getLast?_append, Option.or_eq_some_iff] at h
  rcases h with hlast | ⟨-, hleft⟩
  · exact .inl hlast
  · right
    rcases List.eq_nil_or_concat left with rfl | ⟨init, x, rfl⟩
    · cases hleft
    · simpa [eq_comm] using hleft

/-! ## Blanks -/

/-- The characters of names are not blank. -/
theorem isBlank_eq_false_of_isNamePart {c : Char} (h : isNamePart c = true) : isBlank c = false := by
  have hrange : (48 ≤ c.toNat ∧ c.toNat ≤ 57) ∨ (65 ≤ c.toNat ∧ c.toNat ≤ 90) ∨ c.toNat = 95 ∨
      (97 ≤ c.toNat ∧ c.toNat ≤ 122) := by
    rw [isNamePart, Bool.or_eq_true, beq_iff_eq] at h
    rcases h with h | rfl
    · delta Char.isAlphanum Char.isAlpha Char.isUpper Char.isLower Char.isDigit at h
      simp only [Bool.or_eq_true, Bool.and_eq_true, decide_eq_true_eq, ge_iff_le,
        UInt32.le_iff_toNat_le] at h
      rcases h with (h | h) | h
      · exact .inr (.inl h)
      · exact .inr (.inr (.inr h))
      · exact .inl h
    · exact .inr (.inr (.inl rfl))
  simp only [isBlank, inRanges, blankRanges, List.any_cons, List.any_nil, Bool.or_eq_false_iff,
    Bool.and_eq_false_iff, decide_eq_false_iff_not]
  refine ⟨?_, ?_, ?_, ?_, ?_, ?_, ?_, ?_, ?_, ?_, trivial⟩
  all_goals omega

theorem isBlank_eq_false_of_isAlpha {c : Char} (h : c.isAlpha = true) : isBlank c = false :=
  isBlank_eq_false_of_isNamePart (isNamePart_of_isAlpha h)

theorem trimStart_append_of_forall {blanks : Text} (hblanks : ∀ c ∈ blanks, isBlank c = true) (t : Text) :
    trimStart (blanks ++ t) = trimStart t := List.dropWhile_append_of_pos hblanks

theorem trimStart_eq_self {t : Text} (h : ∀ c, t.head? = some c → isBlank c = false) :
    trimStart t = t := by
  cases t with
  | nil => rfl
  | cons c t => exact List.dropWhile_cons_of_neg (by simp [h c rfl])

theorem trimEnd_append_of_forall {blanks : Text} (hblanks : ∀ c ∈ blanks, isBlank c = true) (t : Text) :
    trimEnd (t ++ blanks) = trimEnd t := by
  unfold trimEnd
  rw [List.reverse_append, List.dropWhile_append_of_pos]
  exact fun c hc => hblanks c (List.mem_reverse.1 hc)

theorem trimEnd_eq_self {t : Text} (h : ∀ c, t.getLast? = some c → isBlank c = false) :
    trimEnd t = t := by
  have hreverse : trimStart t.reverse = t.reverse := by
    refine trimStart_eq_self fun c hc => h c ?_
    rwa [List.head?_reverse] at hc
  unfold trimEnd
  rw [← trimStart, hreverse, List.reverse_reverse]

theorem isPrefix_trimEnd (t : Text) : trimEnd t <+: t := by
  have h := (List.dropWhile_suffix (l := t.reverse) isBlank).reverse
  rwa [List.reverse_reverse] at h

theorem mem_of_mem_trim {t : Text} {c : Char} (h : c ∈ trim t) : c ∈ t :=
  (trimStart_suffix t).subset ((isPrefix_trimEnd _).subset h)

/-- Nothing blank is left at the end. -/
theorem isBlank_getLast?_trim {t : Text} {c : Char} (h : (trim t).getLast? = some c) :
    isBlank c = false := by
  have hhead := List.head?_dropWhile_not isBlank (trimStart t).reverse
  rw [trim, trimEnd, List.getLast?_reverse] at h
  rw [h] at hhead
  simpa using hhead

/-- Trimming takes away the blanks that were put around a text, and no more. -/
theorem trim_surrounded {before t after : Text} (hbefore : ∀ c ∈ before, isBlank c = true)
    (hafter : ∀ c ∈ after, isBlank c = true) (hfirst : ∀ c, t.head? = some c → isBlank c = false)
    (hlast : ∀ c, t.getLast? = some c → isBlank c = false) : trim (before ++ t ++ after) = t := by
  rw [trim, List.append_assoc, trimStart_append_of_forall hbefore]
  cases t with
  | nil =>
    have hnone := trimStart_append_of_forall hafter []
    rw [List.append_nil] at hnone
    rw [List.nil_append, hnone]
    rfl
  | cons c t =>
    have hstart : trimStart (c :: t ++ after) = c :: t ++ after :=
      trimStart_eq_self fun d hd => hfirst d hd
    rw [hstart, trimEnd_append_of_forall hafter, trimEnd_eq_self hlast]

end TemplateExpressions.Text
