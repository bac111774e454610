import TemplateExpressions.Proofs.Text.Bytes
import TemplateExpressions.Text.Quoted

/-!
# Quoted texts are told apart

Inside quotes a character stands for itself, behind a backslash as a letter, or is spelt out by its code point.
No two characters stand there alike, and none starts like the closing quote (`escape_append_injective`,
`exists_cons_escape`). Main statement: where a quoted text ends, and what it says, can be seen whatever
stands behind it (`quote_append_injective`).
-/

set_option autoImplicit false

namespace TemplateExpressions.Text

/-! ## Code points in hexadecimal -/

/-- The digits of a number are digits of the base. -/
theorem exists_digitChar_of_mem_toDigits {b n : Nat} {c : Char} (hb : 1 < b) (h : c ∈ Nat.toDigits b n) :
    ∃ d, d < b ∧ c = d.digitChar := by
  induction n using Nat.strongRecOn with
  | ind n ih =>
    by_cases hn : n < b
    · rw [Nat.toDigits_of_lt_base hn, List.mem_singleton] at h
      exact ⟨n, hn, h⟩
    · rw [Nat.toDigits_of_base_le hb (Nat.le_of_not_lt hn), List.mem_append, List.mem_singleton] at h
      rcases h with h | h
      · exact ih (n / b) (Nat.div_lt_self (by omega) hb) h
      · exact ⟨n % b, Nat.mod_lt n (by omega), h⟩

theorem digitChar_injective {d e : Nat} (hd : d < 16) (he : e < 16) (h : d.digitChar = e.digitChar) :
    d = e := by
  have hall : ∀ d e : Fin 16, d.val.digitChar = e.val.digitChar → d = e := by decide
  exact congrArg Fin.val (hall ⟨d, hd⟩ ⟨e, he⟩ h)

/-- Numbers are told apart by their hexadecimal digits. -/
theorem toDigits_injective {m n : Nat} (h : Nat.toDigits 16 m = Nat.toDigits 16 n) : m = n := by
  induction m using Nat.strongRecOn generalizing n with
  | ind m ih =>
    have hsmall : ∀ k, (Nat.toDigits 16 k).length ≤ 1 ↔ k < 16 := fun k =>
      Nat.length_toDigits_le_iff (by decide) (by decide)
    have hiff : m < 16 ↔ n < 16 := by rw [← hsmall, ← hsmall, h]
    by_cases hm : m < 16
    · have hn := hiff.1 hm
      rw [Nat.toDigits_of_lt_base hm, Nat.toDigits_of_lt_base hn] at h
      exact digitChar_injective hm hn (List.singleton_inj.1 h)
    · -- the last digits agree, and so do the numbers of what stands before them
      have hn := mt hiff.2 hm
      rw [Nat.toDigits_of_base_le (by decide) (Nat.le_of_not_lt hm),
        Nat.toDigits_of_base_le (by decide) (Nat.le_of_not_lt hn)] at h
      obtain ⟨hinit, hlast⟩ := List.append_inj' h rfl
      have hdiv : m / 16 = n / 16 := ih (m / 16) (by omega) hinit
      have hmod : m % 16 = n % 16 :=
        digitChar_injective (Nat.mod_lt m (by decide)) (Nat.mod_lt n (by decide)) (List.singleton_inj.1 hlast)
      omega

theorem spellOut_append_injective {c d : Char} {r r' : Text} (h : spellOut c ++ r = spellOut d ++ r') :
    c = d ∧ r = r' := by
  have hdigits : ∀ n, ∀ e ∈ Nat.toDigits 16 n, (e != '\x7d') = true := by
    intro n e he
    obtain ⟨k, hk, rfl⟩ := exists_digitChar_of_mem_toDigits (by decide) he
    have hall : ∀ k : Fin 16, (k.val.digitChar != '\x7d') = true := by decide
    exact hall ⟨k, hk⟩
  simp only [spellOut, List.append_assoc, List.cons_append, List.nil_append, List.cons.injEq,
    true_and] at h
  obtain ⟨hcode, hrest⟩ := append_inj_of_ends (hdigits c.toNat) (hdigits d.toNat)
    (by simp) (by simp) h
  exact ⟨Char.toNat_inj.1 (toDigits_injective hcode), (List.cons.inj hrest).2⟩

/-! ## Characters inside quotes -/

/-- Characters that have a letter are told apart by it. -/
theorem escapeLetter?_injective {c d letter : Char} (hc : escapeLetter? c = some letter)
    (hd : escapeLetter? d = some letter) : c = d := by
  unfold escapeLetter? at hc hd
  split at hc <;> cases hc <;> split at hd <;> first | rfl | cases hd

/-- The letter before a code point stands for no character. -/
theorem escapeLetter?_ne_u (c : Char) : escapeLetter? c ≠ some 'u' := by
  unfold escapeLetter?
  split <;> decide

/-- A character stands inside quotes as a letter, spelt out, or as itself; quotes and backslashes never as
themselves. -/
theorem escape_cases (c : Char) :
    (∃ letter, escapeLetter? c = some letter ∧ escape c = ['\\', letter]) ∨
      escape c = spellOut c ∨ (escape c = [c] ∧ c ≠ '\\' ∧ c ≠ '"') := by
  unfold escape
  cases h : escapeLetter? c with
  | some letter => exact .inl ⟨letter, rfl, rfl⟩
  | none =>
    have hne : ∀ d, (escapeLetter? d).isSome = true → c ≠ d := by
      rintro d hd rfl
      rw [h] at hd
      cases hd
    dsimp only
    split
    · exact .inr (.inl rfl)
    · exact .inr (.inr ⟨rfl, hne '\\' rfl, hne '"' rfl⟩)

/-- No character starts like the closing quote. -/
theorem exists_cons_escape (c : Char) : ∃ first rest, escape c = first :: rest ∧ first ≠ '"' := by
  rcases escape_cases c with ⟨letter, -, h⟩ | h | ⟨h, -, hquote⟩
  · exact ⟨'\\', [letter], h, by decide⟩
  · exact ⟨'\\', _, h, by decide⟩
  · exact ⟨c, [], h, hquote⟩

/-- Inside quotes it can be seen where a character ends and which one it is. -/
theorem escape_append_injective {c d : Char} {r r' : Text} (h : escape c ++ r = escape d ++ r') :
    c = d ∧ r = r' := by
  rcases escape_cases c with ⟨letter, hc, hec⟩ | hec | ⟨hec, hslash, -⟩ <;>
    rcases escape_cases d with ⟨letter', hd, hed⟩ | hed | ⟨hed, hslash', -⟩ <;> rw [hec, hed] at h
  · obtain ⟨rfl, rfl⟩ : letter = letter' ∧ r = r' := by simpa using h
    exact ⟨escapeLetter?_injective hc hd, rfl⟩
  · obtain ⟨rfl, -⟩ : letter = 'u' ∧ _ := by simpa [spellOut] using h
    exact absurd hc (escapeLetter?_ne_u c)
  · exact absurd (List.cons.inj h).1.symm hslash'
  · obtain ⟨rfl, -⟩ : 'u' = letter' ∧ _ := by simpa [spellOut] using h
    exact absurd hd (escapeLetter?_ne_u d)
  · exact spellOut_append_injective h
  · exact absurd (List.cons.inj h).1.symm hslash'
  · exact absurd (List.cons.inj h).1 hslash
  · exact absurd (List.cons.inj h).1 hslash
  · exact List.cons.inj h

/-! ## Quoted texts -/

theorem flatMap_escape_injective {s t r r' : Text}
    (h : s.flatMap escape ++ '"' :: r = t.flatMap escape ++ '"' :: r') : s = t ∧ r = r' := by
  induction s generalizing t with
  | nil =>
    cases t with
    | nil => exact ⟨rfl, (List.cons.inj h).2⟩
    | cons d t =>
      obtain ⟨first, rest, hd, hquote⟩ := exists_cons_escape d
      rw [List.flatMap_cons, hd] at h
      exact absurd (List.cons.inj h).1.symm hquote
  | cons c s ih =>
    cases t with
    | nil =>
      obtain ⟨first, rest, hc, hquote⟩ := exists_cons_escape c
      rw [List.flatMap_cons, hc] at h
      exact absurd (List.cons.inj h).1 hquote
    | cons d t =>
      rw [List.flatMap_cons, List.flatMap_cons, List.append_assoc, List.append_assoc] at h
      obtain ⟨rfl, hrest⟩ := escape_append_injective h
      obtain ⟨rfl, rfl⟩ := ih hrest
      exact ⟨rfl, rfl⟩

/-- Where a quoted text ends and what it says does not depend on what stands behind it. -/
theorem quote_append_injective {s t r r' : Text} (h : quote s ++ r = quote t ++ r') : s = t ∧ r = r' := by
  simp only [quote, List.cons_append, List.append_assoc, List.nil_append, List.cons.injEq, true_and] at h
  exact flatMap_escape_injective h

end TemplateExpressions.Text
