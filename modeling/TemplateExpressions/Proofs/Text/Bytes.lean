import TemplateExpressions.Text.Blank
import TemplateExpressions.Text.Name

/-!
# Parts of a text

How many bytes parts of a text have, where a row of characters of a kind ends, and what the type prefix of a
text is. Main statements: a proper suffix has fewer bytes (`bytes_lt_of_suffix`), what trimming and splitting
leave over is a suffix (`trimStart_suffix`, `joinWith_suffix`), the prefix of a text is the name before its
first colon (`splitPrefix_eq_some_iff`), and that of the rest of a path is that of its first stretch
(`splitPrefix_trimStart_joinWith`).
-/

set_option autoImplicit false

namespace TemplateExpressions.Text

/-! ## Bytes -/

theorem length_le_bytes (t : Text) : t.length ≤ bytes t := by
  induction t with
  | nil => simp [bytes]
  | cons c t ih =>
    have hc := Char.utf8Size_pos c
    simp only [List.length_cons, bytes_cons]
    omega

theorem bytes_le_of_sublist {s t : Text} (h : s.Sublist t) : bytes s ≤ bytes t := by
  induction h with
  | slnil => exact Nat.le_refl _
  | cons c _ ih =>
    rw [bytes_cons]
    omega
  | cons_cons c _ ih =>
    simp only [bytes_cons]
    omega

/-- A proper suffix of a text has fewer bytes. -/
theorem bytes_lt_of_suffix {s t : Text} (h : s <:+ t) (hne : s ≠ t) : bytes s < bytes t := by
  obtain ⟨p, rfl⟩ := h
  have hp : p ≠ [] := fun hp => hne (by simp [hp])
  have hlength := List.length_pos_iff.2 hp
  have hbytes := length_le_bytes p
  rw [bytes_append]
  omega

/-- Only characters of one byte are raised, and to characters of one byte. -/
theorem utf8Size_toUpper (c : Char) : c.toUpper.utf8Size = c.utf8Size := by
  unfold Char.toUpper
  split
  · rename_i h
    have hc : c.val ≤ 127 := UInt32.le_trans h.2 (by decide)
    rw [Char.utf8Size_eq_one_iff.2 hc, Char.utf8Size_eq_one_iff]
    have hlow : 97 ≤ c.val.toNat := UInt32.le_iff_toNat_le.1 h.1
    have hhigh : c.val.toNat ≤ 122 := UInt32.le_iff_toNat_le.1 h.2
    have hshift : ('A'.val - 'a'.val).toNat = 4294967264 := by decide
    have hlimit : (127 : UInt32).toNat = 127 := by decide
    rw [UInt32.le_iff_toNat_le, UInt32.toNat_add]
    omega
  · rfl

theorem bytes_upper (t : Text) : bytes (upper t) = bytes t := by
  induction t with
  | nil => rfl
  | cons c t ih =>
    have hcons : upper (c :: t) = c.toUpper :: upper t := rfl
    rw [hcons, bytes_cons, bytes_cons, utf8Size_toUpper, ih]

/-- Raising makes no dollar signs. -/
theorem dollar_notMem_upper {t : Text} (h : '$' ∉ t) : '$' ∉ upper t := by
  intro hmem
  obtain ⟨c, hc, hup⟩ := List.mem_map.1 hmem
  unfold Char.toUpper at hup
  split at hup
  · rename_i hrange
    have hlow : 97 ≤ c.val.toNat := UInt32.le_iff_toNat_le.1 hrange.1
    have hhigh : c.val.toNat ≤ 122 := UInt32.le_iff_toNat_le.1 hrange.2
    have hval := congrArg UInt32.toNat (congrArg Char.val hup)
    have hshift : ('A'.val - 'a'.val).toNat = 4294967264 := by decide
    have hdollar : '$'.val.toNat = 36 := by decide
    rw [UInt32.toNat_add] at hval
    omega
  · exact h (hup ▸ hc)

theorem trimStart_suffix (t : Text) : trimStart t <:+ t := List.dropWhile_suffix isBlank

/-- What stands behind the first stretch is a suffix of the text that the stretches make up. -/
theorem joinWith_suffix (separator first : Text) (others : List Text) :
    joinWith separator others <:+ joinWith separator (first :: others) := by
  cases others with
  | nil => exact List.nil_suffix
  | cons second others =>
    rw [joinWith_cons_cons]
    exact List.suffix_append _ _

theorem joinWith_cons_eq_flatMap (separator first : Text) (others : List Text) :
    joinWith separator (first :: others) = first ++ others.flatMap (separator ++ ·) := by
  induction others generalizing first with
  | nil => simp [joinWith]
  | cons second others ih => rw [joinWith_cons_cons, ih, List.flatMap_cons, List.append_assoc, List.append_assoc]

theorem joinWith_cons_eq_append (separator first : Text) (others : List Text) :
    ∃ r, joinWith separator (first :: others) = first ++ r :=
  ⟨_, joinWith_cons_eq_flatMap separator first others⟩

/-- What starts with no blank is left as it is behind the text. -/
theorem trimStart_append {s t : Text} (ht : ∀ c, t.head? = some c → isBlank c = false) :
    trimStart (s ++ t) = trimStart s ++ t := by
  unfold trimStart
  rw [List.dropWhile_append]
  split
  · rename_i hblank
    rw [List.isEmpty_iff.1 hblank, List.nil_append]
    cases t with
    | nil => rfl
    | cons c t => exact List.dropWhile_cons_of_neg (by simp [ht c rfl])
  · rfl

/-! ## Rows of characters of a kind -/

theorem takeWhile_append_of_ends {α : Type} {p : α → Bool} {s r : List α} (hs : ∀ c ∈ s, p c = true)
    (hr : ∀ c ∈ r.head?, p c = false) : (s ++ r).takeWhile p = s ∧ (s ++ r).dropWhile p = r := by
  rw [List.takeWhile_append_of_pos hs, List.dropWhile_append_of_pos hs]
  cases r with
  | nil => simp
  | cons c r =>
    have hc : p c = false := hr c rfl
    simp [hc]

/-- Rows of characters of a kind, with something else behind them, are told apart. -/
theorem append_inj_of_ends {α : Type} {p : α → Bool} {s s' r r' : List α} (hs : ∀ c ∈ s, p c = true)
    (hs' : ∀ c ∈ s', p c = true) (hr : ∀ c ∈ r.head?, p c = false) (hr' : ∀ c ∈ r'.head?, p c = false)
    (h : s ++ r = s' ++ r') : s = s' ∧ r = r' := by
  obtain ⟨htake, hdrop⟩ := takeWhile_append_of_ends hs hr
  obtain ⟨htake', hdrop'⟩ := takeWhile_append_of_ends hs' hr'
  rw [h] at htake hdrop
  exact ⟨htake.symm.trans htake', hdrop.symm.trans hdrop'⟩

/-! ## Type prefixes -/

theorem isNamePart_of_isAlpha {c : Char} (h : c.isAlpha = true) : isNamePart c = true := by
  simp [isNamePart, Char.isAlphanum, h]

theorem notMem_of_isName {n : Text} (h : isName n = true) {c : Char} (hc : isNamePart c = false) :
    c ∉ n := by
  cases n with
  | nil => simp
  | cons d n =>
    simp only [isName, Bool.and_eq_true, List.all_eq_true] at h
    intro hmem
    rcases List.mem_cons.1 hmem with rfl | hmem
    · rw [isNamePart_of_isAlpha h.1] at hc
      cases hc
    · rw [h.2 c hmem] at hc
      cases hc

theorem colon_notMem_of_isName {n : Text} (h : isName n = true) : ':' ∉ n :=
  notMem_of_isName h (by decide)

/-- The prefix of a text is the name before its first colon. -/
theorem splitPrefix_eq_some_iff {t n r : Text} :
    splitPrefix t = some (n, r) ↔ isName n = true ∧ t = n ++ ':' :: r := by
  constructor
  · intro h
    unfold splitPrefix at h
    split at h
    · cases h
    · rename_i c rest hdrop
      have hsplit := List.takeWhile_append_dropWhile (p := (· != ':')) (l := t)
      have hc : c = ':' := by
        have hhead := List.head?_dropWhile_not (· != ':') t
        rw [hdrop] at hhead
        simpa using hhead
      dsimp only at h
      split at h
      · rename_i hname
        cases h
        rw [hdrop, hc] at hsplit
        exact ⟨hname, hsplit.symm⟩
      · cases h
  · rintro ⟨hname, rfl⟩
    have hn : ∀ c ∈ n, (c != ':') = true := by
      intro c hc
      have hne : c ≠ ':' := fun he => colon_notMem_of_isName hname (he ▸ hc)
      simpa using hne
    have htake : (n ++ ':' :: r).takeWhile (· != ':') = n := by
      rw [List.takeWhile_append_of_pos hn]
      simp
    have hdrop : (n ++ ':' :: r).dropWhile (· != ':') = ':' :: r := by
      rw [List.dropWhile_append_of_pos hn]
      simp
    simp [splitPrefix, hdrop, htake, hname]

/-- What neither goes on with a name nor starts with a colon gives a text no prefix and takes none away. -/
theorem splitPrefix_append {s t : Text}
    (ht : ∀ c, t.head? = some c → isNamePart c = false ∧ c ≠ ':') :
    splitPrefix (s ++ t) = (splitPrefix s).map (Prod.map id (· ++ t)) := by
  refine Option.ext fun ⟨n, r⟩ => ?_
  rw [splitPrefix_eq_some_iff, Option.map_eq_some_iff]
  constructor
  · rintro ⟨hname, heq⟩
    -- the colon stands in `s`: else the name would reach into `t`, or `t` would start with it
    rcases List.append_eq_append_iff.1 heq with ⟨k, hn, hk⟩ | ⟨k, hs, hk⟩
    · cases k with
      | nil => exact absurd rfl (ht ':' (by rw [hk]; rfl)).2
      | cons c k =>
        have hc := (ht c (by rw [hk]; rfl)).1
        exact absurd (by simp [hn]) (notMem_of_isName hname hc)
    · cases k with
      | nil => exact absurd rfl (ht ':' (by rw [← List.nil_append t, ← hk]; rfl)).2
      | cons c k =>
        obtain ⟨rfl, rfl⟩ := List.cons_eq_cons.1 hk
        exact ⟨(n, k), splitPrefix_eq_some_iff.2 ⟨hname, hs⟩, rfl⟩
  · rintro ⟨⟨n', r'⟩, hsplit, heq⟩
    obtain ⟨hname, rfl⟩ := splitPrefix_eq_some_iff.1 hsplit
    cases heq
    exact ⟨hname, by simp⟩

/-- A name that does not go on and has no colon behind it is no prefix. -/
theorem splitPrefix_append_eq_none {n rest : Text} (hname : isName n = true)
    (hrest : ∀ c, rest.head? = some c → isNamePart c = false ∧ c ≠ ':') :
    splitPrefix (n ++ rest) = none := by
  have hnone : splitPrefix n = none := by
    refine Option.eq_none_iff_forall_ne_some.2 fun ⟨m, r⟩ h => ?_
    obtain ⟨-, rfl⟩ := splitPrefix_eq_some_iff.1 h
    exact colon_notMem_of_isName hname (by simp)
  rw [splitPrefix_append hrest, hnone]
  rfl

/-- From a stretch of a path on, the text has the prefix that the stretch has behind its blanks, and all
later stretches stand behind what follows the prefix there. -/
theorem splitPrefix_trimStart_joinWith (stretch : Text) (later : List Text) :
    splitPrefix (trimStart (joinWith ['|'] (stretch :: later))) =
      (splitPrefix (trimStart stretch)).map fun p => (p.1, joinWith ['|'] (p.2 :: later)) := by
  have hbar : ∀ c, (later.flatMap (['|'] ++ ·)).head? = some c → c = '|' := by
    cases later with
    | nil => simp
    | cons second later => simp [eq_comm]
  have hblank : ∀ c, (later.flatMap (['|'] ++ ·)).head? = some c → isBlank c = false := by
    intro c hc
    rw [hbar c hc]
    decide
  have hname : ∀ c, (later.flatMap (['|'] ++ ·)).head? = some c → isNamePart c = false ∧ c ≠ ':' := by
    intro c hc
    rw [hbar c hc]
    decide
  simp only [joinWith_cons_eq_flatMap]
  rw [trimStart_append hblank, splitPrefix_append hname]
  rfl

theorem hasPrefix_trimStart_joinWith (stretch : Text) (later : List Text) :
    hasPrefix (trimStart (joinWith ['|'] (stretch :: later))) = hasPrefix (trimStart stretch) := by
  rw [hasPrefix, splitPrefix_trimStart_joinWith, Option.isSome_map]
  rfl

end TemplateExpressions.Text
