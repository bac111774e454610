/-!
# Text

A text is a list of characters. Places in a text are counted in bytes of its UTF-8 form (`bytes`),
lengths and indices in characters. `pieces` and `joinWith` are inverse to each other on texts
without the separator.
-/

set_option autoImplicit false

namespace TemplateExpressions

/-- A text, character by character. -/
abbrev Text := List Char

namespace Text

/-- The number of bytes of the UTF-8 form of a text. -/
def bytes : Text → Nat
  | [] => 0
  | c :: t => c.utf8Size + bytes t

theorem bytes_nil : bytes [] = 0 := rfl

theorem bytes_cons (c : Char) (t : Text) : bytes (c :: t) = c.utf8Size + bytes t := rfl

theorem bytes_append (s t : Text) : bytes (s ++ t) = bytes s + bytes t := by
  induction s with
  | nil => simp [bytes]
  | cons c s ih => simp [bytes, ih, Nat.add_assoc]

/-- The stretches of a text between the occurrences of a separator; there is always one. -/
def pieces (separator : Char) : Text → List Text
  | [] => [[]]
  | c :: t =>
    if c = separator then [] :: pieces separator t
    else
      match pieces separator t with
      | [] => [[c]]
      | first :: others => (c :: first) :: others

/-- Texts written one after the other with a separator between neighbours. -/
def joinWith (separator : Text) : List Text → Text
  | [] => []
  | [last] => last
  | first :: others => first ++ separator ++ joinWith separator others

theorem joinWith_cons_cons (separator p q : Text) (ps : List Text) :
    joinWith separator (p :: q :: ps) = p ++ separator ++ joinWith separator (q :: ps) := rfl

theorem pieces_ne_nil (separator : Char) (t : Text) : pieces separator t ≠ [] := by
  cases t with
  | nil => simp [pieces]
  | cons c t =>
    unfold pieces
    split
    · simp
    · split <;> simp

/-- Nothing is lost by splitting. -/
theorem joinWith_pieces (separator : Char) (t : Text) :
    joinWith [separator] (pieces separator t) = t := by
  induction t with
  | nil => rfl
  | cons c t ih =>
    unfold pieces
    split
    · rename_i h
      cases hs : pieces separator t with
      | nil => exact absurd hs (pieces_ne_nil separator t)
      | cons p ps => rw [joinWith_cons_cons, ← hs, ih, h]; rfl
    · cases hs : pieces separator t with
      | nil => exact absurd hs (pieces_ne_nil separator t)
      | cons p ps =>
        rw [hs] at ih
        cases ps with
        | nil => simp only [joinWith] at ih ⊢; rw [ih]
        | cons q ps => rw [joinWith_cons_cons] at ih ⊢; rw [← ih]; rfl

/-- No stretch holds the separator. -/
theorem separator_notMem_of_mem_pieces (separator : Char) (t : Text) :
    ∀ p ∈ pieces separator t, separator ∉ p := by
  induction t with
  | nil => simp [pieces]
  | cons c t ih =>
    unfold pieces
    split
    · intro p hp
      rcases List.mem_cons.1 hp with h | h
      · simp [h]
      · exact ih p h
    · rename_i hc
      cases hs : pieces separator t with
      | nil => exact absurd hs (pieces_ne_nil separator t)
      | cons q qs =>
        rw [hs] at ih
        intro p hp
        rcases List.mem_cons.1 hp with h | h
        · subst h
          have := ih q List.mem_cons_self
          simp only [List.mem_cons, not_or]
          exact ⟨fun e => hc e.symm, this⟩
        · exact ih p (List.mem_cons_of_mem _ h)

/-- A line that a line feed ends, without a carriage return before it. -/
def withoutReturn (line : Text) : Text :=
  if line.getLast? = some '\r' then line.dropLast else line

/-- The lines of a text. Each ends with a line feed or with a carriage return and a line feed; what
is left behind the last line feed is a line of its own, unless it is empty. -/
def lines (t : Text) : List Text :=
  let stretches := pieces '\n' t
  stretches.dropLast.map withoutReturn ++
    (stretches.drop (stretches.length - 1)).filter (!·.isEmpty)

/-- The text with the letters `a` to `z` raised; all other characters stay. -/
def upper (t : Text) : Text := t.map Char.toUpper

/-- The text with the letters `A` to `Z` lowered; all other characters stay. -/
def lower (t : Text) : Text := t.map Char.toLower

end Text
end TemplateExpressions
