import TemplateExpressions.Text.Basic

/-!
# Names

Expression types, variables and base names obey one rule: an ASCII letter, then ASCII letters,
digits and underscores. A text may start with a name and a colon, its type prefix.
-/

set_option autoImplicit false

namespace TemplateExpressions.Text

/-- A character that may follow the first letter of a name. -/
def isNamePart (c : Char) : Bool := c.isAlphanum || c == '_'

/-- Whether a text is a name. -/
def isName : Text → Bool
  | [] => false
  | c :: t => c.isAlpha && t.all isNamePart

/-- The longest name that a text starts with, and what follows it. -/
def readName : Text → Option (Text × Text)
  | [] => none
  | c :: t => if c.isAlpha then some (c :: t.takeWhile isNamePart, t.dropWhile isNamePart) else none

/-- What is read is a name, nothing is lost, and the name could not have been longer. -/
theorem readName_eq_some {t n r : Text} (h : readName t = some (n, r)) :
    isName n = true ∧ n ++ r = t ∧ (∀ c s, r = c :: s → isNamePart c = false) := by
  cases t with
  | nil => simp [readName] at h
  | cons c t =>
    simp only [readName] at h
    split at h
    · rename_i hc
      simp only [Option.some.injEq, Prod.mk.injEq] at h
      obtain ⟨rfl, rfl⟩ := h
      refine ⟨?_, ?_, ?_⟩
      · simp [isName, hc]
      · simp
      · intro d s hd
        have := List.head?_dropWhile_not isNamePart t
        rw [hd] at this
        simpa using this
    · simp at h

/-- The type prefix of a text and what follows the colon: the text up to its first colon, if that
is a name. No blank is skipped. -/
def splitPrefix (t : Text) : Option (Text × Text) :=
  match t.dropWhile (· != ':') with
  | [] => none
  | _ :: rest =>
    let name := t.takeWhile (· != ':')
    if isName name then some (name, rest) else none

/-- Whether a text starts with a name and a colon. -/
def hasPrefix (t : Text) : Bool := (splitPrefix t).isSome

end TemplateExpressions.Text
