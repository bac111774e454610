import TemplateExpressions.Text.Basic

/-!
# Terminal controls

A text from outside may hold characters that steer a terminal: control characters, and sequences
that begin with an escape character. `withoutControls` takes them away and keeps what a terminal
would print, and tabs, form feeds and line ends. Main statements: no other control is left
(`isLayout_of_mem_withoutControls`), and a text without controls stays as it is
(`withoutControls_eq_self`).
-/

set_option autoImplicit false

namespace TemplateExpressions.Text

/-- A control character. -/
def isControl (c : Char) : Bool := c < ' ' || c == '\x7f'

/-- A control character that lays text out. -/
def isLayout (c : Char) : Bool := c == '\t' || c == '\n' || c == '\x0c' || c == '\r'

/-- A space or a printing ASCII character: only these tell where a sequence ends. -/
def isPrinting (c : Char) : Bool := ' ' ≤ c && c ≤ '~'

/-- A character with the byte of the string terminator in its UTF-8 form. -/
def endsString (c : Char) : Bool := (String.utf8EncodeChar c).contains 0x9C

/-- What a character stands in. -/
inductive Passage where
  /-- Text. -/
  | plain
  /-- The place behind an escape character. -/
  | escape
  /-- An escape sequence that needs one more character. -/
  | escapeMiddle
  /-- A control sequence, which an escape and `[` open. -/
  | sequence
  /-- A command for the system, which an escape and `]` open and a bell closes. -/
  | command
  /-- The place behind an escape and `P`, which open a device control string. -/
  | deviceHead
  /-- The parameters of a device control string. -/
  | deviceParameters
  /-- The characters between the parameters of a device control string and its contents. -/
  | deviceMiddle
  /-- The contents of a string, which a string terminator closes. -/
  | string
deriving DecidableEq

namespace Passage

/-- What an escape character and a printing character open. -/
def ofIntroducer (c : Char) : Passage :=
  match c with
  | '[' => sequence
  | ']' => command
  | 'P' => deviceHead
  | 'X' | '^' | '_' => string
  | _ => if c < '0' then escapeMiddle else plain

/-- What stands behind a character. An escape character begins anew and a cancel or substitute
character gives up, wherever they stand; a layout character gives up a sequence but not a string. -/
def next (p : Passage) (c : Char) : Passage :=
  if c = '\x1b' then escape
  else if c = '\x18' || c = '\x1a' then plain
  else
    match p with
    | plain => plain
    | escape =>
      if isLayout c then plain else if isPrinting c then ofIntroducer c else escape
    | escapeMiddle => if isLayout c || isPrinting c && '0' ≤ c then plain else escapeMiddle
    | sequence => if isLayout c || isPrinting c && '@' ≤ c then plain else sequence
    | command => if c = '\x07' then plain else command
    | deviceHead =>
      if !isPrinting c then deviceHead
      else if c < '0' then deviceMiddle
      else if c < '@' then deviceParameters
      else string
    | deviceParameters =>
      if !isPrinting c then deviceParameters
      else if c < '0' then deviceMiddle
      else if c < '<' then deviceParameters
      else string
    | deviceMiddle => if isPrinting c && '0' ≤ c then string else deviceMiddle
    | string => if endsString c then plain else string

/-- Whether a character is to be seen: text, and layout outside strings. -/
def shows (p : Passage) (c : Char) : Bool :=
  match p with
  | plain => isLayout c || !isControl c
  | escape | escapeMiddle | sequence => isLayout c
  | command | deviceHead | deviceParameters | deviceMiddle | string => false

/-- What is to be seen of a text that begins in a passage. -/
def shown : Passage → Text → Text
  | _, [] => []
  | p, c :: t => if p.shows c then c :: (p.next c).shown t else (p.next c).shown t

theorem isLayout_of_shows {p : Passage} {c : Char} (h : p.shows c = true)
    (hc : isControl c = true) : isLayout c = true := by
  cases p <;> simp_all [shows]

/-- Of the controls in a text only layout is to be seen. -/
theorem isLayout_of_mem_shown {c : Char} (hc : isControl c = true) :
    ∀ {t : Text} {p : Passage}, c ∈ p.shown t → isLayout c = true
  | [], _, h => by simp [shown] at h
  | d :: t, p, h => by
    unfold shown at h
    split at h
    · rename_i hd
      rcases List.mem_cons.1 h with rfl | h
      · exact isLayout_of_shows hd hc
      · exact isLayout_of_mem_shown hc h
    · exact isLayout_of_mem_shown hc h

theorem next_plain {c : Char} (h : isControl c = false) : plain.next c = plain := by
  have hc : c ≠ '\x1b' := by
    rintro rfl
    exact absurd h (by decide)
  simp [next, hc]

theorem shown_plain : ∀ {t : Text}, (∀ c ∈ t, isControl c = false) → plain.shown t = t
  | [], _ => rfl
  | c :: t, h => by
    have hc := h c List.mem_cons_self
    have ht := shown_plain fun d hd => h d (List.mem_cons_of_mem c hd)
    simp [shown, shows, hc, next_plain hc, ht]

end Passage

/-- The text without what steers a terminal. -/
def withoutControls (t : Text) : Text := Passage.plain.shown t

/-- The controls that are left lay text out. -/
theorem isLayout_of_mem_withoutControls {t : Text} {c : Char} (h : c ∈ withoutControls t)
    (hc : isControl c = true) : isLayout c = true :=
  Passage.isLayout_of_mem_shown hc h

/-- A text without controls stays as it is. -/
theorem withoutControls_eq_self {t : Text} (h : ∀ c ∈ t, isControl c = false) :
    withoutControls t = t :=
  Passage.shown_plain h

end TemplateExpressions.Text
