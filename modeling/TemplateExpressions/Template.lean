import TemplateExpressions.Error
import TemplateExpressions.Text.Name
import TemplateExpressions.Expression

/-!
# Templates

A template is a row of parts: text without a dollar sign, a doubled dollar sign, and sites `$name`
and `$\x7bname/path\x7d`. `Part.write` writes a part, `read` takes as many parts off a text as there
are, and `pieces` turns parts into literal text and the contents of the sites. Reading loses nothing
(`write_read`).
-/

set_option autoImplicit false

namespace TemplateExpressions.Template

/-- A part of a template. -/
inductive Part where
  /-- Text without a dollar sign. -/
  | plain (text : Text)
  /-- A doubled dollar sign, which stands for one. -/
  | escape
  /-- A dollar sign and a name. -/
  | named (name : Text)
  /-- A dollar sign and a path between braces. -/
  | braced (path : Text)
deriving DecidableEq

/-- The text of a part. -/
def Part.write : Part → Text
  | .plain text => text
  | .escape => ['$', '$']
  | .named name => '$' :: name
  | .braced path => '$' :: '\x7b' :: path ++ ['\x7d']

/-- The text of a row of parts. -/
def write (parts : List Part) : Text := parts.flatMap Part.write

/-- A character that may stand in a braced path behind the first slash. -/
def isPathPart (c : Char) : Bool := c != '\x7d' && c != '$'

/-- Reads the path of a braced site up to the closing brace. -/
def readBraced (t : Text) : Option (Text × Text) :=
  match Text.readName t with
  | none => none
  | some (name, '\x7d' :: rest) => some (name, rest)
  | some (name, '/' :: more) =>
    match more.dropWhile isPathPart with
    | '\x7d' :: rest => some (name ++ '/' :: more.takeWhile isPathPart, rest)
    | _ => none
  | some _ => none

/-- Reads what follows a dollar sign. -/
def readSite : Text → Option (Part × Text)
  | '$' :: rest => some (.escape, rest)
  | '\x7b' :: rest => (readBraced rest).map fun r => (.braced r.1, r.2)
  | t => (Text.readName t).map fun r => (.named r.1, r.2)

theorem readBraced_eq_some {t path rest : Text} (h : readBraced t = some (path, rest)) :
    t = path ++ '\x7d' :: rest := by
  unfold readBraced at h
  split at h
  · simp at h
  · rename_i name rest' hn
    simp only [Option.some.injEq, Prod.mk.injEq] at h
    obtain ⟨rfl, rfl⟩ := h
    exact (Text.readName_eq_some hn).2.1.symm
  · rename_i name more hn
    split at h
    · rename_i rest' hm
      simp only [Option.some.injEq, Prod.mk.injEq] at h
      obtain ⟨rfl, rfl⟩ := h
      rw [← (Text.readName_eq_some hn).2.1, List.append_assoc, List.cons_append, ← hm,
        List.takeWhile_append_dropWhile]
    · simp at h
  · simp at h

/-- A site that is read is written as it stood. -/
theorem readSite_eq_some {t rest : Text} {part : Part} (h : readSite t = some (part, rest)) :
    '$' :: t = part.write ++ rest := by
  unfold readSite at h
  split at h
  · simp only [Option.some.injEq, Prod.mk.injEq] at h
    obtain ⟨rfl, rfl⟩ := h
    rfl
  · rename_i t
    obtain ⟨⟨path, rest'⟩, hb, he⟩ := Option.map_eq_some_iff.1 h
    simp only [Prod.mk.injEq] at he
    obtain ⟨rfl, rfl⟩ := he
    simp [Part.write, readBraced_eq_some hb]
  · obtain ⟨⟨name, rest'⟩, hn, he⟩ := Option.map_eq_some_iff.1 h
    simp only [Prod.mk.injEq] at he
    obtain ⟨rfl, rfl⟩ := he
    simp [Part.write, (Text.readName_eq_some hn).2.1]

theorem length_lt_of_readSite {t rest : Text} {part : Part} (h : readSite t = some (part, rest)) :
    rest.length < t.length + 1 := by
  have hw := congrArg List.length (readSite_eq_some h)
  simp only [List.length_cons, List.length_append] at hw
  cases part with
  | plain text =>
    unfold readSite at h
    split at h
    · simp at h
    · obtain ⟨r, _, he⟩ := Option.map_eq_some_iff.1 h
      simp at he
    · obtain ⟨r, _, he⟩ := Option.map_eq_some_iff.1 h
      simp at he
  | escape => simp [Part.write] at hw; omega
  | named name => simp [Part.write] at hw; omega
  | braced path => simp [Part.write] at hw; omega

/-- The parts that a text starts with, and what is left: nothing, or a text whose leading dollar
sign starts no part. -/
def read (t : Text) : List Part × Text :=
  match t with
  | [] => ([], [])
  | c :: rest =>
    if c = '$' then
      match _h : readSite rest with
      | some (part, rest') =>
        let (parts, left) := read rest'
        (part :: parts, left)
      | none => ([], c :: rest)
    else
      let (parts, left) := read (rest.dropWhile (· != '$'))
      (.plain (c :: rest.takeWhile (· != '$')) :: parts, left)
termination_by t.length
decreasing_by
  · have := length_lt_of_readSite _h
    simp; omega
  · have := (List.dropWhile_suffix (l := rest) (· != '$')).length_le
    simp; omega

/-- Reading loses nothing. -/
theorem write_read (t : Text) : write (read t).1 ++ (read t).2 = t := by
  fun_induction read t with
  | case1 => rfl
  | case2 rest part rest' h parts left hr ih =>
    rw [hr] at ih
    simp only [write, List.flatMap_cons, List.append_assoc] at ih ⊢
    rw [ih, ← readSite_eq_some h]
  | case3 rest h => rfl
  | case4 c rest hc parts left hr ih =>
    rw [hr] at ih
    simp only [write, List.flatMap_cons, List.append_assoc] at ih ⊢
    rw [ih]
    simp [Part.write]

/-- Puts text in front of a row of pieces, joined to literal text that stands there. -/
def prepend (text : Text) : List (Piece Text) → List (Piece Text)
  | .literal more :: pieces => .literal (text ++ more) :: pieces
  | pieces => .literal text :: pieces

/-- The literal text and the sites of a row of parts; neighbouring literal texts are joined. -/
def pieces : List Part → List (Piece Text)
  | [] => []
  | .plain text :: parts => prepend text (pieces parts)
  | .escape :: parts => prepend ['$'] (pieces parts)
  | .named name :: parts => .site name :: pieces parts
  | .braced path :: parts => .site path :: pieces parts

/-- The byte of the dollar sign to blame, for a template whose reading stopped before the text
`left`: the one that `left` starts with, unless it opens a site that starts with a further dollar
sign; then that one. -/
def faultOffset (t left : Text) : Nat :=
  let offset := Text.bytes t - Text.bytes left
  match left with
  | '$' :: '\x7b' :: '$' :: _ => offset + 2
  | _ => offset

/-- The pieces of a template. -/
def parse (t : Text) : Except CompileError (List (Piece Text)) :=
  match read t with
  | (parts, []) => .ok (pieces parts)
  | (_, left) => .error ⟨.invalidInterpolation, t, ⟨faultOffset t left, 1⟩⟩

end TemplateExpressions.Template
