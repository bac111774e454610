import TemplateExpressions.Proofs.Template.Grammar

/-!
# Templates as a parsing expression grammar

The form of templates is given by a parsing expression grammar: choices are ordered, repetition takes as
much as it can, and looking ahead takes nothing. `Peg.Parses` is what a parsing expression makes of a text:
the nodes of its rules and the rest of the text, or a failure. Main statements: there is one result at most
(`Parses.unique`); the grammar of templates gives the parts that are read, or fails where reading stops
(`parses_template_iff`); joining literal text while walking the nodes gives the pieces (`gather_nodes`).
-/

set_option autoImplicit false

namespace TemplateExpressions.Template

/-- The rules of the grammar that leave nodes. -/
inductive Rule where
  | literal
  | escaped
  | simple
  | braced
  | bracedPath
  | name
deriving DecidableEq

/-- What a rule leaves of the text that it takes. -/
inductive Node where
  | mk (rule : Rule) (text : Text) (inner : List Node)

namespace Node

/-- The text that the rule took. -/
def text : Node → Text
  | mk _ text _ => text

end Node

/-- A parsing expression. -/
inductive Peg where
  /-- One character of a kind. -/
  | one (p : Char → Bool)
  /-- The given text. -/
  | exactly (text : Text)
  | seq (first second : Peg)
  /-- The second one only if the first one fails. -/
  | choice (first second : Peg)
  /-- As often as possible. -/
  | star (e : Peg)
  /-- Succeeds where the other one fails, and takes nothing. -/
  | unless (e : Peg)
  /-- A rule that keeps the nodes inside it. -/
  | node (rule : Rule) (e : Peg)
  /-- A rule that leaves out the nodes inside it. -/
  | atomic (rule : Rule) (e : Peg)

namespace Peg

/-- The nodes and the rest, or `none` for a failure. -/
abbrev Result := Option (List Node × Text)

/-- What a parsing expression makes of a text. -/
inductive Parses : Peg → Text → Result → Prop
  | one_ok {p : Char → Bool} {c : Char} {t : Text} : p c = true →
      Parses (.one p) (c :: t) (some ([], t))
  | one_fail {p : Char → Bool} {c : Char} {t : Text} : p c = false → Parses (.one p) (c :: t) none
  | one_end {p : Char → Bool} : Parses (.one p) [] none
  | exactly_ok {s t rest : Text} : t = s ++ rest → Parses (.exactly s) t (some ([], rest))
  | exactly_fail {s t : Text} : ¬ s <+: t → Parses (.exactly s) t none
  | seq_ok {a b : Peg} {t t' rest : Text} {ns ms : List Node} : Parses a t (some (ns, t')) →
      Parses b t' (some (ms, rest)) → Parses (.seq a b) t (some (ns ++ ms, rest))
  | seq_fail_first {a b : Peg} {t : Text} : Parses a t none → Parses (.seq a b) t none
  | seq_fail_second {a b : Peg} {t t' : Text} {ns : List Node} : Parses a t (some (ns, t')) →
      Parses b t' none → Parses (.seq a b) t none
  | choice_first {a b : Peg} {t rest : Text} {ns : List Node} : Parses a t (some (ns, rest)) →
      Parses (.choice a b) t (some (ns, rest))
  | choice_second {a b : Peg} {t : Text} {result : Result} : Parses a t none →
      Parses b t result → Parses (.choice a b) t result
  | star_done {a : Peg} {t : Text} : Parses a t none → Parses (.star a) t (some ([], t))
  | star_more {a : Peg} {t t' rest : Text} {ns ms : List Node} : Parses a t (some (ns, t')) →
      Parses (.star a) t' (some (ms, rest)) → Parses (.star a) t (some (ns ++ ms, rest))
  | unless_ok {a : Peg} {t : Text} : Parses a t none → Parses (.unless a) t (some ([], t))
  | unless_fail {a : Peg} {t rest : Text} {ns : List Node} : Parses a t (some (ns, rest)) →
      Parses (.unless a) t none
  | node_ok {rule : Rule} {a : Peg} {s t rest : Text} {ns : List Node} : t = s ++ rest →
      Parses a t (some (ns, rest)) → Parses (.node rule a) t (some ([.mk rule s ns], rest))
  | node_fail {rule : Rule} {a : Peg} {t : Text} : Parses a t none → Parses (.node rule a) t none
  | atomic_ok {rule : Rule} {a : Peg} {s t rest : Text} {ns : List Node} : t = s ++ rest →
      Parses a t (some (ns, rest)) → Parses (.atomic rule a) t (some ([.mk rule s []], rest))
  | atomic_fail {rule : Rule} {a : Peg} {t : Text} : Parses a t none →
      Parses (.atomic rule a) t none

/-- A text has one result at most. -/
theorem Parses.unique {e : Peg} {t : Text} {result result' : Result} (h : Parses e t result)
    (h' : Parses e t result') : result = result' := by
  induction h generalizing result' with
  | one_ok hp =>
    cases h' with
    | one_ok _ => rfl
    | one_fail hp' => rw [hp] at hp'; cases hp'
  | one_fail hp =>
    cases h' with
    | one_ok hp' => rw [hp] at hp'; cases hp'
    | one_fail _ => rfl
  | one_end =>
    cases h'
    rfl
  | exactly_ok hs =>
    cases h' with
    | exactly_ok hs' => rw [List.append_cancel_left (hs.symm.trans hs')]
    | exactly_fail hs' => exact absurd ⟨_, hs.symm⟩ hs'
  | exactly_fail hs =>
    cases h' with
    | exactly_ok hs' => exact absurd ⟨_, hs'.symm⟩ hs
    | exactly_fail _ => rfl
  | seq_ok _ _ ih₁ ih₂ =>
    cases h' with
    | seq_ok h₁ h₂ =>
      cases ih₁ h₁
      cases ih₂ h₂
      rfl
    | seq_fail_first h₁ => cases ih₁ h₁
    | seq_fail_second h₁ h₂ =>
      cases ih₁ h₁
      cases ih₂ h₂
  | seq_fail_first _ ih₁ =>
    cases h' with
    | seq_ok h₁ _ => cases ih₁ h₁
    | seq_fail_first _ => rfl
    | seq_fail_second _ _ => rfl
  | seq_fail_second _ _ ih₁ ih₂ =>
    cases h' with
    | seq_ok h₁ h₂ =>
      cases ih₁ h₁
      cases ih₂ h₂
    | seq_fail_first _ => rfl
    | seq_fail_second _ _ => rfl
  | choice_first _ ih =>
    cases h' with
    | choice_first h₁ => exact ih h₁
    | choice_second h₁ _ => cases ih h₁
  | choice_second _ _ ih₁ ih₂ =>
    cases h' with
    | choice_first h₁ => cases ih₁ h₁
    | choice_second _ h₂ => exact ih₂ h₂
  | star_done _ ih =>
    cases h' with
    | star_done _ => rfl
    | star_more h₁ _ => cases ih h₁
  | star_more _ _ ih₁ ih₂ =>
    cases h' with
    | star_done h₁ => cases ih₁ h₁
    | star_more h₁ h₂ =>
      cases ih₁ h₁
      cases ih₂ h₂
      rfl
  | unless_ok _ ih =>
    cases h' with
    | unless_ok _ => rfl
    | unless_fail h₁ => cases ih h₁
  | unless_fail _ ih =>
    cases h' with
    | unless_ok h₁ => cases ih h₁
    | unless_fail _ => rfl
  | node_ok hs _ ih =>
    cases h' with
    | node_ok hs' h₁ =>
      cases ih h₁
      rw [List.append_cancel_right (hs.symm.trans hs')]
    | node_fail h₁ => cases ih h₁
  | node_fail _ ih =>
    cases h' with
    | node_ok _ h₁ => cases ih h₁
    | node_fail _ => rfl
  | atomic_ok hs _ ih =>
    cases h' with
    | atomic_ok hs' h₁ =>
      cases ih h₁
      rw [List.append_cancel_right (hs.symm.trans hs')]
    | atomic_fail h₁ => cases ih h₁
  | atomic_fail _ ih =>
    cases h' with
    | atomic_ok _ h₁ => cases ih h₁
    | atomic_fail _ => rfl

/-! ## The grammar of templates -/

/-- Any character. -/
def any : Peg := .one fun _ => true

/-- Any character where the given expression fails. -/
def anyBut (e : Peg) : Peg := .seq (.unless e) any

/-- Once or not at all. -/
def optional (e : Peg) : Peg := .choice e (.exactly [])

/-- At least once. -/
def plus (e : Peg) : Peg := .seq e (.star e)

/-- A letter, then letters, digits and underscores. -/
def name : Peg :=
  .atomic .name (.seq (.one Char.isAlpha) (.star (.choice (.one Char.isAlphanum) (.exactly ['_']))))

/-- A slash and all up to a closing brace or a dollar sign, or nothing. -/
def pathTail : Peg :=
  optional (.seq (.exactly ['/']) (.star (anyBut (.choice (.exactly ['\x7d']) (.exactly ['$'])))))

/-- A name and what may follow it behind a slash. -/
def bracedPath : Peg := .atomic .bracedPath (.seq name pathTail)

/-- A path between braces, behind a dollar sign. -/
def braced : Peg :=
  .node .braced (.seq (.exactly ['$', '\x7b']) (.seq bracedPath (.exactly ['\x7d'])))

/-- A name behind a dollar sign. -/
def simple : Peg := .node .simple (.seq (.exactly ['$']) name)

/-- A doubled dollar sign. -/
def escaped : Peg := .atomic .escaped (.exactly ['$', '$'])

/-- Characters up to a dollar sign. -/
def literal : Peg := .atomic .literal (plus (anyBut (.exactly ['$'])))

/-- A part of a template. -/
def part : Peg := .choice escaped (.choice braced (.choice simple literal))

/-- Parts up to the end of the text. -/
def template : Peg := .seq (.star part) (.unless any)

/-! ## Texts and single characters -/

theorem parses_exactly_none {s t : Text} (h : ∀ rest, t ≠ s ++ rest) :
    Parses (.exactly s) t none := by
  refine .exactly_fail ?_
  rintro ⟨rest, rfl⟩
  exact h rest rfl

/-- Takes one character of a kind off a text. -/
def takeOne (p : Char → Bool) : Text → Result
  | [] => none
  | c :: t => if p c then some ([], t) else none

theorem takeOne_of_true {p : Char → Bool} {c : Char} (hc : p c = true) (t : Text) :
    takeOne p (c :: t) = some ([], t) := by
  simp [takeOne, hc]

theorem takeOne_of_false {p : Char → Bool} {c : Char} (hc : p c = false) (t : Text) :
    takeOne p (c :: t) = none := by
  simp [takeOne, hc]

/-- The parsing expression takes one character of the kind and leaves no node. -/
def TakesOne (e : Peg) (p : Char → Bool) : Prop := ∀ t, Parses e t (takeOne p t)

theorem takesOne_one (p : Char → Bool) : TakesOne (.one p) p := by
  intro t
  cases t with
  | nil => exact .one_end
  | cons c t =>
    cases hc : p c with
    | true =>
      rw [takeOne_of_true hc]
      exact .one_ok hc
    | false =>
      rw [takeOne_of_false hc]
      exact .one_fail hc

theorem takesOne_exactly (c : Char) : TakesOne (.exactly [c]) (· == c) := by
  intro t
  cases t with
  | nil => exact parses_exactly_none fun rest h => by cases h
  | cons d t =>
    cases hd : d == c with
    | true =>
      rw [takeOne_of_true (p := (· == c)) hd, beq_iff_eq.1 hd]
      exact .exactly_ok rfl
    | false =>
      rw [takeOne_of_false (p := (· == c)) hd]
      exact parses_exactly_none fun rest h => beq_eq_false_iff_ne.1 hd (List.cons.inj h).1

theorem TakesOne.choice {a b : Peg} {p q : Char → Bool} (ha : TakesOne a p) (hb : TakesOne b q) :
    TakesOne (.choice a b) fun c => p c || q c := by
  intro t
  have hat := ha t
  have hbt := hb t
  cases t with
  | nil => exact .choice_second hat hbt
  | cons c t =>
    cases hp : p c with
    | true =>
      rw [takeOne_of_true hp] at hat
      rw [takeOne_of_true (by rw [hp, Bool.true_or])]
      exact .choice_first hat
    | false =>
      rw [takeOne_of_false hp] at hat
      have hor : takeOne (fun c => p c || q c) (c :: t) = takeOne q (c :: t) := by
        simp [takeOne, hp]
      rw [hor]
      exact .choice_second hat hbt

theorem TakesOne.anyBut {a : Peg} {p : Char → Bool} (ha : TakesOne a p) :
    TakesOne (anyBut a) fun c => !p c := by
  intro t
  have hat := ha t
  cases t with
  | nil => exact .seq_fail_second (.unless_ok hat) .one_end
  | cons c t =>
    cases hp : p c with
    | true =>
      rw [takeOne_of_true hp] at hat
      rw [takeOne_of_false (by rw [hp, Bool.not_true])]
      exact .seq_fail_first (.unless_fail hat)
    | false =>
      rw [takeOne_of_false hp] at hat
      rw [takeOne_of_true (by rw [hp, Bool.not_false])]
      exact .seq_ok (.unless_ok hat) (.one_ok rfl)

/-- Repetition takes all characters of the kind. -/
theorem TakesOne.star {a : Peg} {p : Char → Bool} (ha : TakesOne a p) (t : Text) :
    Parses (.star a) t (some ([], t.dropWhile p)) := by
  induction t with
  | nil => exact .star_done (ha [])
  | cons c t ih =>
    have hat := ha (c :: t)
    cases hp : p c with
    | true =>
      rw [takeOne_of_true hp] at hat
      rw [List.dropWhile_cons_of_pos hp]
      exact .star_more hat ih
    | false =>
      rw [takeOne_of_false hp] at hat
      rw [List.dropWhile_cons_of_neg (by simp [hp])]
      exact .star_done hat

/-! ## Names and paths -/

theorem parses_name (t : Text) :
    Parses name t ((Text.readName t).map fun r => ([.mk .name r.1 []], r.2)) := by
  have hmore : TakesOne (.choice (.one Char.isAlphanum) (.exactly ['_'])) Text.isNamePart :=
    (takesOne_one Char.isAlphanum).choice (takesOne_exactly '_')
  cases t with
  | nil => exact .atomic_fail (.seq_fail_first .one_end)
  | cons c t =>
    simp only [Text.readName]
    cases hc : c.isAlpha with
    | true =>
      have htext : c :: t = (c :: t.takeWhile Text.isNamePart) ++ t.dropWhile Text.isNamePart := by
        simp
      exact .atomic_ok htext (.seq_ok (.one_ok hc) (hmore.star t))
    | false => exact .atomic_fail (.seq_fail_first (.one_fail hc))

/-- What is left of a text that follows a name in braces. -/
def afterTail : Text → Text
  | '/' :: more => more.dropWhile isPathPart
  | t => t

theorem parses_pathTail (t : Text) : Parses pathTail t (some ([], afterTail t)) := by
  have hpart : TakesOne (anyBut (.choice (.exactly ['\x7d']) (.exactly ['$']))) isPathPart := by
    have hnot := ((takesOne_exactly '\x7d').choice (takesOne_exactly '$')).anyBut
    have hp : isPathPart = fun c => !(c == '\x7d' || c == '$') := by
      funext c
      simp [isPathPart, bne]
    rwa [hp]
  unfold afterTail
  split
  · rename_i more
    exact .choice_first (.seq_ok (.exactly_ok rfl) (hpart.star more))
  · rename_i hslash
    exact .choice_second (.seq_fail_first (parses_exactly_none hslash)) (.exactly_ok rfl)

/-- A path is taken with the brace that closes it. -/
theorem parses_bracedPath (t : Text) :
    Parses (.seq bracedPath (.exactly ['\x7d'])) t
      ((readBraced t).map fun r => ([.mk .bracedPath r.1 []], r.2)) := by
  have hname := parses_name t
  unfold readBraced
  cases hn : Text.readName t with
  | none =>
    rw [hn] at hname
    exact .seq_fail_first (.atomic_fail (.seq_fail_first hname))
  | some r =>
    obtain ⟨n, behind⟩ := r
    rw [hn] at hname
    obtain ⟨-, rfl, -⟩ := Text.readName_eq_some hn
    have hpath : ∀ path, n ++ behind = path ++ afterTail behind →
        Parses bracedPath (n ++ behind) (some ([.mk .bracedPath path []], afterTail behind)) :=
      fun path htext => .atomic_ok htext (.seq_ok hname (parses_pathTail behind))
    split
    · cases ‹_›
    · rename_i name rest he
      cases he
      exact .seq_ok (hpath n rfl) (.exactly_ok rfl)
    · rename_i name more he
      cases he
      have htext : n ++ '/' :: more =
          (n ++ '/' :: more.takeWhile isPathPart) ++ more.dropWhile isPathPart := by
        simp
      split
      · rename_i rest hrest
        exact .seq_ok (hpath _ htext) (.exactly_ok hrest)
      · rename_i hrest
        exact .seq_fail_second (hpath _ htext) (parses_exactly_none hrest)
    · rename_i hbrace hslash he
      cases he
      have hbehind : afterTail behind = behind := by
        unfold afterTail
        split
        · exact absurd rfl (hslash _ _)
        · rfl
      rw [hbehind] at hpath
      exact .seq_fail_second (hpath n rfl) (parses_exactly_none fun rest h => hbrace n rest (by rw [h]; rfl))

end Peg

/-! ## Parts -/

/-- The node of a part. -/
def Part.node : Part → Node
  | .plain text => .mk .literal text []
  | .escape => .mk .escaped ['$', '$'] []
  | .named name => .mk .simple ('$' :: name) [.mk .name name []]
  | .braced path => .mk .braced ('$' :: '\x7b' :: path ++ ['\x7d']) [.mk .bracedPath path []]

namespace Peg

theorem takesOne_plain : TakesOne (anyBut (.exactly ['$'])) (· != '$') :=
  (takesOne_exactly '$').anyBut

theorem parses_literal {c : Char} (hc : c ≠ '$') (t : Text) :
    Parses literal (c :: t) (some ([.mk .literal (c :: t.takeWhile (· != '$')) []],
      t.dropWhile (· != '$'))) := by
  have hfirst := takesOne_plain (c :: t)
  rw [takeOne_of_true (p := (· != '$')) (by simpa using hc)] at hfirst
  refine .atomic_ok ?_ (.seq_ok hfirst (takesOne_plain.star t))
  simp

theorem parses_literal_none {t : Text} (h : ∀ c rest, t = c :: rest → c = '$') :
    Parses literal t none := by
  have hfirst := takesOne_plain t
  cases t with
  | nil => exact .atomic_fail (.seq_fail_first hfirst)
  | cons c t =>
    rw [takeOne_of_false (p := (· != '$')) (by simpa using h c t rfl)] at hfirst
    exact .atomic_fail (.seq_fail_first hfirst)

theorem parses_braced (t : Text) :
    Parses braced ('$' :: '\x7b' :: t) ((readBraced t).map fun r => ([(Part.braced r.1).node], r.2)) := by
  have hpath := parses_bracedPath t
  cases hr : readBraced t with
  | none =>
    rw [hr] at hpath
    exact .node_fail (.seq_fail_second (.exactly_ok rfl) hpath)
  | some r =>
    obtain ⟨path, rest⟩ := r
    rw [hr] at hpath
    have htext : '$' :: '\x7b' :: t = ('$' :: '\x7b' :: path ++ ['\x7d']) ++ rest := by
      simp [readBraced_eq_some hr]
    exact .node_ok htext (.seq_ok (.exactly_ok rfl) hpath)

theorem parses_simple (t : Text) :
    Parses simple ('$' :: t) ((Text.readName t).map fun r => ([(Part.named r.1).node], r.2)) := by
  have hname := parses_name t
  cases hr : Text.readName t with
  | none =>
    rw [hr] at hname
    exact .node_fail (.seq_fail_second (.exactly_ok rfl) hname)
  | some r =>
    obtain ⟨n, rest⟩ := r
    rw [hr] at hname
    have htext : '$' :: t = ('$' :: n) ++ rest := by
      rw [List.cons_append, (Text.readName_eq_some hr).2.1]
    exact .node_ok htext (.seq_ok (.exactly_ok rfl) hname)

/-- Behind a dollar sign the grammar has what is read there. -/
theorem parses_part_dollar (t : Text) :
    Parses part ('$' :: t) ((readSite t).map fun r => ([r.1.node], r.2)) := by
  have hliteral : Parses literal ('$' :: t) none :=
    parses_literal_none fun c rest h => (List.cons.inj h).1.symm
  unfold readSite
  split
  · exact .choice_first (.atomic_ok rfl (.exactly_ok rfl))
  · rename_i rest
    have hescaped : Parses escaped ('$' :: '\x7b' :: rest) none :=
      .atomic_fail (parses_exactly_none fun r h => by cases h)
    have hsimple : Parses simple ('$' :: '\x7b' :: rest) none := parses_simple ('\x7b' :: rest)
    have hbraced := parses_braced rest
    refine .choice_second hescaped ?_
    cases hr : readBraced rest with
    | none =>
      rw [hr] at hbraced
      exact .choice_second hbraced (.choice_second hsimple hliteral)
    | some r =>
      rw [hr] at hbraced
      exact .choice_first hbraced
  · rename_i hdollar hbrace
    have hescaped : Parses escaped ('$' :: t) none :=
      .atomic_fail (parses_exactly_none fun r h => hdollar r (List.cons.inj h).2)
    have hbraced : Parses braced ('$' :: t) none :=
      .node_fail (.seq_fail_first (parses_exactly_none fun r h => hbrace r (List.cons.inj h).2))
    have hsimple := parses_simple t
    refine .choice_second hescaped (.choice_second hbraced ?_)
    cases hr : Text.readName t with
    | none =>
      rw [hr] at hsimple
      exact .choice_second hsimple hliteral
    | some r =>
      rw [hr] at hsimple
      exact .choice_first hsimple

/-- Nothing but plain text is taken where there is no dollar sign. -/
theorem parses_part {t : Text} {result : Result} (ht : ∀ rest, t ≠ '$' :: rest)
    (h : Parses literal t result) : Parses part t result := by
  have hescaped : Parses escaped t none :=
    .atomic_fail (parses_exactly_none fun r he => ht _ he)
  have hbraced : Parses braced t none :=
    .node_fail (.seq_fail_first (parses_exactly_none fun r he => ht _ he))
  have hsimple : Parses simple t none :=
    .node_fail (.seq_fail_first (parses_exactly_none fun r he => ht _ he))
  exact .choice_second hescaped (.choice_second hbraced (.choice_second hsimple h))

/-! ## Templates -/

/-- The parts of the grammar are those that are read. -/
theorem parses_parts (t : Text) :
    Parses (.star part) t (some ((read t).1.map Part.node, (read t).2)) := by
  fun_induction read t with
  | case1 =>
    have hnil : Parses literal [] none := parses_literal_none fun c rest h => by cases h
    exact .star_done (parses_part (fun _ h => by cases h) hnil)
  | case2 rest part rest' hsite parts left hr ih =>
    rw [hr] at ih
    have hpart := parses_part_dollar rest
    rw [hsite] at hpart
    exact .star_more hpart ih
  | case3 rest hsite =>
    have hpart := parses_part_dollar rest
    rw [hsite] at hpart
    exact .star_done hpart
  | case4 c rest hc parts left hr ih =>
    rw [hr] at ih
    have hpart := parses_part (fun _ h => hc (List.cons.inj h).1) (parses_literal hc rest)
    exact .star_more hpart ih

/-- The grammar has the nodes of the parts that are read, if nothing is left, and fails otherwise. -/
theorem parses_template_iff {t : Text} {result : Result} :
    Parses template t result ↔
      result = if (read t).2 = [] then some ((read t).1.map Part.node, []) else none := by
  have htemplate : Parses template t
      (if (read t).2 = [] then some ((read t).1.map Part.node, []) else none) := by
    have hparts := parses_parts t
    cases hleft : (read t).2 with
    | nil =>
      rw [hleft] at hparts
      have hends : Parses (.unless any) [] (some ([], [])) := .unless_ok .one_end
      have hall := Parses.seq_ok hparts hends
      rw [List.append_nil] at hall
      rw [if_pos rfl]
      exact hall
    | cons c left =>
      rw [hleft] at hparts
      rw [if_neg (List.cons_ne_nil _ _)]
      exact .seq_fail_second hparts (.unless_fail (.one_ok rfl))
  constructor
  · intro h
    exact h.unique htemplate
  · rintro rfl
    exact htemplate

end Peg

/-! ## Walking the nodes -/

/-- Literal text as a piece, if there is any. -/
def flush (literal : Text) : List (Piece Text) := if literal = [] then [] else [.literal literal]

/-- The pieces of a row of nodes, with the literal text that has been gathered so far. -/
def gather : Text → List Node → List (Piece Text)
  | literal, [] => flush literal
  | literal, .mk rule text inner :: nodes =>
    match rule with
    | .literal => gather (literal ++ text) nodes
    | .escaped => gather (literal ++ ['$']) nodes
    | .simple | .braced =>
      flush literal ++ .site ((inner.head?.map Node.text).getD []) :: gather [] nodes
    | .name | .bracedPath => gather literal nodes

theorem prepend_append (first second : Text) (ps : List (Piece Text)) :
    prepend (first ++ second) ps = prepend first (prepend second ps) := by
  cases ps with
  | nil => rfl
  | cons p ps =>
    cases p with
    | literal text => simp [prepend]
    | site content => rfl

/-- The pieces, with literal text in front of them if there is any. -/
def lead (literal : Text) (ps : List (Piece Text)) : List (Piece Text) :=
  if literal = [] then ps else prepend literal ps

theorem lead_append {text : Text} (htext : text ≠ []) (literal : Text) (ps : List (Piece Text)) :
    lead (literal ++ text) ps = lead literal (prepend text ps) := by
  have hne : literal ++ text ≠ [] := fun h => htext (List.append_eq_nil_iff.1 h).2
  unfold lead
  rw [if_neg hne]
  split
  · rename_i hliteral
    rw [hliteral, List.nil_append]
  · exact prepend_append literal text ps

theorem lead_site (literal content : Text) (ps : List (Piece Text)) :
    lead literal (.site content :: ps) = flush literal ++ .site content :: ps := by
  unfold lead flush
  split
  · rfl
  · rfl

/-- Gathering literal text from the left gives the pieces of the parts. -/
theorem gather_nodes {parts : List Part} (h : ∀ p ∈ parts, p.WellFormed) (literal : Text) :
    gather literal (parts.map Part.node) = lead literal (pieces parts) := by
  induction parts generalizing literal with
  | nil => rfl
  | cons p ps ih =>
    have hrest := ih fun q hq => h q (List.mem_cons_of_mem _ hq)
    cases p with
    | plain text =>
      have htext : text ≠ [] := (h _ List.mem_cons_self).1
      exact (hrest _).trans (lead_append htext literal _)
    | escape => exact (hrest _).trans (lead_append (List.cons_ne_nil _ _) literal _)
    | named name =>
      show flush literal ++ .site name :: gather [] _ = lead literal (.site name :: pieces ps)
      rw [hrest, lead_site]
      rfl
    | braced path =>
      show flush literal ++ .site path :: gather [] _ = lead literal (.site path :: pieces ps)
      rw [hrest, lead_site]
      rfl

/-! ## Parsing -/

theorem parses_template_of_reads {parts : List Part} {t : Text} (h : Reads parts t) :
    Peg.template.Parses t (some (parts.map Part.node, [])) := by
  rw [Peg.parses_template_iff, h.read_eq]
  rfl

/-- The grammar fails on what is no template, and on nothing else. -/
theorem parses_template_none_iff {t : Text} : Peg.template.Parses t none ↔ ¬ IsTemplate t := by
  constructor
  · intro h ht
    obtain ⟨parts, hreads⟩ := isTemplate_iff.1 ht
    cases h.unique (parses_template_of_reads hreads)
  · intro ht
    rw [Peg.parses_template_iff, if_neg]
    intro hleft
    exact ht (isTemplate_iff.2 ⟨_, reads_of_read hleft⟩)

/-- Parsing walks the nodes that the grammar gives. -/
theorem parse_of_parses {t rest : Text} {nodes : List Node}
    (h : Peg.template.Parses t (some (nodes, rest))) : parse t = .ok (gather [] nodes) := by
  by_cases ht : IsTemplate t
  · obtain ⟨parts, hreads⟩ := isTemplate_iff.1 ht
    cases h.unique (parses_template_of_reads hreads)
    rw [parse_of_reads hreads, gather_nodes hreads.wellFormed]
    rfl
  · cases h.unique (parses_template_none_iff.2 ht)

/-- Parsing fails where the grammar does, at the place where reading stops. -/
theorem parse_of_parses_none {t : Text} (h : Peg.template.Parses t none) :
    parse t = .error ⟨.invalidInterpolation, t, ⟨faultOffset t (read t).2, 1⟩⟩ :=
  parse_of_not_isTemplate (parses_template_none_iff.1 h)

end TemplateExpressions.Template
