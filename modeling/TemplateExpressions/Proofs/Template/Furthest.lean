import TemplateExpressions.Proofs.Template.Peg

/-!
# Where the grammar of templates gives up

`Peg.Fails e t u`: while `e` is tried on the text `t`, a rule that is not inside an atomic one fails on what
is left there, `u`. The furthest such place is where a parser says that a text is malformed. Main statements:
a part that is found has failed rules only where it starts (`fails_part`); so the furthest failure in a text
is in the part that reading stops at (`furthest_template`), and that is behind its dollar sign or behind its
opening brace (`furthest_part`).
-/

set_option autoImplicit false

namespace TemplateExpressions.Template.Peg

/-- A rule outside the atomic ones fails on `u` while the expression is tried on `t`. What is looked ahead at
is no failure. -/
inductive Fails : Peg → Text → Text → Prop
  | node_self {rule : Rule} {a : Peg} {t : Text} : Parses a t none → Fails (.node rule a) t t
  | node_inner {rule : Rule} {a : Peg} {t u : Text} : Fails a t u → Fails (.node rule a) t u
  | atomic_self {rule : Rule} {a : Peg} {t : Text} : Parses a t none → Fails (.atomic rule a) t t
  | seq_first {a b : Peg} {t u : Text} : Fails a t u → Fails (.seq a b) t u
  | seq_second {a b : Peg} {t t' u : Text} {ns : List Node} : Parses a t (some (ns, t')) →
      Fails b t' u → Fails (.seq a b) t u
  | choice_first {a b : Peg} {t u : Text} : Fails a t u → Fails (.choice a b) t u
  | choice_second {a b : Peg} {t u : Text} : Parses a t none → Fails b t u →
      Fails (.choice a b) t u
  | star_first {a : Peg} {t u : Text} : Fails a t u → Fails (.star a) t u
  | star_more {a : Peg} {t t' u : Text} {ns : List Node} : Parses a t (some (ns, t')) →
      Fails (.star a) t' u → Fails (.star a) t u

/-- A rule fails on `u`, and none fails nearer to the end of the text. -/
structure FurthestFailure (e : Peg) (t u : Text) : Prop where
  fails : Fails e t u
  furthest : ∀ v, Fails e t v → u <:+ v

/-- There is one furthest failure at most. -/
theorem FurthestFailure.unique {e : Peg} {t u v : Text} (h : FurthestFailure e t u)
    (h' : FurthestFailure e t v) : u = v :=
  (h.furthest v h'.fails).eq_of_length_le (h'.furthest u h.fails).length_le

/-! ## Names, paths and sites -/

theorem readName_of_parses_none {t : Text} (h : Parses name t none) : Text.readName t = none := by
  have hname := h.unique (parses_name t)
  simpa using hname.symm

theorem parses_name_none {t : Text} (h : Text.readName t = none) : Parses name t none := by
  have hname := parses_name t
  rwa [h] at hname

/-- A name and a braced path can fail only where they start. -/
theorem fails_name {t u : Text} (h : Fails name t u) : u = t ∧ Text.readName t = none := by
  cases h with
  | atomic_self hname => exact ⟨rfl, readName_of_parses_none (.atomic_fail hname)⟩

theorem fails_bracedPath {t u : Text} (h : Fails bracedPath t u) :
    u = t ∧ Text.readName t = none := by
  cases h with
  | atomic_self hpath =>
    refine ⟨rfl, ?_⟩
    cases hpath with
    | seq_fail_first hname => exact readName_of_parses_none hname
    | seq_fail_second hname htail => cases htail.unique (parses_pathTail _)

theorem fails_braced {s u : Text} (h : Fails braced s u) :
    u = s ∨ ∃ t, s = '$' :: '\x7b' :: t ∧ u = t ∧ Text.readName t = none := by
  cases h with
  | node_self _ => exact .inl rfl
  | node_inner h =>
    cases h with
    | seq_first h => cases h
    | seq_second hopen h =>
      cases hopen with
      | exactly_ok hs =>
        cases h with
        | seq_first h => exact .inr ⟨_, hs, fails_bracedPath h⟩
        | seq_second _ h => cases h

theorem fails_simple {s u : Text} (h : Fails simple s u) :
    u = s ∨ ∃ t, s = '$' :: t ∧ u = t ∧ Text.readName t = none := by
  cases h with
  | node_self _ => exact .inl rfl
  | node_inner h =>
    cases h with
    | seq_first h => cases h
    | seq_second hdollar h =>
      cases hdollar with
      | exactly_ok hs => exact .inr ⟨_, hs, fails_name h⟩

/-! ## Parts -/

theorem readSite_eq_none_of_parses {t : Text} (h : Parses part ('$' :: t) none) :
    readSite t = none := by
  have hpart := h.unique (parses_part_dollar t)
  simpa using hpart.symm

/-- A site in braces that starts with no name is no site. -/
theorem readSite_brace {t : Text} (h : Text.readName t = none) : readSite ('\x7b' :: t) = none := by
  simp [readSite, readBraced, h]

/-- Rules fail where a part is tried, and behind the dollar sign or the opening brace of what is no part. -/
theorem fails_part {s u : Text} (h : Fails part s u) :
    u = s ∨ ∃ t, s = '$' :: t ∧ readSite t = none ∧ Text.readName u = none ∧
      (u = t ∨ t = '\x7b' :: u) := by
  cases h with
  | choice_first h =>
    cases h with
    | atomic_self _ => exact .inl rfl
  | choice_second hescaped h =>
    cases h with
    | choice_first h =>
      rcases fails_braced h with rfl | ⟨t, rfl, rfl, hname⟩
      · exact .inl rfl
      · exact .inr ⟨_, rfl, readSite_brace hname, hname, .inr rfl⟩
    | choice_second hbraced h =>
      cases h with
      | choice_first h =>
        rcases fails_simple h with rfl | ⟨t, rfl, rfl, hname⟩
        · exact .inl rfl
        · have hsimple : Parses simple ('$' :: u) none :=
            .node_fail (.seq_fail_second (.exactly_ok rfl) (parses_name_none hname))
          have hliteral : Parses literal ('$' :: u) none :=
            parses_literal_none fun c rest h => (List.cons.inj h).1.symm
          have hpart : Parses part ('$' :: u) none :=
            .choice_second hescaped (.choice_second hbraced (.choice_second hsimple hliteral))
          exact .inr ⟨u, rfl, readSite_eq_none_of_parses hpart, hname, .inl rfl⟩
      | choice_second _ h =>
        cases h with
        | atomic_self _ => exact .inl rfl

/-- Where the grammar gives up behind a dollar sign that starts no part: behind the opening brace, if no name
follows there, and else behind the dollar sign. -/
def lastTried : Text → Text
  | '\x7b' :: t => if (Text.readName t).isSome then '\x7b' :: t else t
  | t => t

theorem lastTried_cases (t : Text) :
    lastTried t = t ∧ (∀ r, t = '\x7b' :: r → (Text.readName r).isSome = true) ∨
      t = '\x7b' :: lastTried t ∧ Text.readName (lastTried t) = none := by
  unfold lastTried
  split
  · rename_i r
    cases hname : Text.readName r with
    | some p =>
      refine .inl ⟨if_pos rfl, fun r' hr => ?_⟩
      cases hr
      rw [hname]
      rfl
    | none =>
      refine .inr ?_
      rw [if_neg (by simp)]
      exact ⟨rfl, hname⟩
  · rename_i hbrace
    exact .inl ⟨rfl, fun r hr => absurd hr (hbrace r)⟩

theorem lastTried_suffix (t : Text) : lastTried t <:+ t := by
  rcases lastTried_cases t with ⟨hlast, -⟩ | ⟨hlast, -⟩
  · exact ⟨[], hlast⟩
  · exact ⟨['\x7b'], hlast.symm⟩

theorem furthest_part {t : Text} (h : readSite t = none) :
    FurthestFailure part ('$' :: t) (lastTried t) := by
  have hname : Text.readName t = none := by
    cases hr : Text.readName t with
    | none => rfl
    | some r =>
      rw [readSite_of_readName hr] at h
      cases h
  have hpart := parses_part_dollar t
  rw [h] at hpart
  -- all four kinds of part have been tried where none is found
  obtain ⟨hescaped, hbraced⟩ : Parses escaped ('$' :: t) none ∧ Parses braced ('$' :: t) none := by
    cases hpart with
    | choice_second hescaped hrest =>
      cases hrest with
      | choice_second hbraced _ => exact ⟨hescaped, hbraced⟩
  refine ⟨?_, fun v hv => ?_⟩
  · rcases lastTried_cases t with ⟨hlast, -⟩ | ⟨hlast, hpath⟩
    · rw [hlast]
      have hsimple : Fails simple ('$' :: t) t := by
        have hfails : Fails name t t := by
          cases parses_name_none hname with
          | atomic_fail hinner => exact .atomic_self hinner
        exact .node_inner (.seq_second (.exactly_ok rfl) hfails)
      exact .choice_second hescaped (.choice_second hbraced (.choice_first hsimple))
    · have hinner : Fails bracedPath (lastTried t) (lastTried t) :=
        .atomic_self (.seq_fail_first (parses_name_none hpath))
      have hopen : '$' :: t = ['$', '\x7b'] ++ lastTried t := congrArg ('$' :: ·) hlast
      have hfails : Fails braced ('$' :: t) (lastTried t) :=
        .node_inner (.seq_second (.exactly_ok hopen) (.seq_first hinner))
      exact .choice_second hescaped (.choice_first hfails)
  · rcases fails_part hv with rfl | ⟨t', ht', -, hv', rfl | rfl⟩
    · exact (lastTried_suffix t).trans (List.suffix_cons _ _)
    · cases ht'
      exact lastTried_suffix t
    · cases ht'
      simp [lastTried, hv']

/-! ## Templates -/

theorem read_suffix (t : Text) : (read t).2 <:+ t := ⟨_, write_read t⟩

/-- Rules fail where parts start, and in the part that reading stops at. -/
theorem fails_parts {t u : Text} (h : Fails (.star part) t u) :
    (read t).2 <:+ u ∨ Fails part (read t).2 u := by
  fun_induction read t with
  | case1 => exact .inl List.nil_suffix
  | case2 rest p rest' hsite parts left hr ih =>
    rw [hr] at ih
    have hleft : left <:+ '$' :: rest := by
      have hleft := read_suffix rest'
      rw [hr] at hleft
      rw [readSite_eq_some hsite]
      exact hleft.trans (List.suffix_append _ _)
    cases h with
    | star_first hpart =>
      rcases fails_part hpart with rfl | ⟨t, ht, hnone, -⟩
      · exact .inl hleft
      · cases ht
        rw [hsite] at hnone
        cases hnone
    | star_more hpart hrest =>
      have hfound := parses_part_dollar rest
      rw [hsite] at hfound
      cases hpart.unique hfound
      exact ih hrest
  | case3 rest hsite =>
    cases h with
    | star_first hpart => exact .inr hpart
    | star_more hpart _ =>
      have hfound := parses_part_dollar rest
      rw [hsite] at hfound
      cases hpart.unique hfound
  | case4 c rest hc parts left hr ih =>
    rw [hr] at ih
    have hleft : left <:+ c :: rest := by
      have hleft := read_suffix (rest.dropWhile (· != '$'))
      rw [hr] at hleft
      exact (hleft.trans (List.dropWhile_suffix _)).trans (List.suffix_cons _ _)
    cases h with
    | star_first hpart =>
      rcases fails_part hpart with rfl | ⟨t, ht, -⟩
      · exact .inl hleft
      · exact absurd (List.cons.inj ht).1 hc
    | star_more hpart hrest =>
      have hfound := parses_part (fun _ h => hc (List.cons.inj h).1) (parses_literal hc rest)
      cases hpart.unique hfound
      exact ih hrest

/-- The part that reading stops at is tried. -/
theorem fails_parts_of_left {t u : Text} (h : Fails part (read t).2 u) : Fails (.star part) t u := by
  fun_induction read t with
  | case1 => exact .star_first h
  | case2 rest p rest' hsite parts left hr ih =>
    rw [hr] at ih
    have hfound := parses_part_dollar rest
    rw [hsite] at hfound
    exact .star_more hfound (ih h)
  | case3 rest hsite => exact .star_first h
  | case4 c rest hc parts left hr ih =>
    rw [hr] at ih
    exact .star_more (parses_part (fun _ h => hc (List.cons.inj h).1) (parses_literal hc rest)) (ih h)

/-- The furthest failure in a text is the one in the part that reading stops at. -/
theorem furthest_template {t after : Text} (hleft : (read t).2 = '$' :: after)
    (hsite : readSite after = none) : FurthestFailure template t (lastTried after) := by
  have hpart := furthest_part hsite
  refine ⟨.seq_first (fails_parts_of_left (hleft ▸ hpart.fails)), fun v hv => ?_⟩
  cases hv with
  | seq_first hv =>
    rcases fails_parts hv with hv | hv
    · rw [hleft] at hv
      exact ((lastTried_suffix after).trans (List.suffix_cons _ _)).trans hv
    · rw [hleft] at hv
      exact hpart.furthest v hv
  | seq_second _ hv => cases hv

end TemplateExpressions.Template.Peg
