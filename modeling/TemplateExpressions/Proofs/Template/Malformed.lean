import TemplateExpressions.Proofs.Engine.Raised
import TemplateExpressions.Proofs.Template.Furthest

/-!
# Malformed templates

A text that is no template has a first malformed site: a dollar sign that starts no part, behind a template
(`MalformedAt`); there is one such place (`malformedAt_iff`). The error blames the last dollar sign that is
not behind the place where the grammar gave up. Main statements: that is the one that starts the malformed
site, unless an opening brace and a further dollar sign follow it, and then that further one
(`lastDollar_lastTried`); so it is for every error about a template, however deep it is nested
(`malformed_site_is_blamed`).
-/

set_option autoImplicit false

namespace TemplateExpressions

open Text

namespace Template

/-! ## The malformed site -/

/-- The dollar sign behind `before` starts the first malformed site of the text: a template stands before it,
and no part starts with it. -/
structure MalformedAt (t before after : Text) : Prop where
  text_eq : t = before ++ '$' :: after
  isTemplate : IsTemplate before
  no_part : ∀ (p : Part) (rest : Text), p.WellFormed → '$' :: after ≠ p.write ++ rest

/-- Where a part starts, one is read; it may be longer. -/
theorem readSite_isSome {p : Part} {t rest : Text} (hp : p.WellFormed) (h : '$' :: t = p.write ++ rest) :
    (readSite t).isSome = true := by
  cases p with
  | plain text =>
    obtain ⟨hne, hdollar⟩ := hp
    obtain ⟨c, text, rfl⟩ := List.exists_cons_of_ne_nil hne
    exact absurd ((List.cons.inj h).1 ▸ List.mem_cons_self) hdollar
  | escape =>
    cases h
    rfl
  | named name =>
    have ht : t = name ++ rest := (List.cons.inj h).2
    rw [ht, readSite_of_readName (readName_append_longest hp rest)]
    rfl
  | braced path =>
    have ht : t = '\x7b' :: (path ++ '\x7d' :: rest) := by
      simpa [Part.write] using (List.cons.inj h).2
    simp [ht, readSite, readBraced_append hp]

theorem no_part_iff {t : Text} :
    (∀ (p : Part) (rest : Text), p.WellFormed → '$' :: t ≠ p.write ++ rest) ↔ readSite t = none := by
  constructor
  · intro h
    cases hsite : readSite t with
    | none => rfl
    | some r => exact absurd (readSite_eq_some hsite) (h r.1 r.2 (sound_of_readSite hsite).1)
  · intro h p rest hp ht
    have hsome := readSite_isSome hp ht
    rw [h] at hsome
    cases hsome

/-- What could not have been longer could not be longer before a dollar sign. -/
theorem Part.EndsBefore.append_dollar {p : Part} {rest : Text} (h : p.EndsBefore rest) (t : Text) :
    p.EndsBefore (rest ++ '$' :: t) := by
  cases rest with
  | nil =>
    cases p with
    | plain text =>
      intro c hc
      cases hc
      rfl
    | named name =>
      intro c hc
      cases hc
      decide
    | escape => exact trivial
    | braced path => exact trivial
  | cons c rest =>
    cases p with
    | plain text => exact h
    | named name => exact h
    | escape => exact trivial
    | braced path => exact trivial

/-- Reading goes on at a dollar sign behind a template as if the template were not there. -/
theorem Reads.read_append_dollar {parts : List Part} {s : Text} (h : Reads parts s) (t : Text) :
    read (s ++ '$' :: t) = (parts ++ (read ('$' :: t)).1, (read ('$' :: t)).2) := by
  induction h with
  | done => rfl
  | part hp he _ ih =>
    rw [List.append_assoc, read_write_append hp (he.append_dollar t), ih]
    rfl

theorem wellFormed_of_mem_read {t : Text} : ∀ p ∈ (read t).1, p.WellFormed := by
  fun_induction read t with
  | case1 => simp
  | case2 rest part rest' hsite parts left hr ih =>
    rw [hr] at ih
    intro p hp
    rcases List.mem_cons.1 hp with rfl | hp
    · exact (sound_of_readSite hsite).1
    · exact ih p hp
  | case3 rest hsite => simp
  | case4 c rest hc parts left hr ih =>
    rw [hr] at ih
    intro p hp
    rcases List.mem_cons.1 hp with rfl | hp
    · refine ⟨List.cons_ne_nil _ _, fun hmem => ?_⟩
      rcases List.mem_cons.1 hmem with he | hmem
      · exact hc he.symm
      · have hplain := List.all_eq_true.1 List.all_takeWhile _ hmem
        simp at hplain
    · exact ih p hp

/-- Reading stops at a dollar sign that starts no part, if it stops. -/
theorem left_cases (t : Text) :
    (read t).2 = [] ∨ ∃ after, (read t).2 = '$' :: after ∧ readSite after = none := by
  fun_induction read t with
  | case1 => exact .inl rfl
  | case2 rest part rest' hsite parts left hr ih =>
    rw [hr] at ih
    exact ih
  | case3 rest hsite => exact .inr ⟨rest, rfl, hsite⟩
  | case4 c rest hc parts left hr ih =>
    rw [hr] at ih
    exact ih

theorem MalformedAt.left_eq {t before after : Text} (h : MalformedAt t before after) :
    (read t).2 = '$' :: after := by
  obtain ⟨parts, hreads⟩ := isTemplate_iff.1 h.isTemplate
  rw [h.text_eq, hreads.read_append_dollar, read_dollar, no_part_iff.1 h.no_part]

theorem exists_malformedAt {t : Text} (h : ¬ IsTemplate t) : ∃ before after, MalformedAt t before after := by
  rcases left_cases t with hleft | ⟨after, hleft, hsite⟩
  · exact absurd (isTemplate_iff.2 ⟨_, reads_of_read hleft⟩) h
  · have htext := write_read t
    rw [hleft] at htext
    exact ⟨write (read t).1, after, htext.symm, ⟨_, wellFormed_of_mem_read, rfl⟩, no_part_iff.2 hsite⟩

/-- There is one first malformed site. -/
theorem malformedAt_iff {t before after : Text} (h : MalformedAt t before after) {before' after' : Text} :
    MalformedAt t before' after' ↔ before' = before ∧ after' = after := by
  constructor
  · intro h'
    have hleft := h'.left_eq.symm.trans h.left_eq
    refine ⟨?_, (List.cons.inj hleft).2⟩
    have htext := h'.text_eq.symm.trans h.text_eq
    rw [hleft] at htext
    exact List.append_cancel_right htext
  · rintro ⟨rfl, rfl⟩
    exact h

/-! ## The last dollar sign -/

/-- The characters of a text with the bytes that they start at. -/
def charIndices (start : Nat) : Text → List (Nat × Char)
  | [] => []
  | c :: t => (start, c) :: charIndices (start + c.utf8Size) t

/-- The byte of the last dollar sign that is not behind a place; the place itself if there is none. -/
def lastDollar (t : Text) (place : Nat) : Nat :=
  (((charIndices 0 t).filter fun p => p.2 == '$' && decide (p.1 ≤ place)).map Prod.fst).getLast?.getD place

theorem charIndices_append (start : Nat) (s t : Text) :
    charIndices start (s ++ t) = charIndices start s ++ charIndices (start + bytes s) t := by
  induction s generalizing start with
  | nil => rfl
  | cons c s ih =>
    rw [List.cons_append, charIndices, ih, bytes_cons, Nat.add_assoc]
    rfl

theorem filter_charIndices_eq_nil {t : Text} {start place : Nat} (h : '$' ∉ t ∨ place < start) :
    (charIndices start t).filter (fun p => p.2 == '$' && decide (p.1 ≤ place)) = [] := by
  induction t generalizing start with
  | nil => rfl
  | cons c t ih =>
    rw [charIndices, List.filter_cons_of_neg]
    · refine ih ?_
      rcases h with h | h
      · exact .inl fun hmem => h (List.mem_cons_of_mem _ hmem)
      · exact .inr (by omega)
    · rcases h with h | h
      · have hc : c ≠ '$' := fun hc => h (hc ▸ List.mem_cons_self)
        simp [hc]
      · simp [h]

theorem lastDollar_eq (before : Text) {mid : Text} (rest : Text) {place : Nat} (hmid : '$' ∉ mid)
    (hle : bytes before ≤ place) (hrest : place ≤ bytes before + bytes mid ∨ rest = []) :
    lastDollar (before ++ '$' :: (mid ++ rest)) place = bytes before := by
  have hdollar : '$'.utf8Size = 1 := by decide
  have hbehind : (charIndices (bytes before + 1 + bytes mid) rest).filter
      (fun p => p.2 == '$' && decide (p.1 ≤ place)) = [] := by
    rcases hrest with h | rfl
    · exact filter_charIndices_eq_nil (.inr (by omega))
    · rfl
  have hfilter : (charIndices 0 (before ++ '$' :: (mid ++ rest))).filter
      (fun p => p.2 == '$' && decide (p.1 ≤ place)) =
        (charIndices 0 before).filter (fun p => p.2 == '$' && decide (p.1 ≤ place)) ++
          [(bytes before, '$')] := by
    rw [charIndices_append, List.filter_append, Nat.zero_add, charIndices, hdollar,
      List.filter_cons_of_pos (by simpa using hle), charIndices_append, List.filter_append,
      filter_charIndices_eq_nil (.inl hmid), hbehind]
    rfl
  simp [lastDollar, hfilter]

/-! ## What is blamed -/

theorem MalformedAt.faultOffset_eq {t before after : Text} (h : MalformedAt t before after) :
    faultOffset t (read t).2 = bytes before + if ['\x7b', '$'] <+: after then 2 else 0 := by
  have hbytes : bytes t - bytes ('$' :: after) = bytes before := by
    rw [h.text_eq, bytes_append]
    omega
  rw [h.left_eq]
  unfold faultOffset
  dsimp only
  split
  · rename_i rest he
    rw [hbytes, (List.cons.inj he).2, if_pos ⟨rest, rfl⟩]
  · rename_i hbrace
    rw [hbytes, if_neg]
    · rfl
    · rintro ⟨rest, rfl⟩
      exact hbrace rest rfl

/-- The dollar sign to blame is the last one that is not behind the place where the grammar gave up. -/
theorem MalformedAt.lastDollar_lastTried {t before after : Text} (h : MalformedAt t before after) :
    lastDollar t (bytes t - bytes (Peg.lastTried after)) = faultOffset t (read t).2 := by
  have hdollar : '$'.utf8Size = 1 := by decide
  have hbrace : '\x7b'.utf8Size = 1 := by decide
  have hsite := no_part_iff.1 h.no_part
  rw [h.faultOffset_eq]
  rcases Peg.lastTried_cases after with ⟨hlast, hname⟩ | ⟨hlast, -⟩
  · -- behind the dollar sign: what stands there is no dollar sign
    have hplace : bytes t - bytes (Peg.lastTried after) = bytes before + 1 := by
      rw [hlast, h.text_eq, bytes_append, bytes_cons]
      omega
    have hnot : ¬ ['\x7b', '$'] <+: after := by
      rintro ⟨rest, rfl⟩
      cases hname _ rfl
    rw [hplace, if_neg hnot, h.text_eq]
    cases after with
    | nil => exact lastDollar_eq before [] List.not_mem_nil (Nat.le_succ _) (.inr rfl)
    | cons c rest =>
      have hc : '$' ∉ [c] := by
        rw [List.mem_singleton]
        rintro rfl
        cases hsite
      have hsize := Char.utf8Size_pos c
      exact lastDollar_eq before rest hc (Nat.le_succ _)
        (.inl (by simp only [bytes_cons, bytes_nil]; omega))
  · -- behind the opening brace: what stands there may be a dollar sign
    generalize Peg.lastTried after = tried at hlast
    subst hlast
    have hplace : bytes t - bytes tried = bytes before + 2 := by
      rw [h.text_eq, bytes_append, bytes_cons, bytes_cons]
      omega
    rw [hplace, h.text_eq]
    cases tried with
    | nil =>
      have hmid : '$' ∉ ['\x7b'] := by simp
      exact lastDollar_eq before [] hmid (Nat.le_add_right _ _) (.inr rfl)
    | cons c rest =>
      by_cases hc : c = '$'
      · subst hc
        have hbytes : bytes (before ++ ['$', '\x7b']) = bytes before + 2 := by
          rw [bytes_append]
          rfl
        have hlast : lastDollar (before ++ ['$', '\x7b'] ++ '$' :: ([] ++ rest)) (bytes before + 2) =
            bytes (before ++ ['$', '\x7b']) :=
          lastDollar_eq _ rest List.not_mem_nil (Nat.le_of_eq hbytes) (.inl (Nat.le_of_eq hbytes.symm))
        rw [List.append_assoc] at hlast
        rw [if_pos ⟨rest, rfl⟩]
        exact hlast.trans hbytes
      · have hnot : ¬ ['\x7b', '$'] <+: '\x7b' :: c :: rest := by
          rintro ⟨_, he⟩
          exact hc (List.cons.inj (List.cons.inj he).2).1.symm
        have hsize := Char.utf8Size_pos c
        rw [if_neg hnot]
        have hmid : '$' ∉ ['\x7b', c] := by simpa using Ne.symm hc
        refine lastDollar_eq before rest hmid (Nat.le_add_right _ _) (.inl ?_)
        simp only [bytes_cons, bytes_nil]
        omega

end Template

/-! ## Errors -/

/-- What an error about a malformed template says of the first malformed site of its source, at the dollar
sign between `before` and `after`. -/
structure CompileError.BlamesSite (e : CompileError) (before after : Text) : Prop where
  malformedAt : Template.MalformedAt e.source before after
  length_eq : e.span.length = 1
  /-- The span is that of a dollar sign. -/
  dollar : ∃ pre post, e.source = pre ++ '$' :: post ∧ e.span.start = bytes pre
  /-- It is the one that starts the site, unless a brace and a further dollar sign follow. -/
  start_eq_iff : e.span.start = bytes before ↔ ¬ ['\x7b', '$'] <+: after
  /-- Then it is that further one. -/
  start_eq_further : ['\x7b', '$'] <+: after → e.span.start = bytes before + 2
  /-- It is the last one that is not behind the furthest failure of the grammar. -/
  start_eq_lastDollar : ∃ u, Template.Peg.FurthestFailure Template.Peg.template e.source u ∧
    e.span.start = Template.lastDollar e.source (bytes e.source - bytes u)

theorem Template.blamesSite_of_parse {t : Text} {e : CompileError} (h : parse t = .error e) :
    ∃ before after, e.BlamesSite before after := by
  by_cases ht : IsTemplate t
  · obtain ⟨parts, hreads⟩ := isTemplate_iff.1 ht
    rw [parse_of_reads hreads] at h
    cases h
  · obtain ⟨before, after, hat⟩ := exists_malformedAt ht
    rw [parse_of_not_isTemplate ht] at h
    cases h
    have hstart := hat.faultOffset_eq
    refine ⟨before, after, hat, rfl, ?_, ?_, ?_, ?_⟩
    · by_cases hfurther : ['\x7b', '$'] <+: after
      · obtain ⟨rest, rfl⟩ := hfurther
        refine ⟨before ++ ['$', '\x7b'], rest, by simpa using hat.text_eq, ?_⟩
        have hopen : bytes ['$', '\x7b'] = 2 := by decide
        rw [bytes_append, hopen]
        simpa using hstart
      · exact ⟨before, after, hat.text_eq, by simpa [hfurther] using hstart⟩
    · by_cases hfurther : ['\x7b', '$'] <+: after
      · simp [hstart, hfurther]
      · simp [hstart, hfurther]
    · intro hfurther
      simp [hstart, hfurther]
    · exact ⟨_, Peg.furthest_template hat.left_eq (no_part_iff.1 hat.no_part),
        hat.lastDollar_lastTried.symm⟩

/-- A text that is no template is refused under any type of templates, and the error quotes it. Every error
about a malformed template, however deep it is nested and on whatever engine, blames the one first malformed
site of its source: the span is the dollar sign that starts this site, unless an opening brace and a further
dollar sign follow it. Only then it is that further dollar sign, which may start a site that is not malformed
at all. -/
theorem malformed_site_is_blamed (g : Engine) :
    (∀ name t, isName name = true → g.types.get? name = some .template → ¬ Template.IsTemplate t →
      ∃ e, g.compile (name ++ ':' :: t) = .error (.fault e) ∧ e.cause = .invalidInterpolation ∧
        e.source = t) ∧
    ∀ text e, g.compile text = .error (.fault e) → e.cause = .invalidInterpolation →
      ∃ before after, e.BlamesSite before after ∧ ∀ before' after',
        Template.MalformedAt e.source before' after' ↔ before' = before ∧ after' = after := by
  constructor
  · intro name t hname htemplate ht
    refine ⟨⟨.invalidInterpolation, t, ⟨Template.faultOffset t (Template.read t).2, 1⟩⟩, ?_, rfl, rfl⟩
    have hdollar : '$' ∈ t := by
      by_cases hdollar : '$' ∈ t
      · exact hdollar
      · exact absurd (Template.isTemplate_of_dollar_notMem hdollar) ht
    rw [g.compile_prefixed hname htemplate]
    simp [Engine.build, Factory.build, compileTemplate, hdollar, Template.parse_of_not_isTemplate ht,
      Halt.ofFault, bind, Except.bind]
  · intro text e h hcause
    cases Engine.raises_of_compile h with
    | malformed hparse =>
      obtain ⟨before, after, hblames⟩ := Template.blamesSite_of_parse hparse
      exact ⟨before, after, hblames, fun _ _ => Template.malformedAt_iff hblames.malformedAt⟩
    | unnamed hroute =>
      unfold Route.read at hroute
      split at hroute
      · cases hroute
        cases hcause
      · split at hroute
        · cases hroute
        · cases hroute
          cases hcause
    | unregistered _ => cases hcause
    | siteless _ _ _ => cases hcause
    | refused _ => cases hcause

/-- A template in the second alternative of a negated path, whose only site holds a blank. -/
def blankInSite : Text := "not: a | string:é$$ $\x7ba b\x7d".toList

theorem blame_of_blankInSite :
    ∃ e, Engine.standard.compile blankInSite = .error (.fault e) ∧
      e.source = "é$$ $\x7ba b\x7d".toList ∧ e.span = ⟨5, 1⟩ ∧
      e.BlamesSite "é$$ ".toList "\x7ba b\x7d".toList := by
  have hcompile : Engine.standard.compile blankInSite =
      .error (.fault ⟨.invalidInterpolation, "é$$ $\x7ba b\x7d".toList, ⟨5, 1⟩⟩) := by
    with_unfolding_all rfl
  obtain ⟨before, after, hblames, hunique⟩ :=
    (malformed_site_is_blamed .standard).2 _ _ hcompile rfl
  have hat : Template.MalformedAt "é$$ $\x7ba b\x7d".toList "é$$ ".toList "\x7ba b\x7d".toList :=
    ⟨rfl, ⟨[.plain ['é'], .escape, .plain [' ']], by simp [Template.Part.WellFormed], rfl⟩,
      Template.no_part_iff.2 rfl⟩
  obtain ⟨rfl, rfl⟩ := (hunique _ _).1 hat
  exact ⟨_, hcompile, rfl, rfl, hblames⟩

/-- A malformed site that holds a site. -/
def siteInSite : Text := "$\x7b$x\x7d".toList

/-- The dollar sign that is blamed starts the inner site, which is not malformed, and not the outer one. -/
theorem siteInSite_blamed_amiss :
    ∃ e, Engine.standard.compile ("string".toList ++ ':' :: siteInSite) = .error (.fault e) ∧
      e.cause = .invalidInterpolation ∧ e.source = siteInSite ∧
      Template.MalformedAt siteInSite [] "\x7b$x\x7d".toList ∧
      (¬ ∃ before after, Template.MalformedAt siteInSite before after ∧ e.span.start = bytes before) ∧
      ∃ pre rest, siteInSite = pre ++ (Template.Part.named ['x']).write ++ rest ∧
        e.span.start = bytes pre := by
  have hcompile : Engine.standard.compile ("string".toList ++ ':' :: siteInSite) =
      .error (.fault ⟨.invalidInterpolation, siteInSite, ⟨2, 1⟩⟩) := by
    with_unfolding_all rfl
  have hat : Template.MalformedAt siteInSite [] "\x7b$x\x7d".toList :=
    ⟨rfl, ⟨[], by simp, rfl⟩, Template.no_part_iff.2 rfl⟩
  refine ⟨_, hcompile, rfl, rfl, hat, ?_, ['$', '\x7b'], ['\x7d'], rfl, rfl⟩
  rintro ⟨before, after, hat', hstart⟩
  obtain ⟨rfl, -⟩ := (Template.malformedAt_iff hat).1 hat'
  cases hstart

end TemplateExpressions
