import TemplateExpressions.Template
import TemplateExpressions.Proofs.Text.Bytes

/-!
# The grammar of templates

`IsTemplate` says which texts are templates: rows of well-formed parts, cut up in any way. `Reads` is
the one way to cut a text up in which no run of plain characters and no name could be longer. Main
statements: reading finds this way if there is one (`read_eq_iff`), and there is one for every template
(`isTemplate_iff`); so parsing fails on what is no template (`parse_of_not_isTemplate`) and gives the
characters and sites of the parts on what is one (`parse_of_reads`, `content_pieces`).
-/

set_option autoImplicit false

namespace TemplateExpressions

/-- The content of a piece that is a site. -/
def Piece.site? {ε : Type} : Piece ε → Option ε
  | .literal _ => none
  | .site content => some content

/-- What a piece stands for: characters and a site. -/
def Piece.content {ε : Type} : Piece ε → List (Char ⊕ ε)
  | .literal text => text.map .inl
  | .site content => [.inr content]

namespace Template

/-- A name, or a name, a slash and any characters but closing braces and dollar signs. -/
inductive IsSitePath : Text → Prop
  | name {n : Text} : Text.isName n = true → IsSitePath n
  | route {n more : Text} : Text.isName n = true → (∀ c ∈ more, c ≠ '\x7d' ∧ c ≠ '$') →
      IsSitePath (n ++ '/' :: more)

/-- What a part may hold. -/
def Part.WellFormed : Part → Prop
  | .plain text => text ≠ [] ∧ '$' ∉ text
  | .escape => True
  | .named name => Text.isName name = true
  | .braced path => IsSitePath path

/-- A text is a template if it is a row of well-formed parts. -/
def IsTemplate (t : Text) : Prop := ∃ parts : List Part, (∀ p ∈ parts, p.WellFormed) ∧ write parts = t

/-- What follows a part that could not have been longer. -/
def Part.EndsBefore (rest : Text) : Part → Prop
  | .plain _ => ∀ c ∈ rest.head?, c = '$'
  | .named _ => ∀ c ∈ rest.head?, Text.isNamePart c = false
  | .escape | .braced _ => True

/-- The parts of a text, each as long as it can be. -/
inductive Reads : List Part → Text → Prop
  | done : Reads [] []
  | part {p : Part} {ps : List Part} {rest : Text} : p.WellFormed → p.EndsBefore rest →
      Reads ps rest → Reads (p :: ps) (p.write ++ rest)

/-- The content of a part that is a site. -/
def Part.body? : Part → Option Text
  | .named name => some name
  | .braced path => some path
  | _ => none

/-- The contents of the sites, from the left. -/
def bodies (parts : List Part) : List Text := parts.filterMap Part.body?

theorem write_cons (p : Part) (ps : List Part) : write (p :: ps) = p.write ++ write ps := rfl

theorem Reads.write_eq {parts : List Part} {t : Text} (h : Reads parts t) : write parts = t := by
  induction h with
  | done => rfl
  | part _ _ _ ih => rw [write_cons, ih]

theorem Reads.wellFormed {parts : List Part} {t : Text} (h : Reads parts t) :
    ∀ p ∈ parts, p.WellFormed := by
  induction h with
  | done => simp
  | part hp _ _ ih =>
    intro q hq
    rcases List.mem_cons.1 hq with rfl | hq
    · exact hp
    · exact ih q hq

/-! ## Names and site paths -/

theorem readName_append {n r : Text} (hn : Text.isName n = true)
    (hr : ∀ c ∈ r.head?, Text.isNamePart c = false) : Text.readName (n ++ r) = some (n, r) := by
  cases n with
  | nil => cases hn
  | cons c n =>
    simp only [Text.isName, Bool.and_eq_true, List.all_eq_true] at hn
    obtain ⟨htake, hdrop⟩ := Text.takeWhile_append_of_ends hn.2 hr
    simp [Text.readName, hn.1, htake, hdrop]

/-- The longest name of a text that starts with a name goes on into what follows. -/
theorem readName_append_longest {n : Text} (hn : Text.isName n = true) (r : Text) :
    Text.readName (n ++ r) =
      some (n ++ r.takeWhile Text.isNamePart, r.dropWhile Text.isNamePart) := by
  cases n with
  | nil => cases hn
  | cons c n =>
    simp only [Text.isName, Bool.and_eq_true, List.all_eq_true] at hn
    simp [Text.readName, hn.1, List.takeWhile_append_of_pos hn.2, List.dropWhile_append_of_pos hn.2]

theorem dollar_notMem_of_isName {n : Text} (hn : Text.isName n = true) : '$' ∉ n := by
  cases n with
  | nil => simp
  | cons c n =>
    simp only [Text.isName, Bool.and_eq_true, List.all_eq_true] at hn
    intro hmem
    rcases List.mem_cons.1 hmem with hc | hc
    · rw [← hc] at hn
      exact absurd hn.1 (by decide)
    · exact absurd (hn.2 _ hc) (by decide)

theorem IsSitePath.dollar_notMem {path : Text} (h : IsSitePath path) : '$' ∉ path := by
  cases h with
  | name hn => exact dollar_notMem_of_isName hn
  | route hn hmore =>
    intro hmem
    rcases List.mem_append.1 hmem with hmem | hmem
    · exact dollar_notMem_of_isName hn hmem
    · rcases List.mem_cons.1 hmem with hc | hmem
      · cases hc
      · exact (hmore _ hmem).2 rfl

theorem isPathPart_iff (c : Char) : isPathPart c = true ↔ c ≠ '\x7d' ∧ c ≠ '$' := by
  simp [isPathPart]

/-- A site path and a closing brace are read up to the brace. -/
theorem readBraced_append {path : Text} (h : IsSitePath path) (rest : Text) :
    readBraced (path ++ '\x7d' :: rest) = some (path, rest) := by
  cases h with
  | name hn =>
    have hread := readName_append (r := '\x7d' :: rest) hn (by intro c hc; cases hc; decide)
    simp [readBraced, hread]
  | @route n more hn hmore =>
    have hread := readName_append (r := '/' :: (more ++ '\x7d' :: rest)) hn
      (by intro c hc; cases hc; decide)
    obtain ⟨htake, hdrop⟩ := Text.takeWhile_append_of_ends (p := isPathPart) (s := more)
      (r := '\x7d' :: rest) (fun c hc => (isPathPart_iff c).2 (hmore c hc))
      (by intro c hc; cases hc; decide)
    have happend : n ++ '/' :: more ++ '\x7d' :: rest = n ++ '/' :: (more ++ '\x7d' :: rest) := by
      simp
    rw [happend]
    simp [readBraced, hread, htake, hdrop]

theorem isSitePath_of_readBraced {t path rest : Text} (h : readBraced t = some (path, rest)) :
    IsSitePath path := by
  unfold readBraced at h
  split at h
  · cases h
  · rename_i name rest' hn
    cases h
    exact .name (Text.readName_eq_some hn).1
  · rename_i name more hn
    split at h
    · rename_i rest' hm
      cases h
      refine .route (Text.readName_eq_some hn).1 fun c hc => (isPathPart_iff c).1 ?_
      exact List.all_eq_true.1 List.all_takeWhile c hc
    · cases h
  · cases h

/-! ## Sites and escapes -/

/-- What is read behind a dollar sign is a part that could not have been longer. -/
theorem sound_of_readSite {t rest : Text} {p : Part} (h : readSite t = some (p, rest)) :
    p.WellFormed ∧ p.EndsBefore rest := by
  unfold readSite at h
  split at h
  · cases h
    exact ⟨trivial, trivial⟩
  · obtain ⟨⟨path, rest'⟩, hb, he⟩ := Option.map_eq_some_iff.1 h
    cases he
    exact ⟨isSitePath_of_readBraced hb, trivial⟩
  · obtain ⟨⟨name, rest'⟩, hn, he⟩ := Option.map_eq_some_iff.1 h
    cases he
    obtain ⟨hname, -, hends⟩ := Text.readName_eq_some hn
    refine ⟨hname, fun c hc => ?_⟩
    cases rest' with
    | nil => cases hc
    | cons d s =>
      cases hc
      exact hends _ _ rfl

/-- Behind a dollar sign, anything that starts with a letter is read as a name. -/
theorem readSite_of_readName {t name rest : Text} (h : Text.readName t = some (name, rest)) :
    readSite t = some (.named name, rest) := by
  cases t with
  | nil => cases h
  | cons c t =>
    have hc : c.isAlpha = true := by
      cases hc : c.isAlpha with
      | true => rfl
      | false => simp [Text.readName, hc] at h
    unfold readSite
    split
    · rename_i he
      cases he
      exact absurd hc (by decide)
    · rename_i he
      cases he
      exact absurd hc (by decide)
    · simp [h]

/-- A part that could not have been longer is read as it was written. -/
theorem readSite_write {p : Part} {rest : Text} (hp : p.WellFormed) (he : p.EndsBefore rest)
    (hsite : ∀ text, p ≠ .plain text) :
    ∃ t, p.write ++ rest = '$' :: t ∧ readSite t = some (p, rest) := by
  cases p with
  | plain text => exact absurd rfl (hsite text)
  | escape => exact ⟨'$' :: rest, rfl, rfl⟩
  | named name => exact ⟨name ++ rest, rfl, readSite_of_readName (readName_append hp he)⟩
  | braced path =>
    refine ⟨'\x7b' :: (path ++ '\x7d' :: rest), by simp [Part.write], ?_⟩
    simp [readSite, readBraced_append hp]

/-! ## Reading -/

theorem read_dollar (t : Text) : read ('$' :: t) =
    match readSite t with
    | some (p, rest) => (p :: (read rest).1, (read rest).2)
    | none => ([], '$' :: t) := by
  rw [read]
  split
  · split <;> simp_all
  · simp_all

theorem read_plain {c : Char} (hc : c ≠ '$') (t : Text) : read (c :: t) =
    (.plain (c :: t.takeWhile (· != '$')) :: (read (t.dropWhile (· != '$'))).1,
      (read (t.dropWhile (· != '$'))).2) := by
  rw [read]
  simp [hc]

/-- A part that could not have been longer is the first one that is read. -/
theorem read_write_append {p : Part} {rest : Text} (hp : p.WellFormed) (he : p.EndsBefore rest) :
    read (p.write ++ rest) = (p :: (read rest).1, (read rest).2) := by
  by_cases hsite : ∃ text, p = .plain text
  · obtain ⟨text, rfl⟩ := hsite
    obtain ⟨hne, hdollar⟩ := hp
    obtain ⟨c, text, rfl⟩ := List.exists_cons_of_ne_nil hne
    have hc : c ≠ '$' := fun hc => hdollar (hc ▸ List.mem_cons_self)
    have htext : ∀ d ∈ text, (d != '$') = true := by
      intro d hd
      have hne : d ≠ '$' := fun he => hdollar (he ▸ List.mem_cons_of_mem _ hd)
      simpa using hne
    obtain ⟨htake, hdrop⟩ := Text.takeWhile_append_of_ends (p := (· != '$')) htext
      (fun d hd => by simpa using he d hd)
    simp only [Part.write, List.cons_append]
    rw [read_plain hc, htake, hdrop]
  · obtain ⟨t, ht, hread⟩ := readSite_write hp he (fun text h => hsite ⟨text, h⟩)
    rw [ht, read_dollar, hread]

/-- Parts that could not have been longer are what is read. -/
theorem Reads.read_eq {parts : List Part} {t : Text} (h : Reads parts t) : read t = (parts, []) := by
  induction h with
  | done => simp [read]
  | part hp he _ ih => rw [read_write_append hp he, ih]

/-- What is read to the end are parts that could not have been longer. -/
theorem reads_of_read {t : Text} (h : (read t).2 = []) : Reads (read t).1 t := by
  fun_induction read t with
  | case1 => exact .done
  | case2 rest part rest' hsite parts left hr ih =>
    rw [hr] at ih
    obtain ⟨hp, he⟩ := sound_of_readSite hsite
    rw [readSite_eq_some hsite]
    exact .part hp he (ih h)
  | case3 rest hsite => cases h
  | case4 c rest hc parts left hr ih =>
    rw [hr] at ih
    have hends : Part.EndsBefore (rest.dropWhile (· != '$'))
        (.plain (c :: rest.takeWhile (· != '$'))) := by
      intro d hd
      have hhead := List.head?_dropWhile_not (· != '$') rest
      rw [Option.mem_def.1 hd] at hhead
      simpa using hhead
    have hdollar : '$' ∉ c :: rest.takeWhile (· != '$') := by
      intro hmem
      rcases List.mem_cons.1 hmem with he | hmem
      · exact hc he.symm
      · have := List.all_eq_true.1 List.all_takeWhile _ hmem
        simp at this
    have hreads := Reads.part (p := .plain (c :: rest.takeWhile (· != '$')))
      ⟨List.cons_ne_nil _ _, hdollar⟩ hends (ih h)
    simpa [Part.write] using hreads

/-- Reading to the end finds the parts that could not have been longer, if there are such parts. -/
theorem read_eq_iff {t : Text} {parts : List Part} : read t = (parts, []) ↔ Reads parts t := by
  refine ⟨fun h => ?_, Reads.read_eq⟩
  have hreads := reads_of_read (t := t) (by rw [h])
  rwa [h] at hreads

/-! ## Templates -/

namespace IsTemplate

theorem tail {c : Char} {t : Text} (h : IsTemplate (c :: t)) (hc : c ≠ '$') : IsTemplate t := by
  obtain ⟨parts, hparts, hw⟩ := h
  cases parts with
  | nil => cases hw
  | cons p ps =>
    have hps : ∀ q ∈ ps, q.WellFormed := fun q hq => hparts q (List.mem_cons_of_mem _ hq)
    rw [write_cons] at hw
    cases p with
    | plain text =>
      obtain ⟨hne, hdollar⟩ := hparts _ List.mem_cons_self
      obtain ⟨d, text, rfl⟩ := List.exists_cons_of_ne_nil hne
      obtain ⟨-, hw⟩ := List.cons.inj hw
      cases text with
      | nil => exact ⟨ps, hps, hw⟩
      | cons d' text =>
        refine ⟨.plain (d' :: text) :: ps, fun q hq => ?_, hw⟩
        rcases List.mem_cons.1 hq with rfl | hq
        · exact ⟨List.cons_ne_nil _ _, fun hmem => hdollar (List.mem_cons_of_mem _ hmem)⟩
        · exact hps q hq
    | escape => exact absurd (List.cons.inj hw).1.symm hc
    | named name => exact absurd (List.cons.inj hw).1.symm hc
    | braced path => exact absurd (List.cons.inj hw).1.symm hc

/-- Characters other than dollar signs may be taken off a template one by one. -/
theorem dropWhile {p : Char → Bool} (hp : p '$' = false) {t : Text} (h : IsTemplate t) :
    IsTemplate (t.dropWhile p) := by
  induction t with
  | nil => exact h
  | cons c t ih =>
    rw [List.dropWhile_cons]
    split
    · rename_i hc
      have hne : c ≠ '$' := by
        rintro rfl
        rw [hp] at hc
        cases hc
      exact ih (h.tail hne)
    · exact h

/-- A dollar sign that a template starts with opens a part, behind which there is a template. -/
theorem readSite {t : Text} (h : IsTemplate ('$' :: t)) :
    ∃ p rest, readSite t = some (p, rest) ∧ IsTemplate rest := by
  obtain ⟨parts, hparts, hw⟩ := h
  cases parts with
  | nil => cases hw
  | cons p ps =>
    have hp := hparts p List.mem_cons_self
    have hrest : IsTemplate (write ps) :=
      ⟨ps, fun q hq => hparts q (List.mem_cons_of_mem _ hq), rfl⟩
    rw [write_cons] at hw
    cases p with
    | plain text =>
      obtain ⟨hne, hdollar⟩ := hp
      obtain ⟨d, text, rfl⟩ := List.exists_cons_of_ne_nil hne
      have hd : d = '$' := (List.cons.inj hw).1
      exact absurd (hd ▸ List.mem_cons_self) hdollar
    | escape =>
      cases hw
      exact ⟨.escape, write ps, rfl, hrest⟩
    | named name =>
      cases hw
      -- the name may go on into plain characters that were cut off it
      exact ⟨_, _, readSite_of_readName (readName_append_longest hp _), hrest.dropWhile (by decide)⟩
    | braced path =>
      have ht : t = '\x7b' :: (path ++ '\x7d' :: write ps) := by
        simpa [Part.write] using (List.cons.inj hw).2.symm
      refine ⟨.braced path, write ps, ?_, hrest⟩
      rw [ht]
      simp [Template.readSite, readBraced_append hp]

theorem read_eq {t : Text} (h : IsTemplate t) : (read t).2 = [] := by
  fun_induction read t with
  | case1 => rfl
  | case2 rest part rest' hsite parts left hr ih =>
    obtain ⟨p, r, hp, hrest⟩ := h.readSite
    rw [hsite] at hp
    cases hp
    rw [hr] at ih
    exact ih hrest
  | case3 rest hsite =>
    obtain ⟨p, r, hp, -⟩ := h.readSite
    rw [hsite] at hp
    cases hp
  | case4 c rest hc parts left hr ih =>
    rw [hr] at ih
    exact ih ((h.tail hc).dropWhile (by decide))

end IsTemplate

/-- A text is a template if and only if it has parts that could not have been longer. -/
theorem isTemplate_iff {t : Text} : IsTemplate t ↔ ∃ parts, Reads parts t := by
  constructor
  · intro h
    exact ⟨_, reads_of_read h.read_eq⟩
  · rintro ⟨parts, h⟩
    exact ⟨parts, h.wellFormed, h.write_eq⟩

theorem isTemplate_of_dollar_notMem {t : Text} (h : '$' ∉ t) : IsTemplate t := by
  cases t with
  | nil => exact ⟨[], by simp, rfl⟩
  | cons c t =>
    refine ⟨[.plain (c :: t)], fun p hp => ?_, by simp [write, Part.write]⟩
    rw [List.mem_singleton.1 hp]
    exact ⟨List.cons_ne_nil _ _, h⟩

/-! ## Pieces -/

/-- What a part stands for: characters and the contents of sites. -/
def Part.content : Part → List (Char ⊕ Text)
  | .plain text => text.map .inl
  | .escape => [.inl '$']
  | .named name => [.inr name]
  | .braced path => [.inr path]

theorem prepend_eq (text : Text) (ps : List (Piece Text)) :
    (∃ more qs, ps = .literal more :: qs ∧ prepend text ps = .literal (text ++ more) :: qs) ∨
      prepend text ps = .literal text :: ps := by
  unfold prepend
  split
  · exact .inl ⟨_, _, rfl, rfl⟩
  · exact .inr rfl

theorem content_prepend (text : Text) (ps : List (Piece Text)) :
    (prepend text ps).flatMap Piece.content = text.map .inl ++ ps.flatMap Piece.content := by
  rcases prepend_eq text ps with ⟨more, qs, rfl, h⟩ | h
  · rw [h]
    simp [Piece.content]
  · rw [h]
    simp [Piece.content]

theorem sites_prepend (text : Text) (ps : List (Piece Text)) :
    (prepend text ps).filterMap Piece.site? = ps.filterMap Piece.site? := by
  rcases prepend_eq text ps with ⟨more, qs, rfl, h⟩ | h
  · rw [h, List.filterMap_cons_none rfl, List.filterMap_cons_none rfl]
  · rw [h, List.filterMap_cons_none rfl]

/-- The pieces have the characters and sites of the parts, in their order. -/
theorem content_pieces (parts : List Part) :
    (pieces parts).flatMap Piece.content = parts.flatMap Part.content := by
  induction parts with
  | nil => rfl
  | cons p ps ih =>
    cases p with
    | plain text => simp [pieces, content_prepend, Part.content, ih]
    | escape => simp [pieces, content_prepend, Part.content, ih]
    | named name => simp [pieces, Piece.content, Part.content, ih]
    | braced path => simp [pieces, Piece.content, Part.content, ih]

theorem sites_pieces (parts : List Part) :
    (pieces parts).filterMap Piece.site? = bodies parts := by
  induction parts with
  | nil => rfl
  | cons p ps ih =>
    cases p with
    | plain text => rw [pieces, sites_prepend, ih, bodies, bodies, List.filterMap_cons_none rfl]
    | escape => rw [pieces, sites_prepend, ih, bodies, bodies, List.filterMap_cons_none rfl]
    | named name => exact congrArg (name :: ·) ih
    | braced path => exact congrArg (path :: ·) ih

/-- The content of a site has fewer bytes than the template. -/
theorem bytes_lt_of_mem_bodies {parts : List Part} {body : Text} (h : body ∈ bodies parts) :
    Text.bytes body < Text.bytes (write parts) := by
  obtain ⟨p, hp, hbody⟩ := List.mem_filterMap.1 h
  have hpart : ('$' :: body).Sublist p.write := by
    cases p with
    | plain text => cases hbody
    | escape => cases hbody
    | named name =>
      cases hbody
      exact List.Sublist.refl _
    | braced path =>
      cases hbody
      exact ((List.sublist_append_left _ _).cons _).cons_cons _
  have hall : p.write.Sublist (write parts) := by
    induction parts with
    | nil => cases hp
    | cons q qs ih =>
      rcases List.mem_cons.1 hp with rfl | hp
      · exact List.sublist_append_left _ _
      · exact (ih (List.mem_filterMap.2 ⟨p, hp, hbody⟩) hp).trans (List.sublist_append_right _ _)
  have hbytes := Text.bytes_le_of_sublist (hpart.trans hall)
  have hdollar := Char.utf8Size_pos '$'
  rw [Text.bytes_cons] at hbytes
  omega

theorem dollar_notMem_of_mem_bodies {parts : List Part} (hparts : ∀ p ∈ parts, p.WellFormed)
    {body : Text} (h : body ∈ bodies parts) : '$' ∉ body := by
  obtain ⟨p, hp, hbody⟩ := List.mem_filterMap.1 h
  have hwell := hparts p hp
  cases p with
  | plain text => cases hbody
  | escape => cases hbody
  | named name =>
    cases hbody
    exact dollar_notMem_of_isName hwell
  | braced path =>
    cases hbody
    exact hwell.dollar_notMem

/-! ## Parsing -/

theorem parse_of_reads {parts : List Part} {t : Text} (h : Reads parts t) :
    parse t = .ok (pieces parts) := by
  simp [parse, h.read_eq]

theorem parse_of_not_isTemplate {t : Text} (h : ¬ IsTemplate t) :
    parse t = .error ⟨.invalidInterpolation, t, ⟨faultOffset t (read t).2, 1⟩⟩ := by
  unfold parse
  split
  · rename_i parts hread
    exact absurd (isTemplate_iff.2 ⟨parts, read_eq_iff.1 hread⟩) h
  · rename_i hread
    rw [hread]

/-- What is parsed are the pieces of the parts that could not have been longer. -/
theorem parse_eq_ok {t : Text} {ps : List (Piece Text)} (h : parse t = .ok ps) :
    ∃ parts, Reads parts t ∧ ps = pieces parts := by
  by_cases ht : IsTemplate t
  · obtain ⟨parts, hreads⟩ := isTemplate_iff.1 ht
    rw [parse_of_reads hreads] at h
    cases h
    exact ⟨parts, hreads, rfl⟩
  · rw [parse_of_not_isTemplate ht] at h
    cases h

end Template
end TemplateExpressions
