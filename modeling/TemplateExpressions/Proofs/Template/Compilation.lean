import TemplateExpressions.Proofs.Engine.Nested
import TemplateExpressions.Proofs.Template.Peg

/-!
# What templates compile to

A text without a dollar sign never fails as a malformed template, whatever is nested in it
(`notMalformed_compile`), and the sites of a template hold no dollar signs. Main statement: a text is
refused as a malformed template exactly if it is no template, and of a template exactly the sites are
compiled, one after the other (`templates_split_without_loss`).
-/

set_option autoImplicit false

namespace TemplateExpressions

open Text

/-! ## Malformed templates -/

/-- Compilation fails because a template is malformed. -/
def Halt.IsMalformed : Halt → Prop
  | .fault e => e.cause = .invalidInterpolation
  | .endless => False

/-- A result that is no failure of a malformed template. -/
def NotMalformed {α : Type} (result : Except Halt α) : Prop :=
  ∀ halt, result = .error halt → ¬ halt.IsMalformed

theorem notMalformed_ok {α : Type} (a : α) : NotMalformed (.ok a) := by
  intro halt h
  cases h

theorem NotMalformed.bind {α β : Type} {x : Except Halt α} {f : α → Except Halt β}
    (hx : NotMalformed x) (hf : ∀ a, NotMalformed (f a)) : NotMalformed (x >>= f) := by
  cases x with
  | ok a => exact hf a
  | error halt =>
    intro halt' h
    cases h
    exact hx halt rfl

theorem notMalformed_mapM {α β : Type} {f : α → Except Halt β} {l : List α}
    (h : ∀ a ∈ l, NotMalformed (f a)) : NotMalformed (l.mapM f) := by
  induction l with
  | nil => exact notMalformed_ok _
  | cons a l ih =>
    rw [List.mapM_cons]
    refine (h a List.mem_cons_self).bind fun _ => ?_
    exact (ih fun b hb => h b (List.mem_cons_of_mem _ hb)).bind fun _ => notMalformed_ok _

theorem notMalformed_read (source : Text) (offset : Nat) (t : Text) :
    NotMalformed (Halt.ofFault (Route.read source offset t)) := by
  intro halt h
  unfold Route.read at h
  split at h
  · cases h
    intro he
    cases he
  · split at h
    · cases h
    · cases h
      intro he
      cases he

section Nested

variable {f : Compiler} (hf : ∀ u, '$' ∉ u → NotMalformed (f u))

include hf

theorem notMalformed_compileAlternatives {source : Text} (offset : Nat) (stretches : List Text)
    (h : '$' ∉ joinWith ['|'] stretches) :
    NotMalformed (compileAlternatives f source offset stretches) := by
  induction stretches generalizing offset with
  | nil => exact notMalformed_ok _
  | cons stretch stretches ih =>
    unfold compileAlternatives
    split
    · refine (hf _ fun hmem => h ?_).bind fun _ => notMalformed_ok _
      exact (trimStart_suffix _).subset hmem
    · refine (notMalformed_read _ _ _).bind fun route => ?_
      refine (ih _ fun hmem => h ?_).bind fun _ => notMalformed_ok _
      exact (joinWith_suffix _ _ _).subset hmem

theorem notMalformed_compilePath {text : Text} (h : '$' ∉ text) (traversal : Traversal)
    (typeName : Text) : NotMalformed (compilePath f traversal typeName text) := by
  refine (notMalformed_compileAlternatives hf 0 _ ?_).bind fun _ => notMalformed_ok _
  rwa [joinWith_pieces]

/-- Of a text without a dollar sign no factory makes a malformed template. -/
theorem Factory.notMalformed_build {text : Text} (h : '$' ∉ text) (site? : Option Compiler)
    (factory : Factory) (typeName : Text) :
    NotMalformed (factory.build f site? typeName text) := by
  have htrim : '$' ∉ trimStart text := fun hmem => h ((trimStart_suffix text).subset hmem)
  cases factory with
  | path traversal => exact notMalformed_compilePath hf h traversal typeName
  | pathUnder name => exact notMalformed_compilePath hf h .plain name
  | template =>
    rw [Factory.build, compileTemplate, if_neg h]
    exact notMalformed_ok _
  | upperTemplate =>
    rw [Factory.build, compileTemplate, if_neg (dollar_notMem_upper h)]
    exact notMalformed_ok _
  | negation => exact (hf _ htrim).bind fun _ => notMalformed_ok _
  | deferral => exact (hf _ htrim).bind fun _ => notMalformed_ok _
  | echo => exact notMalformed_ok _
  | refusal =>
    intro halt he
    cases he
    intro hcause
    cases hcause

end Nested

/-- A text without a dollar sign is no malformed template, and nothing nested in it is. -/
theorem notMalformed_compileWithin (g : Engine) (levels : Nat) {text : Text} (h : '$' ∉ text) :
    NotMalformed (g.compileWithin levels text) := by
  induction levels generalizing text with
  | zero =>
    intro halt he
    cases he
    exact id
  | succ levels ih =>
    have hrest : '$' ∉ (g.dispatch text).2 := by
      unfold Engine.dispatch
      cases hsplit : splitPrefix text with
      | none => exact h
      | some p =>
        obtain ⟨name, rest⟩ := p
        obtain ⟨-, rfl⟩ := splitPrefix_eq_some_iff.1 hsplit
        exact fun hmem => h (List.mem_append_right _ (List.mem_cons_of_mem _ hmem))
    unfold Engine.compileWithin
    dsimp only
    split
    · intro halt he
      cases he
      intro hcause
      cases hcause
    · rename_i factory _
      exact factory.notMalformed_build (fun u hu => ih hu) hrest _ _

theorem notMalformed_compile (g : Engine) {text : Text} (h : '$' ∉ text) :
    NotMalformed (g.compile text) := notMalformed_compileWithin g _ h

/-! ## Sites -/

/-- What a site is compiled to is what its content compiles to under the type `path`. -/
theorem site_eq_compile {g : Engine} {factory : Factory}
    (hpath : g.types.get? "path".toList = some factory) {body : Text} (h : '$' ∉ body) :
    factory.build g.compile none "path".toList body = g.compile ("path".toList ++ ':' :: body) := by
  rw [g.compile_prefixed (by decide) hpath]
  cases factory with
  | template => simp [Engine.build, Factory.build, compileTemplate, h]
  | upperTemplate => simp [Engine.build, Factory.build, compileTemplate, dollar_notMem_upper h]
  | _ => rfl

/-- Sites are compiled in their order, and the first failure is the failure of all. -/
theorem compileSites_eq {site : Compiler} (hsource : ∀ body e, site body = .ok e → e.source = body)
    (ps : List (Piece Text)) :
    match (ps.filterMap Piece.site?).mapM site with
    | .error halt => compileSites site ps = .error halt
    | .ok sites => ∃ qs, compileSites site ps = .ok qs ∧ qs.filterMap Piece.site? = sites ∧
        (qs.flatMap Piece.content).map (Sum.map id Expr.source) = ps.flatMap Piece.content := by
  induction ps with
  | nil => exact ⟨[], rfl, rfl, rfl⟩
  | cons p ps ih =>
    cases p with
    | literal text =>
      rw [List.filterMap_cons_none rfl]
      cases hm : (ps.filterMap Piece.site?).mapM site with
      | error halt =>
        rw [hm] at ih
        simp [compileSites, ih, bind, Except.bind]
      | ok sites =>
        rw [hm] at ih
        obtain ⟨qs, hqs, hsites, hcontent⟩ := ih
        refine ⟨.literal text :: qs, ?_, hsites, ?_⟩
        · simp [compileSites, hqs, bind, Except.bind, pure, Except.pure]
        · simp [Piece.content, hcontent]
    | site body =>
      have hcons : (Piece.site body :: ps).filterMap Piece.site? =
          body :: ps.filterMap Piece.site? := rfl
      rw [hcons, List.mapM_cons]
      cases hbody : site body with
      | error halt => simp [compileSites, hbody, bind, Except.bind]
      | ok e =>
        cases hm : (ps.filterMap Piece.site?).mapM site with
        | error halt =>
          rw [hm] at ih
          simp [hbody, compileSites, ih, bind, Except.bind]
        | ok sites =>
          rw [hm] at ih
          obtain ⟨qs, hqs, hsites, hcontent⟩ := ih
          refine ⟨.site e :: qs, ?_, congrArg (e :: ·) hsites, ?_⟩
          · simp [compileSites, hbody, hqs, bind, Except.bind, pure, Except.pure]
          · simp [Piece.content, hcontent, hsource body e hbody]

/-! ## Templates -/

/-- The parts of a text without a dollar sign hold plain characters only. -/
theorem Template.Reads.of_dollar_notMem {parts : List Template.Part} {t : Text}
    (h : Template.Reads parts t) (ht : '$' ∉ t) :
    Template.bodies parts = [] ∧ parts.flatMap Template.Part.content = t.map .inl := by
  induction h with
  | done => exact ⟨rfl, rfl⟩
  | @part p ps rest hp _ _ ih =>
    obtain ⟨hbodies, hcontent⟩ := ih fun hmem => ht (List.mem_append_right _ hmem)
    cases p with
    | plain text =>
      refine ⟨hbodies, ?_⟩
      rw [List.flatMap_cons, hcontent, List.map_append]
      rfl
    | escape => exact absurd List.mem_cons_self ht
    | named name => exact absurd List.mem_cons_self ht
    | braced path => exact absurd List.mem_cons_self ht

/-- The source of a path is the text that was compiled. -/
theorem source_of_compilePath {f : Compiler} {traversal : Traversal} {typeName text : Text}
    {e : Expr} (h : compilePath f traversal typeName text = .ok e) : e.source = text := by
  obtain ⟨alternatives, -, rfl⟩ := compilePath_eq_ok h
  rfl

theorem mapM_congr {α β ε : Type} {f f' : α → Except ε β} {l : List α}
    (h : ∀ a ∈ l, f a = f' a) : l.mapM f = l.mapM f' := by
  induction l with
  | nil => rfl
  | cons a l ih =>
    rw [List.mapM_cons, List.mapM_cons, h a List.mem_cons_self,
      ih fun b hb => h b (List.mem_cons_of_mem _ hb)]

/-- A template compiles to its pieces with the sites compiled, or fails as the first site that does. -/
theorem compile_template {g : Engine} {name : Text} {traversal : Traversal}
    (hname : Text.isName name = true) (htemplate : g.types.get? name = some .template)
    (hpath : g.types.get? "path".toList = some (.path traversal)) {parts : List Template.Part}
    {t : Text} (h : Template.Reads parts t) :
    match (Template.bodies parts).mapM fun body => g.compile ("path".toList ++ ':' :: body) with
    | .error halt => g.compile (name ++ ':' :: t) = .error halt
    | .ok sites => ∃ pieces, g.compile (name ++ ':' :: t) = .ok (.template ⟨name, t⟩ pieces) ∧
        pieces.filterMap Piece.site? = sites ∧
        (pieces.flatMap Piece.content).map (Sum.map id Expr.source) =
          parts.flatMap Template.Part.content := by
  rw [g.compile_prefixed hname htemplate]
  by_cases ht : '$' ∈ t
  · have hbodies : ∀ body ∈ Template.bodies parts,
        g.compile ("path".toList ++ ':' :: body) =
          (Factory.path traversal).build g.compile none "path".toList body := by
      intro body hbody
      have hdollar := Template.dollar_notMem_of_mem_bodies h.wellFormed hbody
      exact (site_eq_compile hpath hdollar).symm
    have hsource : ∀ body e,
        (Factory.path traversal).build g.compile none "path".toList body = .ok e →
          e.source = body := fun body e he => source_of_compilePath he
    have hsites := compileSites_eq hsource (Template.pieces parts)
    rw [Template.sites_pieces, Template.content_pieces, ← mapM_congr hbodies] at hsites
    have hbuild : g.build g.compile .template name t =
        (compileSites (fun body => (Factory.path traversal).build g.compile none "path".toList body)
          (Template.pieces parts)) >>= fun pieces => pure (.template ⟨name, t⟩ pieces) := by
      simp only [Engine.build, Factory.build, compileTemplate, if_pos ht, Engine.site?, hpath,
        Template.parse_of_reads h, Halt.ofFault, Option.map_some]
      rfl
    rw [hbuild]
    cases hm : (Template.bodies parts).mapM fun body =>
        g.compile ("path".toList ++ ':' :: body) with
    | error halt =>
      rw [hm] at hsites
      dsimp only at hsites ⊢
      rw [hsites]
      rfl
    | ok sites =>
      rw [hm] at hsites
      obtain ⟨qs, hqs, hs, hcontent⟩ := hsites
      refine ⟨qs, ?_, hs, hcontent⟩
      rw [hqs]
      rfl
  · obtain ⟨hbodies, hcontent⟩ := h.of_dollar_notMem ht
    rw [hbodies, hcontent]
    refine ⟨[.literal t], ?_, rfl, ?_⟩
    · simp [Engine.build, Factory.build, compileTemplate, ht]
    · simp [Piece.content]

/-- A text is refused as a malformed template exactly if it is no row of well-formed parts, and these are
what the grammar fails on. Otherwise there is one way to cut it up into parts none of which could have been
longer, which the grammar finds. Nothing is lost by it, and the sites that are compiled are the contents of
these parts, in their order, each between the characters that stood around it. -/
theorem templates_split_without_loss {g : Engine} {name : Text} {traversal : Traversal}
    (hname : Text.isName name = true) (htemplate : g.types.get? name = some .template)
    (hpath : g.types.get? "path".toList = some (.path traversal)) (t : Text) :
    ((∃ e, g.compile (name ++ ':' :: t) = .error (.fault e) ∧ e.cause = .invalidInterpolation) ↔
        ¬ Template.IsTemplate t) ∧
      (Template.Peg.template.Parses t none ↔ ¬ Template.IsTemplate t) ∧
      (Template.IsTemplate t → ∃ parts, (∀ parts', Template.Reads parts' t ↔ parts' = parts) ∧
        Template.Peg.template.Parses t (some (parts.map Template.Part.node, [])) ∧
        Template.write parts = t ∧
        match (Template.bodies parts).mapM fun body => g.compile ("path".toList ++ ':' :: body) with
        | .error halt => g.compile (name ++ ':' :: t) = .error halt
        | .ok sites => ∃ pieces, g.compile (name ++ ':' :: t) = .ok (.template ⟨name, t⟩ pieces) ∧
            pieces.filterMap Piece.site? = sites ∧
            (pieces.flatMap Piece.content).map (Sum.map id Expr.source) =
              parts.flatMap Template.Part.content) := by
  refine ⟨?_, Template.parses_template_none_iff, ?_⟩
  · constructor
    · rintro ⟨e, he, hcause⟩ ht
      obtain ⟨parts, hreads⟩ := Template.isTemplate_iff.1 ht
      have hcompile := compile_template hname htemplate hpath hreads
      split at hcompile
      · rename_i halt hm
        rw [he] at hcompile
        cases hcompile
        have hsites : NotMalformed ((Template.bodies parts).mapM fun body =>
            g.compile ("path".toList ++ ':' :: body)) := by
          refine notMalformed_mapM fun body hbody => notMalformed_compile g fun hmem => ?_
          have hbody := Template.dollar_notMem_of_mem_bodies hreads.wellFormed hbody
          simp only [List.mem_append, List.mem_cons] at hmem
          rcases hmem with hmem | hmem | hmem
          · exact absurd hmem (by decide)
          · cases hmem
          · exact hbody hmem
        exact hsites _ hm hcause
      · obtain ⟨pieces, hpieces, -⟩ := hcompile
        rw [he] at hpieces
        cases hpieces
    · intro ht
      refine ⟨⟨.invalidInterpolation, t, ⟨Template.faultOffset t (Template.read t).2, 1⟩⟩,
        ?_, rfl⟩
      have hdollar : '$' ∈ t := by
        by_cases hdollar : '$' ∈ t
        · exact hdollar
        · exact absurd (Template.isTemplate_of_dollar_notMem hdollar) ht
      rw [g.compile_prefixed hname htemplate]
      simp [Engine.build, Factory.build, compileTemplate, hdollar,
        Template.parse_of_not_isTemplate ht, Halt.ofFault, bind, Except.bind]
  · intro ht
    obtain ⟨parts, hreads⟩ := Template.isTemplate_iff.1 ht
    refine ⟨parts, fun parts' => ⟨fun h => ?_, fun h => h ▸ hreads⟩,
      Template.parses_template_of_reads hreads, hreads.write_eq,
      compile_template hname htemplate hpath hreads⟩
    have hboth := h.read_eq.symm.trans hreads.read_eq
    exact congrArg Prod.fst hboth

/-- Runs of dollar signs, a name that ends before a hyphen, blanks in a site, and a brace outside. -/
def priceTag : Text := "$$$$$sum_1-$\x7bitem/net price\x7d\x7d$$".toList

theorem priceTag_split_without_loss :
    ∃ pieces, Engine.standard.compile ("string".toList ++ ':' :: priceTag) =
        .ok (.template ⟨"string".toList, priceTag⟩ pieces) ∧
      (pieces.flatMap Piece.content).map (Sum.map id Expr.source) =
        [.inl '$', .inl '$', .inr "sum_1".toList, .inl '-', .inr "item/net price".toList,
          .inl '\x7d', .inl '$'] := by
  have hreads : Template.Reads [.escape, .escape, .named "sum_1".toList, .plain ['-'],
      .braced "item/net price".toList, .plain ['\x7d'], .escape] priceTag :=
    Template.read_eq_iff.1 (by decide +kernel)
  have hname : Text.isName "string".toList = true := by decide
  obtain ⟨-, -, hsplit⟩ := templates_split_without_loss (g := .standard) hname rfl rfl priceTag
  obtain ⟨parts, hparts, -, -, hcompile⟩ := hsplit (Template.isTemplate_iff.2 ⟨_, hreads⟩)
  obtain rfl := (hparts _).1 hreads
  obtain ⟨pieces, hpieces, -, hcontent⟩ := hcompile
  exact ⟨pieces, hpieces, hcontent⟩

end TemplateExpressions
