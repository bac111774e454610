import TemplateExpressions.Engine.Compile
import TemplateExpressions.Proofs.Template.Grammar

/-!
# Nested texts

A factory hands only parts of its text back to the engine, so what it builds depends only on what these
parts compile to (`Factory.build_congr`). They are shorter than the text that the engine was given,
unless its default type negates or defers and has no blank to trim; then compilation never ends. Main
statement: more levels than a text has bytes change nothing any more (`compileWithin_eq`); so a text
with a type prefix compiles to what the factory of the type makes of the rest (`compile_prefixed`).
-/

set_option autoImplicit false

namespace TemplateExpressions

open Text

/-! ## Steps of compilation -/

/-- Of two steps, one after the other, both have to succeed. -/
theorem exists_of_bind_eq_ok {ε α β : Type} {x : Except ε α} {next : α → Except ε β} {b : β}
    (h : (x >>= next) = .ok b) : ∃ a, x = .ok a ∧ next a = .ok b := by
  cases x with
  | error e => cases h
  | ok a => exact ⟨a, rfl, h⟩

theorem Halt.eq_ok_of_ofFault {α : Type} {x : Except CompileError α} {a : α} (h : ofFault x = .ok a) : x = .ok a := by
  cases x with
  | error fault => cases h
  | ok a' =>
    cases h
    rfl

/-- What a path compiles to begins with a prefixed alternative, which is the last one, or with a route. -/
theorem compileAlternatives_cases {compile : Compiler} {source stretch : Text} {offset : Nat}
    {stretches : List Text} {alternatives : List (Alternative Expr)}
    (h : compileAlternatives compile source offset (stretch :: stretches) = .ok alternatives) :
    (hasPrefix (trimStart stretch) = true ∧
      ∃ e, compile (trimStart (joinWith ['|'] (stretch :: stretches))) = .ok e ∧ alternatives = [.nested e]) ∨
    (hasPrefix (trimStart stretch) = false ∧
      ∃ r others, Route.read source offset stretch = .ok r ∧
        compileAlternatives compile source (offset + bytes stretch + 1) stretches = .ok others ∧
        alternatives = .route r :: others) := by
  rw [compileAlternatives] at h
  cases hprefixed : hasPrefix (trimStart stretch) with
  | true =>
    rw [if_pos hprefixed] at h
    obtain ⟨e, hnested, h⟩ := exists_of_bind_eq_ok h
    cases h
    exact .inl ⟨rfl, e, hnested, rfl⟩
  | false =>
    rw [hprefixed, if_neg Bool.false_ne_true] at h
    obtain ⟨r, hread, h⟩ := exists_of_bind_eq_ok h
    obtain ⟨others, hothers, h⟩ := exists_of_bind_eq_ok h
    cases h
    exact .inr ⟨rfl, r, others, Halt.eq_ok_of_ofFault hread, hothers, rfl⟩

theorem compilePath_eq_ok {compile : Compiler} {traversal : Traversal} {typeName text : Text} {e : Expr}
    (h : compilePath compile traversal typeName text = .ok e) :
    ∃ alternatives, compileAlternatives compile text 0 (pieces '|' text) = .ok alternatives ∧
      e = .path ⟨typeName, text⟩ traversal alternatives := by
  obtain ⟨alternatives, halternatives, h⟩ := exists_of_bind_eq_ok h
  cases h
  exact ⟨alternatives, halternatives, rfl⟩

/-! ## What a factory compiles -/

theorem compileAlternatives_congr {f f' : Compiler} {source text : Text}
    (hf : ∀ u, u <:+ text → hasPrefix u = true → f u = f' u) (offset : Nat) (stretches : List Text)
    (htext : joinWith ['|'] stretches <:+ text) :
    compileAlternatives f source offset stretches =
      compileAlternatives f' source offset stretches := by
  induction stretches generalizing offset with
  | nil => rfl
  | cons stretch stretches ih =>
    unfold compileAlternatives
    split
    · rename_i hp
      have hnested := (hasPrefix_trimStart_joinWith stretch stretches).trans hp
      rw [hf _ ((trimStart_suffix _).trans htext) hnested]
    · rw [ih _ ((joinWith_suffix _ _ _).trans htext)]

theorem compilePath_congr {f f' : Compiler} {text : Text}
    (hf : ∀ u, u <:+ text → hasPrefix u = true → f u = f' u) (traversal : Traversal)
    (typeName : Text) :
    compilePath f traversal typeName text = compilePath f' traversal typeName text := by
  unfold compilePath
  have htext : joinWith ['|'] (Text.pieces '|' text) <:+ text :=
    ⟨[], by rw [List.nil_append, joinWith_pieces]⟩
  rw [compileAlternatives_congr hf 0 _ htext]

theorem compileSites_congr {site site' : Compiler} (ps : List (Piece Text))
    (h : ∀ body ∈ ps.filterMap Piece.site?, site body = site' body) :
    compileSites site ps = compileSites site' ps := by
  induction ps with
  | nil => rfl
  | cons p ps ih =>
    cases p with
    | literal text =>
      unfold compileSites
      rw [ih h]
    | site body =>
      unfold compileSites
      rw [h body List.mem_cons_self, ih fun b hb => h b (List.mem_cons_of_mem _ hb)]

theorem compileTemplate_congr {ι : Type} {site site' : ι → Compiler} {text : Text}
    (h : ∀ i body, bytes body < bytes text → site i body = site' i body) (i? : Option ι)
    (typeName : Text) :
    compileTemplate (i?.map site) typeName text = compileTemplate (i?.map site') typeName text := by
  unfold compileTemplate
  split
  · cases hp : Template.parse text with
    | error e => rfl
    | ok ps =>
      cases i? with
      | none => rfl
      | some i =>
        obtain ⟨parts, hreads, rfl⟩ := Template.parse_eq_ok hp
        have hsites : compileSites (site i) (Template.pieces parts) =
            compileSites (site' i) (Template.pieces parts) := by
          refine compileSites_congr _ fun body hbody => h i body ?_
          rw [Template.sites_pieces] at hbody
          rw [← hreads.write_eq]
          exact Template.bytes_lt_of_mem_bodies hbody
        simp only [Option.map_some, Halt.ofFault, bind, Except.bind, hsites]
  · rfl

/-- What a factory builds depends on what compilers make of suffixes of the text with a prefix, of
texts shorter than the text, as sites, and, for a negation or a deferral, of the trimmed text. -/
theorem Factory.build_congr {ι : Type} {f f' : Compiler} {site site' : ι → Compiler} {text : Text}
    (factory : Factory) (hf : ∀ u, u <:+ text → hasPrefix u = true → f u = f' u)
    (hsite : ∀ i body, bytes body < bytes text → site i body = site' i body)
    (hoperand : factory = .negation ∨ factory = .deferral →
      f (trimStart text) = f' (trimStart text))
    (i? : Option ι) (typeName : Text) :
    factory.build f (i?.map site) typeName text = factory.build f' (i?.map site') typeName text := by
  cases factory with
  | path traversal => exact compilePath_congr hf traversal typeName
  | pathUnder name => exact compilePath_congr hf .plain name
  | template => exact compileTemplate_congr hsite i? typeName
  | upperTemplate =>
    refine compileTemplate_congr (fun i body hbody => hsite i body ?_) i? typeName
    rwa [bytes_upper] at hbody
  | negation =>
    unfold Factory.build
    rw [hoperand (.inl rfl)]
  | deferral =>
    unfold Factory.build
    rw [hoperand (.inr rfl)]
  | echo => rfl
  | refusal => rfl

namespace Engine

variable {g : Engine}

/-- Sites are compiled alike by compilers that agree on texts of no more bytes. -/
theorem site_congr {f f' : Compiler} {body : Text}
    (hf : ∀ u, bytes u ≤ bytes body → f u = f' u) (factory : Factory) (typeName : Text) :
    factory.build f none typeName body = factory.build f' none typeName body := by
  have hsite : ∀ (_ : Unit) u, bytes u < bytes body → f u = f' u :=
    fun _ u hu => hf u (Nat.le_of_lt hu)
  exact factory.build_congr (fun u hu _ => hf u (bytes_le_of_sublist hu.sublist)) hsite
    (fun _ => hf _ (bytes_le_of_sublist (trimStart_suffix body).sublist)) none typeName

theorem build_congr {f f' : Compiler} {text : Text} (factory : Factory)
    (hf : ∀ u, u <:+ text → hasPrefix u = true → f u = f' u)
    (hshort : ∀ u, bytes u < bytes text → f u = f' u)
    (hoperand : factory = .negation ∨ factory = .deferral →
      f (trimStart text) = f' (trimStart text)) (typeName : Text) :
    g.build f factory typeName text = g.build f' factory typeName text := by
  refine factory.build_congr hf (fun site body hbody => ?_) hoperand _ typeName
  exact site_congr (fun u hu => hshort u (Nat.lt_of_le_of_lt hu hbody)) site _

/-- Compilers that agree on all texts of no more bytes build the same. -/
theorem build_congr_of_le {f f' : Compiler} {text : Text} (factory : Factory)
    (hf : ∀ u, bytes u ≤ bytes text → f u = f' u) (typeName : Text) :
    g.build f factory typeName text = g.build f' factory typeName text := by
  refine build_congr factory (fun u hu _ => hf u ?_) (fun u hu => hf u (Nat.le_of_lt hu))
    (fun _ => hf _ ?_) typeName
  · exact bytes_le_of_sublist hu.sublist
  · exact bytes_le_of_sublist (trimStart_suffix text).sublist

/-! ## Levels -/

/-- What a text compiles to, given what nested texts compile to. -/
def compileOver (g : Engine) (compile : Compiler) (text : Text) : Except Halt Expr :=
  match g.types.get? (g.dispatch text).1 with
  | none => .error (.fault (.unknownType (g.dispatch text).1 text))
  | some factory => g.build compile factory (g.dispatch text).1 (g.dispatch text).2

theorem compileWithin_succ (g : Engine) (levels : Nat) (text : Text) :
    g.compileWithin (levels + 1) text = g.compileOver (g.compileWithin levels) text := rfl

theorem compileOver_prefixed {name text : Text} {factory : Factory} (hname : isName name = true)
    (hfactory : g.types.get? name = some factory) (f : Compiler) :
    g.compileOver f (name ++ ':' :: text) = g.build f factory name text := by
  have hsplit : splitPrefix (name ++ ':' :: text) = some (name, text) :=
    splitPrefix_eq_some_iff.2 ⟨hname, rfl⟩
  simp [compileOver, dispatch, hsplit, hfactory]

/-- What a text compiles to depends on what shorter texts compile to; where the default type negates or
defers, on what the trimmed text compiles to, too. -/
theorem compileOver_congr {f f' : Compiler} {text : Text}
    (hshort : ∀ u, bytes u < bytes text → f u = f' u)
    (hoperand : ∀ factory, splitPrefix text = none → g.types.get? g.defaultType = some factory →
      factory = .negation ∨ factory = .deferral → f (trimStart text) = f' (trimStart text)) :
    g.compileOver f text = g.compileOver f' text := by
  cases hsplit : splitPrefix text with
  | some p =>
    obtain ⟨name, rest⟩ := p
    obtain ⟨hname, rfl⟩ := splitPrefix_eq_some_iff.1 hsplit
    cases hfactory : g.types.get? name with
    | none => simp [compileOver, dispatch, hsplit, hfactory]
    | some factory =>
      rw [compileOver_prefixed hname hfactory, compileOver_prefixed hname hfactory]
      refine build_congr_of_le factory (fun u hu => hshort u ?_) name
      have hcolon := Char.utf8Size_pos ':'
      rw [bytes_append, bytes_cons]
      omega
  | none =>
    cases hfactory : g.types.get? g.defaultType with
    | none => simp [compileOver, dispatch, hsplit, hfactory]
    | some factory =>
      simp only [compileOver, dispatch, hsplit, hfactory, Option.getD_none]
      refine build_congr factory (fun u hu hp => hshort u ?_) hshort (hoperand factory hsplit hfactory) _
      refine bytes_lt_of_suffix hu fun he => ?_
      rw [he, hasPrefix, hsplit] at hp
      cases hp

/-- A default type that negates or defers hands a text without a prefix or blanks back for ever. -/
theorem compileWithin_eq_endless {factory : Factory}
    (hfactory : g.types.get? g.defaultType = some factory)
    (hoperand : factory = .negation ∨ factory = .deferral) {text : Text}
    (hnone : splitPrefix text = none) (htrim : trimStart text = text) (levels : Nat) :
    g.compileWithin levels text = .error .endless := by
  induction levels with
  | zero => rfl
  | succ levels ih =>
    rcases hoperand with rfl | rfl
    · simp [compileWithin, dispatch, hnone, hfactory, build, Factory.build, htrim, ih, bind,
        Except.bind]
    · simp [compileWithin, dispatch, hnone, hfactory, build, Factory.build, htrim, ih, bind,
        Except.bind]

/-- Levels beyond the bytes of a text change nothing. -/
theorem compileWithin_eq (g : Engine) {text : Text} {levels levels' : Nat}
    (h : bytes text < levels) (h' : bytes text < levels') :
    g.compileWithin levels text = g.compileWithin levels' text := by
  -- by induction on the bytes; only a negation or deferral by default may hand the text itself back
  induction hn : bytes text using Nat.strongRecOn generalizing text levels levels' with
  | ind n ih =>
    subst hn
    obtain ⟨k, rfl⟩ := Nat.exists_eq_add_of_lt h
    obtain ⟨k', rfl⟩ := Nat.exists_eq_add_of_lt h'
    have hshort : ∀ u, bytes u < bytes text →
        g.compileWithin (bytes text + k) u = g.compileWithin (bytes text + k') u :=
      fun u hu => ih _ hu (by omega) (by omega) rfl
    rw [compileWithin_succ, compileWithin_succ]
    refine compileOver_congr hshort fun factory hsplit hfactory hoperand => ?_
    by_cases htrim : trimStart text = text
    · rw [htrim, compileWithin_eq_endless hfactory hoperand hsplit htrim,
        compileWithin_eq_endless hfactory hoperand hsplit htrim]
    · exact hshort _ (bytes_lt_of_suffix (trimStart_suffix text) htrim)

theorem compileWithin_eq_compile {text : Text} {levels : Nat} (h : bytes text < levels) :
    g.compileWithin levels text = g.compile text :=
  g.compileWithin_eq h (Nat.lt_succ_self _)

/-- A text compiles to what compiling it comes to, given what nested texts compile to. -/
theorem compile_eq_compileOver (g : Engine) (text : Text) : g.compile text = g.compileOver g.compile text := by
  have hlevels : bytes text < bytes text + 1 + 1 := Nat.lt_succ_of_lt (Nat.lt_succ_self _)
  rw [← compileWithin_eq_compile hlevels, compileWithin_succ]
  refine compileOver_congr (fun u hu => compileWithin_eq_compile (Nat.lt_succ_of_lt hu)) fun _ _ _ _ => ?_
  exact compileWithin_eq_compile (Nat.lt_succ_of_le (bytes_le_of_sublist (trimStart_suffix text).sublist))

/-- A text with a type prefix compiles to what the factory of the type makes of the rest. -/
theorem compile_prefixed {name : Text} {factory : Factory} (hname : isName name = true)
    (hfactory : g.types.get? name = some factory) (text : Text) :
    g.compile (name ++ ':' :: text) = g.build g.compile factory name text := by
  rw [compile_eq_compileOver, compileOver_prefixed hname hfactory]

end Engine
end TemplateExpressions
