import Mathlib.Data.List.Chain
import TemplateExpressions.Proofs.Engine.Nested

/-!
# Compilation ends

What compiling one text asks the engine to compile is shorter than the text (`Asks.bytes_lt`), unless the
default type negates or defers. So a text of `n` bytes is compiled within `n + 1` levels of texts inside one
another, and compilation never gives up for want of levels. Main statement: `compilation_ends`.
-/

set_option autoImplicit false

namespace TemplateExpressions

open Text

/-! ## Results of compilation that ends -/

/-- A result that is not that of giving up. -/
def Ends {α : Type} (result : Except Halt α) : Prop := result ≠ .error .endless

namespace Ends

variable {α β : Type}

theorem ok (a : α) : Ends (.ok a : Except Halt α) := by
  intro h
  cases h

theorem fault (e : CompileError) : Ends (.error (.fault e) : Except Halt α) := by
  intro h
  cases h

theorem ofFault (result : Except CompileError α) : Ends (Halt.ofFault result) := by
  cases result with
  | ok a => exact ok a
  | error e => exact fault e

theorem bind {x : Except Halt α} {f : α → Except Halt β} (hx : Ends x) (hf : ∀ a, Ends (f a)) :
    Ends (x >>= f) := by
  cases x with
  | ok a => exact hf a
  | error halt =>
    intro h
    cases h
    exact hx rfl

/-- Compilation that ends gives an expression or blames a text. -/
theorem cases {result : Except Halt α} (h : Ends result) :
    (∃ a, result = .ok a) ∨ ∃ e, result = .error (.fault e) := by
  cases result with
  | ok a => exact .inl ⟨a, rfl⟩
  | error halt =>
    cases halt with
    | fault e => exact .inr ⟨e, rfl⟩
    | endless => exact absurd rfl h

end Ends

section Factories

variable {f : Compiler} (hf : ∀ u, Ends (f u))

include hf

theorem ends_compileAlternatives (source : Text) (offset : Nat) (stretches : List Text) :
    Ends (compileAlternatives f source offset stretches) := by
  induction stretches generalizing offset with
  | nil => exact .ok _
  | cons stretch stretches ih =>
    unfold compileAlternatives
    split
    · exact (hf _).bind fun _ => .ok _
    · exact (Ends.ofFault _).bind fun _ => (ih _).bind fun _ => .ok _

theorem ends_compilePath (traversal : Traversal) (typeName text : Text) :
    Ends (compilePath f traversal typeName text) :=
  (ends_compileAlternatives hf _ _ _).bind fun _ => .ok _

theorem ends_compileSites (ps : List (Piece Text)) : Ends (compileSites f ps) := by
  induction ps with
  | nil => exact .ok _
  | cons p ps ih =>
    cases p with
    | literal text => exact ih.bind fun _ => .ok _
    | site content => exact (hf content).bind fun _ => ih.bind fun _ => .ok _

end Factories

theorem ends_compileTemplate {site? : Option Compiler} (hsite : ∀ site ∈ site?, ∀ u, Ends (site u))
    (typeName text : Text) : Ends (compileTemplate site? typeName text) := by
  unfold compileTemplate
  split
  · refine (Ends.ofFault _).bind fun ps => ?_
    cases site? with
    | none => exact .fault _
    | some site => exact (ends_compileSites (hsite site rfl) ps).bind fun _ => .ok _
  · exact .ok _

theorem Factory.ends_build {f : Compiler} (hf : ∀ u, Ends (f u)) {site? : Option Compiler}
    (hsite : ∀ site ∈ site?, ∀ u, Ends (site u)) (factory : Factory) (typeName text : Text) :
    Ends (factory.build f site? typeName text) := by
  cases factory with
  | path traversal => exact ends_compilePath hf traversal typeName text
  | pathUnder name => exact ends_compilePath hf .plain name text
  | template => exact ends_compileTemplate hsite typeName text
  | upperTemplate => exact ends_compileTemplate hsite typeName (upper text)
  | negation => exact (hf _).bind fun _ => .ok _
  | deferral => exact (hf _).bind fun _ => .ok _
  | echo => exact .ok _
  | refusal => exact .fault _

namespace Engine

variable {g : Engine}

/-- One level of compilation ends if all nested texts do. -/
theorem ends_compileOver {f : Compiler} (hf : ∀ u, Ends (f u)) (text : Text) :
    Ends (g.compileOver f text) := by
  unfold compileOver
  split
  · exact .fault _
  · rename_i factory _
    refine factory.ends_build hf (fun site hsite u => ?_) _ _
    obtain ⟨factory', -, rfl⟩ := Option.map_eq_some_iff.1 hsite
    exact factory'.ends_build hf (fun _ h => by cases h) _ _

/-! ## What the engine is asked -/

/-- Compiling `text` asks the engine for `nested`: with other compilations of nested texts, but for that of
`nested` alone, it comes to something else. -/
def Asks (g : Engine) (text nested : Text) : Prop :=
  ∃ f f' : Compiler, (∀ u, u ≠ nested → f u = f' u) ∧ g.compileOver f text ≠ g.compileOver f' text

/-- The engine is asked for a text without which there is no expression. -/
theorem asks_of_isOk {f : Compiler} {e : Expr} {text nested : Text}
    (hwithout : (g.compileOver f text).isOk = false)
    (hwith : (g.compileOver (fun u => if u = nested then .ok e else f u) text).isOk = true) :
    g.Asks text nested := by
  refine ⟨f, fun u => if u = nested then .ok e else f u, fun u hu => (if_neg hu).symm, fun hsame => ?_⟩
  rw [hsame, hwith] at hwithout
  cases hwithout

/-- The engine is asked for the operand of a negation or a deferral, without its leading blanks. -/
theorem asks_operand {name : Text} {factory : Factory} (hname : isName name = true)
    (hfactory : g.types.get? name = some factory)
    (hoperand : factory = .negation ∨ factory = .deferral) (text : Text) :
    g.Asks (name ++ ':' :: text) (trimStart text) := by
  refine asks_of_isOk (f := fun _ => .error .endless) (e := .echo ⟨[], []⟩) ?_ ?_
  · rw [compileOver_prefixed hname hfactory]
    rcases hoperand with rfl | rfl <;> rfl
  · rw [compileOver_prefixed hname hfactory]
    rcases hoperand with rfl | rfl <;> simp [build, Factory.build] <;> rfl

/-- Texts without a prefix are not handed back as they are: the default type, if there is one, neither
negates nor defers. -/
def DefaultReads (g : Engine) : Prop :=
  ∀ factory, g.types.get? g.defaultType = some factory → factory ≠ .negation ∧ factory ≠ .deferral

variable (hg : g.DefaultReads)

include hg

theorem DefaultReads.compileOver_congr {f f' : Compiler} {text : Text}
    (hshort : ∀ u, bytes u < bytes text → f u = f' u) :
    g.compileOver f text = g.compileOver f' text := by
  refine Engine.compileOver_congr hshort fun factory _ hfactory hoperand => ?_
  obtain ⟨hnegation, hdeferral⟩ := hg factory hfactory
  rcases hoperand with h | h
  · exact absurd h hnegation
  · exact absurd h hdeferral

/-- What the engine is asked for is shorter than the text. -/
theorem Asks.bytes_lt {text nested : Text} (h : g.Asks text nested) : bytes nested < bytes text := by
  obtain ⟨f, f', hsame, hdiffer⟩ := h
  by_contra hlong
  refine hdiffer (hg.compileOver_congr fun u hu => hsame u ?_)
  rintro rfl
  exact hlong hu

/-- Texts that the engine is asked for one inside another are no more than the first has bytes. -/
theorem length_le_of_isChain {text : Text} {chain : List Text}
    (h : List.IsChain g.Asks (text :: chain)) : chain.length ≤ bytes text := by
  induction chain generalizing text with
  | nil => exact Nat.zero_le _
  | cons nested chain ih =>
    obtain ⟨hasks, hrest⟩ := List.isChain_cons_cons.1 h
    have hshorter := hasks.bytes_lt hg
    have hlength := ih hrest
    simp only [List.length_cons]
    omega

/-- As many levels suffice as the text has bytes, and one more. -/
theorem ends_compileWithin {text : Text} {levels : Nat} (h : bytes text < levels) :
    Ends (g.compileWithin levels text) := by
  induction levels generalizing text with
  | zero => exact absurd h (Nat.not_lt_zero _)
  | succ levels ih =>
    -- longer texts are not asked for, so they may as well be taken to fail
    let f : Compiler := fun u =>
      if bytes u < bytes text then g.compileWithin levels u else .error (.fault (.unknownType [] u))
    have hf : ∀ u, Ends (f u) := by
      intro u
      by_cases hu : bytes u < bytes text
      · simp only [f, if_pos hu]
        exact ih (by omega)
      · simp only [f, if_neg hu]
        exact .fault _
    have hsame : g.compileOver (g.compileWithin levels) text = g.compileOver f text :=
      hg.compileOver_congr fun u hu => by simp only [f, if_pos hu]
    rw [compileWithin_succ, hsame]
    exact ends_compileOver hf text

end Engine

/-- Where the default type neither negates nor defers, all that compiling a text asks the engine for is
shorter than the text. So texts are asked for inside one another no deeper than the text has bytes; on any
number of levels above that, compilation ends with an expression or an error that blames a text, the same
for all such numbers. -/
theorem compilation_ends {g : Engine} (hg : g.DefaultReads) (text : Text) :
    (∀ nested, g.Asks text nested → Text.bytes nested < Text.bytes text) ∧
      (∀ chain, List.IsChain g.Asks (text :: chain) → chain.length ≤ Text.bytes text) ∧
      ((∃ e, g.compile text = .ok e) ∨ ∃ e, g.compile text = .error (.fault e)) ∧
      ∀ levels, Text.bytes text < levels → g.compileWithin levels text = g.compile text := by
  refine ⟨fun nested h => h.bytes_lt hg, fun chain h => Engine.length_le_of_isChain hg h, ?_,
    fun levels h => Engine.compileWithin_eq_compile h⟩
  exact (Engine.ends_compileWithin hg (Nat.lt_succ_self _)).cases

/-- An engine whose texts without a prefix are templates and whose sites are deferred. -/
def deferringSites : Engine :=
  { Engine.empty with
    types := [("path".toList, .deferral), ("string".toList, .template), ("not".toList, .negation)]
    defaultType := "string".toList }

/-- The operand of the negation is a template, and the deferred content of its site is one again. -/
theorem compilation_of_deferringSites :
    List.IsChain deferringSites.Asks ["not: string:$x".toList, "string:$x".toList, ['x']] ∧
      2 ≤ Text.bytes "not: string:$x".toList ∧
      Text.bytes ['x'] < Text.bytes "string:$x".toList ∧
      (deferringSites.compile "not: string:$x".toList).isOk = true ∧
      deferringSites.compileWithin 99 "not: string:$x".toList =
        deferringSites.compile "not: string:$x".toList := by
  have hg : deferringSites.DefaultReads := by
    intro factory hfactory
    have hdefault : deferringSites.types.get? deferringSites.defaultType = some .template := rfl
    rw [hdefault] at hfactory
    cases hfactory
    decide
  have hnot : isName "not".toList = true := by decide
  have hoperand : deferringSites.Asks "not: string:$x".toList "string:$x".toList :=
    Engine.asks_operand hnot rfl (.inl rfl) " string:$x".toList
  have hsite : deferringSites.Asks "string:$x".toList ['x'] :=
    Engine.asks_of_isOk (f := fun _ => .error .endless) (e := .echo ⟨[], []⟩) (by decide +kernel)
      (by decide +kernel)
  have hchain : List.IsChain deferringSites.Asks
      ["not: string:$x".toList, "string:$x".toList, ['x']] := by
    refine List.isChain_cons_cons.2 ⟨hoperand, List.isChain_cons_cons.2 ⟨hsite, ?_⟩⟩
    exact List.isChain_singleton _
  obtain ⟨-, hlength, -, hlevels⟩ := compilation_ends hg "not: string:$x".toList
  obtain ⟨hshorter, -⟩ := compilation_ends hg "string:$x".toList
  exact ⟨hchain, hlength _ hchain, hshorter _ hsite, by decide +kernel, hlevels 99 (by decide)⟩

end TemplateExpressions
