import TemplateExpressions.Proofs.Engine.Nested

/-!
# Where errors of compilation come from

An error that compilation ends with was raised at one of a few places, however deep in nested texts, and
nothing on the way out changes it. `Engine.Raises` lists these places with the error that each of them makes.
Main statement: there are no others (`raises_of_compile`).
-/

set_option autoImplicit false

namespace TemplateExpressions

open Text

/-- The errors that compilation makes. -/
inductive Engine.Raises (g : Engine) : CompileError → Prop
  /-- The type that a text selects is not registered. -/
  | unregistered {text : Text} : g.types.get? (g.dispatch text).1 = none →
      g.Raises (.unknownType (g.dispatch text).1 text)
  /-- A stretch of a path has no base name. -/
  | unnamed {source stretch : Text} {offset : Nat} {e : CompileError} :
      Route.read source offset stretch = .error e → g.Raises e
  /-- A text is no template. -/
  | malformed {text : Text} {e : CompileError} : Template.parse text = .error e → g.Raises e
  /-- There is no type for the sites of a template. -/
  | siteless {text : Text} : g.types.get? "path".toList = none → '$' ∈ text →
      Template.IsTemplate text → g.Raises (.unknownType "path".toList text)
  /-- A registered factory compiles no text. -/
  | refused {name typeName text : Text} : g.types.get? name = some .refusal →
      g.Raises ⟨.unknownType typeName, text, ⟨0, bytes text⟩⟩

/-- All errors of a result are ones that compilation makes. -/
def Raised {α : Type} (g : Engine) (result : Except Halt α) : Prop :=
  ∀ e, result = .error (.fault e) → g.Raises e

namespace Raised

variable {α β : Type} {g : Engine}

theorem ok (a : α) : Raised g (.ok a : Except Halt α) := by
  intro e h
  cases h

theorem fault {e : CompileError} (h : g.Raises e) : Raised g (.error (.fault e) : Except Halt α) := by
  intro e' he
  cases he
  exact h

theorem bind {x : Except Halt α} {f : α → Except Halt β} (hx : Raised g x)
    (hf : ∀ a, x = .ok a → Raised g (f a)) : Raised g (x >>= f) := by
  cases x with
  | ok a => exact hf a rfl
  | error halt =>
    intro e h
    cases h
    exact hx e rfl

theorem ofFault {x : Except CompileError α} (h : ∀ e, x = .error e → g.Raises e) :
    Raised g (Halt.ofFault x) := by
  cases x with
  | ok a => exact .ok a
  | error e => exact .fault (h e rfl)

end Raised

/-! ## Factories -/

section Factories

variable {g : Engine} {f : Compiler}

theorem raised_compileAlternatives (hf : ∀ u, Raised g (f u)) (source : Text) (offset : Nat)
    (stretches : List Text) : Raised g (compileAlternatives f source offset stretches) := by
  induction stretches generalizing offset with
  | nil => exact .ok _
  | cons stretch stretches ih =>
    unfold compileAlternatives
    split
    · exact (hf _).bind fun _ _ => .ok _
    · refine (Raised.ofFault fun e he => .unnamed he).bind fun _ _ => ?_
      exact (ih _).bind fun _ _ => .ok _

theorem raised_compilePath (hf : ∀ u, Raised g (f u)) (traversal : Traversal) (typeName text : Text) :
    Raised g (compilePath f traversal typeName text) :=
  (raised_compileAlternatives hf _ _ _).bind fun _ _ => .ok _

theorem raised_compileSites (ps : List (Piece Text))
    (h : ∀ body ∈ ps.filterMap Piece.site?, Raised g (f body)) : Raised g (compileSites f ps) := by
  induction ps with
  | nil => exact .ok _
  | cons p ps ih =>
    cases p with
    | literal t => exact (ih h).bind fun _ _ => .ok _
    | site body =>
      have hrest := ih fun b hb => h b (List.mem_cons_of_mem _ hb)
      exact (h body List.mem_cons_self).bind fun _ _ => hrest.bind fun _ _ => .ok _

/-- Only texts without dollar signs get to the compiler of sites. -/
theorem raised_compileTemplate {site? : Option Compiler} {text : Text}
    (hnone : site? = none → '$' ∈ text → g.types.get? "path".toList = none)
    (hsite : ∀ site ∈ site?, ∀ body, '$' ∉ body → Raised g (site body)) (typeName : Text) :
    Raised g (compileTemplate site? typeName text) := by
  unfold compileTemplate
  split
  · rename_i hdollar
    refine (Raised.ofFault fun e he => .malformed he).bind fun ps hps => ?_
    cases hp : Template.parse text with
    | error e =>
      rw [hp] at hps
      cases hps
    | ok ps' =>
      rw [hp] at hps
      cases hps
      obtain ⟨parts, hreads, rfl⟩ := Template.parse_eq_ok hp
      cases site? with
      | none =>
        exact .fault (.siteless (hnone rfl hdollar) hdollar (Template.isTemplate_iff.2 ⟨parts, hreads⟩))
      | some site =>
        refine (raised_compileSites _ fun body hbody => ?_).bind fun _ _ => .ok _
        rw [Template.sites_pieces] at hbody
        exact hsite site rfl body (Template.dollar_notMem_of_mem_bodies hreads.wellFormed hbody)
  · exact .ok _

theorem Factory.raised_build {factory : Factory} {name : Text}
    (hfactory : g.types.get? name = some factory) (hf : ∀ u, Raised g (f u)) {site? : Option Compiler}
    {text : Text} (hnone : site? = none → '$' ∈ text → g.types.get? "path".toList = none)
    (hsite : ∀ site ∈ site?, ∀ body, '$' ∉ body → Raised g (site body)) (typeName : Text) :
    Raised g (factory.build f site? typeName text) := by
  cases factory with
  | path traversal => exact raised_compilePath hf _ _ _
  | pathUnder name => exact raised_compilePath hf _ _ _
  | template => exact raised_compileTemplate hnone hsite typeName
  | upperTemplate =>
    refine raised_compileTemplate (fun h hdollar => hnone h ?_) hsite typeName
    by_cases htext : '$' ∈ text
    · exact htext
    · exact absurd hdollar (dollar_notMem_upper htext)
  | negation => exact (hf _).bind fun _ _ => .ok _
  | deferral => exact (hf _).bind fun _ _ => .ok _
  | echo => exact .ok _
  | refusal => exact .fault (.refused hfactory)

end Factories

theorem Engine.raised_compileWithin (g : Engine) (levels : Nat) (text : Text) :
    Raised g (g.compileWithin levels text) := by
  induction levels generalizing text with
  | zero =>
    intro e he
    cases he
  | succ levels ih =>
    unfold compileWithin
    dsimp only
    split
    · rename_i hnone
      exact .fault (.unregistered hnone)
    · rename_i factory hfactory
      refine Factory.raised_build hfactory ih (fun hsite _ => ?_) (fun site h body hbody => ?_) _
      · exact Option.map_eq_none_iff.1 hsite
      · obtain ⟨factory', hpath, rfl⟩ := Option.map_eq_some_iff.1 h
        exact Factory.raised_build hpath ih (fun _ hdollar => absurd hdollar hbody)
          (fun _ h => by cases h) _

/-- An error that compilation ends with was made at one of the places of the list. -/
theorem Engine.raises_of_compile {g : Engine} {text : Text} {e : CompileError}
    (h : g.compile text = .error (.fault e)) : g.Raises e :=
  g.raised_compileWithin _ text e h

end TemplateExpressions
