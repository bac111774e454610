import Mathlib.Data.List.DropRight
import Mathlib.Logic.Relation
import TemplateExpressions.Proofs.Engine.Fault
import TemplateExpressions.Proofs.Engine.Registration
import TemplateExpressions.Proofs.Route.Writing
import TemplateExpressions.Proofs.Template.Compilation
import TemplateExpressions.Session

/-!
# What a heading says

The heading of an expression keeps as much of the text as its factory has read, so the factory makes the same
expression of the source again (`Factory.build_source`); and since types are registered under names, the type name
before a colon selects that factory (`compile_heading`). What stands inside a compiled expression was compiled from
a text itself (`exists_compile_of_within`). Main statement: type name and source say what an expression is, at any
depth (`heading_identifies_expression`).
-/

set_option autoImplicit false

namespace TemplateExpressions

open Text

/-! ## Expressions inside expressions -/

/-- An expression that another one is put together from. -/
inductive Expr.Part : Expr → Expr → Prop
  | alternative {e : Expr} {heading : Heading} {traversal : Traversal} {alternatives : List (Alternative Expr)} :
      .nested e ∈ alternatives → Part e (.path heading traversal alternatives)
  | site {e : Expr} {heading : Heading} {pieces : List (Piece Expr)} :
      .site e ∈ pieces → Part e (.template heading pieces)
  | negated {operand : Expr} {heading : Heading} : Part operand (.negation heading operand)
  | deferred {operand : Expr} {heading : Heading} : Part operand (.deferral heading operand)

/-- An expression that stands in another one at some depth, or is that one. -/
def Expr.Within (inner e : Expr) : Prop := Relation.ReflTransGen Expr.Part inner e

/-! ## What factories build -/

section Factories

variable {f : Compiler} {typeName text : Text} {e part : Expr}

theorem exists_of_nested_mem {source : Text} {offset : Nat} {stretches : List Text}
    {alternatives : List (Alternative Expr)} (h : compileAlternatives f source offset stretches = .ok alternatives)
    (hpart : .nested part ∈ alternatives) : ∃ u, f u = .ok part := by
  induction stretches generalizing offset alternatives with
  | nil =>
    cases h
    cases hpart
  | cons stretch stretches ih =>
    rcases compileAlternatives_cases h with ⟨-, e, he, rfl⟩ | ⟨-, r, others, -, hothers, rfl⟩
    · cases List.mem_singleton.1 hpart
      exact ⟨_, he⟩
    · rcases List.mem_cons.1 hpart with hroute | hpart
      · cases hroute
      · exact ih hothers hpart

theorem exists_of_site_mem {site : Compiler} {ps : List (Piece Text)} {pieces : List (Piece Expr)}
    (h : compileSites site ps = .ok pieces) (hpart : .site part ∈ pieces) :
    ∃ body ∈ ps.filterMap Piece.site?, site body = .ok part := by
  induction ps generalizing pieces with
  | nil =>
    cases h
    cases hpart
  | cons p ps ih =>
    cases p with
    | literal t =>
      rw [compileSites] at h
      obtain ⟨others, hothers, h⟩ := exists_of_bind_eq_ok h
      cases h
      rcases List.mem_cons.1 hpart with hliteral | hpart
      · cases hliteral
      · exact ih hothers hpart
    | site body =>
      rw [compileSites] at h
      obtain ⟨e, hbody, h⟩ := exists_of_bind_eq_ok h
      obtain ⟨others, hothers, h⟩ := exists_of_bind_eq_ok h
      cases h
      rcases List.mem_cons.1 hpart with hsite | hpart
      · cases hsite
        exact ⟨body, List.mem_cons_self, hbody⟩
      · obtain ⟨body', hmem, hbody'⟩ := ih hothers hpart
        exact ⟨body', List.mem_cons_of_mem _ hmem, hbody'⟩

/-- A template keeps the whole text, and its sites hold no dollar signs. -/
theorem compileTemplate_eq_ok {site? : Option Compiler} (h : compileTemplate site? typeName text = .ok e) :
    ∃ pieces, e = .template ⟨typeName, text⟩ pieces ∧
      ∀ part, .site part ∈ pieces → ∃ site ∈ site?, ∃ body, '$' ∉ body ∧ site body = .ok part := by
  unfold compileTemplate at h
  split at h
  · obtain ⟨ps, hparse, h⟩ := exists_of_bind_eq_ok h
    obtain ⟨parts, hreads, rfl⟩ := Template.parse_eq_ok (Halt.eq_ok_of_ofFault hparse)
    cases site? with
    | none => cases h
    | some site =>
      obtain ⟨pieces, hsites, h⟩ := exists_of_bind_eq_ok h
      cases h
      refine ⟨pieces, rfl, fun part hpart => ?_⟩
      obtain ⟨body, hmem, hbody⟩ := exists_of_site_mem hsites hpart
      rw [Template.sites_pieces] at hmem
      exact ⟨site, rfl, body, Template.dollar_notMem_of_mem_bodies hreads.wellFormed hmem, hbody⟩
  · cases h
    refine ⟨_, rfl, fun part hpart => ?_⟩
    cases List.mem_singleton.1 hpart

theorem trimStart_trimStart (t : Text) : trimStart (trimStart t) = trimStart t := List.dropWhile_idempotent _ _

/-- A built-in factory puts its type name on what it builds, and builds the same of the source alone. -/
theorem Factory.build_source {factory : Factory} (hfactory : factory.IsBuiltin) {site? : Option Compiler}
    (h : factory.build f site? typeName text = .ok e) :
    e.typeName = typeName ∧ factory.build f site? typeName e.source = .ok e := by
  cases factory with
  | path traversal =>
    obtain ⟨alternatives, -, rfl⟩ := compilePath_eq_ok h
    exact ⟨rfl, h⟩
  | template =>
    obtain ⟨pieces, rfl, -⟩ := compileTemplate_eq_ok h
    exact ⟨rfl, h⟩
  | negation =>
    obtain ⟨operand, -, heq⟩ := exists_of_bind_eq_ok h
    cases heq
    refine ⟨rfl, ?_⟩
    rw [← h]
    simp only [Factory.build, Expr.source, Expr.heading, trimStart_trimStart]
  | deferral =>
    obtain ⟨operand, -, heq⟩ := exists_of_bind_eq_ok h
    cases heq
    refine ⟨rfl, ?_⟩
    rw [← h]
    simp only [Factory.build, Expr.source, Expr.heading, trimStart_trimStart]
  | _ => cases hfactory

/-- What a built-in factory puts together it has from the compiler, or from that of sites. -/
theorem Factory.exists_of_part {factory : Factory} (hfactory : factory.IsBuiltin) {site? : Option Compiler}
    (h : factory.build f site? typeName text = .ok e) (hpart : part.Part e) :
    (∃ u, f u = .ok part) ∨ ∃ site ∈ site?, ∃ body, '$' ∉ body ∧ site body = .ok part := by
  cases factory with
  | path traversal =>
    obtain ⟨alternatives, halternatives, rfl⟩ := compilePath_eq_ok h
    cases hpart with
    | alternative hmem => exact .inl (exists_of_nested_mem halternatives hmem)
  | template =>
    obtain ⟨pieces, rfl, hsites⟩ := compileTemplate_eq_ok h
    cases hpart with
    | site hmem => exact .inr (hsites part hmem)
  | negation =>
    obtain ⟨operand, hoperand, heq⟩ := exists_of_bind_eq_ok h
    cases heq
    cases hpart with
    | negated => exact .inl ⟨_, hoperand⟩
  | deferral =>
    obtain ⟨operand, hoperand, heq⟩ := exists_of_bind_eq_ok h
    cases heq
    cases hpart with
    | deferred => exact .inl ⟨_, hoperand⟩
  | _ => cases hfactory

end Factories

/-! ## What engines compile -/

namespace Engine

/-- All types of the engine are registered under names. -/
def IsNamed (g : Engine) : Prop := ∀ name factory, g.types.get? name = some factory → isName name = true

/-- An engine on which types are registered one after the other has them under names. -/
theorem isNamed_registered {g : Engine} (hg : g.IsNamed) (registrations : List (Text × Factory)) :
    (registrations.foldl afterRegistering g).IsNamed :=
  types_registered (P := fun name _ => isName name = true) hg fun _ _ hname => hname

section Compiled

variable {g : Engine} {text : Text} {e inner : Expr}

theorem exists_build_of_compile (h : g.compile text = .ok e) :
    ∃ name rest factory, g.types.get? name = some factory ∧ g.build g.compile factory name rest = .ok e := by
  rw [compile_eq_compileOver, compileOver] at h
  split at h
  · cases h
  · rename_i factory hfactory
    exact ⟨_, _, factory, hfactory, h⟩

variable (hbuiltin : g.IsBuiltin)

include hbuiltin

/-- The type name, a colon and the source of an expression compile to it. -/
theorem compile_heading (hnamed : g.IsNamed) (h : g.compile text = .ok e) :
    g.compile (e.typeName ++ ':' :: e.source) = .ok e := by
  obtain ⟨name, rest, factory, hfactory, hbuild⟩ := exists_build_of_compile h
  obtain ⟨htype, hagain⟩ := Factory.build_source (hbuiltin _ _ hfactory) hbuild
  rw [htype, compile_prefixed (hnamed _ _ hfactory) hfactory]
  exact hagain

theorem exists_compile_of_part (h : g.compile text = .ok e) (hpart : inner.Part e) :
    ∃ u, g.compile u = .ok inner := by
  obtain ⟨name, rest, factory, hfactory, hbuild⟩ := exists_build_of_compile h
  rcases Factory.exists_of_part (hbuiltin _ _ hfactory) hbuild hpart with
    hnested | ⟨site, hsite, body, hdollar, hbody⟩
  · exact hnested
  · obtain ⟨factory', hpath, rfl⟩ := Option.map_eq_some_iff.1 hsite
    exact ⟨_, (site_eq_compile hpath hdollar).symm.trans hbody⟩

/-- What stands in a compiled expression was compiled from a text itself. -/
theorem exists_compile_of_within (h : g.compile text = .ok e) (hinner : inner.Within e) :
    ∃ u, g.compile u = .ok inner := by
  induction hinner using Relation.ReflTransGen.head_induction_on with
  | refl => exact ⟨text, h⟩
  | head hpart _ ih =>
    obtain ⟨u, hu⟩ := ih
    exact exists_compile_of_part hbuiltin hu hpart

end Compiled

end Engine

/-- Type name and source say what an expression is, and what every operand, prefixed alternative and site in it is,
at any depth: a text of the type name, a colon and the source compiles to the very expression, and evaluates like
it on every context of the engine. -/
theorem heading_identifies_expression {g : Engine} (hbuiltin : g.IsBuiltin) (hnamed : g.IsNamed) {text : Text}
    {e inner : Expr} (h : g.compile text = .ok e) (hinner : inner.Within e) :
    g.compile (inner.typeName ++ ':' :: inner.source) = .ok inner ∧
      ∀ s : Session, s.world.engine = g → ∀ id,
        s.evaluation id (.text (inner.typeName ++ ':' :: inner.source)) = s.evaluation id (.compiled inner) := by
  obtain ⟨u, hu⟩ := Engine.exists_compile_of_within hbuiltin h hinner
  have hcompile := Engine.compile_heading hbuiltin hnamed hu
  refine ⟨hcompile, fun s hengine id => ?_⟩
  subst hengine
  simp only [Session.evaluation, hcompile]

/-- The last alternative of a path in a site, deferred, with a blank before its operand. -/
def deferredChoice : Expr :=
  .deferral ⟨"defer".toList, ['e']⟩ (.path ⟨"path".toList, ['e']⟩ .guarded [.route ⟨['e'], []⟩])

/-- A negated path with a template for its second alternative. -/
def negatedChoice : Text := "not:  a | string:$$ $\x7bc/?d |defer: e\x7d".toList

theorem heading_of_deferredChoice :
    ∃ e, guardedEngine.compile negatedChoice = .ok e ∧ deferredChoice.Within e ∧
      guardedEngine.compile "defer:e".toList = .ok deferredChoice ∧
      ∀ s : Session, s.world.engine = guardedEngine → ∀ id,
        s.evaluation id (.text "defer:e".toList) = s.evaluation id (.compiled deferredChoice) := by
  have hbuiltin : guardedEngine.IsBuiltin :=
    Engine.isBuiltin_registered (Engine.isBuiltin_of_types_eq_nil rfl) (by simp [Factory.IsBuiltin])
  have hnamed : guardedEngine.IsNamed := Engine.isNamed_registered (fun _ _ h => by cases h) _
  let site : Expr := .path ⟨"path".toList, "c/?d |defer: e".toList⟩ .guarded
    [.route ⟨['c'], [.dynamic ['d']]⟩, .nested deferredChoice]
  let template : Expr := .template ⟨"string".toList, "$$ $\x7bc/?d |defer: e\x7d".toList⟩
    [.literal "$ ".toList, .site site]
  let choice : Expr := .path ⟨"path".toList, "a | string:$$ $\x7bc/?d |defer: e\x7d".toList⟩ .guarded
    [.route ⟨['a'], []⟩, .nested template]
  let e : Expr := .negation ⟨"not".toList, "a | string:$$ $\x7bc/?d |defer: e\x7d".toList⟩ choice
  have hcompile : guardedEngine.compile negatedChoice = .ok e := by with_unfolding_all rfl
  have hsite : deferredChoice.Part site := .alternative (by simp)
  have htemplate : site.Part template := .site (by simp)
  have hchoice : template.Part choice := .alternative (by simp)
  have hwithin : deferredChoice.Within e :=
    .head hsite (.head htemplate (.head hchoice (.single .negated)))
  exact ⟨e, hcompile, hwithin, heading_identifies_expression hbuiltin hnamed hcompile hwithin⟩

end TemplateExpressions
