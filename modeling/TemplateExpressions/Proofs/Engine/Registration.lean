import TemplateExpressions.Engine.Compile

/-!
# Registration of types

A registration adds a type at the end of the registry or is refused (`registerType_cases`). Compilation asks
the registry only for names that texts and the default type mention; so what comes to a result without the
new type comes to the same result with it. Main statements: registering a type changes no result of
compilation but failures for want of that type (`registering_conserves_compilation`), and a whole row of
registrations changes none but failures for want of types in the row (`compile_registered`).
-/

set_option autoImplicit false

namespace TemplateExpressions

open Text

/-! ## Names that are new -/

namespace Mapping

variable {ν : Type}

/-- A new name goes behind the others. -/
theorem put_of_has_eq_false {m : Mapping ν} {name : Text} (value : ν) (h : m.has name = false) :
    m.put name value = m ++ [(name, value)] := by
  induction m with
  | nil => rfl
  | cons entry m ih =>
    obtain ⟨n, v⟩ := entry
    by_cases hn : n = name
    · simp [has, get?, hn] at h
    · have hrest : has m name = false := by simpa [has, get?, hn] using h
      simp [put, hn, ih hrest]

/-- An entry behind the others is found only by its name, and only if that is new. -/
theorem get?_append_singleton (m : Mapping ν) (name : Text) (value : ν) (other : Text) :
    get? (m ++ [(name, value)]) other = get? m other ∨ (get? m other = none ∧ other = name) := by
  induction m with
  | nil =>
    by_cases h : name = other
    · exact .inr ⟨rfl, h.symm⟩
    · simp [get?, h]
  | cons entry m ih =>
    obtain ⟨n, v⟩ := entry
    by_cases hn : n = other
    · simp [get?, hn]
    · simpa [get?, hn] using ih

end Mapping

/-! ## Results that are conserved -/

/-- A result stays, unless it is a failure for want of a type of the given names. -/
def Conserved {α : Type} (wanted : Text → Prop) (before after : Except Halt α) : Prop :=
  after = before ∨ ∃ e name, before = .error (.fault e) ∧ e.cause = .unknownType name ∧ wanted name

namespace Conserved

variable {α β : Type} {wanted : Text → Prop}

theorem refl (result : Except Halt α) : Conserved wanted result result := .inl rfl

theorem bind {before after : Except Halt α} {f f' : α → Except Halt β}
    (h : Conserved wanted before after) (hf : ∀ a, Conserved wanted (f a) (f' a)) :
    Conserved wanted (before >>= f) (after >>= f') := by
  rcases h with rfl | ⟨e, name, rfl, hcause, hname⟩
  · cases after with
    | ok a => exact hf a
    | error halt => exact refl _
  · exact .inr ⟨e, name, rfl, hcause, hname⟩

theorem trans {first second third : Except Halt α} (h : Conserved wanted first second)
    (h' : Conserved wanted second third) : Conserved wanted first third := by
  rcases h with rfl | h
  · exact h'
  · exact .inr h

theorem mono {wanted' : Text → Prop} (hwanted : ∀ name, wanted name → wanted' name)
    {before after : Except Halt α} (h : Conserved wanted before after) :
    Conserved wanted' before after := by
  rcases h with h | ⟨e, name, h, hcause, hname⟩
  · exact .inl h
  · exact .inr ⟨e, name, h, hcause, hwanted name hname⟩

end Conserved

section Factories

variable {wanted : Text → Prop} {f f' : Compiler} (hf : ∀ u, Conserved wanted (f u) (f' u))

include hf

theorem compileAlternatives_conserved (source : Text) (offset : Nat) (stretches : List Text) :
    Conserved wanted (compileAlternatives f source offset stretches)
      (compileAlternatives f' source offset stretches) := by
  induction stretches generalizing offset with
  | nil => exact .refl _
  | cons stretch stretches ih =>
    unfold compileAlternatives
    split
    · exact (hf _).bind fun _ => .refl _
    · exact (Conserved.refl _).bind fun _ => (ih _).bind fun _ => .refl _

theorem compilePath_conserved (traversal : Traversal) (typeName text : Text) :
    Conserved wanted (compilePath f traversal typeName text)
      (compilePath f' traversal typeName text) :=
  (compileAlternatives_conserved hf _ _ _).bind fun _ => .refl _

theorem compileSites_conserved (ps : List (Piece Text)) :
    Conserved wanted (compileSites f ps) (compileSites f' ps) := by
  induction ps with
  | nil => exact .refl _
  | cons p ps ih =>
    cases p with
    | literal text => exact ih.bind fun _ => .refl _
    | site content => exact (hf content).bind fun _ => ih.bind fun _ => .refl _

end Factories

/-- The compilers of sites give the same results but failures for want of wanted types; where there is
none, there may come one only if the type of sites is wanted. -/
inductive SitesConserved (wanted : Text → Prop) : Option Compiler → Option Compiler → Prop
  | present {site site' : Compiler} : (∀ u, Conserved wanted (site u) (site' u)) →
      SitesConserved wanted (some site) (some site')
  | absent : SitesConserved wanted none none
  | wanted (site?' : Option Compiler) : wanted "path".toList → SitesConserved wanted none site?'

theorem compileTemplate_conserved {wanted : Text → Prop} {site? site?' : Option Compiler}
    (hsite : SitesConserved wanted site? site?') (typeName text : Text) :
    Conserved wanted (compileTemplate site? typeName text)
      (compileTemplate site?' typeName text) := by
  unfold compileTemplate
  split
  · refine (Conserved.refl _).bind fun ps => ?_
    cases hsite with
    | present h => exact (compileSites_conserved h ps).bind fun _ => .refl _
    | absent => exact .refl _
    | wanted _ hwanted => exact .inr ⟨_, _, rfl, rfl, hwanted⟩
  · exact .refl _

theorem Factory.build_conserved {wanted : Text → Prop} {f f' : Compiler}
    (hf : ∀ u, Conserved wanted (f u) (f' u)) {site? site?' : Option Compiler}
    (hsite : SitesConserved wanted site? site?') (factory : Factory) (typeName text : Text) :
    Conserved wanted (factory.build f site? typeName text)
      (factory.build f' site?' typeName text) := by
  cases factory with
  | path traversal => exact compilePath_conserved hf traversal typeName text
  | pathUnder name => exact compilePath_conserved hf .plain name text
  | template => exact compileTemplate_conserved hsite typeName text
  | upperTemplate => exact compileTemplate_conserved hsite typeName (upper text)
  | negation => exact (hf _).bind fun _ => .refl _
  | deferral => exact (hf _).bind fun _ => .refl _
  | echo => exact .refl _
  | refusal => exact .refl _

namespace Engine

/-! ## What a registration does -/

/-- A registration is refused if its name is no name or is taken; otherwise the type is added behind the
others. -/
theorem registerType_cases (g : Engine) (name : Text) (factory : Factory) :
    (isName name = false ∧
        g.registerType name factory = .error (.invalidName .expressionType name)) ∨
      (isName name = true ∧ g.types.has name = true ∧
        g.registerType name factory = .error (.duplicate .expressionType name)) ∨
      (isName name = true ∧ g.types.has name = false ∧
        g.registerType name factory = .ok { g with types := g.types ++ [(name, factory)] }) := by
  unfold registerType checkName
  cases hname : isName name with
  | false => exact .inl ⟨rfl, rfl⟩
  | true =>
    cases hhas : g.types.has name with
    | true => exact .inr (.inl ⟨rfl, rfl, rfl⟩)
    | false =>
      refine .inr (.inr ⟨rfl, rfl, ?_⟩)
      rw [Mapping.put_of_has_eq_false factory hhas]
      rfl

/-- The engine after a registration was asked for; one that is refused changes nothing. -/
def afterRegistering (g : Engine) (registration : Text × Factory) : Engine :=
  match g.registerType registration.1 registration.2 with
  | .ok g' => g'
  | .error _ => g

/-- The engine has the types of another one in their places, and further types of the given names
only. -/
structure Extends (wanted : Text → Prop) (g g' : Engine) : Prop where
  defaultType_eq : g'.defaultType = g.defaultType
  get?_eq_or : ∀ name, g'.types.get? name = g.types.get? name ∨
    (g.types.get? name = none ∧ wanted name)

theorem extends_afterRegistering (g : Engine) (registration : Text × Factory) :
    Extends (· = registration.1) g (g.afterRegistering registration) := by
  obtain ⟨name, factory⟩ := registration
  unfold afterRegistering
  rcases g.registerType_cases name factory with ⟨-, h⟩ | ⟨-, -, h⟩ | ⟨-, -, h⟩
  · rw [h]
    exact ⟨rfl, fun _ => .inl rfl⟩
  · rw [h]
    exact ⟨rfl, fun _ => .inl rfl⟩
  · rw [h]
    exact ⟨rfl, Mapping.get?_append_singleton g.types name factory⟩

/-! ## Built-in types -/

end Engine

/-- The factories that come with the library: paths, templates, negations and deferrals. -/
def Factory.IsBuiltin : Factory → Prop
  | .path _ | .template | .negation | .deferral => True
  | .pathUnder _ | .upperTemplate | .echo | .refusal => False

namespace Engine

/-- All types of the engine have built-in factories. -/
def IsBuiltin (g : Engine) : Prop :=
  ∀ name factory, g.types.get? name = some factory → factory.IsBuiltin

/-- What holds of all types of an engine and of a new one, if its name is one, holds after a registration. -/
theorem types_afterRegistering {P : Text → Factory → Prop} {g : Engine}
    (hg : ∀ name factory, g.types.get? name = some factory → P name factory)
    {registration : Text × Factory} (hnew : isName registration.1 = true → P registration.1 registration.2) :
    ∀ name factory, (g.afterRegistering registration).types.get? name = some factory → P name factory := by
  obtain ⟨name, factory⟩ := registration
  unfold afterRegistering
  rcases g.registerType_cases name factory with ⟨-, h⟩ | ⟨-, -, h⟩ | ⟨hname, hfree, h⟩
  · rwa [h]
  · rwa [h]
  · rw [h]
    intro other factory' hother
    rw [← Mapping.put_of_has_eq_false factory hfree, Mapping.get?_put] at hother
    split at hother
    · rename_i heq
      cases hother
      exact heq ▸ hnew hname
    · exact hg other factory' hother

/-- So it does after a row of registrations. -/
theorem types_registered {P : Text → Factory → Prop} {g : Engine}
    (hg : ∀ name factory, g.types.get? name = some factory → P name factory)
    {registrations : List (Text × Factory)}
    (hnew : ∀ r ∈ registrations, isName r.1 = true → P r.1 r.2) :
    ∀ name factory, (registrations.foldl afterRegistering g).types.get? name = some factory → P name factory := by
  induction registrations generalizing g with
  | nil => exact hg
  | cons registration registrations ih =>
    obtain ⟨hfirst, hothers⟩ := List.forall_mem_cons.1 hnew
    exact ih (types_afterRegistering hg hfirst) hothers

theorem isBuiltin_afterRegistering {g : Engine} (hg : g.IsBuiltin) {registration : Text × Factory}
    (hfactory : registration.2.IsBuiltin) : (g.afterRegistering registration).IsBuiltin := by
  have hnew : isName registration.1 = true → registration.2.IsBuiltin := fun _ => hfactory
  exact types_afterRegistering (P := fun _ factory => factory.IsBuiltin) hg hnew

/-- Registering built-in factories makes an engine of built-in types. -/
theorem isBuiltin_registered {g : Engine} (hg : g.IsBuiltin) {registrations : List (Text × Factory)}
    (hfactories : ∀ r ∈ registrations, r.2.IsBuiltin) :
    (registrations.foldl afterRegistering g).IsBuiltin := by
  have hnew : ∀ r ∈ registrations, isName r.1 = true → r.2.IsBuiltin := fun r hr _ => hfactories r hr
  exact types_registered (P := fun _ factory => factory.IsBuiltin) hg hnew

theorem isBuiltin_of_types_eq_nil {g : Engine} (h : g.types = []) : g.IsBuiltin := by
  intro name factory hfactory
  rw [h] at hfactory
  cases hfactory

/-! ## Compilation after registrations -/

section Extended

variable {wanted : Text → Prop} {g g' : Engine} (hextends : Extends wanted g g')

include hextends

theorem site?_conserved {f f' : Compiler} (hf : ∀ u, Conserved wanted (f u) (f' u)) :
    SitesConserved wanted (g.site? f) (g'.site? f') := by
  unfold site?
  rcases hextends.get?_eq_or "path".toList with h | ⟨h, hwanted⟩
  · rw [h]
    cases g.types.get? "path".toList with
    | none => exact .absent
    | some factory =>
      exact .present fun u => factory.build_conserved hf .absent "path".toList u
  · rw [h]
    exact .wanted _ hwanted

theorem compileWithin_conserved (levels : Nat) (text : Text) :
    Conserved wanted (g.compileWithin levels text) (g'.compileWithin levels text) := by
  induction levels generalizing text with
  | zero => exact .refl _
  | succ levels ih =>
    have hdispatch : g'.dispatch text = g.dispatch text := by
      rw [dispatch, dispatch, hextends.defaultType_eq]
    unfold compileWithin
    rw [hdispatch]
    -- the registry is asked for the type of the text alone
    rcases hextends.get?_eq_or (g.dispatch text).1 with h | ⟨h, hwanted⟩
    · simp only [h]
      cases g.types.get? (g.dispatch text).1 with
      | none => exact .refl _
      | some factory =>
        exact factory.build_conserved ih (site?_conserved hextends ih) _ _
    · simp only [h]
      exact .inr ⟨_, _, rfl, rfl, hwanted⟩

theorem compile_conserved (text : Text) : Conserved wanted (g.compile text) (g'.compile text) :=
  compileWithin_conserved hextends _ text

end Extended

/-- After a row of registrations, some of which may have been refused, every text compiles as before,
unless it failed for want of a type in the row. -/
theorem compile_registered (g : Engine) (registrations : List (Text × Factory)) (text : Text) :
    Conserved (· ∈ registrations.map Prod.fst) (g.compile text)
      ((registrations.foldl afterRegistering g).compile text) := by
  induction registrations generalizing g with
  | nil => exact .refl _
  | cons registration registrations ih =>
    have hfirst := compile_conserved (extends_afterRegistering g registration) text
    refine (hfirst.mono ?_).trans ((ih (g.afterRegistering registration)).mono ?_)
    · rintro name rfl
      exact List.mem_cons_self
    · exact fun name hname => List.mem_cons_of_mem _ hname

end Engine

/-- A registration that is refused, because its name is no name or is taken, leaves the engine as it is.
One that is not refused adds the type behind the others, which keep their factories and their order;
what compiled before compiles to the same expression, and what failed fails in the same way, unless it
failed for want of the very type. -/
theorem registering_conserves_compilation (g : Engine) (name : Text) (factory : Factory) :
    match g.registerType name factory with
    | .error e =>
      g.afterRegistering (name, factory) = g ∧
        (e = .invalidName .expressionType name ∧ isName name = false ∨
          e = .duplicate .expressionType name ∧ g.types.has name = true)
    | .ok g' =>
      g.afterRegistering (name, factory) = g' ∧
        g' = { g with types := g.types ++ [(name, factory)] } ∧
        ∀ text, (∀ e, g.compile text = .ok e → g'.compile text = .ok e) ∧
          ∀ halt, g.compile text = .error halt →
            (∀ e, halt = .fault e → e.cause ≠ .unknownType name) → g'.compile text = .error halt := by
  have hcompile := Engine.compile_conserved (g.extends_afterRegistering (name, factory))
  have hafter : ∀ result, g.registerType name factory = result →
      g.afterRegistering (name, factory) = match result with | .ok g' => g' | .error _ => g := by
    rintro result rfl
    rfl
  rcases g.registerType_cases name factory with ⟨hname, h⟩ | ⟨-, htaken, h⟩ | ⟨-, -, h⟩
  · have hsame := hafter _ h
    rw [h]
    exact ⟨hsame, .inl ⟨rfl, hname⟩⟩
  · have hsame := hafter _ h
    rw [h]
    exact ⟨hsame, .inr ⟨rfl, htaken⟩⟩
  · have hadded := hafter _ h
    rw [hadded] at hcompile
    rw [h]
    refine ⟨hadded, rfl, fun text => ⟨fun e he => ?_, fun halt hhalt hwanted => ?_⟩⟩
    · rcases hcompile text with hsame | ⟨fault, n, hfault, -, -⟩
      · exact hsame.trans he
      · rw [he] at hfault
        cases hfault
    · rcases hcompile text with hsame | ⟨fault, n, hfault, hcause, rfl⟩
      · exact hsame.trans hhalt
      · rw [hhalt] at hfault
        cases hfault
        exact absurd hcause (hwanted fault rfl)

/-- A further type of templates: texts compile or fail as before, but for one that names it. -/
theorem registering_words_conserves :
    ∃ g', Engine.standard.registerType "words".toList .template = .ok g' ∧
      (∃ e, Engine.standard.compile "a/?b | not: words".toList = .ok e ∧
        g'.compile "a/?b | not: words".toList = .ok e) ∧
      g'.compile "a|1".toList =
        .error (.fault ⟨.invalidVariable ['1'], "a|1".toList, ⟨2, 1⟩⟩) ∧
      Engine.standard.compile "words:b".toList =
        .error (.fault (.unknownType "words".toList "words:b".toList)) ∧
      ∃ e, g'.compile "words:b".toList = .ok e := by
  have hregister := registering_conserves_compilation .standard "words".toList .template
  obtain ⟨g', hg'⟩ : ∃ g', Engine.standard.registerType "words".toList .template = .ok g' := ⟨_, rfl⟩
  rw [hg'] at hregister
  obtain ⟨-, htypes, hcompile⟩ := hregister
  refine ⟨g', hg', ⟨_, rfl, (hcompile _).1 _ rfl⟩, ?_, rfl, ?_⟩
  · refine (hcompile _).2 _ rfl fun e he hcause => ?_
    cases he
    cases hcause
  · rw [htypes]
    exact ⟨_, rfl⟩

end TemplateExpressions
