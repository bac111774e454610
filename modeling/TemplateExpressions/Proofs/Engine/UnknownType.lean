import TemplateExpressions.Proofs.Engine.Fault
import TemplateExpressions.Proofs.Engine.Raised

/-!
# What errors about unknown types blame

The span of such an error has as many bytes as the name of the type, from the start of the source on. So it
selects the name exactly if the source starts with it (`selects_unknownType_iff`), which it does where a
prefix asks for the type, and need not where the type is the default one or the one of sites, whose names the
text does not mention. Main statement: these are the three kinds of such errors
(`unknown_type_is_blamed`).
-/

set_option autoImplicit false

namespace TemplateExpressions

open Text

/-- The span of the error lies within its source and takes up just the text `name` there. -/
def CompileError.Selects (e : CompileError) (name : Text) : Prop :=
  ∃ before after, e.source = before ++ name ++ after ∧ e.span = ⟨bytes before, bytes name⟩

theorem CompileError.Selects.stop_le {e : CompileError} {name : Text} (h : e.Selects name) :
    e.span.stop ≤ bytes e.source := by
  obtain ⟨before, after, hsource, hspan⟩ := h
  rw [hsource, hspan, Span.stop, bytes_append, bytes_append]
  exact Nat.le_add_right _ _

/-- A span at the start of the source selects the name exactly if the source starts with it. -/
theorem CompileError.selects_iff {e : CompileError} {name : Text} (hspan : e.span = ⟨0, bytes name⟩) :
    e.Selects name ↔ name <+: e.source := by
  constructor
  · rintro ⟨before, after, hsource, hspan'⟩
    have hzero : bytes before = 0 := by
      rw [hspan] at hspan'
      exact (Span.mk.inj hspan').1.symm
    have hlength := length_le_bytes before
    have hbefore : before = [] := List.eq_nil_of_length_eq_zero (by omega)
    subst hbefore
    exact ⟨after, hsource.symm⟩
  · rintro ⟨after, hsource⟩
    exact ⟨[], after, hsource.symm, hspan⟩

/-- Why a type is missing: a prefix asks for it, a text without a prefix is of this type by default, or the
sites of a template are of this type. -/
inductive Engine.Misses (g : Engine) : Text → Text → Prop
  | selected {name rest : Text} : isName name = true → g.Misses name (name ++ ':' :: rest)
  | default {source : Text} : splitPrefix source = none → g.Misses g.defaultType source
  | site {source : Text} : '$' ∈ source → Template.IsTemplate source →
      g.Misses "path".toList source

/-- A text is of the type that it selects, or of the default type. -/
theorem Engine.misses_dispatch (g : Engine) (text : Text) : g.Misses (g.dispatch text).1 text := by
  unfold dispatch
  cases hsplit : splitPrefix text with
  | some p =>
    obtain ⟨name, rest⟩ := p
    obtain ⟨hname, rfl⟩ := splitPrefix_eq_some_iff.1 hsplit
    exact .selected hname
  | none => exact .default hsplit

/-- The places where built-in types fail for want of a type. -/
theorem Engine.misses_of_raises {g : Engine} (hg : g.IsBuiltin) {e : CompileError} {name : Text}
    (h : g.Raises e) (hcause : e.cause = .unknownType name) :
    g.types.get? name = none ∧ e.span = ⟨0, bytes name⟩ ∧ g.Misses name e.source := by
  cases h with
  | @unregistered text hnone =>
    cases hcause
    exact ⟨hnone, rfl, g.misses_dispatch text⟩
  | siteless hnone hdollar ht =>
    cases hcause
    exact ⟨hnone, rfl, .site hdollar ht⟩
  | @unnamed source stretch offset _ hroute =>
    rcases Route.read_cases source offset stretch with ⟨-, r, hr⟩ | ⟨-, hr⟩
    · rw [hr] at hroute
      cases hroute
    · rw [hr] at hroute
      cases hroute
      cases hcause
  | @malformed text _ hparse =>
    by_cases ht : Template.IsTemplate text
    · obtain ⟨parts, hreads⟩ := Template.isTemplate_iff.1 ht
      rw [Template.parse_of_reads hreads] at hparse
      cases hparse
    · rw [Template.parse_of_not_isTemplate ht] at hparse
      cases hparse
      cases hcause
  | refused hrefusal => cases hg _ _ hrefusal

/-- Where an error says that a type is unknown, that type is not registered, and the source is the text that
would have been of this type, or the template whose sites would have. The span is always the first bytes of
the source, as many as the name has; so it selects the name if and only if the source starts with it. It
does where a prefix asks for the type, however deep that is nested, and so for all errors on an engine that
has its default type and the type of sites. -/
theorem unknown_type_is_blamed {g : Engine} (hg : g.IsBuiltin) {text name : Text} {e : CompileError}
    (h : g.compile text = .error (.fault e)) (hcause : e.cause = .unknownType name) :
    g.types.get? name = none ∧ e.source <:+: text ∧ g.Misses name e.source ∧
      e.span = ⟨0, bytes name⟩ ∧
      (e.Selects name ↔ name <+: e.source) ∧
      (g.types.has g.defaultType = true → g.types.has "path".toList = true → e.Selects name) := by
  obtain ⟨hnone, hspan, hmisses⟩ := Engine.misses_of_raises hg (Engine.raises_of_compile h) hcause
  have hselects := CompileError.selects_iff hspan
  refine ⟨hnone, (g.quotes_compileWithin hg _ text e h).1, hmisses, hspan, hselects, ?_⟩
  intro hdefault hpath
  generalize hsource : e.source = source at hmisses
  cases hmisses with
  | selected _ => exact hselects.2 ⟨_, hsource.symm⟩
  | default _ =>
    rw [Mapping.has, hnone] at hdefault
    cases hdefault
  | site _ _ =>
    rw [Mapping.has, hnone] at hpath
    cases hpath

/-- A misspelt type in a nested alternative, on an engine with paths, templates, negation and deferral. -/
def misspelt : Text := "not: a |defer: b | spelling:c".toList

theorem blame_of_misspelt :
    ∃ e, guardedEngine.compile misspelt = .error (.fault e) ∧ e.source = "spelling:c".toList ∧
      guardedEngine.types.get? "spelling".toList = none ∧ e.Selects "spelling".toList := by
  have hbuiltin : guardedEngine.IsBuiltin :=
    Engine.isBuiltin_registered (Engine.isBuiltin_of_types_eq_nil rfl) (by simp [Factory.IsBuiltin])
  have hcompile : guardedEngine.compile misspelt =
      .error (.fault (.unknownType "spelling".toList "spelling:c".toList)) := by
    with_unfolding_all rfl
  obtain ⟨hnone, -, -, -, hselects, -⟩ := unknown_type_is_blamed hbuiltin hcompile rfl
  exact ⟨_, hcompile, rfl, hnone, hselects.2 ⟨":c".toList, rfl⟩⟩

/-- An engine of templates alone, which has neither its default type nor a type for sites. -/
def templateEngine : Engine := Engine.empty.afterRegistering ("string".toList, .template)

/-- Three texts that do not start with the name of the missing type. The first two mention it elsewhere; the
third has fewer bytes than the name, so that the span ends behind it. -/
theorem unmentioned_types_blamed_amiss :
    templateEngine.IsBuiltin ∧
      (∃ e, templateEngine.compile "my standard".toList = .error (.fault e) ∧
        e.cause = .unknownType "standard".toList ∧ ¬ e.Selects "standard".toList) ∧
      (∃ e, templateEngine.compile "string:the path $x".toList = .error (.fault e) ∧
        e.cause = .unknownType "path".toList ∧ ¬ e.Selects "path".toList) ∧
      ∃ e, templateEngine.compile "x".toList = .error (.fault e) ∧
        e.cause = .unknownType "standard".toList ∧ bytes e.source < e.span.stop ∧
        ¬ e.Selects "standard".toList := by
  have hbuiltin : templateEngine.IsBuiltin :=
    Engine.isBuiltin_afterRegistering (Engine.isBuiltin_of_types_eq_nil rfl) trivial
  have hdefault : templateEngine.compile "my standard".toList =
      .error (.fault (.unknownType "standard".toList "my standard".toList)) := by
    with_unfolding_all rfl
  have hsite : templateEngine.compile "string:the path $x".toList =
      .error (.fault (.unknownType "path".toList "the path $x".toList)) := by
    with_unfolding_all rfl
  refine ⟨hbuiltin, ⟨_, hdefault, rfl, fun h => ?_⟩, ⟨_, hsite, rfl, fun h => ?_⟩, ?_⟩
  · exact absurd ((CompileError.selects_iff rfl).1 h) (by decide)
  · exact absurd ((CompileError.selects_iff rfl).1 h) (by decide)
  · have hbehind : bytes ['x'] < (CompileError.unknownType "standard".toList ['x']).span.stop := by decide
    exact ⟨.unknownType "standard".toList ['x'], by with_unfolding_all rfl, rfl, hbehind,
      fun h => absurd h.stop_le (Nat.not_le.2 hbehind)⟩

end TemplateExpressions
