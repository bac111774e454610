import TemplateExpressions.Proofs.Mapping
import TemplateExpressions.Proofs.Session.Origin

/-!
# The roots of a context

Roots are given to a builder one by one and in mappings, in any order. What comes of the calls is the mapping
that three lists of entries describe, one behind the other: those named one by one, those that came in
mappings, and the fixed ones (`allRoots_addAll`). No run of a driver changes the roots of a context
(`roots_run`). Main statement: a root has its fixed value, else the last one that a mapping gave it, else the last
one that it was given by name, however the calls are interleaved; and so it stays (`roots_follow_precedence`).
-/

set_option autoImplicit false

namespace TemplateExpressions

/-! ## Calls on a builder -/

/-- A call on a builder that adds roots. -/
inductive RootCall where
  | root (name : Text) (value : Value)
  | roots (entries : List (Text × Value))

namespace RootCall

/-- Whether a call adds a root by name. -/
def isByName : RootCall → Bool
  | .root _ _ => true
  | .roots _ => false

/-- The root that a call adds by name. -/
def named : RootCall → List (Text × Value)
  | .root name value => [(name, value)]
  | .roots _ => []

/-- The roots that a call adds in a mapping. -/
def mapped : RootCall → List (Text × Value)
  | .root _ _ => []
  | .roots entries => entries

theorem flatMap_named_filter (calls : List RootCall) :
    (calls.filter isByName).flatMap named = calls.flatMap named := by
  induction calls with
  | nil => rfl
  | cons call calls ih =>
    cases call with
    | root name value => exact congrArg ((name, value) :: ·) ih
    | roots entries => exact ih

theorem flatMap_mapped_filter (calls : List RootCall) :
    (calls.filter fun call => !call.isByName).flatMap mapped = calls.flatMap mapped := by
  induction calls with
  | nil => rfl
  | cons call calls ih =>
    cases call with
    | root name value => exact ih
    | roots entries => exact congrArg (entries ++ ·) ih

/-- The calls that add named roots and then a mapping of roots. -/
def ofRoots (mapping named : List (Text × Value)) : List RootCall :=
  named.map (fun entry => .root entry.1 entry.2) ++ [.roots mapping]

theorem flatMap_named_ofRoots (mapping named : List (Text × Value)) :
    (ofRoots mapping named).flatMap RootCall.named = named := by
  induction named with
  | nil => rfl
  | cons entry entries ih => exact congrArg (entry :: ·) ih

theorem flatMap_mapped_ofRoots (mapping named : List (Text × Value)) :
    (ofRoots mapping named).flatMap RootCall.mapped = mapping := by
  induction named with
  | nil => exact List.append_nil mapping
  | cons entry entries ih => exact ih

end RootCall

/-- The roots that every context has. The registry goes by two names. -/
def fixedRoots (id : ContextId) : List (Text × Value) :=
  [("nothing".toList, .nothing), ("default".toList, .default),
   ("repeat".toList, .registry id), ("loop".toList, .registry id)]

example (id : ContextId) :
    Mapping.lastValue? (fixedRoots id) "repeat".toList = some (.registry id) ∧
      Mapping.lastValue? (fixedRoots id) "loop".toList = some (.registry id) := ⟨rfl, rfl⟩

namespace ContextBuilder

/-- Does a call. -/
def add (b : ContextBuilder) : RootCall → ContextBuilder
  | .root name value => b.root name value
  | .roots entries => b.roots entries

/-- Does calls one after the other. -/
def addAll (b : ContextBuilder) (calls : List RootCall) : ContextBuilder := calls.foldl add b

/-- Roots by name and roots in mappings are kept apart while a context is in the making. -/
theorem addAll_eq (b : ContextBuilder) (calls : List RootCall) :
    b.addAll calls = { b with
      named := b.named.putAll (calls.flatMap RootCall.named)
      mapped := b.mapped.putAll (calls.flatMap RootCall.mapped) } := by
  induction calls generalizing b with
  | nil => rfl
  | cons call calls ih =>
    rw [addAll, List.foldl_cons, ← addAll, ih, List.flatMap_cons, List.flatMap_cons, Mapping.putAll_append,
      Mapping.putAll_append]
    cases call <;> rfl

variable (maxDepth : Nat) (translator : Translator) (calls : List RootCall) (id : ContextId)

/-- What comes of the calls is described by three lists of entries. -/
theorem allRoots_addAll :
    (addAll ⟨[], [], maxDepth, translator⟩ calls).allRoots id =
      Mapping.ofEntries (calls.flatMap RootCall.named ++ calls.flatMap RootCall.mapped ++ fixedRoots id) := by
  rw [addAll_eq, allRoots, Mapping.ofEntries, Mapping.putAll_append, Mapping.putAll_append]
  exact congrArg (Mapping.putAll · (fixedRoots id)) (Mapping.putAll_ofEntries _ _)

theorem get?_allRoots_addAll (name : Text) :
    ((addAll ⟨[], [], maxDepth, translator⟩ calls).allRoots id).get? name =
      (Mapping.lastValue? (fixedRoots id) name).or ((Mapping.lastValue? (calls.flatMap RootCall.mapped) name).or
        (Mapping.lastValue? (calls.flatMap RootCall.named) name)) := by
  rw [allRoots_addAll, Mapping.get?_ofEntries, Mapping.lastValue?_append, Mapping.lastValue?_append]

/-- The order of the calls counts only among those by name, and among those with mappings. -/
theorem addAll_eq_of_filter {calls calls' : List RootCall} (b : ContextBuilder)
    (hnamed : calls'.filter RootCall.isByName = calls.filter RootCall.isByName)
    (hmapped : (calls'.filter fun call => !call.isByName) = calls.filter fun call => !call.isByName) :
    b.addAll calls' = b.addAll calls := by
  rw [addAll_eq, addAll_eq, ← RootCall.flatMap_named_filter calls', ← RootCall.flatMap_mapped_filter calls', hnamed,
    hmapped, RootCall.flatMap_named_filter, RootCall.flatMap_mapped_filter]

end ContextBuilder

/-! ## Roots in a session -/

namespace Session

variable {s s' : Session} {id : ContextId} {c : Context}

theorem context?_newContext (s : Session) (b : ContextBuilder) :
    (s.newContext b).1.world.context? (s.newContext b).2 = some (b.build (s.newContext b).2) := by
  simp [newContext, World.addContext, World.context?, ContextBuilder.build]

/-- A mapping of roots and named roots come to the same as calls on a builder. -/
theorem context?_getContext (s : Session) (mapping named : List (Text × Value)) :
    ((s.getContext mapping named).1.world.context? s.world.contexts.length).map Context.roots =
      some (Mapping.ofEntries (named ++ mapping ++ fixedRoots s.world.contexts.length)) := by
  have hcalls : s.getContext mapping named = s.newContext (s.builder.addAll (RootCall.ofRoots mapping named)) := by
    rw [getContext, RootCall.ofRoots, ContextBuilder.addAll, List.foldl_append, List.foldl_map]
    rfl
  rw [hcalls]
  refine (congrArg (Option.map Context.roots) (context?_newContext s _)).trans (congrArg some ?_)
  refine (ContextBuilder.allRoots_addAll _ _ _ _).trans ?_
  rw [RootCall.flatMap_named_ofRoots, RootCall.flatMap_mapped_ofRoots]
  rfl

theorem keeps_changes (changes : List Change) (c : Context) :
    (changes.foldl Context.after c).roots = c.roots ∧ (changes.foldl Context.after c).maxDepth = c.maxDepth := by
  induction changes generalizing c with
  | nil => exact ⟨rfl, rfl⟩
  | cons change changes ih =>
    obtain ⟨hroots, hmaxDepth⟩ := ih (c.after change)
    obtain ⟨hroots', hmaxDepth'⟩ := c.keeps_after change
    exact ⟨hroots.trans hroots', hmaxDepth.trans hmaxDepth'⟩

/-- A run lets go of a context for good, or it keeps the roots and the limit of the context. -/
theorem keeps_run {ops : List Operation} {c' : Context} (hr : s.run ops = some s')
    (hc : s.world.context? id = some c) (hc' : s'.world.context? id = some c') :
    c'.roots = c.roots ∧ c'.maxDepth = c.maxDepth := by
  by_cases hdrop : .drop id ∈ ops
  · obtain ⟨before, after, rfl, hbefore⟩ := List.eq_append_cons_of_mem hdrop
    obtain ⟨t, ht, hr⟩ := run_append hr
    obtain ⟨u, hu, hr⟩ := run_cons hr
    cases hu
    have hgone := gone_run (gone_drop (context?_run ht hc hbefore)) hr
    rw [hgone.context?_eq_none] at hc'
    cases hc'
  · have hafter := context?_run hr hc hdrop
    rw [hc', Option.some.injEq] at hafter
    rw [hafter]
    exact keeps_changes _ c

end Session

namespace Evaluation

variable {w : World} {id : ContextId} {c : Context}

/-- The expression for all roots of a context. -/
def contextsPath (heading : Heading) (traversal : Traversal) : Expr :=
  .path heading traversal [.route ⟨contextsBase, []⟩]

/-- Unless it is asked only whether there are any, the roots of a context come out as a mapping. -/
theorem valueOf_contextsPath (meaning : Meaning) (forcings : Nat) {heading : Heading}
    (hmode : PathMode.ofTypeName heading.typeName ≠ .testing) (traversal : Traversal) :
    valueOf w meaning forcings id c (contextsPath heading traversal) = Pure.pure (.map c.roots) := by
  have hroute : alternative w meaning id c traversal (.route ⟨contextsBase, []⟩) = Pure.pure (.map c.roots) := by
    have hbase : baseValue c contextsBase = .ok (.map c.roots) := if_pos rfl
    rw [alternative, follow, hbase]
    cases traversal <;> rfl
  cases hpath : PathMode.ofTypeName heading.typeName with
  | testing => exact absurd hpath hmode
  | holding =>
    simp only [contextsPath, valueOf, hpath]
    exact hroute
  | invoking =>
    simp only [contextsPath, valueOf, hpath, resolve, hroute]
    rfl

end Evaluation

namespace Session

/-- On a context with some depth the expression for all roots has them as its value. -/
theorem evaluate_contextsPath {s : Session} {id : ContextId} {c : Context} (hc : s.world.context? id = some c)
    (hdepth : c.maxDepth ≠ 0) {heading : Heading} (hmode : PathMode.ofTypeName heading.typeName ≠ .testing)
    (traversal : Traversal) :
    ∃ t, s.evaluate id (.compiled (Evaluation.contextsPath heading traversal)) = some (.ok (.map c.roots), t) := by
  obtain ⟨levels, hlevels⟩ := exists_enough_eq_succ s.world
  have hroom : ¬ c.maxDepth < ([] : List ContextId).count id + 1 := by simpa using hdepth
  have hmeaning : Evaluation.meaning s.world id (Evaluation.contextsPath heading traversal) =
      Run.within id 1 (Pure.pure (.map c.roots)) := by
    rw [Evaluation.meaning, hlevels, Evaluation.evaluate, Evaluation.guarded, hc]
    dsimp only
    rw [if_neg hroom, Evaluation.valueOf_contextsPath _ _ hmode]
    rfl
  rw [evaluate, evaluation, hmeaning]
  exact ⟨_, rfl⟩

/-- Roots by precedence: a fixed value, else the last one from a mapping, else the last one given by name. The
calls of a builder may be interleaved in any way, and no run of a driver changes what has come of them. -/
theorem roots_follow_precedence (s : Session) (maxDepth : Nat) (translator : Translator) (calls : List RootCall) :
    let empty : ContextBuilder := ⟨[], [], maxDepth, translator⟩
    let named := calls.flatMap RootCall.named
    let mapped := calls.flatMap RootCall.mapped
    let (made, id) := s.newContext (empty.addAll calls)
    ∃ c, made.world.context? id = some c ∧
      (∀ name, c.roots.get? name = (Mapping.lastValue? (fixedRoots id) name).or
        ((Mapping.lastValue? mapped name).or (Mapping.lastValue? named name))) ∧
      c.roots.names = ((named ++ mapped ++ fixedRoots id).map Prod.fst).eraseDups ∧
      (∀ calls' : List RootCall, calls'.filter RootCall.isByName = calls.filter RootCall.isByName →
        (calls'.filter fun call => !call.isByName) = (calls.filter fun call => !call.isByName) →
        s.newContext (empty.addAll calls') = (made, id)) ∧
      c.bindings = c.roots ∧
      (((s.getContext mapped named).1.world.context? id).map Context.roots = some c.roots) ∧
      ∀ ops later c', made.run ops = some later → later.world.context? id = some c' →
        Evaluation.baseValue c' contextsBase = .ok (.map c.roots) ∧
        (maxDepth ≠ 0 → ∀ heading traversal, PathMode.ofTypeName heading.typeName ≠ .testing →
          ∃ t, later.evaluate id (.compiled (Evaluation.contextsPath heading traversal)) =
            some (.ok (.map c.roots), t)) := by
  intro empty named mapped
  have hmade := context?_newContext s (empty.addAll calls)
  refine ⟨(empty.addAll calls).build _, hmade, ?_, ?_, ?_, rfl, ?_, ?_⟩
  · exact ContextBuilder.get?_allRoots_addAll maxDepth translator calls _
  · exact (congrArg Mapping.names (ContextBuilder.allRoots_addAll maxDepth translator calls _)).trans
      (Mapping.names_ofEntries _)
  · intro calls' hnamed hmapped
    rw [ContextBuilder.addAll_eq_of_filter empty hnamed hmapped]
    rfl
  · exact (context?_getContext s mapped named).trans
      (congrArg some (ContextBuilder.allRoots_addAll maxDepth translator calls _).symm)
  · intro ops later c' hr hc'
    obtain ⟨hroots, hdepth⟩ := keeps_run hr hmade hc'
    refine ⟨hroots ▸ if_pos rfl, fun hmaxDepth heading traversal hmode => ?_⟩
    rw [← hroots]
    refine evaluate_contextsPath hc' ?_ hmode traversal
    rw [hdepth, ContextBuilder.build, ContextBuilder.addAll_eq]
    exact hmaxDepth

end Session
end TemplateExpressions
