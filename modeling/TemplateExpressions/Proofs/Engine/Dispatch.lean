import TemplateExpressions.Proofs.Engine.Fault

/-!
# Prefixes in paths

A path looks for a type prefix in one stretch after the other, and the engine looks for one in the rest of the
path that it is handed from the first such stretch on. Both see the same name, whatever stands behind the next
bar (`Text.splitPrefix_trimStart_joinWith`), so the engine compiles the rest with the type that the stretch names
(`Engine.compile_of_splitPrefix`). The stretches before it are routes, and none behind it is looked at
(`compilePath_of_prefixed`). Main statement: `prefix_detection_agrees_with_dispatch`.
-/

set_option autoImplicit false

namespace TemplateExpressions

open Text

/-! ## The scan of a path -/

/-- Reads all stretches as routes, the first of which starts at byte `offset` of the source. -/
def Route.readAll (source : Text) : Nat → List Text → Except CompileError (List Route)
  | _, [] => .ok []
  | offset, stretch :: stretches => do
    let route ← Route.read source offset stretch
    let others ← Route.readAll source (offset + bytes stretch + 1) stretches
    return route :: others

theorem Route.leftOf_cons (stretch : Text) (stretches : List Text) :
    Route.leftOf (stretch :: stretches) = stretch ++ '|' :: Route.leftOf stretches := by
  simp [Route.leftOf]

theorem Halt.ofFault_bind {α β : Type} (x : Except CompileError α) (next : α → Except CompileError β) :
    ofFault (x >>= next) = ofFault x >>= fun a => ofFault (next a) := by
  cases x with
  | ok a => rfl
  | error e => rfl

section Scan

variable {f : Compiler} {left : List Text} (hleft : ∀ s ∈ left, hasPrefix (trimStart s) = false)

include hleft

/-- Stretches without a prefix are read as routes, before those behind them are looked at. -/
theorem compileAlternatives_append (source : Text) (offset : Nat) (right : List Text) :
    compileAlternatives f source offset (left ++ right) = do
      let routes ← Halt.ofFault (Route.readAll source offset left)
      let others ← compileAlternatives f source (offset + bytes (Route.leftOf left)) right
      return routes.map .route ++ others := by
  induction left generalizing offset with
  | nil => exact (bind_pure _).symm
  | cons stretch left ih =>
    obtain ⟨hstretch, hleft⟩ := List.forall_mem_cons.1 hleft
    have hbar : '|'.utf8Size = 1 := by decide
    have hoffset : offset + bytes stretch + 1 + bytes (Route.leftOf left) =
        offset + bytes (Route.leftOf (stretch :: left)) := by
      rw [Route.leftOf_cons, bytes_append, bytes_cons, hbar]
      omega
    rw [List.cons_append, compileAlternatives, hstretch, if_neg Bool.false_ne_true, ih hleft, hoffset, Route.readAll]
    simp only [Halt.ofFault_bind, bind_assoc, pure_bind]
    rfl

/-- The first stretch with a prefix takes the rest of the path with it. -/
theorem compilePath_of_prefixed {text stretch : Text} {right : List Text}
    (hpieces : pieces '|' text = left ++ stretch :: right) (hstretch : hasPrefix (trimStart stretch) = true)
    (traversal : Traversal) (typeName : Text) :
    compilePath f traversal typeName text = do
      let routes ← Halt.ofFault (Route.readAll text 0 left)
      let expr ← f (trimStart (joinWith ['|'] (stretch :: right)))
      return .path ⟨typeName, text⟩ traversal (routes.map .route ++ [.nested expr]) := by
  rw [compilePath, hpieces, compileAlternatives_append hleft, compileAlternatives, if_pos hstretch]
  simp only [bind_assoc, pure_bind]

end Scan

/-- A path without a stretch with a prefix is one of routes alone. -/
theorem compilePath_of_routes {text : Text} (h : ∀ s ∈ pieces '|' text, hasPrefix (trimStart s) = false)
    (f : Compiler) (traversal : Traversal) (typeName : Text) :
    compilePath f traversal typeName text = do
      let routes ← Halt.ofFault (Route.readAll text 0 (pieces '|' text))
      return .path ⟨typeName, text⟩ traversal (routes.map .route) := by
  have hall := compileAlternatives_append (f := f) h text 0 []
  have hnone : ∀ offset, compileAlternatives f text offset [] = pure [] := fun _ => rfl
  rw [List.append_nil, hnone] at hall
  rw [compilePath, hall]
  simp only [bind_assoc, pure_bind, List.append_nil]

/-! ## What the engine is handed -/

/-- No bar behind a stretch is lost with its prefix. -/
theorem pieces_remainder {text : Text} {left : List Text} {stretch : Text} {right : List Text}
    (hpieces : pieces '|' text = left ++ stretch :: right) {name remainder : Text}
    (hsplit : splitPrefix (trimStart stretch) = some (name, remainder)) :
    pieces '|' (joinWith ['|'] (remainder :: right)) = remainder :: right := by
  have hbars : ∀ s ∈ stretch :: right, '|' ∉ s := by
    intro s hs
    refine separator_notMem_of_mem_pieces '|' text s ?_
    rw [hpieces]
    exact List.mem_append_right _ hs
  obtain ⟨hstretch, hright⟩ := List.forall_mem_cons.1 hbars
  obtain ⟨-, htrim⟩ := splitPrefix_eq_some_iff.1 hsplit
  refine pieces_joinWith (List.cons_ne_nil _ _) (List.forall_mem_cons.2 ⟨fun hbar => hstretch ?_, hright⟩)
  have hmem : '|' ∈ trimStart stretch := by
    rw [htrim]
    exact List.mem_append_right _ (List.mem_cons_of_mem _ hbar)
  exact (trimStart_suffix stretch).subset hmem

/-- A text with a prefix is compiled with the type that the prefix names, if there is one, and fails for want of
it if there is none; the default type is not asked for. -/
theorem Engine.compile_of_splitPrefix (g : Engine) {text name remainder : Text}
    (h : splitPrefix text = some (name, remainder)) :
    g.compile text =
      (g.compileAs? name name remainder).getD (.error (.fault (.unknownType name text))) := by
  have hdispatch : g.dispatch text = (name, remainder) := by
    rw [dispatch, h]
    rfl
  rw [compile_eq_compileOver, compileOver, hdispatch, compileAs?]
  cases g.types.get? name with
  | none => rfl
  | some factory => rfl

/-- The prefix of a text is the name before its first colon. Behind its blanks a stretch of a path has a prefix
exactly if the rest of the path from there on has one; then it is the same name, and the rest goes on behind it
with what the stretch goes on with and with all later stretches, bars and all. So on every engine the rest is
compiled with the type of that name, if it is registered, and not with the default type. A path hands over the
rest from the first such stretch on, after it has read those before as routes; it reads all stretches as routes
if there is none. -/
theorem prefix_detection_agrees_with_dispatch (text : Text) :
    (∀ name remainder, splitPrefix text = some (name, remainder) ↔
      isName name = true ∧ text = name ++ ':' :: remainder) ∧
    (∀ left stretch right, pieces '|' text = left ++ stretch :: right →
      ∃ rest, text = Route.leftOf left ++ rest ∧
        (hasPrefix (trimStart stretch) = true ↔ hasPrefix (trimStart rest) = true) ∧
        ∀ name remainder, splitPrefix (trimStart stretch) = some (name, remainder) →
          splitPrefix (trimStart rest) = some (name, joinWith ['|'] (remainder :: right)) ∧
          pieces '|' (joinWith ['|'] (remainder :: right)) = remainder :: right ∧
          (∀ g : Engine, g.compile (trimStart rest) =
            (g.compileAs? name name (joinWith ['|'] (remainder :: right))).getD
              (.error (.fault (.unknownType name (trimStart rest))))) ∧
          ((∀ s ∈ left, hasPrefix (trimStart s) = false) → ∀ f traversal typeName,
            compilePath f traversal typeName text = do
              let routes ← Halt.ofFault (Route.readAll text 0 left)
              let expr ← f (trimStart rest)
              return .path ⟨typeName, text⟩ traversal (routes.map .route ++ [.nested expr]))) ∧
    ((∀ s ∈ pieces '|' text, hasPrefix (trimStart s) = false) → ∀ f traversal typeName,
      compilePath f traversal typeName text = do
        let routes ← Halt.ofFault (Route.readAll text 0 (pieces '|' text))
        return .path ⟨typeName, text⟩ traversal (routes.map .route)) := by
  refine ⟨fun name remainder => splitPrefix_eq_some_iff, fun left stretch right hpieces => ?_,
    fun h f traversal typeName => compilePath_of_routes h f traversal typeName⟩
  refine ⟨joinWith ['|'] (stretch :: right), Route.eq_leftOf_append hpieces, ?_, fun name remainder hsplit => ?_⟩
  · rw [hasPrefix_trimStart_joinWith]
  · have hstretch : hasPrefix (trimStart stretch) = true := by
      rw [hasPrefix, hsplit]
      rfl
    have hrest : splitPrefix (trimStart (joinWith ['|'] (stretch :: right))) =
        some (name, joinWith ['|'] (remainder :: right)) := by
      rw [splitPrefix_trimStart_joinWith, hsplit]
      rfl
    exact ⟨hrest, pieces_remainder hpieces hsplit, fun g => g.compile_of_splitPrefix hrest,
      fun hleft _ traversal typeName => compilePath_of_prefixed hleft hpieces hstretch traversal typeName⟩

/-- A path with a colon in its first stretch, a type behind a wide blank in the second, and an empty stretch. -/
def mixedPath : Text := "x/y:z|\u3000nocall:a|string: b||c:d".toList

/-- The second stretch takes the later ones with it; of a path whose only colon stands in a segment, all stretches
are routes. -/
theorem dispatch_of_mixedPath :
    pieces '|' mixedPath =
        ["x/y:z".toList] ++ "\u3000nocall:a".toList :: ["string: b".toList, [], "c:d".toList] ∧
      hasPrefix (trimStart "x/y:z".toList) = false ∧
      splitPrefix (trimStart "\u3000nocall:a".toList) = some ("nocall".toList, ['a']) ∧
      ∃ rest expr, mixedPath = "x/y:z|".toList ++ rest ∧
        splitPrefix (trimStart rest) = some ("nocall".toList, "a|string: b||c:d".toList) ∧
        Engine.standard.compileAs? "nocall".toList "nocall".toList "a|string: b||c:d".toList = some (.ok expr) ∧
        compilePath Engine.standard.compile .plain "path".toList mixedPath =
          .ok (.path ⟨"path".toList, mixedPath⟩ .plain [.route ⟨['x'], [.fixed "y:z".toList]⟩, .nested expr]) ∧
        (∀ s ∈ pieces '|' "x | y/z:t".toList, hasPrefix (trimStart s) = false) ∧
        compilePath Engine.standard.compile .plain "path".toList "x | y/z:t".toList =
          .ok (.path ⟨"path".toList, "x | y/z:t".toList⟩ .plain
            [.route ⟨['x'], []⟩, .route ⟨['y'], [.fixed "z:t".toList]⟩]) := by
  have hpieces : pieces '|' mixedPath =
      ["x/y:z".toList] ++ "\u3000nocall:a".toList :: ["string: b".toList, [], "c:d".toList] := by decide
  have hfirst : hasPrefix (trimStart "x/y:z".toList) = false := by decide
  have hsplit : splitPrefix (trimStart "\u3000nocall:a".toList) = some ("nocall".toList, ['a']) := by decide
  obtain ⟨-, hstretches, -⟩ := prefix_detection_agrees_with_dispatch mixedPath
  obtain ⟨rest, htext, -, hdispatch⟩ := hstretches _ _ _ hpieces
  obtain ⟨hrest, -, hcompile, hpath⟩ := hdispatch _ _ hsplit
  have hafter : joinWith ['|'] [['a'], "string: b".toList, [], "c:d".toList] = "a|string: b||c:d".toList := by decide
  rw [hafter] at hrest hcompile
  obtain ⟨expr, hexpr⟩ : ∃ expr, Engine.standard.compileAs? "nocall".toList "nocall".toList
      "a|string: b||c:d".toList = some (.ok expr) := ⟨_, by with_unfolding_all rfl⟩
  have hroutes : Route.readAll mixedPath 0 ["x/y:z".toList] = .ok [⟨['x'], [.fixed "y:z".toList]⟩] := by rfl
  have hplain : ∀ s ∈ pieces '|' "x | y/z:t".toList, hasPrefix (trimStart s) = false := by decide
  obtain ⟨-, -, hroutesAlone⟩ := prefix_detection_agrees_with_dispatch "x | y/z:t".toList
  refine ⟨hpieces, hfirst, hsplit, rest, expr, htext, hrest, hexpr, ?_, hplain, ?_⟩
  · rw [hpath (List.forall_mem_singleton.2 hfirst), hroutes, hcompile, hexpr]
    rfl
  · rw [hroutesAlone hplain]
    rfl

end TemplateExpressions
