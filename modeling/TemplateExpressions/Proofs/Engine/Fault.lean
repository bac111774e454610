import TemplateExpressions.Proofs.Engine.Nested
import TemplateExpressions.Proofs.Engine.Registration
import TemplateExpressions.Proofs.Text.Pieces

/-!
# What compilation blames

The source of a compile error is the text that a factory was reading when it failed: the whole text, or a
piece of it that was nested in it. Where a path fails for want of a base name, the span is what stands in
place of that name in the first alternative without one. Main statement: both hold of every failure, however
deep it is nested (`faults_quote_the_text`).
-/

set_option autoImplicit false

namespace TemplateExpressions

open Text

/-- What stands in place of the base name in a stretch of a path. -/
def Route.baseOf (stretch : Text) : Text := (Text.pieces '/' (trim stretch)).headD []

theorem Route.isPrefix_baseOf (stretch : Text) : Route.baseOf stretch <+: trimStart stretch := by
  refine List.IsPrefix.trans ?_ (isPrefix_trimEnd (trimStart stretch))
  unfold Route.baseOf trim
  cases hp : Text.pieces '/' (trimEnd (trimStart stretch)) with
  | nil => exact absurd hp (pieces_ne_nil _ _)
  | cons base segments =>
    obtain ⟨r, hr⟩ := joinWith_cons_eq_append ['/'] base segments
    rw [← hp, joinWith_pieces] at hr
    exact ⟨r, hr.symm⟩

/-- A stretch has blanks, its base name and what follows that. -/
theorem Route.stretch_eq (stretch : Text) :
    ∃ rest, stretch = stretch.takeWhile isBlank ++ Route.baseOf stretch ++ rest := by
  obtain ⟨rest, hrest⟩ := Route.isPrefix_baseOf stretch
  refine ⟨rest, ?_⟩
  rw [List.append_assoc, hrest]
  exact List.takeWhile_append_dropWhile.symm

/-- Reading a route fails exactly if there is no base name. -/
theorem Route.read_cases (source : Text) (offset : Nat) (stretch : Text) :
    (isName (Route.baseOf stretch) = true ∧ ∃ r, Route.read source offset stretch = .ok r) ∨
      (isName (Route.baseOf stretch) = false ∧
        Route.read source offset stretch = .error ⟨.invalidVariable (Route.baseOf stretch), source,
          ⟨offset + bytes (stretch.takeWhile isBlank), bytes (Route.baseOf stretch)⟩⟩) := by
  unfold Route.read Route.baseOf
  cases hp : Text.pieces '/' (trim stretch) with
  | nil => exact absurd hp (pieces_ne_nil _ _)
  | cons base segments =>
    have hlead : bytes stretch - bytes (trimStart stretch) = bytes (stretch.takeWhile isBlank) := by
      have hsplit := congrArg bytes (List.takeWhile_append_dropWhile (p := isBlank) (l := stretch))
      rw [bytes_append] at hsplit
      have htrim : trimStart stretch = stretch.dropWhile isBlank := rfl
      rw [htrim]
      omega
    cases hname : isName base with
    | true => exact .inl ⟨hname, ⟨base, segments.map Segment.read⟩, by simp [hname]⟩
    | false => exact .inr ⟨hname, by simp [hname, hlead]⟩

/-! ## What is blamed -/

/-- The text of the alternatives to the left of another one, with the bars behind them. -/
def Route.leftOf (left : List Text) : Text := left.flatMap (· ++ ['|'])

/-- A path is the text to the left of one of its stretches and the text from there on. -/
theorem Route.eq_leftOf_append {text : Text} {left : List Text} {stretch : Text} {right : List Text}
    (h : Text.pieces '|' text = left ++ stretch :: right) :
    text = Route.leftOf left ++ joinWith ['|'] (stretch :: right) := by
  have htext := joinWith_pieces '|' text
  rw [h, joinWith_append_cons] at htext
  exact htext.symm

/-- The error blames `name` for being no name where the alternative `stretch` of its source, between those
to the left and to the right, should have its base name. -/
structure CompileError.BlamesBase (e : CompileError) (name : Text) (left : List Text)
    (stretch : Text) (right : List Text) : Prop where
  alternatives : Text.pieces '|' e.source = left ++ stretch :: right
  /-- The alternatives to the left are routes with a base name. -/
  left_named : ∀ s ∈ left, hasPrefix (trimStart s) = false ∧ isName (Route.baseOf s) = true
  not_nested : hasPrefix (trimStart stretch) = false
  eq_baseOf : name = Route.baseOf stretch
  not_name : isName name = false
  /-- The span is that of the name behind the blanks of the alternative. -/
  source_eq : ∃ after, e.source = Route.leftOf left ++ stretch.takeWhile isBlank ++ name ++ after
  span_eq : e.span = ⟨bytes (Route.leftOf left ++ stretch.takeWhile isBlank), bytes name⟩

/-- A failure blames a piece of the text, and for want of a base name what stands in its place. -/
def Quotes {α : Type} (text : Text) (result : Except Halt α) : Prop :=
  ∀ e, result = .error (.fault e) → e.source <:+: text ∧
    ∀ name, e.cause = .invalidVariable name → ∃ left stretch right,
      e.BlamesBase name left stretch right

namespace Quotes

variable {α β : Type} {text : Text}

theorem ok (a : α) : Quotes text (.ok a : Except Halt α) := by
  intro e h
  cases h

theorem bind {x : Except Halt α} {f : α → Except Halt β} (hx : Quotes text x)
    (hf : ∀ a, x = .ok a → Quotes text (f a)) : Quotes text (x >>= f) := by
  cases x with
  | ok a => exact hf a rfl
  | error halt =>
    intro e h
    cases h
    exact hx e rfl

theorem mono {part : Text} (hpart : part <:+: text) {result : Except Halt α}
    (h : Quotes part result) : Quotes text result := by
  intro e he
  obtain ⟨hsource, hbase⟩ := h e he
  exact ⟨hsource.trans hpart, hbase⟩

/-- An error about the whole text that is not for want of a base name. -/
theorem whole {e : CompileError} (hsource : e.source = text)
    (hcause : ∀ name, e.cause ≠ .invalidVariable name) :
    Quotes text (.error (.fault e) : Except Halt α) := by
  intro e' h
  cases h
  exact ⟨hsource ▸ List.infix_rfl, fun name hname => absurd hname (hcause name)⟩

end Quotes

/-! ## Factories -/

section Factories

variable {f : Compiler}

theorem quotes_read {source : Text} {left : List Text} {stretch : Text} {right : List Text}
    (hpieces : Text.pieces '|' source = left ++ stretch :: right)
    (hleft : ∀ s ∈ left, hasPrefix (trimStart s) = false ∧ isName (Route.baseOf s) = true)
    (hnested : hasPrefix (trimStart stretch) = false) :
    Quotes source (Halt.ofFault (Route.read source (bytes (Route.leftOf left)) stretch)) := by
  rcases Route.read_cases source (bytes (Route.leftOf left)) stretch with ⟨-, r, h⟩ | ⟨hname, h⟩
  · rw [h]
    exact .ok r
  · rw [h]
    intro e he
    cases he
    refine ⟨List.infix_rfl, fun name hcause => ?_⟩
    cases hcause
    refine ⟨left, stretch, right, hpieces, hleft, hnested, rfl, hname, ?_, ?_⟩
    · have hsource := Route.eq_leftOf_append hpieces
      obtain ⟨rest, hrest⟩ := Route.stretch_eq stretch
      obtain ⟨after, hafter⟩ := joinWith_cons_eq_append ['|'] stretch right
      rw [hafter] at hsource
      have hparts : stretch ++ after =
          stretch.takeWhile isBlank ++ Route.baseOf stretch ++ rest ++ after :=
        congrArg (· ++ after) hrest
      rw [hparts] at hsource
      refine ⟨rest ++ after, ?_⟩
      simpa using hsource
    · rw [bytes_append]

/-- The offset of a stretch is the number of bytes to the left of it, and those to the left are routes. -/
theorem quotes_compileAlternatives {source : Text} (hf : ∀ u, u <:+: source → Quotes u (f u))
    (left stretches : List Text) (hpieces : Text.pieces '|' source = left ++ stretches)
    (hleft : ∀ s ∈ left, hasPrefix (trimStart s) = false ∧ isName (Route.baseOf s) = true) :
    Quotes source (compileAlternatives f source (bytes (Route.leftOf left)) stretches) := by
  induction stretches generalizing left with
  | nil => exact .ok _
  | cons stretch stretches ih =>
    unfold compileAlternatives
    split
    · have hrest : joinWith ['|'] (stretch :: stretches) <:+ source :=
        ⟨Route.leftOf left, (Route.eq_leftOf_append hpieces).symm⟩
      have hnested := ((trimStart_suffix _).trans hrest).isInfix
      exact ((hf _ hnested).mono hnested).bind fun _ _ => .ok _
    · rename_i hprefix
      have hnested : hasPrefix (trimStart stretch) = false := by simpa using hprefix
      refine (quotes_read hpieces hleft hnested).bind fun route hroute => ?_
      have hname : isName (Route.baseOf stretch) = true := by
        rcases Route.read_cases source (bytes (Route.leftOf left)) stretch with ⟨h, -⟩ | ⟨-, h⟩
        · exact h
        · rw [h] at hroute
          cases hroute
      have hoffset : bytes (Route.leftOf left) + bytes stretch + 1 =
          bytes (Route.leftOf (left ++ [stretch])) := by
        have hbar : bytes ['|'] = 1 := by decide
        simp only [Route.leftOf, List.flatMap_append, List.flatMap_singleton, bytes_append, hbar]
        omega
      rw [hoffset]
      refine (ih (left ++ [stretch]) (by simp [hpieces]) fun s hs => ?_).bind fun _ _ => .ok _
      rcases List.mem_append.1 hs with hs | hs
      · exact hleft s hs
      · rw [List.mem_singleton.1 hs]
        exact ⟨hnested, hname⟩

theorem quotes_compilePath {text : Text} (hf : ∀ u, u <:+: text → Quotes u (f u))
    (traversal : Traversal) (typeName : Text) :
    Quotes text (compilePath f traversal typeName text) :=
  (quotes_compileAlternatives hf [] _ rfl (by simp)).bind fun _ _ => .ok _

theorem quotes_compileSites {text : Text} (ps : List (Piece Text))
    (h : ∀ body ∈ ps.filterMap Piece.site?, body <:+: text ∧ Quotes body (f body)) :
    Quotes text (compileSites f ps) := by
  induction ps with
  | nil => exact .ok _
  | cons p ps ih =>
    cases p with
    | literal t => exact (ih h).bind fun _ _ => .ok _
    | site body =>
      obtain ⟨hbody, hquotes⟩ := h body List.mem_cons_self
      have hrest := ih fun b hb => h b (List.mem_cons_of_mem _ hb)
      exact (hquotes.mono hbody).bind fun _ _ => hrest.bind fun _ _ => .ok _

end Factories

/-- The content of a site is a piece of the template. -/
theorem Template.infix_of_mem_bodies {parts : List Template.Part} {body : Text}
    (h : body ∈ Template.bodies parts) : body <:+: Template.write parts := by
  obtain ⟨p, hp, hbody⟩ := List.mem_filterMap.1 h
  have hpart : body <:+: p.write := by
    cases p with
    | plain text => cases hbody
    | escape => cases hbody
    | named name =>
      cases hbody
      exact ⟨['$'], [], by simp [Template.Part.write]⟩
    | braced path =>
      cases hbody
      exact ⟨['$', '\x7b'], ['\x7d'], rfl⟩
  obtain ⟨before, after, rfl⟩ := List.append_of_mem hp
  exact hpart.trans ⟨Template.write before, Template.write after, by simp [Template.write]⟩

theorem quotes_compileTemplate {text : Text} {site? : Option Compiler}
    (hsite : ∀ site ∈ site?, ∀ body, body <:+: text → Quotes body (site body)) (typeName : Text) :
    Quotes text (compileTemplate site? typeName text) := by
  unfold compileTemplate
  split
  · by_cases ht : Template.IsTemplate text
    · obtain ⟨parts, hreads⟩ := Template.isTemplate_iff.1 ht
      rw [Template.parse_of_reads hreads]
      refine Quotes.bind (.ok _) fun ps hps => ?_
      cases hps
      cases site? with
      | none => exact .whole rfl fun _ h => by cases h
      | some site =>
        refine (quotes_compileSites _ fun body hbody => ?_).bind fun _ _ => .ok _
        rw [Template.sites_pieces] at hbody
        have hpiece := Template.infix_of_mem_bodies hbody
        rw [hreads.write_eq] at hpiece
        exact ⟨hpiece, hsite site rfl body hpiece⟩
    · rw [Template.parse_of_not_isTemplate ht]
      exact Quotes.bind (.whole rfl fun _ h => by cases h) fun _ h => by cases h
  · exact .ok _

/-- What a built-in factory fails with quotes its text, if what compilers fail with does. -/
theorem Factory.quotes_build {factory : Factory} (hfactory : factory.IsBuiltin) {f : Compiler}
    (hf : ∀ u, Quotes u (f u)) {site? : Option Compiler}
    (hsite : ∀ site ∈ site?, ∀ body, Quotes body (site body)) (typeName text : Text) :
    Quotes text (factory.build f site? typeName text) := by
  have htrim : trimStart text <:+: text := (trimStart_suffix text).isInfix
  cases factory with
  | path traversal => exact quotes_compilePath (fun u _ => hf u) traversal typeName
  | template => exact quotes_compileTemplate (fun site h body _ => hsite site h body) typeName
  | negation => exact ((hf _).mono htrim).bind fun _ _ => .ok _
  | deferral => exact ((hf _).mono htrim).bind fun _ _ => .ok _
  | _ => cases hfactory

theorem Engine.quotes_compileWithin {g : Engine} (hg : g.IsBuiltin) (levels : Nat) (text : Text) :
    Quotes text (g.compileWithin levels text) := by
  induction levels generalizing text with
  | zero =>
    intro e he
    cases he
  | succ levels ih =>
    have hrest : (g.dispatch text).2 <:+: text := by
      unfold Engine.dispatch
      cases hsplit : splitPrefix text with
      | none => exact List.infix_rfl
      | some p =>
        obtain ⟨name, rest⟩ := p
        obtain ⟨-, rfl⟩ := splitPrefix_eq_some_iff.1 hsplit
        exact ⟨name ++ [':'], [], by simp⟩
    unfold Engine.compileWithin
    dsimp only
    split
    · exact .whole rfl fun _ h => by cases h
    · rename_i factory hfactory
      refine (Factory.quotes_build (hg _ factory hfactory) ih (fun site h body => ?_) _ _).mono hrest
      obtain ⟨factory', hpath, rfl⟩ := Option.map_eq_some_iff.1 h
      exact Factory.quotes_build (hg _ factory' hpath) ih (fun _ h => by cases h) _ _

/-- A text that does not compile is to blame, or a piece of it is. Where that is for want of a base name,
it is said of what stands in place of one, in the first alternative that starts with none: this is no
name, the span takes up just its characters, and all alternatives to the left are routes with a base
name. -/
theorem faults_quote_the_text {g : Engine} (hg : g.IsBuiltin) {text : Text} {e : CompileError}
    (h : g.compile text = .error (.fault e)) :
    e.source <:+: text ∧
      ∀ name, e.cause = .invalidVariable name → ∃ left stretch right,
        e.BlamesBase name left stretch right :=
  g.quotes_compileWithin hg _ text e h

/-- An engine of four types whose texts without a prefix are paths. -/
def guardedEngine : Engine :=
  [("path".toList, .path .guarded), ("string".toList, .template), ("not".toList, .negation),
    ("defer".toList, .deferral)].foldl Engine.afterRegistering
    { Engine.empty with defaultType := "path".toList }

/-- A negated path whose second alternative is a template. The path in its site has a second alternative
that starts with a wide blank and no name. -/
def misnamed : Text := "not: a |string:$$ $\x7bb/ |\u30001é/c\x7d".toList

theorem fault_of_misnamed :
    ∃ e, guardedEngine.compile misnamed = .error (.fault e) ∧
      e = ⟨.invalidVariable "1é".toList, "b/ |\u30001é/c".toList, ⟨7, 3⟩⟩ ∧
      e.source <:+: misnamed ∧
      ∃ left stretch right, e.BlamesBase "1é".toList left stretch right := by
  have hbuiltin : guardedEngine.IsBuiltin :=
    Engine.isBuiltin_registered (Engine.isBuiltin_of_types_eq_nil rfl) (by simp [Factory.IsBuiltin])
  have hcompile : guardedEngine.compile misnamed =
      .error (.fault ⟨.invalidVariable "1é".toList, "b/ |\u30001é/c".toList, ⟨7, 3⟩⟩) := by
    with_unfolding_all rfl
  obtain ⟨hsource, hbase⟩ := faults_quote_the_text hbuiltin hcompile
  exact ⟨_, hcompile, rfl, hsource, hbase _ rfl⟩

end TemplateExpressions
