import TemplateExpressions.Proofs.Evaluation.Room
import TemplateExpressions.Proofs.Session.Modes
import TemplateExpressions.Proofs.Template.Compilation

/-!
# Encoded templates

Any row of texts and sites can be written as a template: the dollar signs of the texts are doubled, and
the sites stand between braces (`Template.encode`). What such a row gives in the end is what `Assembles`
says: the texts as they are and what each site comes to, from the left, up to the first site that fails.
Reading an encoded row finds its characters and sites again (`Template.reads_encodeUnits`), and
evaluating it goes through them in their order (`under_encode`). Main statement: an encoded row always
compiles, and evaluates to what its texts and sites give (`encoded_pieces_come_back`).
-/

set_option autoImplicit false

namespace TemplateExpressions

/-! ## Encoding -/

namespace Template

/-- The text of a literal character in a template. -/
def encodeChar (c : Char) : Text := if c = '$' then ['$', '$'] else [c]

/-- The text of a piece in a template. -/
def encodePiece : Piece Text → Text
  | .literal text => text.flatMap encodeChar
  | .site path => '$' :: '\x7b' :: path ++ ['\x7d']

/-- A row of pieces as a template. -/
def encode (pieces : List (Piece Text)) : Text := pieces.flatMap encodePiece

/-- The text of a character or site in a template. -/
def encodeUnit : Char ⊕ Text → Text
  | .inl c => encodeChar c
  | .inr path => '$' :: '\x7b' :: path ++ ['\x7d']

/-- How the characters are grouped into texts does not show. -/
theorem encode_eq (pieces : List (Piece Text)) :
    encode pieces = (pieces.flatMap Piece.content).flatMap encodeUnit := by
  induction pieces with
  | nil => rfl
  | cons piece pieces ih =>
    have hcons : encode (piece :: pieces) = encodePiece piece ++ encode pieces := rfl
    rw [hcons, ih, List.flatMap_cons, List.flatMap_append]
    cases piece with
    | literal text => simp [encodePiece, Piece.content, encodeUnit, List.flatMap_map]
    | site path => simp [encodePiece, Piece.content, encodeUnit]

theorem inr_mem_content_iff {ε : Type} {pieces : List (Piece ε)} {content : ε} :
    .inr content ∈ pieces.flatMap Piece.content ↔ .site content ∈ pieces := by
  constructor
  · intro h
    obtain ⟨piece, hpiece, hcontent⟩ := List.mem_flatMap.1 h
    cases piece with
    | literal text => simp [Piece.content] at hcontent
    | site content' =>
      simp only [Piece.content, List.mem_singleton, Sum.inr.injEq] at hcontent
      exact hcontent ▸ hpiece
  · exact fun h => List.mem_flatMap.2 ⟨_, h, List.mem_singleton.2 rfl⟩

theorem mem_bodies_iff {parts : List Part} {body : Text} :
    body ∈ bodies parts ↔ .inr body ∈ parts.flatMap Part.content := by
  rw [bodies, List.mem_filterMap, List.mem_flatMap]
  refine exists_congr fun part => and_congr_right fun _ => ?_
  cases part with
  | plain text => simp [Part.body?, Part.content]
  | escape => simp [Part.body?, Part.content]
  | named name => simp [Part.body?, Part.content, eq_comm]
  | braced path => simp [Part.body?, Part.content, eq_comm]

/-- A plain character in front goes to the plain text that it stands before, or is a part of its own. -/
theorem Reads.cons_plain {parts : List Part} {t : Text} (h : Reads parts t) {c : Char} (hc : c ≠ '$') :
    ∃ parts', Reads parts' (c :: t) ∧
      parts'.flatMap Part.content = .inl c :: parts.flatMap Part.content := by
  have hplain : (Part.plain [c]).WellFormed := ⟨List.cons_ne_nil _ _, by simpa using hc.symm⟩
  have halone : (∀ d ∈ t.head?, d = '$') → ∃ parts', Reads parts' (c :: t) ∧
      parts'.flatMap Part.content = .inl c :: parts.flatMap Part.content :=
    fun hends => ⟨.plain [c] :: parts, .part hplain hends h, rfl⟩
  cases h with
  | done => exact halone (by simp)
  | @part p ps rest hp he hps =>
    cases p with
    | plain text =>
      have htext : (Part.plain (c :: text)).WellFormed :=
        ⟨List.cons_ne_nil _ _, by simpa using ⟨hc.symm, hp.2⟩⟩
      exact ⟨.plain (c :: text) :: ps, .part htext he hps, by simp [Part.content]⟩
    | escape => exact halone (by simp [Part.write])
    | named name => exact halone (by simp [Part.write])
    | braced path => exact halone (by simp [Part.write])

/-- Characters and sites are found again where they were written. -/
theorem reads_encodeUnits {units : List (Char ⊕ Text)} (h : ∀ path, .inr path ∈ units → IsSitePath path) :
    ∃ parts, Reads parts (units.flatMap encodeUnit) ∧ parts.flatMap Part.content = units := by
  induction units with
  | nil => exact ⟨[], .done, rfl⟩
  | cons unit units ih =>
    obtain ⟨parts, hparts, hcontent⟩ := ih fun path hpath => h path (List.mem_cons_of_mem _ hpath)
    cases unit with
    | inl c =>
      by_cases hc : c = '$'
      · subst hc
        exact ⟨.escape :: parts, .part (p := .escape) trivial trivial hparts,
          by simp [Part.content, hcontent]⟩
      · obtain ⟨parts', hparts', hcontent'⟩ := hparts.cons_plain hc
        have hunit : encodeUnit (.inl c) = [c] := if_neg hc
        refine ⟨parts', ?_, hcontent ▸ hcontent'⟩
        rwa [List.flatMap_cons, hunit]
    | inr path =>
      have hpath : (Part.braced path).WellFormed := h path List.mem_cons_self
      exact ⟨.braced path :: parts, .part hpath trivial hparts,
        by simp [Part.content, hcontent]⟩

end Template

/-! ## Compilation -/

theorem mapM_ok {α β ε : Type} {f : α → Except ε β} {l : List α} (h : ∀ a ∈ l, ∃ b, f a = .ok b) :
    ∃ bs, l.mapM f = .ok bs ∧ ∀ b ∈ bs, ∃ a ∈ l, f a = .ok b := by
  induction l with
  | nil => exact ⟨[], rfl, by simp⟩
  | cons a l ih =>
    obtain ⟨b, hb⟩ := h a List.mem_cons_self
    obtain ⟨bs, hbs, hall⟩ := ih fun a' ha' => h a' (List.mem_cons_of_mem _ ha')
    refine ⟨b :: bs, ?_, fun b' hb' => ?_⟩
    · rw [List.mapM_cons, hb, hbs]
      rfl
    · rcases List.mem_cons.1 hb' with rfl | hb'
      · exact ⟨a, List.mem_cons_self, hb⟩
      · obtain ⟨a', ha', hfa'⟩ := hall b' hb'
        exact ⟨a', List.mem_cons_of_mem _ ha', hfa'⟩

/-- The site can be written between braces, and compiles under the type `path`. -/
def Engine.TakesSite (g : Engine) (path : Text) : Prop :=
  Template.IsSitePath path ∧ ∃ e, g.compile ("path".toList ++ ':' :: path) = .ok e

/-- An encoded row compiles to a template of its characters and of what its sites compile to. -/
theorem compile_encode {g : Engine} {name : Text} {traversal : Traversal}
    (hname : Text.isName name = true) (htemplate : g.types.get? name = some .template)
    (hpath : g.types.get? "path".toList = some (.path traversal)) {pieces : List (Piece Text)}
    (hsites : ∀ path, .site path ∈ pieces → g.TakesSite path) :
    ∃ compiled, g.compile (name ++ ':' :: Template.encode pieces) =
        .ok (.template ⟨name, Template.encode pieces⟩ compiled) ∧
      (compiled.flatMap Piece.content).map (Sum.map id Expr.source) = pieces.flatMap Piece.content ∧
      ∀ e, .site e ∈ compiled → g.compile ("path".toList ++ ':' :: e.source) = .ok e := by
  rw [Template.encode_eq]
  have hpaths : ∀ path, .inr path ∈ pieces.flatMap Piece.content → Template.IsSitePath path :=
    fun path hpath => (hsites path (Template.inr_mem_content_iff.1 hpath)).1
  obtain ⟨parts, hparts, hcontent⟩ := Template.reads_encodeUnits hpaths
  have hbodies : ∀ body ∈ Template.bodies parts, .site body ∈ pieces := by
    intro body hbody
    rw [Template.mem_bodies_iff, hcontent] at hbody
    exact Template.inr_mem_content_iff.1 hbody
  obtain ⟨sites, hsites', hall⟩ := mapM_ok fun body hbody => (hsites body (hbodies body hbody)).2
  have hcompile := compile_template hname htemplate hpath hparts
  rw [hsites', hcontent] at hcompile
  obtain ⟨compiled, hcompiled, hsite, hsource⟩ := hcompile
  refine ⟨compiled, hcompiled, hsource, fun e he => ?_⟩
  have hmem : e ∈ sites := hsite ▸ List.mem_filterMap.2 ⟨_, he, rfl⟩
  obtain ⟨body, -, hbody⟩ := hall e hmem
  have hsame : e.source = body := by
    rw [g.compile_prefixed (by decide) hpath] at hbody
    exact source_of_compilePath hbody
  rw [hsame]
  exact hbody

/-! ## Assembling -/

/-- The texts as they are and what each site gives, put together from the left. The first site that
fails ends it with its error. -/
inductive Assembles {ε : Type} (site : ε → Run Text) :
    List (Piece ε) → Trail → Except EvalError Text → Trail → Prop
  | done (trail : Trail) : Assembles site [] trail (.ok []) trail
  | literal {text : Text} {pieces : List (Piece ε)} {trail trail' : Trail}
      {result : Except EvalError Text} : Assembles site pieces trail result trail' →
      Assembles site (.literal text :: pieces) trail (result.map (text ++ ·)) trail'
  | site {content : ε} {text : Text} {pieces : List (Piece ε)} {trail middle trail' : Trail}
      {result : Except EvalError Text} : site content trail = .done (.ok text) middle →
      Assembles site pieces middle result trail' →
      Assembles site (.site content :: pieces) trail (result.map (text ++ ·)) trail'
  | failed {content : ε} {e : EvalError} {pieces : List (Piece ε)} {trail trail' : Trail} :
      site content trail = .done (.error e) trail' →
      Assembles site (.site content :: pieces) trail (.error e) trail'

/-- An outcome with something made of its value. -/
def Outcome.map {α β : Type} (f : α → β) : Outcome α → Outcome β
  | .done result trail => .done (result.map f) trail
  | .unfinished => .unfinished

theorem Outcome.map_eq_done_iff {α β : Type} {f : α → β} {outcome : Outcome α} {result : Except EvalError β}
    {trail : Trail} : outcome.map f = .done result trail ↔
      ∃ result', outcome = .done result' trail ∧ result = result'.map f := by
  cases outcome with
  | unfinished => simp [map]
  | done result' trail' =>
    simp only [map, Outcome.done.injEq]
    constructor
    · rintro ⟨rfl, rfl⟩
      exact ⟨result', ⟨rfl, rfl⟩, rfl⟩
    · rintro ⟨_, ⟨rfl, rfl⟩, rfl⟩
      exact ⟨rfl, rfl⟩

theorem Run.bind_pure_apply {α β : Type} (x : Run α) (f : α → β) (trail : Trail) :
    (x >>= fun a => Pure.pure (f a)) trail = (x trail).map f := by
  rw [bind_apply]
  cases x trail with
  | unfinished => rfl
  | done result left => cases result <;> rfl

namespace Evaluation

/-- The run that puts characters and sites together. -/
def assemble {ε : Type} (site : ε → Run Text) : List (Char ⊕ ε) → Run Text
  | [] => return []
  | .inl c :: units => do
    let others ← assemble site units
    return c :: others
  | .inr content :: units => do
    let first ← site content
    let others ← assemble site units
    return first ++ others

section Assemble

variable {ε : Type} {site : ε → Run Text}

theorem assemble_chars (text : Text) (units : List (Char ⊕ ε)) (trail : Trail) :
    assemble site (text.map .inl ++ units) trail = (assemble site units trail).map (text ++ ·) := by
  induction text with
  | nil =>
    cases h : assemble site units trail with
    | unfinished => exact h
    | done result left => cases result <;> exact h
  | cons c text ih =>
    simp only [List.map_cons, List.cons_append, assemble, Run.bind_pure_apply, ih]
    cases assemble site units trail with
    | unfinished => rfl
    | done result left => cases result <;> rfl

theorem assemble_site (content : ε) (units : List (Char ⊕ ε)) (trail : Trail) :
    assemble site (.inr content :: units) trail =
      match site content trail with
      | .done (.ok text) middle => (assemble site units middle).map (text ++ ·)
      | .done (.error e) left => .done (.error e) left
      | .unfinished => .unfinished := by
  rw [assemble, Run.bind_apply]
  cases site content trail with
  | unfinished => rfl
  | done result middle =>
    cases result with
    | error e => rfl
    | ok text => exact Run.bind_pure_apply _ _ _

/-- Filling a template puts its characters and sites together. -/
theorem fill_eq_assemble (content : Expr → Run Text) (pieces : List (Piece Expr)) :
    fill content pieces = assemble content (pieces.flatMap Piece.content) := by
  induction pieces with
  | nil => rfl
  | cons piece pieces ih =>
    rw [List.flatMap_cons]
    cases piece with
    | literal text =>
      funext trail
      rw [fill, ih, Run.bind_pure_apply]
      exact (assemble_chars text _ trail).symm
    | site e =>
      rw [fill, ih]
      rfl

/-- Sites may go by other names. -/
theorem assemble_map {ε' : Type} {site' : ε' → Run Text} (f : ε → ε') {units : List (Char ⊕ ε)}
    (h : ∀ content, .inr content ∈ units → site content = site' (f content)) :
    assemble site units = assemble site' (units.map (Sum.map id f)) := by
  induction units with
  | nil => rfl
  | cons unit units ih =>
    have hunits := ih fun content hcontent => h content (List.mem_cons_of_mem _ hcontent)
    cases unit with
    | inl c =>
      simp only [assemble, List.map_cons, Sum.map_inl, id_eq, hunits]
    | inr content =>
      simp only [assemble, List.map_cons, Sum.map_inr, hunits, h content List.mem_cons_self]

/-- Pieces are put together as their characters and sites are. -/
theorem assembles_iff {pieces : List (Piece ε)} {trail trail' : Trail}
    {result : Except EvalError Text} :
    Assembles site pieces trail result trail' ↔
      assemble site (pieces.flatMap Piece.content) trail = .done result trail' := by
  induction pieces generalizing trail result with
  | nil =>
    constructor
    · intro h
      cases h
      rfl
    · intro h
      cases h
      exact .done _
  | cons piece pieces ih =>
    rw [List.flatMap_cons]
    cases piece with
    | literal text =>
      rw [Piece.content, assemble_chars, Outcome.map_eq_done_iff]
      constructor
      · intro h
        cases h with
        | literal h => exact ⟨_, ih.1 h, rfl⟩
      · rintro ⟨result', h, rfl⟩
        exact .literal (ih.2 h)
    | site content =>
      rw [Piece.content, List.singleton_append, assemble_site]
      constructor
      · intro h
        cases h with
        | site hsite h =>
          rw [hsite]
          exact Outcome.map_eq_done_iff.2 ⟨_, ih.1 h, rfl⟩
        | failed hsite => rw [hsite]
      · intro h
        split at h
        · rename_i text middle hsite
          obtain ⟨result', hrest, rfl⟩ := Outcome.map_eq_done_iff.1 h
          exact .site hsite (ih.2 hrest)
        · rename_i e left hsite
          cases h
          exact .failed hsite
        · cases h

theorem assemble_mirroredBy {p : Pairing} {site' : ε → Run Text}
    (h : ∀ content, (site content).MirroredBy p (site' content)) (units : List (Char ⊕ ε)) :
    (assemble site units).MirroredBy p (assemble site' units) := by
  induction units with
  | nil => exact Run.mirroredBy_pure _
  | cons unit units ih =>
    cases unit with
    | inl c => exact ih.bind fun _ => Run.mirroredBy_pure _
    | inr content => exact (h content).bind fun _ => ih.bind fun _ => Run.mirroredBy_pure _

end Assemble

/-! ## Evaluation -/

/-- The run that evaluates the text of a site under the type `path` and turns its value into text. -/
def siteText (w : World) (levels : Nat) (active : List ContextId) (id : ContextId) (path : Text) :
    Run Text := do
  let v ← (Source.text ("path".toList ++ ':' :: path)).run w (evaluate w levels active) id
  textOf w (evaluate w levels active) levels v

/-- A site gives the same text, and the same happens on the way, where contexts have as much room. -/
theorem siteText_mirroredBy_alike {w : World} {limits limits' : ContextId → Nat}
    {active active' : List ContextId}
    (hroom : ∀ id, limits id + active'.count id ≤ limits' id + active.count id) {levels levels' : Nat}
    (hlevels : levels ≤ levels') (id : ContextId) (path : Text) :
    (siteText (w.withLimits limits) levels active id path).MirroredBy alike
      (siteText (w.withLimits limits') levels' active' id path) := by
  have hmeaning := evaluate_mirroredBy_alike (w := w) hroom hlevels
  have hsource : ∀ source : Source,
      (source.run (w.withLimits limits) (evaluate (w.withLimits limits) levels active) id).MirroredBy
        alike
        (source.run (w.withLimits limits') (evaluate (w.withLimits limits') levels' active') id) :=
    fun source => source.mirroredBy rfl hmeaning id
  refine (hsource (.text ("path".toList ++ ':' :: path))).bind fun v => ?_
  rw [textOf_congr (w.live_withLimits limits), textOf_congr (w.live_withLimits limits')]
  exact textOf_mirroredBy hmeaning hlevels v

section Encoded

variable {w : World} {name : Text} {traversal : Traversal} (hname : Text.isName name = true)
  (htemplate : w.engine.types.get? name = some .template)
  (hpath : w.engine.types.get? "path".toList = some (.path traversal)) {pieces : List (Piece Text)}
  (hsites : ∀ path, .site path ∈ pieces → w.engine.TakesSite path)

include hname htemplate hpath hsites

/-- Evaluating an encoded row on a context with room for one more evaluation puts the row together
within it. -/
theorem under_encode (levels : Nat) {active : List ContextId} {id : ContextId} {c : Context}
    (hc : w.context? id = some c) (hdepth : active.count id < c.maxDepth) (trail : Trail) :
    under w (levels + 1) active id (Template.encode pieces) trail name =
      Run.within id (active.count id + 1) (do
        let text ← assemble (siteText w levels (id :: active) id) (pieces.flatMap Piece.content)
        return .text text) trail := by
  obtain ⟨compiled, hcompiled, hcontent, hall⟩ := compile_encode hname htemplate hpath hsites
  have hfill : fill (fun e => do
        let v ← evaluate w levels (id :: active) id e
        textOf w (evaluate w levels (id :: active)) levels v) compiled =
      assemble (siteText w levels (id :: active) id) (pieces.flatMap Piece.content) := by
    rw [fill_eq_assemble, ← hcontent]
    refine assemble_map Expr.source fun e he => ?_
    have hsite := hall e (Template.inr_mem_content_iff.1 he)
    simp only [siteText, Source.run, hsite]
  have hguard : ¬ c.maxDepth < active.count id + 1 := by omega
  simp only [under, Source.run, hcompiled, evaluate, guarded, hc, if_neg hguard, valueOf, hfill]

/-- An encoded row evaluates to what its texts and sites give, once these have been put together. -/
theorem under_encode_iff (levels : Nat) {active : List ContextId} {id : ContextId} {c : Context}
    (hc : w.context? id = some c) (hdepth : active.count id < c.maxDepth) (trail : Trail)
    (result : Except EvalError Value) (trail' : Trail) :
    under w (levels + 1) active id (Template.encode pieces) trail name = .done result trail' ↔
      ∃ text inner, Assembles (siteText w levels (id :: active) id) pieces
          (.entered id (active.count id + 1) :: trail) text inner ∧
        result = text.map .text ∧ trail' = .left id (Run.error? result) :: inner := by
  rw [under_encode hname htemplate hpath hsites levels hc hdepth trail, Run.within_apply,
    Run.bind_pure_apply]
  simp only [assembles_iff]
  cases assemble (siteText w levels (id :: active) id) (pieces.flatMap Piece.content)
      (.entered id (active.count id + 1) :: trail) with
  | unfinished => simp [Outcome.map]
  | done text inner =>
    constructor
    · intro h
      cases h
      exact ⟨_, _, rfl, rfl, rfl⟩
    · rintro ⟨_, _, h, rfl, rfl⟩
      cases h
      rfl

/-- What a row gives by itself it gives as a template too, on a context that allows one evaluation more. -/
theorem under_encode_of_spare {limits limits' : ContextId → Nat} (hlimits : ∀ id, limits id ≤ limits' id)
    {levels levels' : Nat} (hlevels : levels ≤ levels') {active : List ContextId} {id : ContextId}
    {c : Context} (hc : w.context? id = some c) (hdepth : active.count id < limits' id)
    (hspare : limits id < limits' id) {trail left : Trail} {text : Except EvalError Text}
    (h : Assembles (siteText (w.withLimits limits) levels active id) pieces trail text left)
    (htext : ∀ depth limit, text ≠ .error (.depthExceeded depth limit)) :
    ∃ left', under (w.withLimits limits') (levels' + 1) active id (Template.encode pieces) trail name =
        .done (text.map .text) left' ∧ deeds left' = deeds left := by
  have hroom := room_of_spare hlimits hspare active
  have hmirrored := assemble_mirroredBy (fun path => siteText_mirroredBy_alike (w := w) hroom hlevels id path)
    (pieces.flatMap Piece.content)
  obtain ⟨inner, hinner, hdeeds⟩ := hmirrored trail (.entered id (active.count id + 1) :: trail) text left
    rfl (assembles_iff.1 h) fun e he depth limit hlimit => htext depth limit (by rw [he, hlimit])
  refine ⟨.left id (Run.error? (text.map Value.text)) :: inner, ?_, hdeeds.symm⟩
  have hc' : (w.withLimits limits').context? id = some { c with maxDepth := limits' id } := by
    rw [World.context?_withLimits, hc]
    rfl
  refine (under_encode_iff (w := w.withLimits limits') hname htemplate hpath hsites levels' hc' hdepth trail
    _ _).2 ⟨text, inner, assembles_iff.2 hinner, rfl, rfl⟩

end Encoded

end Evaluation

open Evaluation in
/-- Any row of texts and of sites that compile, encoded as a template, compiles. On a context with room
for one more evaluation it evaluates to its texts and to what its sites come to under the type `path`,
as text, in their order, or fails with the error of the first site that does; and it ends if they do.
With one evaluation more than the sites need, it gives what they give by themselves, and the same is
called and asked and fails. So any text whatever, with its dollar signs doubled, evaluates to itself. -/
theorem encoded_pieces_come_back {w : World} {name : Text} {traversal : Traversal}
    (hname : Text.isName name = true) (htemplate : w.engine.types.get? name = some .template)
    (hpath : w.engine.types.get? "path".toList = some (.path traversal)) {pieces : List (Piece Text)}
    (hsites : ∀ path, .site path ∈ pieces → w.engine.TakesSite path) :
    (∃ compiled, w.engine.compile (name ++ ':' :: Template.encode pieces) =
      .ok (.template ⟨name, Template.encode pieces⟩ compiled)) ∧
    (∀ (levels : Nat) (active : List ContextId) (id : ContextId) (c : Context) (trail : Trail),
      w.context? id = some c → active.count id < c.maxDepth →
        (∀ result trail',
          under w (levels + 1) active id (Template.encode pieces) trail name = .done result trail' ↔
            ∃ text inner, Assembles (siteText w levels (id :: active) id) pieces
                (.entered id (active.count id + 1) :: trail) text inner ∧
              result = text.map .text ∧ trail' = .left id (Run.error? result) :: inner) ∧
        ∀ text, under w (levels + 1) active id (Template.encode [.literal text]) trail name =
          .done (.ok (.text text)) (.left id none :: .entered id (active.count id + 1) :: trail)) ∧
    ∀ (limits limits' : ContextId → Nat) (levels levels' : Nat) (active : List ContextId)
      (id : ContextId) (c : Context) (trail : Trail),
      (∀ id, limits id ≤ limits' id) → levels ≤ levels' → w.context? id = some c →
      active.count id < limits' id → limits id < limits' id →
        ∀ text left, Assembles (siteText (w.withLimits limits) levels active id) pieces trail text left →
          (∀ depth limit, text ≠ .error (.depthExceeded depth limit)) →
          ∃ left', under (w.withLimits limits') (levels' + 1) active id (Template.encode pieces) trail name =
              .done (text.map .text) left' ∧ deeds left' = deeds left := by
  refine ⟨?_, fun levels active id c trail hc hdepth => ⟨?_, fun text => ?_⟩, ?_⟩
  · obtain ⟨compiled, hcompiled, -⟩ := compile_encode hname htemplate hpath hsites
    exact ⟨compiled, hcompiled⟩
  · exact under_encode_iff hname htemplate hpath hsites levels hc hdepth trail
  · have hnone : ∀ path, .site path ∈ [Piece.literal text] → w.engine.TakesSite path := by simp
    have hliteral : Assembles (siteText w levels (id :: active) id) [.literal text]
        (.entered id (active.count id + 1) :: trail) (.ok (text ++ []))
        (.entered id (active.count id + 1) :: trail) := .literal (.done _)
    rw [List.append_nil] at hliteral
    exact (under_encode_iff hname htemplate hpath hnone levels hc hdepth trail _ _).2
      ⟨_, _, hliteral, rfl, rfl⟩
  · intro limits limits' levels levels' active id c trail hlimits hlevels hc hdepth hspare text left h htext
    exact under_encode_of_spare hname htemplate hpath hsites hlimits hlevels hc hdepth hspare h htext

/-- A text that ends with a dollar sign before a site, an empty text, and a text of dollar signs behind
it. -/
def pricedPieces : List (Piece Text) :=
  [.literal "in US$".toList, .site ['x'], .literal [], .literal "$$".toList]

/-- The site evaluates a deferred value, two evaluations inside one another; the template takes three. -/
theorem pricedPieces_come_back :
    Template.encode pricedPieces = "in US$$${x}$$$$".toList ∧
      (∃ trail', Evaluation.under deferringWorld 4 [] 0 (Template.encode pricedPieces) []
        "string".toList = .done (.ok (.text "in US$t$$".toList)) trail') ∧
      ∃ left', Evaluation.under (deferringWorld.withLimits fun _ => 3) 4 [] 0
        (Template.encode pricedPieces) [] "string".toList =
          .done (.ok (.text "in US$t$$".toList)) left' := by
  have hname : Text.isName "string".toList = true := by decide
  have hsites : ∀ path, .site path ∈ pricedPieces → deferringWorld.engine.TakesSite path := by
    intro path hpath
    obtain rfl : path = ['x'] := by simpa [pricedPieces] using hpath
    exact ⟨.name (by decide), _, rfl⟩
  obtain ⟨-, hinside, halone⟩ := encoded_pieces_come_back (w := deferringWorld) hname rfl rfl hsites
  have hcontext : deferringWorld.context? 0 = some _ := rfl
  refine ⟨by decide, ?_, ?_⟩
  · obtain ⟨hresult, -⟩ := hinside 3 [] 0 _ [] hcontext (by decide)
    have hsite : Evaluation.siteText deferringWorld 3 [0] 0 ['x'] [.entered 0 1] =
        .done (.ok ['t']) _ := rfl
    have hpieces : Assembles (Evaluation.siteText deferringWorld 3 [0] 0) pricedPieces
        [.entered 0 1] (.ok "in US$t$$".toList) _ :=
      .literal (.site hsite (.literal (.literal (.done _))))
    exact ⟨_, (hresult _ _).2 ⟨_, _, hpieces, rfl, rfl⟩⟩
  · have hsite : Evaluation.siteText (deferringWorld.withLimits fun _ => 2) 3 [] 0 ['x'] [] =
        .done (.ok ['t']) _ := rfl
    have hpieces : Assembles (Evaluation.siteText (deferringWorld.withLimits fun _ => 2) 3 [] 0)
        pricedPieces [] (.ok "in US$t$$".toList) _ :=
      .literal (.site hsite (.literal (.literal (.done _))))
    obtain ⟨left', hleft', -⟩ := halone (fun _ => 2) (fun _ => 3) 3 3 [] 0 _ [] (fun _ => by decide)
      (Nat.le_refl 3) hcontext (by decide) (by decide) _ _ hpieces (fun _ _ h => by cases h)
    exact ⟨left', hleft'⟩

end TemplateExpressions
