import TemplateExpressions.Proofs.CommandLine.Batch
import TemplateExpressions.Proofs.Session.Unplaced
import TemplateExpressions.Proofs.Text.Pieces

/-!
# Expressions on the lines of the input

Expressions are given among the arguments, or on the lines of the input with blank lines around them (`OnLines`).
Line by line each is evaluated at its own place in the input, but places are only told of in reports: to leave
them out before a batch or afterwards comes to the same (`runBatch_unplaced`, `interpretLines_unplaced`). Main
statement: both ways the program writes the same output, ends alike and reports the same failures in the same
order, but for their places (`piped_as_among_arguments`).
-/

set_option autoImplicit false

namespace TemplateExpressions

/-! ## Lines -/

namespace Text

theorem isAllBlank_withoutReturn {line : Text} (h : isAllBlank line = true) :
    isAllBlank (withoutReturn line) = true := by
  unfold withoutReturn
  split
  · exact List.all_eq_true.2 fun c hc => List.all_eq_true.1 h c (List.dropLast_subset line hc)
  · exact h

/-- Lines that are not blank are kept as they are, unless a carriage return ends them. -/
theorem filter_withoutReturn {ls : List Text}
    (h : ∀ l ∈ ls, isAllBlank l = false → l.getLast? ≠ some '\r') :
    (ls.map withoutReturn).filter (fun l => !isAllBlank l) = ls.filter fun l => !isAllBlank l := by
  induction ls with
  | nil => rfl
  | cons l ls ih =>
    obtain ⟨hl, hls⟩ := List.forall_mem_cons.1 h
    rw [List.map_cons, List.filter_cons, List.filter_cons, ih hls]
    cases hblank : isAllBlank l with
    | true =>
      rw [isAllBlank_withoutReturn hblank]
      rfl
    | false => rw [withoutReturn, if_neg (hl hblank), hblank]

/-- The lines of a text that ends with a line feed. -/
theorem lines_joinWith_feed {ls : List Text} (hne : ls ≠ []) (h : ∀ l ∈ ls, '\n' ∉ l) :
    lines (joinWith ['\n'] ls ++ ['\n']) = ls.map withoutReturn := by
  have hjoin : joinWith ['\n'] ls ++ ['\n'] = joinWith ['\n'] (ls ++ [[]]) := by
    obtain ⟨init, last, rfl⟩ := (List.eq_nil_or_concat ls).resolve_left hne
    rw [List.concat_eq_append, List.append_assoc, List.singleton_append, joinWith_append_cons,
      joinWith_append_cons, List.append_assoc]
    simp [joinWith]
  have hpieces : pieces '\n' (joinWith ['\n'] (ls ++ [[]])) = ls ++ [[]] := by
    refine pieces_joinWith (by simp) fun l hl => ?_
    rcases List.mem_append.1 hl with hl | hl
    · exact h l hl
    · rw [List.mem_singleton.1 hl]
      exact List.not_mem_nil
  rw [hjoin, lines, hpieces]
  simp

/-- The lines of a text that does not. -/
theorem lines_joinWith {init : List Text} {last : Text} (h : ∀ l ∈ init ++ [last], '\n' ∉ l) :
    lines (joinWith ['\n'] (init ++ [last])) = init.map withoutReturn ++ [last].filter (!·.isEmpty) := by
  rw [lines, pieces_joinWith (by simp) h]
  simp

end Text

namespace CommandLine

open Text

/-- The lines of an input that are not blank hold the given expressions. The last line may lack its line feed. -/
def OnLines (input : Text) (expressions : List Text) : Prop :=
  ∃ ls : List Text, (∀ l ∈ ls, '\n' ∉ l) ∧ (ls.filter fun l => !isAllBlank l) = expressions ∧
    (input = joinWith ['\n'] ls ∨ input = joinWith ['\n'] ls ++ ['\n'])

theorem map_snd_numberedLines (t : Text) :
    (numberedLines t).map Prod.snd = (lines t).filter fun l => !isAllBlank l := by
  unfold numberedLines
  generalize 1 = n
  induction lines t generalizing n with
  | nil => rfl
  | cons l ls ih =>
    rw [List.zipIdx_cons, List.filterMap_cons, List.filter_cons]
    cases hblank : isAllBlank l with
    | true => simpa [hblank] using ih (n + 1)
    | false => simpa [hblank] using ih (n + 1)

/-- The expressions are read off the lines as they are. -/
theorem OnLines.read {input : Text} {expressions : List Text} (h : OnLines input expressions)
    (hne : expressions ≠ []) (hreturn : ∀ e ∈ expressions, e.getLast? ≠ some '\r') :
    (numberedLines input).map Prod.snd = expressions := by
  obtain ⟨ls, hfeed, rfl, hinput⟩ := h
  have hkept : ∀ l ∈ ls, isAllBlank l = false → l.getLast? ≠ some '\r' := by
    intro l hl hblank
    exact hreturn l (List.mem_filter.2 ⟨hl, by rw [hblank]; rfl⟩)
  have hls : ls ≠ [] := by
    rintro rfl
    exact hne rfl
  rw [map_snd_numberedLines]
  rcases hinput with rfl | rfl
  · obtain ⟨init, last, rfl⟩ := (List.eq_nil_or_concat ls).resolve_left hls
    rw [List.concat_eq_append] at hkept hfeed ⊢
    rw [lines_joinWith hfeed, List.filter_append, List.filter_append,
      filter_withoutReturn fun l hl => hkept l (List.mem_append_left _ hl)]
    cases last <;> rfl
  · rw [lines_joinWith_feed hls hfeed, filter_withoutReturn hkept]

/-! ## Expressions among the arguments -/

/-- An argument that cannot be taken for an option. -/
def IsPositional (t : Text) : Prop := t = ['-'] ∨ t.head? ≠ some '-'

namespace Reading

variable {r r' : Reading} {t : Text}

/-- What is no option is an expression, unless it is the value of one. -/
theorem readArgument_of_isPositional (ht : IsPositional t) (hr : ∀ f, r.pending ≠ .flag f) :
    r.readArgument t = r.readExpression t := by
  unfold readArgument
  split
  · rfl
  · split
    · rcases ht with h | h
      · cases h
      · exact absurd rfl h
    · rcases ht with h | h
      · cases h
      · exact absurd rfl h
    · rcases ht with h | h
      · cases h
      · exact absurd rfl h
    · rcases ht with h | h
      · cases h
      · exact absurd rfl h
    · split
      · rename_i f hf
        exact absurd hf (hr f)
      · rfl

/-- Expressions behind expressions. -/
theorem foldlM_readArgument {es ts : List Text} (hr : r.pending = .expressions es)
    (hts : ∀ t ∈ ts, IsPositional t) :
    ts.foldlM readArgument r = .ok { r with pending := .expressions (es ++ ts) } := by
  induction ts generalizing r es with
  | nil =>
    rw [List.append_nil, ← hr]
    rfl
  | cons t ts ih =>
    obtain ⟨ht, hts⟩ := List.forall_mem_cons.1 hts
    have hread : r.readArgument t = .ok { r with pending := .expressions (es ++ [t]) } := by
      rw [readArgument_of_isPositional ht (by simp [hr]), readExpression, hr]
    have hrest := ih (r := { r with pending := .expressions (es ++ [t]) }) rfl hts
    rw [List.append_assoc, List.singleton_append] at hrest
    rw [List.foldlM_cons, hread]
    exact hrest

/-- Expressions are added to what is asked for when they are complete. -/
theorem settle_expressions {es : List Text} (hr : r.pending = .expressions es) :
    r.settle.map invocation = .ok { r.invocation with expressions := r.invocation.expressions ++ es } := by
  have hmark : ∀ (u : Reading) p, (u.markGiven p).invocation = u.invocation := by
    intro u p
    unfold markGiven
    split <;> rfl
  rw [settle, hr]
  exact congrArg Except.ok (hmark _ _)

/-- What is pending and no row of expressions is completed first. -/
theorem readExpression_of_ne (hr : ∀ es, r.pending ≠ .expressions es) (hsettle : r.settle = .ok r') :
    r.readExpression t = .ok { r' with pending := .expressions [t] } := by
  unfold readExpression
  split
  · rename_i es hes
    exact absurd hes (hr es)
  · rw [hsettle]
    rfl

/-- Expressions add to what is asked for, and to nothing else. -/
theorem readAll_append {ts : List Text} (hts : ∀ t ∈ ts, IsPositional t) (hsettle : r.settle = .ok r') :
    (ts.foldlM readArgument r).bind (fun r => r.settle.map invocation) =
      .ok { r'.invocation with expressions := r'.invocation.expressions ++ ts } := by
  have hflag : ∀ f, r.pending ≠ .flag f := by
    intro f hf
    rw [settle, hf] at hsettle
    cases hsettle
  cases ts with
  | nil =>
    rw [List.append_nil]
    exact congrArg (Except.map invocation) hsettle
  | cons t ts =>
    by_cases hpending : ∃ es, r.pending = .expressions es
    · obtain ⟨es, hes⟩ := hpending
      have hsettled := settle_expressions hes
      rw [hsettle] at hsettled
      have hinvocation : r'.invocation = { r.invocation with expressions := r.invocation.expressions ++ es } :=
        Except.ok.inj hsettled
      rw [foldlM_readArgument hes hts, hinvocation, List.append_assoc]
      exact settle_expressions (r := { r with pending := .expressions (es ++ t :: ts) }) rfl
    · obtain ⟨ht, hts⟩ := List.forall_mem_cons.1 hts
      have hread : r.readArgument t = .ok { r' with pending := .expressions [t] } :=
        (readArgument_of_isPositional ht hflag).trans
          (readExpression_of_ne (fun es hes => hpending ⟨es, hes⟩) hsettle)
      have hrest := foldlM_readArgument (r := { r' with pending := .expressions [t] }) rfl hts
      rw [List.foldlM_cons, hread]
      change (ts.foldlM readArgument { r' with pending := .expressions [t] }).bind _ = _
      rw [hrest]
      exact settle_expressions (r := { r' with pending := .expressions ([t] ++ ts) }) rfl

end Reading

/-- Expressions behind options add to what is asked for, and to nothing else. -/
theorem readArguments_append {options ts : List Text} {invocation : Invocation}
    (h : readArguments options = .ok invocation) (hts : ∀ t ∈ ts, IsPositional t) :
    readArguments (options ++ ts) = .ok { invocation with expressions := invocation.expressions ++ ts } := by
  have hread : ∀ as, readArguments as =
      (as.foldlM Reading.readArgument .start).bind fun r => r.settle.map Reading.invocation := fun _ => rfl
  rw [hread] at h ⊢
  rw [List.foldlM_append]
  cases hr : options.foldlM Reading.readArgument .start with
  | error e =>
    rw [hr] at h
    cases h
  | ok r =>
    rw [hr] at h
    cases hsettle : r.settle with
    | error e =>
      rw [Except.bind, hsettle] at h
      cases h
    | ok r' =>
      rw [Except.bind, hsettle] at h
      cases h
      exact Reading.readAll_append hts hsettle

/-! ## What is written, without places -/

/-- What is written, with the failures without the places where they came up. -/
def Written.unplaced (w : Written) : Written := { w with failures := w.failures.map Failure.unplaced }

theorem Written.unplaced_append (a b : Written) : (a.append b).unplaced = a.unplaced.append b.unplaced := by
  simp [append, unplaced]

/-- What is written and the session after it, without places. -/
def unplaced (ending : Written × Session) : Written × Session := (ending.1.unplaced, ending.2.unplaced)

variable (s : Session) (id : ContextId)

theorem interpret_unplaced (expression : Text) :
    interpret s.unplaced id expression = unplaced (interpret s id expression) := by
  unfold interpret
  rw [s.evaluateText_unplaced]
  cases s.evaluateText id (.text expression) with
  | none => rfl
  | some answer =>
    obtain ⟨result, t⟩ := answer
    cases result with
    | error e =>
      simp only [Option.map_some, Prod.map_apply, t.failure_unplaced]
      rfl
    | ok v => rfl

theorem interpretAll_unplaced (expressions : List Text) :
    interpretAll s.unplaced id expressions = unplaced (interpretAll s id expressions) := by
  induction expressions generalizing s with
  | nil => rfl
  | cons expression others ih =>
    simp only [interpretAll, interpret_unplaced, unplaced, ih, Written.unplaced_append]

theorem interpretRepeated_unplaced (rep : Repeat) (cursor : CursorId) (expressions : List Text) (passes : Nat) :
    interpretRepeated id rep cursor expressions passes s.unplaced =
      unplaced (interpretRepeated id rep cursor expressions passes s) := by
  induction passes generalizing s with
  | zero => rfl
  | succ passes ih =>
    rw [interpretRepeated, interpretRepeated, s.advance_unplaced]
    cases s.advance cursor with
    | error e =>
      simp only [Except.map, s.failure_unplaced]
      rfl
    | ok r =>
      obtain ⟨moved, t⟩ := r
      cases moved with
      | false => rfl
      | true => simp only [Except.map, Prod.map_apply, interpretAll_unplaced, unplaced, ih, Written.unplaced_append]

theorem closeScope_unplaced : closeScope s.unplaced id = (closeScope s id).unplaced := by
  rw [closeScope, closeScope, s.endScope_unplaced]
  cases s.endScope id <;> rfl

/-- A batch reads no places. -/
theorem runBatch_unplaced (repeat? : Option Repeat) (expressions : List Text) :
    runBatch s.unplaced id repeat? expressions = unplaced (runBatch s id repeat? expressions) := by
  cases repeat? with
  | none => exact interpretAll_unplaced s id expressions
  | some rep =>
    simp only [runBatch, s.beginScope_unplaced, Session.setRepeat_unplaced]
    cases (s.beginScope id).setRepeat id rep.name (.text rep.expression) with
    | none =>
      simp only [Option.map_none, closeScope_unplaced]
      rfl
    | some answer =>
      obtain ⟨result, t⟩ := answer
      cases result with
      | error e =>
        simp only [Option.map_some, Prod.map_apply, t.failure_unplaced, closeScope_unplaced]
        rfl
      | ok cursor =>
        have hcursor : t.unplaced.world.cursor? cursor = t.world.cursor? cursor := rfl
        simp only [Option.map_some, Prod.map_apply, hcursor, interpretRepeated_unplaced, closeScope_unplaced, unplaced]

/-- Line by line the same is written as in a batch, but for the places. -/
theorem interpretLines_unplaced (ls : List (Nat × Text)) :
    unplaced (interpretLines s id ls) = interpretAll s.unplaced id (ls.map Prod.snd) := by
  induction ls generalizing s with
  | nil => rfl
  | cons l others ih =>
    obtain ⟨number, expression⟩ := l
    have hfirst := interpret_unplaced (s.setPosition id ⟨some number, some 1⟩) id expression
    rw [s.unplaced_setPosition] at hfirst
    simp only [interpretLines, List.map_cons, interpretAll, hfirst, unplaced, ← ih, Written.unplaced_append]

/-! ## Whole runs -/

/-- Without places, it does not matter what file a session is about. -/
theorem unplaced_fresh (roots : List Root) (maxDepth : Nat) (file file' : Option Text) :
    (fresh .standard roots maxDepth file).unplaced = (fresh .standard roots maxDepth file').unplaced := by
  rw [fresh, fresh, Session.unplaced_setFile, Session.unplaced_setFile]

variable {roots : List Root} {repeat? : Option Repeat} {maxDepth : Nat} {expressions : List Text}

/-- Expressions on lines are a batch, but for the places. -/
theorem unplaced_run_of_lines (input : Text) :
    (run ⟨roots, repeat?, maxDepth, []⟩ input).unplaced =
      (runBatch (fresh .standard roots maxDepth none).unplaced 0 repeat?
        ((numberedLines input).map Prod.snd)).1 := by
  rw [unplaced_fresh roots maxDepth none (some "<stdin>".toList)]
  cases repeat? with
  | none => exact congrArg Prod.fst (interpretLines_unplaced _ 0 _)
  | some rep => rw [run_of_repeat rfl rfl, runBatch_unplaced, unplaced]

/-- The same expressions on lines and among the arguments. -/
theorem unplaced_run_eq (roots : List Root) (repeat? : Option Repeat) (maxDepth : Nat) (hne : expressions ≠ [])
    {input : Text} (hinput : (numberedLines input).map Prod.snd = expressions) (other : Text) :
    (run ⟨roots, repeat?, maxDepth, []⟩ input).unplaced =
      (run ⟨roots, repeat?, maxDepth, expressions⟩ other).unplaced := by
  rw [unplaced_run_of_lines, hinput, run_of_expressions hne, runBatch_unplaced, unplaced]

/-- Expressions are evaluated alike on the lines of the input and among the arguments: the output is the same, so is
the exit code, and as many failures are reported in the same order, each with the same error of the same expression. -/
theorem piped_as_among_arguments {arguments options : List Text}
    (harguments : readArguments arguments = .ok ⟨roots, repeat?, maxDepth, expressions⟩)
    (hoptions : readArguments options = .ok ⟨roots, repeat?, maxDepth, []⟩) (hne : expressions ≠ [])
    (hreturn : ∀ e ∈ expressions, e.getLast? ≠ some '\r') {input : Text} (hinput : OnLines input expressions)
    (other : Text) :
    (main options input).output = (main arguments other).output ∧
      (main options input).code = (main arguments other).code ∧
      ∃ failures failures' : List Failure,
        (main options input).errors = failures.flatMap (Failure.report true) ∧
        (main arguments other).errors = failures'.flatMap (Failure.report true) ∧
        failures.map Failure.unplaced = failures'.map Failure.unplaced := by
  have hsame := unplaced_run_eq roots repeat? maxDepth hne (hinput.read hne hreturn) other
  simp only [Written.unplaced, Written.mk.injEq] at hsame
  obtain ⟨houtput, hfailures, hok⟩ := hsame
  simp only [main, harguments, hoptions, hok]
  exact ⟨houtput, trivial, _, _, rfl, rfl, hfailures⟩

/-- A repeat over two items with an expression that fails, among the arguments and on lines with blanks between. -/
theorem piped_over_two_items :
    let options := ["--root".toList, "l=[1,2]".toList, "--repeat".toList, "x=l".toList]
    let arguments := options ++ [['x'], ['y']]
    let input := "\nx\n \ny".toList
    OnLines input [['x'], ['y']] ∧ (main arguments []).output = "1\n2\n".toList ∧
      (main options input).output = (main arguments []).output ∧
      (main options input).code = (main arguments []).code ∧
      ∃ failures failures' : List Failure,
        (main options input).errors = failures.flatMap (Failure.report true) ∧
        (main arguments []).errors = failures'.flatMap (Failure.report true) ∧
        failures.map Failure.unplaced = failures'.map Failure.unplaced := by
  intro options arguments input
  have hoptions : readArguments options =
      .ok ⟨[⟨['l'], .list [.int 1, .int 2]⟩], some ⟨['x'], ['l']⟩, 1000, []⟩ := rfl
  have harguments : readArguments arguments =
      .ok ⟨[⟨['l'], .list [.int 1, .int 2]⟩], some ⟨['x'], ['l']⟩, 1000, [['x'], ['y']]⟩ :=
    readArguments_append hoptions (by simp [IsPositional])
  have hinput : OnLines input [['x'], ['y']] :=
    ⟨[[], ['x'], [' '], ['y']], by decide, by decide, .inl rfl⟩
  have hrun : (run ⟨[⟨['l'], .list [.int 1, .int 2]⟩], some ⟨['x'], ['l']⟩, 1000, [['x'], ['y']]⟩ []).output =
      "1\n2\n".toList := rfl
  refine ⟨hinput, ?_, piped_as_among_arguments harguments hoptions (by decide) (by decide) hinput []⟩
  simp only [main, harguments]
  exact hrun

end CommandLine
end TemplateExpressions
