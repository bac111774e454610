import TemplateExpressions.Proofs.Cursor
import TemplateExpressions.Proofs.Evaluation.Deferred
import TemplateExpressions.Proofs.Scopes.Frames
import TemplateExpressions.Proofs.Session.Inquiry

/-!
# The names that expressions mention

An expression mentions the base names of its routes and the variables among their segments
(`Expr.names`). Main statement: where nothing deferred can be reached from the variables, what an
expression comes to depends on the variables that it mentions and on no others
(`evaluation_depends_on_names`).
-/

set_option autoImplicit false

namespace TemplateExpressions

open Evaluation

/-! ## Mentioned names -/

/-- The variable that a segment stands for. -/
def Segment.name? : Segment → Option Text
  | .fixed _ => none
  | .dynamic name => some name

/-- The variables of a route: its base, if that does not stand for the roots, and those of its segments. -/
def Route.names (r : Route) : List Text :=
  (if r.base = contextsBase then [] else [r.base]) ++ r.segments.filterMap Segment.name?

mutual

/-- The variables that an expression mentions. -/
def Expr.names : Expr → List Text
  | .path _ _ alternatives => alternativesNames alternatives
  | .template _ pieces => piecesNames pieces
  | .negation _ operand => operand.names
  | .deferral _ operand => operand.names
  | .echo _ => []

/-- The variables that alternatives mention. -/
def alternativesNames : List (Alternative Expr) → List Text
  | [] => []
  | .route route :: others => route.names ++ alternativesNames others
  | .nested e :: others => e.names ++ alternativesNames others

/-- The variables that the sites of a template mention. -/
def piecesNames : List (Piece Expr) → List Text
  | [] => []
  | .literal _ :: pieces => piecesNames pieces
  | .site e :: pieces => e.names ++ piecesNames pieces

end

/-- The variables that a source mentions; a text that does not compile mentions none. -/
def Source.names (g : Engine) : Source → List Text
  | .compiled e => e.names
  | .text t =>
    match g.compile t with
    | .ok e => e.names
    | .error _ => []

/-- The variables that an alternative mentions. -/
def Alternative.names : Alternative Expr → List Text
  | .route r => r.names
  | .nested e => e.names

theorem alternativesNames_eq (alternatives : List (Alternative Expr)) :
    alternativesNames alternatives = alternatives.flatMap Alternative.names := by
  induction alternatives with
  | nil => rfl
  | cons first others ih =>
    cases first with
    | route route => simp only [alternativesNames, List.flatMap_cons, ih, Alternative.names]
    | nested e => simp only [alternativesNames, List.flatMap_cons, ih, Alternative.names]

theorem names_subset_of_alternative {a : Alternative Expr} {alternatives : List (Alternative Expr)}
    (h : a ∈ alternatives) : a.names ⊆ alternativesNames alternatives := by
  rw [alternativesNames_eq]
  exact fun name hname => List.mem_flatMap.2 ⟨a, h, hname⟩

theorem names_subset_of_site {e : Expr} {pieces : List (Piece Expr)} (h : .site e ∈ pieces) :
    e.names ⊆ piecesNames pieces := by
  induction pieces with
  | nil => cases h
  | cons piece pieces ih =>
    cases piece with
    | literal t =>
      exact ih ((List.mem_cons.1 h).resolve_left fun heq => by cases heq)
    | site first =>
      rcases List.mem_cons.1 h with heq | htail
      · cases heq
        exact List.subset_append_left _ _
      · exact List.subset_append_of_subset_right _ (ih htail)

/-! ## Nothing deferred at hand -/

/-- Nothing deferred can be reached from the variables and the roots of a context. -/
def World.Undeferred (w : World) (id : ContextId) : Prop :=
  ∀ c name v d, w.context? id = some c → baseValue c name = .ok v → ¬ w.Reaches v d

/-- What is left deferred then is an operand of the expression itself. -/
theorem World.Defers.names_subset {w : World} {a d : Closure} (h : w.Defers a d) (ha : w.Undeferred a.2) :
    d.2 = a.2 ∧ d.1.names ⊆ a.1.names := by
  induction h with
  | operand => exact ⟨rfl, List.Subset.refl _⟩
  | nested he _ ih =>
    obtain ⟨hid, hnames⟩ := ih ha
    have hsubset : Expr.names _ ⊆ alternativesNames _ := names_subset_of_alternative he
    exact ⟨hid, List.Subset.trans hnames hsubset⟩
  | read _ hc hbase hleads => exact absurd hleads.to_reflTransGen (ha _ _ _ _ hc hbase)
  | forced _ hc hbase _ _ => exact absurd Relation.ReflTransGen.refl (ha _ _ _ _ hc hbase)
  | called _ _ ihcallee ih =>
    obtain ⟨hid, hnames⟩ := ihcallee ha
    obtain ⟨hid', hnames'⟩ := ih (hid ▸ ha)
    exact ⟨hid'.trans hid, List.Subset.trans hnames' hnames⟩

/-- Data, and what only leads to data: the active cursors, questions to them, and mappings of all these. -/
inductive Value.Plain : Value → Prop
  | data {v : Value} : v.isData = true → Plain v
  | registry (context : ContextId) : Plain (.registry context)
  | iterator (cursor : CursorId) : Plain (.iterator cursor)
  | question (mark : Option Mark) (cursor : CursorId) (query : Query) :
      Plain (.callable mark (.asks cursor query))
  | entries {entries : List (Text × Value)} : (∀ entry ∈ entries, Plain entry.2) → Plain (.map entries)

section Plain

variable {w : World} (hcursors : ∀ cursor ∈ w.cursors, Value.isDataItems cursor.behind = true)

include hcursors

theorem plain_of_ask {k : CursorId} {c : Cursor} {live : Live} {query : Query} {answer : Answer}
    (hc : w.cursor? k = some c) (h : c.ask live query = .ok answer) : answer.toValue.Plain := by
  cases answer with
  | item v =>
    have hbehind := hcursors c (List.mem_of_getElem? hc)
    exact .data (Value.isData_of_mem hbehind (c.mem_behind_of_ask h))
  | _ => exact .data rfl

theorem perform_asks_yields (mark : Option Mark) (k : CursorId) (query : Query) :
    (perform w mark (.asks k query)).Yields Value.Plain := by
  refine (Run.yields_true _).bind fun _ _ => (Run.yields_true _).bind fun _ _ => ?_
  cases hc : w.cursor? k with
  | none => exact Run.yields_fail _
  | some c =>
    dsimp only
    cases hask : c.ask w.live query with
    | ok answer => exact Run.yields_pure (plain_of_ask hcursors hc hask)
    | error e => exact Run.yields_fail _

theorem plain_of_leads {v next : Value} (hv : v.Plain) (h : w.Leads v next) : next.Plain := by
  cases hv with
  | data hv => exact .data (World.isData_of_leads hv h)
  | registry context =>
    cases h with
    | field h => cases h
    | item h =>
      simp only [Value.item] at h
      split at h
      · cases h
        exact .iterator _
      · cases h
  | iterator cursor =>
    cases h with
    | field h =>
      obtain ⟨query, -, rfl⟩ := Option.map_eq_some_iff.1 h
      exact .question none cursor query
    | item h => cases h
  | question mark cursor query =>
    cases h with
    | field h => cases h
    | item h => cases h
    | callable h => exact perform_asks_yields hcursors mark cursor query _ _ _ h
  | entries hentries =>
    cases h with
    | field h => cases h
    | item h =>
      simp only [Value.item] at h
      split at h
      · rename_i hget
        cases h
        exact hentries _ (Mapping.mem_of_get? hget)
      · cases h

/-- Nothing deferred is found in what is plain. -/
theorem not_reaches_of_plain {v : Value} (hv : v.Plain) {d : Closure} : ¬ w.Reaches v d := by
  refine World.not_reaches_of_invariant (P := Value.Plain) (fun _ _ => plain_of_leads hcursors) ?_ hv
  intro d h
  cases h with
  | data h => cases h

end Plain

/-- Whether a value is plain data or a registry, as variables and roots are at first. -/
def Value.isPlain : Value → Bool
  | .registry _ => true
  | v => v.isData

theorem Value.plain_of_isPlain {v : Value} (h : v.isPlain = true) : v.Plain := by
  unfold isPlain at h
  split at h
  · exact .registry _
  · exact .data h

/-- A base name stands for the roots or for a variable. -/
theorem Evaluation.baseValue_cases {c : Context} {name : Text} {v : Value}
    (h : baseValue c name = .ok v) : v = .map c.roots ∨ (name, v) ∈ c.bindings := by
  unfold baseValue at h
  split at h
  · cases h
    exact .inl rfl
  · split at h
    · rename_i hget
      cases h
      exact .inr (Mapping.mem_of_get? hget)
    · cases h

/-- A context of plain variables and roots, with cursors over data, has nothing deferred. -/
theorem World.undeferred_of_plain {w : World} {id : ContextId}
    (hcursors : ∀ cursor ∈ w.cursors, Value.isDataItems cursor.behind = true)
    (hcontext : ∀ c, w.context? id = some c → ∀ entry ∈ c.bindings ++ c.roots, entry.2.Plain) :
    w.Undeferred id := by
  intro c name v d hc hbase
  refine not_reaches_of_plain hcursors ?_
  rcases baseValue_cases hbase with rfl | hentry
  · exact .entries fun entry he => hcontext c hc entry (List.mem_append_right _ he)
  · exact hcontext c hc _ (List.mem_append_left _ hentry)

/-! ## Writing to a variable -/

/-- A change of contexts that gives at most one variable another value. -/
structure Context.Binds (x : Text) (f : Context → Context) : Prop where
  maxDepth_eq : ∀ c, (f c).maxDepth = c.maxDepth
  roots_eq : ∀ c, (f c).roots = c.roots
  registry_eq : ∀ c, (f c).registry = c.registry
  alive_eq : ∀ c, (f c).alive = c.alive
  get?_eq : ∀ c name, name ≠ x → (f c).scopes.get? name = c.scopes.get? name

theorem Scopes.get?_bindGlobal {ν ι : Type} (s : Scopes ν ι) (name other : Text) (value : ν) :
    (s.bindGlobal name value).get? other = if other = name then some value else s.get? other := by
  obtain ⟨root, inner⟩ := s
  cases inner with
  | nil => exact Mapping.get?_put root name value other
  | cons scope outer => exact Mapping.get?_put scope.frame name value other

theorem Context.binds_setLocal (x : Text) (v : Value) : Binds x fun c => c.setLocal x v where
  maxDepth_eq _ := rfl
  roots_eq _ := rfl
  registry_eq _ := rfl
  alive_eq _ := rfl
  get?_eq c name hname := (Scopes.get?_bindLocal c.scopes x name v).trans (if_neg hname)

theorem Context.binds_setGlobal (x : Text) (v : Value) : Binds x fun c => c.setGlobal x v where
  maxDepth_eq _ := rfl
  roots_eq _ := rfl
  registry_eq _ := rfl
  alive_eq _ := rfl
  get?_eq c name hname := (Scopes.get?_bindGlobal c.scopes x name v).trans (if_neg hname)

namespace World

variable {w : World} {id : ContextId} {x : Text} {f : Context → Context}

theorem map_modify_of_eq {α β : Type} {g : α → β} {f : α → α} (hg : ∀ a, g (f a) = g a)
    (l : List α) (i : Nat) : (l.modify i f).map g = l.map g := by
  induction l generalizing i with
  | nil => cases i <;> rfl
  | cons a l ih =>
    cases i with
    | zero => simp [hg]
    | succ i => simp [ih i]

theorem live_modifyContext (hf : Context.Binds x f) (w : World) (id : ContextId) :
    (w.modifyContext id f).live = w.live := by
  simp only [live, modifyContext, ← List.getElem?_map, map_modify_of_eq hf.registry_eq]

theorem context?_modifyContext (hf : Context.Binds x f) (w : World) (id : ContextId) :
    (w.modifyContext id f).context? id = (w.context? id).map f := by
  simp only [context?, modifyContext, List.getElem?_modify]
  cases w.contexts[id]? with
  | none => rfl
  | some c =>
    cases halive : c.alive with
    | true => simp [Option.filter, hf.alive_eq, halive]
    | false => simp [Option.filter, hf.alive_eq, halive]

theorem enough_modifyContext (hf : Context.Binds x f) (w : World) (id : ContextId) :
    enough (w.modifyContext id f) = enough w := by
  simp only [enough, modifyContext, map_modify_of_eq hf.maxDepth_eq]

/-- What is deferred in a value belongs to the context and does not mention the variable. -/
def Spares (w : World) (id : ContextId) (x : Text) (v : Value) : Prop :=
  ∀ d, w.Reaches v d → d.2 = id ∧ x ∉ d.1.names

/-- What an expression that does not mention the variable leaves deferred does not either. -/
theorem Accounts.spares (hplain : w.Undeferred id) {e : Expr} (hx : x ∉ e.names) {v : Value}
    (h : w.Accounts (e, id) v) : w.Spares id x v := by
  intro d hd
  obtain ⟨hid, hnames⟩ := (h d hd).names_subset hplain
  exact ⟨hid, fun hmem => hx (hnames hmem)⟩

end World

/-! ## Evaluations after the write -/

namespace Evaluation

open Run World

theorem resolve_congr (source : Text) {value value' : Alternative Expr → Run Value}
    {alternatives : List (Alternative Expr)} (hv : ∀ a ∈ alternatives, value' a = value a) :
    resolve source value' alternatives = resolve source value alternatives := by
  induction alternatives with
  | nil => rfl
  | cons first others ih =>
    have hfirst := hv first List.mem_cons_self
    cases others with
    | nil => exact hfirst
    | cons second others =>
      simp only [resolve, hfirst]
      rw [ih fun a ha => hv a (List.mem_cons_of_mem _ ha)]

theorem test_congr {value value' : Alternative Expr → Run Value}
    {alternatives : List (Alternative Expr)} (hv : ∀ a ∈ alternatives, value' a = value a) :
    test value' alternatives = test value alternatives := by
  induction alternatives with
  | nil => rfl
  | cons first others ih =>
    simp only [test, hv first List.mem_cons_self]
    rw [ih fun a ha => hv a (List.mem_cons_of_mem _ ha)]

theorem fill_congr {content content' : Expr → Run Text} {pieces : List (Piece Expr)}
    (hc : ∀ e, .site e ∈ pieces → content' e = content e) :
    fill content' pieces = fill content pieces := by
  induction pieces with
  | nil => rfl
  | cons piece pieces ih =>
    have hothers := ih fun e he => hc e (List.mem_cons_of_mem _ he)
    cases piece with
    | literal t => simp only [fill, hothers]
    | site e => simp only [fill, hothers, hc e List.mem_cons_self]

section Write

variable {w : World} {id : ContextId} {x : Text} {f : Context → Context} (hf : Context.Binds x f)

include hf

theorem expand_of_binds (live : Live) (c : Context) {segments : List Segment}
    (hx : x ∉ segments.filterMap Segment.name?) :
    expand live (f c) segments = expand live c segments := by
  induction segments with
  | nil => rfl
  | cons segment segments ih =>
    cases segment with
    | fixed t => simp only [expand, ih hx]
    | dynamic name =>
      obtain ⟨hname, hothers⟩ := not_or.1 (mt List.mem_cons.2 hx)
      simp only [expand, ih hothers, hf.get?_eq c name (Ne.symm hname)]

theorem baseValue_of_binds (c : Context) {route : Route} (hx : x ∉ route.names) :
    baseValue (f c) route.base = baseValue c route.base := by
  unfold baseValue
  split
  · rw [hf.roots_eq]
  · rename_i hbase
    have hname : route.base ≠ x := by
      rintro rfl
      exact hx (List.mem_append_left _ (by simp [hbase]))
    rw [hf.get?_eq c _ hname]

theorem invoke?_modifyContext (meaning : Meaning) (v : Value) :
    invoke? (w.modifyContext id f) meaning v = invoke? w meaning v :=
  invoke?_congr (live_modifyContext hf w id) rfl meaning v

variable {meaning meaning' : Meaning}

/-- The base is looked up as before, and it is nothing deferred. -/
theorem follow_of_binds (hplain : w.Undeferred id) {c : Context} (hc : w.context? id = some c)
    (traversal : Traversal) {route : Route} (hx : x ∉ route.names) :
    follow (w.modifyContext id f) meaning' (f c) traversal route =
      follow w meaning c traversal route := by
  have hsegments : x ∉ route.segments.filterMap Segment.name? := fun h =>
    hx (List.mem_append_right _ h)
  have hyields : (Run.ofExcept (baseValue c route.base)).Yields fun v => ∀ d, ¬ w.Reaches v d :=
    yields_ofExcept fun v hv d => hplain c _ v d hc hv
  simp only [follow, live_modifyContext hf, expand_of_binds hf _ c hsegments,
    baseValue_of_binds hf c hx]
  congr 1
  funext segments
  refine hyields.bind_congr fun v hv => ?_
  cases v with
  | deferred e i => exact absurd Relation.ReflTransGen.refl (hv (e, i))
  | _ => rfl

variable (hplain : w.Undeferred id) (hm : ∀ e, x ∉ e.names → meaning' id e = meaning id e)

include hm

theorem call_of_binds {v : Value} (hv : w.Spares id x v) :
    (invoke? (w.modifyContext id f) meaning' v).getD (return v) =
      (invoke? w meaning v).getD (return v) := by
  rw [invoke?_modifyContext hf]
  cases v with
  | deferred e i =>
    obtain ⟨rfl, hx⟩ := hv (e, i) .refl
    exact hm e hx
  | _ => rfl

include hplain

theorem alternative_of_binds {c : Context} (hc : w.context? id = some c)
    (traversal : Traversal) {a : Alternative Expr} (hx : x ∉ a.names) :
    alternative (w.modifyContext id f) meaning' id (f c) traversal a =
      alternative w meaning id c traversal a := by
  cases a with
  | route r => exact follow_of_binds hf hplain hc traversal hx
  | nested e => exact hm e hx

variable (hyields : ∀ i e, (meaning i e).Yields (w.Accounts (e, i)))

include hyields

theorem textOf_of_binds (forcings : Nat) {v : Value} (hv : w.Spares id x v) :
    textOf (w.modifyContext id f) meaning' forcings v = textOf w meaning forcings v := by
  induction forcings generalizing v with
  | zero => cases v <;> simp only [textOf, live_modifyContext hf]
  | succ forcings ih =>
    cases v with
    | deferred e i =>
      obtain ⟨rfl, hx⟩ := hv (e, i) .refl
      simp only [textOf, hm e hx]
      exact (hyields i e).bind_congr fun u hu => ih (hu.spares hplain hx)
    | _ => simp only [textOf, live_modifyContext hf]

/-- An expression is evaluated as before, if nested expressions that do not mention the variable are. -/
theorem valueOf_of_binds (forcings : Nat) {c : Context} (hc : w.context? id = some c) {e : Expr}
    (hx : x ∉ e.names) :
    valueOf (w.modifyContext id f) meaning' forcings id (f c) e = valueOf w meaning forcings id c e := by
  cases e with
  | path heading traversal alternatives =>
    have hv : ∀ a ∈ alternatives, alternative (w.modifyContext id f) meaning' id (f c) traversal a =
        alternative w meaning id c traversal a := fun a ha =>
      alternative_of_binds hf hplain hm hc traversal fun h => hx (names_subset_of_alternative ha h)
    simp only [valueOf]
    cases PathMode.ofTypeName heading.typeName with
    | testing => exact test_congr hv
    | holding => exact resolve_congr heading.source hv
    | invoking =>
      simp only [resolve_congr heading.source hv]
      have hresolved := resolve_alternative_yields hyields hc heading.source heading traversal alternatives
      exact hresolved.bind_congr fun v hv => call_of_binds hf hm (hv.spares hplain hx)
  | template heading pieces =>
    simp only [valueOf]
    rw [fill_congr fun e he => ?_]
    have hxe : x ∉ e.names := fun h => hx (names_subset_of_site he h)
    rw [hm e hxe]
    exact (hyields id e).bind_congr fun v hv =>
      textOf_of_binds hf hplain hm hyields forcings (hv.spares hplain hxe)
  | negation heading operand => simp only [valueOf, hm operand hx, live_modifyContext hf]
  | deferral heading operand => rfl
  | echo heading => rfl

end Write

/-- An expression that does not mention a variable comes to the same whatever the variable is. -/
theorem evaluate_of_binds {w : World} {id : ContextId} {x : Text} {f : Context → Context}
    (hf : Context.Binds x f) (hplain : w.Undeferred id) (levels : Nat) (active : List ContextId)
    {e : Expr} (hx : x ∉ e.names) :
    evaluate (w.modifyContext id f) levels active id e = evaluate w levels active id e := by
  induction levels generalizing active e with
  | zero => rfl
  | succ levels ih =>
    simp only [evaluate, guarded, context?_modifyContext hf]
    cases hc : w.context? id with
    | none => rfl
    | some c =>
      simp only [Option.map_some, hf.maxDepth_eq]
      rw [valueOf_of_binds hf hplain (fun e he => ih (id :: active) he)
        (fun i e => evaluate_yields w levels (id :: active) i e) levels hc hx]

end Evaluation

namespace Session

open Run World

variable {s : Session} {id : ContextId} {x : Text} {f : Context → Context}

theorem perform_modify {α : Type} (s : Session) (id : ContextId) (f : Context → Context) (run : Run α) :
    (s.modify id f).perform run = (s.perform run).map fun answer => (answer.1, answer.2.modify id f) := by
  simp only [perform, modify]
  cases run s.trail with
  | done result trail => rfl
  | unfinished => rfl

theorem keep_modify (s : Session) (id : ContextId) (f : Context → Context) (v : Value) :
    (s.modify id f).keep v = ((s.keep v).1, (s.keep v).2.modify id f) := by
  unfold keep
  split
  · rfl
  · rfl

theorem performValue_modify (s : Session) (id : ContextId) (f : Context → Context) (run : Run Value) :
    (s.modify id f).performValue run =
      (s.performValue run).map fun answer => (answer.1, answer.2.modify id f) := by
  simp only [performValue, perform_modify]
  cases s.perform run with
  | none => rfl
  | some answer =>
    obtain ⟨result, t⟩ := answer
    cases result with
    | error e => rfl
    | ok v => simp only [Option.map_some, keep_modify]

section Write

variable (hf : Context.Binds x f) (hplain : s.world.Undeferred id)

include hf hplain

theorem meaning_of_binds {e : Expr} (hx : x ∉ e.names) :
    Evaluation.meaning (s.modify id f).world id e = Evaluation.meaning s.world id e := by
  simp only [Evaluation.meaning, modify, enough_modifyContext hf]
  exact evaluate_of_binds hf hplain _ [] hx

theorem textOf_of_binds {v : Value} (hv : s.world.Spares id x v) :
    (s.modify id f).textOf v = s.textOf v := by
  simp only [textOf, modify, enough_modifyContext hf]
  exact Evaluation.textOf_of_binds hf hplain (fun e he => meaning_of_binds hf hplain he)
    (fun i e => evaluate_yields s.world _ [] i e) _ hv

variable {source : Source} (hx : x ∉ source.names s.world.engine)

include hx

theorem evaluation_of_binds : (s.modify id f).evaluation id source = s.evaluation id source := by
  cases source with
  | compiled e => exact meaning_of_binds hf hplain hx
  | text t =>
    have hengine : (s.modify id f).world.engine = s.world.engine := rfl
    simp only [Source.names] at hx
    simp only [evaluation, hengine]
    split
    · rename_i e he
      rw [he] at hx
      exact meaning_of_binds hf hplain hx
    · rfl
    · rfl

omit hf in
theorem evaluation_spares : (s.evaluation id source).Yields (s.world.Spares id x) := by
  have hyields : ∀ e, x ∉ e.names → (Evaluation.meaning s.world id e).Yields (s.world.Spares id x) :=
    fun e hxe => (evaluate_yields s.world _ [] id e).mono fun v hv => hv.spares hplain hxe
  cases source with
  | compiled e => exact hyields e hx
  | text t =>
    simp only [Source.names] at hx
    simp only [evaluation]
    split
    · rename_i e he
      rw [he] at hx
      exact hyields e hx
    · exact yields_fail _
    · exact yields_unfinished

end Write

end Session

/-- Where nothing deferred can be reached from the variables and the roots of a context, it makes no
difference to evaluations on it, to values, truth values or text, whether a variable is written before or
afterwards, unless it is one that they mention. -/
theorem evaluation_depends_on_names {s : Session} {id : ContextId} {source : Source} {x : Text} (v : Value)
    (hplain : s.world.Undeferred id) (hx : x ∉ source.names s.world.engine) {write : Session → Session}
    (hwrite : write ∈ [fun t => t.setLocal id x v, fun t => t.setGlobal id x v]) :
    (write s).evaluate id source =
        (s.evaluate id source).map (fun answer => (answer.1, write answer.2)) ∧
      (write s).evaluateBoolean id source =
        (s.evaluateBoolean id source).map (fun answer => (answer.1, write answer.2)) ∧
      (write s).evaluateText id source =
        (s.evaluateText id source).map (fun answer => (answer.1, write answer.2)) := by
  obtain ⟨f, hf, rfl⟩ : ∃ f, Context.Binds x f ∧ write = fun t => t.modify id f := by
    simp only [List.mem_cons, List.not_mem_nil, or_false] at hwrite
    rcases hwrite with rfl | rfl
    · exact ⟨_, Context.binds_setLocal x v, rfl⟩
    · exact ⟨_, Context.binds_setGlobal x v, rfl⟩
  have hevaluation := Session.evaluation_of_binds hf hplain hx
  have hlive : (s.modify id f).live = s.live := World.live_modifyContext hf s.world id
  refine ⟨?_, ?_, ?_⟩
  · simp only [Session.evaluate, hevaluation, Session.performValue_modify]
  · simp only [Session.evaluateBoolean, hevaluation, hlive, Session.perform_modify]
  · simp only [Session.evaluateText, hevaluation, Session.perform_modify]
    have hspares := Session.evaluation_spares hplain hx
    refine congrArg (fun run => Option.map _ (s.perform run)) (hspares.bind_congr fun u hu => ?_)
    cases u with
    | default => rfl
    | nothing => rfl
    | text t => rfl
    | _ => simp only [Session.textOf_of_binds hf hplain hu]

/-- A repeat that has come to the first of two rows. -/
def firstRow : List Operation :=
  [.beginScope 0, .setRepeat 0 "row".toList (.text "rows".toList), .advance 0]

/-- A fallback with sites that ask the cursor and look up a key that a variable gives. -/
def pricedRow : Source :=
  .text "missing | string:${repeat/row/parity} ${row}: ${prices/?row}".toList

theorem evaluation_of_pricedRow :
    ∃ s, (Session.ofRoots
          [("rows".toList, .list [.text ['a'], .text ['b']]),
           ("prices".toList, .map [(['a'], .text "low".toList)])]).run firstRow = some s ∧
      ((s.evaluate 0 pricedRow).map fun answer => match answer.1 with
        | .ok v => v.asText?
        | .error _ => none) = some (some "odd a: low".toList) ∧
      (s.setGlobal 0 "total".toList .nothing).evaluate 0 pricedRow =
        (s.evaluate 0 pricedRow).map fun answer =>
          (answer.1, answer.2.setGlobal 0 "total".toList .nothing) := by
  obtain ⟨s, hrun, hengine, hcursors, ⟨c, hc, hentries⟩, hvalue⟩ :
      ∃ s, (Session.ofRoots
          [("rows".toList, .list [.text ['a'], .text ['b']]),
           ("prices".toList, .map [(['a'], .text "low".toList)])]).run firstRow = some s ∧
        s.world.engine = .standard ∧
        (s.world.cursors.all fun cursor => Value.isDataItems cursor.behind) = true ∧
        (∃ c, s.world.context? 0 = some c ∧
          ((c.bindings ++ c.roots).all fun entry => entry.2.isPlain) = true) ∧
        ((s.evaluate 0 pricedRow).map fun answer => match answer.1 with
          | .ok v => v.asText?
          | .error _ => none) = some (some "odd a: low".toList) :=
    ⟨_, rfl, rfl, rfl, ⟨_, rfl, rfl⟩, by decide +kernel⟩
  have hplain : s.world.Undeferred 0 := by
    refine World.undeferred_of_plain (List.all_eq_true.1 hcursors) fun c' hc' entry he => ?_
    rw [hc] at hc'
    cases hc'
    exact Value.plain_of_isPlain (List.all_eq_true.1 hentries entry he)
  have hnames : "total".toList ∉ pricedRow.names s.world.engine := by
    rw [hengine]
    decide +kernel
  exact ⟨s, hrun, hvalue, (evaluation_depends_on_names .nothing hplain hnames
    (List.mem_cons_of_mem _ List.mem_cons_self)).1⟩

end TemplateExpressions
