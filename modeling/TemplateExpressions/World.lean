import TemplateExpressions.Cursor
import TemplateExpressions.Engine
import TemplateExpressions.Scopes
import TemplateExpressions.Value.Display

/-!
# Contexts and the world they live in

A context holds what expressions are evaluated against: its roots, its scopes of variables and its
active cursors. All contexts and cursors that were ever made, and the engine, make up the world.
Evaluation reads the world and never changes it.
-/

set_option autoImplicit false

namespace TemplateExpressions

/-- How messages are translated. -/
inductive Translator where
  /-- A message stays as it is. -/
  | identity
  /-- All parts of the request are written out. -/
  | describe
deriving DecidableEq

/-- The state that expressions are evaluated against. -/
structure Context where
  /-- How many evaluations may be active on the context at a time. -/
  maxDepth : Nat
  /-- The variables that the context began with. -/
  roots : Mapping Value
  scopes : Scopes Value CursorId
  /-- The active cursors by name. -/
  registry : Mapping CursorId
  position : Position
  file : Option Text
  translator : Translator
  /-- Whether the context is still in use. -/
  alive : Bool

/-- A context in the making: roots that were named one by one, roots that came in mappings, and
settings. -/
structure ContextBuilder where
  named : Mapping Value
  mapped : Mapping Value
  maxDepth : Nat
  translator : Translator

namespace ContextBuilder

/-- A builder with the defaults of an engine. -/
def ofEngine (g : Engine) : ContextBuilder := ⟨[], [], g.maxDepth, .identity⟩

/-- Adds a root by name. -/
def root (b : ContextBuilder) (name : Text) (value : Value) : ContextBuilder :=
  { b with named := b.named.put name value }

/-- Adds the roots of a mapping. -/
def roots (b : ContextBuilder) (entries : List (Text × Value)) : ContextBuilder :=
  { b with mapped := b.mapped.putAll entries }

/-- All roots: the named ones, over them those that came in mappings, over both the fixed ones. The
registry goes by two names. -/
def allRoots (b : ContextBuilder) (context : ContextId) : Mapping Value :=
  (b.named.putAll b.mapped).putAll
    [("nothing".toList, .nothing), ("default".toList, .default),
     ("repeat".toList, .registry context), ("loop".toList, .registry context)]

/-- The context, given the place that it will have. -/
def build (b : ContextBuilder) (context : ContextId) : Context :=
  let roots := b.allRoots context
  { maxDepth := b.maxDepth, roots := roots, scopes := Scopes.ofRoot roots, registry := [],
    position := ⟨none, none⟩, file := none, translator := b.translator, alive := true }

end ContextBuilder

/-- The engine with all contexts and cursors. -/
structure World where
  engine : Engine
  contexts : List Context
  cursors : List Cursor

namespace World

/-- A context that is still in use. -/
def context? (w : World) (id : ContextId) : Option Context :=
  w.contexts[id]?.filter Context.alive

/-- A cursor. -/
def cursor? (w : World) (id : CursorId) : Option Cursor := w.cursors[id]?

/-- What values are read against. -/
def live (w : World) : Live where
  registry id := (w.contexts[id]?.map Context.registry).getD []
  cursorName id := (w.cursors[id]?.map Cursor.name).getD []

/-- Changes a context. -/
def modifyContext (w : World) (id : ContextId) (f : Context → Context) : World :=
  { w with contexts := w.contexts.modify id f }

/-- Puts a cursor in the place of another. -/
def setCursor (w : World) (id : CursorId) (c : Cursor) : World :=
  { w with cursors := w.cursors.set id c }

/-- Adds a cursor. -/
def addCursor (w : World) (c : Cursor) : World × CursorId :=
  ({ w with cursors := w.cursors ++ [c] }, w.cursors.length)

/-- Adds a context. -/
def addContext (w : World) (b : ContextBuilder) : World × ContextId :=
  ({ w with contexts := w.contexts ++ [b.build w.contexts.length] }, w.contexts.length)

end World

namespace Context

/-- The variables in force. -/
def bindings (c : Context) : Mapping Value := c.scopes.current

/-- Opens a scope. -/
def beginScope (c : Context) : Context := { c with scopes := c.scopes.push }

/-- Puts back what a name of the registry stood for. -/
def restore (registry : Mapping CursorId) (entry : Text × Option CursorId) : Mapping CursorId :=
  match entry.2 with
  | none => registry.without entry.1
  | some cursor => registry.put entry.1 cursor

/-- Closes the innermost scope and puts back the cursors that it replaced, the last one first. -/
def endScope (c : Context) : Except ScopeError Context :=
  match c.scopes.pop with
  | .error e => .error e
  | .ok (replaced, scopes) =>
    .ok { c with scopes := scopes, registry := replaced.reverse.foldl restore c.registry }

/-- Binds a variable in the innermost scope. -/
def setLocal (c : Context) (name : Text) (value : Value) : Context :=
  { c with scopes := c.scopes.bindLocal name value }

/-- Binds a variable in every scope and at the root. -/
def setGlobal (c : Context) (name : Text) (value : Value) : Context :=
  { c with scopes := c.scopes.bindGlobal name value }

/-- Makes a cursor the active one of a name, until the innermost scope is closed: puts it into the
registry, then records the one that it took the place of. A repeat comes here with a scope open, so
that there is where to record it. -/
def install (c : Context) (name : Text) (cursor : CursorId) : Except ScopeError Context :=
  let prior := c.registry.get? name
  let c := { c with registry := c.registry.put name cursor }
  match c.scopes.record name prior with
  | .error e => .error e
  | .ok scopes => .ok { c with scopes := scopes }

/-- What the translator makes of a message. -/
def translate (c : Context) (live : Live) (message : Text) (domain : Option Text)
    (mapping : Option (List (Text × Value))) (default : Option Value) : Text :=
  match c.translator with
  | .identity => message
  | .describe =>
    let shown (v : Option Value) : Text := (v.map (Value.display live)).getD ['-']
    Text.joinWith ['|'] [message, domain.getD ['-'], shown (mapping.map .map), shown default]

end Context
end TemplateExpressions
