import TemplateExpressions.Text.Name
import TemplateExpressions.Value

/-!
# Engines

An engine is a registry of expression types, each with the factory that compiles its texts, together
with side tables for base names and function namespaces, and defaults. Registration is for good: a
name is registered once.
-/

set_option autoImplicit false

namespace TemplateExpressions

/-- How the texts of an expression type are compiled. -/
inductive Factory where
  /-- A path, whose mode follows from the type name. -/
  | path (traversal : Traversal)
  /-- A path that is compiled as if under the given type name. -/
  | pathUnder (typeName : Text)
  /-- A template. -/
  | template
  /-- A template, of the text in ASCII upper case. -/
  | upperTemplate
  /-- The negation of another expression. -/
  | negation
  /-- Another expression that is left unevaluated. -/
  | deferral
  /-- Nothing: the text itself is the value, with the type name. -/
  | echo
  /-- No text compiles. -/
  | refusal
deriving DecidableEq

/-- What a function namespace makes of the value it is applied to. -/
inductive Namespace where
  /-- A list of the value alone. -/
  | wrap
  /-- The name of the value's kind. -/
  | typeName
  /-- The value. -/
  | same
deriving DecidableEq

/-- What a namespace makes of a value. -/
def Namespace.apply : Namespace → Value → Value
  | .wrap, v => .list [v]
  | .typeName, v => .text v.typeName
  | .same, v => v

/-- A registry of expression types with its side tables and defaults. -/
structure Engine where
  types : Mapping Factory
  baseNames : Mapping Text
  namespaces : Mapping Namespace
  /-- The type of a text without a type prefix. -/
  defaultType : Text
  /-- The depth limit that new contexts start with. -/
  maxDepth : Nat

namespace Engine

/-- The standard types in registration order. -/
def standardTypes : Mapping Factory :=
  [("standard".toList, .path .plain), ("path".toList, .path .plain),
   ("exists".toList, .path .plain), ("nocall".toList, .path .plain),
   ("string".toList, .template), ("not".toList, .negation),
   ("defer".toList, .deferral), ("lazy".toList, .deferral)]

/-- An engine without any type. -/
def empty : Engine := ⟨[], [], [], "standard".toList, 1000⟩

/-- An engine with the standard types. -/
def standard : Engine := { empty with types := standardTypes }

/-- Checks a name before it is registered. -/
def checkName (kind : RegistryKind) (name : Text) (taken : Bool) : Except RegistrationError Unit :=
  if !Text.isName name then .error (.invalidName kind name)
  else if taken then .error (.duplicate kind name)
  else .ok ()

/-- Registers an expression type. -/
def registerType (g : Engine) (name : Text) (factory : Factory) :
    Except RegistrationError Engine := do
  checkName .expressionType name (g.types.has name)
  return { g with types := g.types.put name factory }

/-- Registers an object under a base name. -/
def registerBaseName (g : Engine) (name object : Text) : Except RegistrationError Engine := do
  checkName .baseName name (g.baseNames.has name)
  return { g with baseNames := g.baseNames.put name object }

/-- Registers a function namespace. -/
def registerNamespace (g : Engine) (name : Text) (space : Namespace) :
    Except RegistrationError Engine := do
  checkName .functionNamespace name (g.namespaces.has name)
  return { g with namespaces := g.namespaces.put name space }

/-- The type that a text selects by its prefix, or else the default type, and the text to
compile. -/
def dispatch (g : Engine) (t : Text) : Text × Text :=
  (Text.splitPrefix t).getD (g.defaultType, t)

end Engine
end TemplateExpressions
