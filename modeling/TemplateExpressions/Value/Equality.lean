import TemplateExpressions.Value

/-!
# Equal values

Plain data are compared by content, mappings without regard to their order, an integer with a
floating-point number as floating-point numbers. Objects, callables, registries and cursors are
compared by identity, and a deferred expression equals nothing.
-/

set_option autoImplicit false

namespace TemplateExpressions.Value

mutual

/-- Whether two values are equal. -/
def same : Value → Value → Bool
  | .nothing, .nothing | .default, .default => true
  | .bool a, .bool b => a == b
  | .int a, .int b => a == b
  | .float a, .float b => a == b
  | .int a, .float b => a.toFloat == b
  | .float a, .int b => b.toFloat == a
  | .text a, .text b => a == b
  | .list a, .list b => sameItems a b
  | .map a, .map b => a.length == b.length && sameEntries a b
  | .object a _, .object b _ => a == b
  | .callable a _, .callable b _ => a == b
  | .registry a, .registry b => a == b
  | .iterator a, .iterator b => a == b
  | _, _ => false

/-- Whether two lists have equal elements in the same order. -/
def sameItems : List Value → List Value → Bool
  | [], [] => true
  | a :: as, b :: bs => same a b && sameItems as bs
  | _, _ => false

/-- Whether every entry has an equal one of the same key in a mapping. -/
def sameEntries : List (Text × Value) → List (Text × Value) → Bool
  | [], _ => true
  | (key, a) :: es, m =>
    (match Mapping.get? m key with
      | some b => same a b
      | none => false) && sameEntries es m

end

end TemplateExpressions.Value
