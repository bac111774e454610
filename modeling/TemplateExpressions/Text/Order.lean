import TemplateExpressions.Mapping

/-!
# The order of texts

Texts are ordered character by character by code point, which is also the order of their UTF-8
bytes. A mapping can be built in this order instead of the order in which its names come in.
-/

set_option autoImplicit false

namespace TemplateExpressions

/-- Whether a text comes before another. -/
def Text.before : Text → Text → Bool
  | [], [] => false
  | [], _ :: _ => true
  | _ :: _, [] => false
  | c :: s, d :: t => if c = d then before s t else c.toNat < d.toNat

namespace Mapping

variable {ν : Type}

/-- Gives a name a value in a mapping whose names are in order. -/
def putInOrder : Mapping ν → Text → ν → Mapping ν
  | [], name, value => [(name, value)]
  | (name', value') :: rest, name, value =>
    if name' = name then (name, value) :: rest
    else if Text.before name name' then (name, value) :: (name', value') :: rest
    else (name', value') :: putInOrder rest name value

/-- The mapping with its names in order. -/
def inOrder (m : Mapping ν) : Mapping ν := m.foldl (fun m e => m.putInOrder e.1 e.2) []

end Mapping
end TemplateExpressions
