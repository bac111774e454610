import TemplateExpressions.Text.Basic

/-!
# Mappings in insertion order

A mapping is a list of entries with distinct names. Writing to a name that is present replaces its
value and moves nothing; a new name goes to the end.
-/

set_option autoImplicit false

namespace TemplateExpressions

/-- Values by name, in the order in which the names first came in. -/
abbrev Mapping (ν : Type) := List (Text × ν)

namespace Mapping

variable {ν : Type}

/-- The value of a name. -/
def get? : Mapping ν → Text → Option ν
  | [], _ => none
  | (name, value) :: rest, wanted => if name = wanted then some value else get? rest wanted

/-- Whether a name has a value. -/
def has (m : Mapping ν) (name : Text) : Bool := (m.get? name).isSome

/-- Gives a name a value: in its place if the name is present, at the end otherwise. -/
def put : Mapping ν → Text → ν → Mapping ν
  | [], name, value => [(name, value)]
  | (name', value') :: rest, name, value =>
    if name' = name then (name', value) :: rest else (name', value') :: put rest name value

/-- Gives several names their values, one after the other. -/
def putAll (m : Mapping ν) (entries : List (Text × ν)) : Mapping ν :=
  entries.foldl (fun m e => m.put e.1 e.2) m

/-- Takes a name out; the others keep their order. -/
def without : Mapping ν → Text → Mapping ν
  | [], _ => []
  | (name', value') :: rest, name =>
    if name' = name then rest else (name', value') :: without rest name

/-- The mapping that a list of entries describes; of a repeated name the first place and the last
value count. -/
def ofEntries (entries : List (Text × ν)) : Mapping ν := putAll [] entries

/-- The names in order. -/
def names (m : Mapping ν) : List Text := m.map Prod.fst

theorem get?_nil (name : Text) : get? ([] : Mapping ν) name = none := rfl

theorem get?_put_self (m : Mapping ν) (name : Text) (value : ν) :
    (m.put name value).get? name = some value := by
  induction m with
  | nil => simp [put, get?]
  | cons e m ih =>
    obtain ⟨n, v⟩ := e
    by_cases h : n = name <;> simp [put, get?, h, ih]

theorem get?_put_of_ne (m : Mapping ν) {name other : Text} (value : ν) (h : other ≠ name) :
    (m.put name value).get? other = m.get? other := by
  induction m with
  | nil => simp [put, get?, Ne.symm h]
  | cons e m ih =>
    obtain ⟨n, v⟩ := e
    unfold put
    split
    · rename_i hn
      subst hn
      simp [get?, Ne.symm h]
    · simp only [get?]
      rw [ih]

theorem get?_put (m : Mapping ν) (name : Text) (value : ν) (other : Text) :
    (m.put name value).get? other = if other = name then some value else m.get? other := by
  by_cases h : other = name
  · rw [if_pos h, h, get?_put_self]
  · rw [if_neg h, get?_put_of_ne m value h]

/-- Taking out a name that was new undoes the writing of it. -/
theorem without_put_of_get?_eq_none (m : Mapping ν) {name : Text} (value : ν)
    (h : m.get? name = none) : (m.put name value).without name = m := by
  induction m with
  | nil => simp [put, without]
  | cons e m ih =>
    obtain ⟨n, v⟩ := e
    by_cases hn : n = name
    · simp [get?, hn] at h
    · simp only [get?, if_neg hn] at h
      simp only [put, without, if_neg hn, ih h]

/-- Writing the old value of a name undoes the writing of a new one. -/
theorem put_put_of_get?_eq_some (m : Mapping ν) {name : Text} (value : ν) {old : ν}
    (h : m.get? name = some old) : (m.put name value).put name old = m := by
  induction m with
  | nil => simp [get?] at h
  | cons e m ih =>
    obtain ⟨n, v⟩ := e
    by_cases hn : n = name
    · simp only [get?, if_pos hn, Option.some.injEq] at h
      simp [put, hn, h]
    · simp only [get?, if_neg hn] at h
      simp only [put, if_neg hn, ih h]

/-- Writing changes the order of the names only by adding a new one at the end. -/
theorem names_put (m : Mapping ν) (name : Text) (value : ν) :
    (m.put name value).names = if name ∈ m.names then m.names else m.names ++ [name] := by
  induction m with
  | nil => simp [put, names]
  | cons e m ih =>
    obtain ⟨n, v⟩ := e
    by_cases hn : n = name
    · subst hn; simp [put, names]
    · have hn' : ¬ name = n := fun e => hn e.symm
      simp only [names] at ih ⊢
      simp only [put, hn, if_false, List.map_cons, ih, List.mem_cons, hn', false_or]
      by_cases hm : name ∈ List.map Prod.fst m <;> simp [hm]

end Mapping
end TemplateExpressions
