import TemplateExpressions.CommandLine.Binding
import TemplateExpressions.Proofs.Evaluation.Deferred

/-!
# JSON is data

Whatever text is read as JSON, the value is plain data (`isData_of_read?`): a number, a text, or a list or
mapping of such. So is every root that is given on a command line (`isData_of_readRoot`).
-/

set_option autoImplicit false

namespace TemplateExpressions

section InOrder

variable {ν : Type} {P : ν → Prop} {m : Mapping ν}

theorem Mapping.forall_mem_putInOrder {name : Text} {value : ν} (hm : ∀ entry ∈ m, P entry.2)
    (hvalue : P value) : ∀ entry ∈ m.putInOrder name value, P entry.2 := by
  induction m with
  | nil => exact List.forall_mem_singleton.2 hvalue
  | cons first m ih =>
    obtain ⟨hfirst, hrest⟩ := List.forall_mem_cons.1 hm
    unfold putInOrder
    split
    · exact List.forall_mem_cons.2 ⟨hvalue, hrest⟩
    · split
      · exact List.forall_mem_cons.2 ⟨hvalue, hm⟩
      · exact List.forall_mem_cons.2 ⟨hfirst, ih hrest⟩

theorem Mapping.forall_mem_inOrder (hm : ∀ entry ∈ m, P entry.2) : ∀ entry ∈ m.inOrder, P entry.2 :=
  List.foldlRecOn (motive := fun (acc : Mapping ν) => ∀ entry ∈ acc, P entry.2) m _ (by simp)
    fun _ hacc entry hentry => forall_mem_putInOrder hacc (hm entry hentry)

end InOrder

namespace Json

/-- What a reader reads has the property. -/
def Gives {α : Type} (P : α → Prop) (read : Text → Option (α × Text)) : Prop :=
  ∀ t a rest, read t = some (a, rest) → P a

section Readers

variable {read : Text → Option (Value × Text)} (hread : Gives (Value.isData · = true) read)

include hread

theorem readElements_gives (fuel : Nat) :
    Gives (fun vs => ∀ v ∈ vs, Value.isData v = true) (readElements read fuel) := by
  induction fuel with
  | zero =>
    intro t vs rest h
    cases h
  | succ fuel ih =>
    intro t vs rest h
    unfold readElements at h
    split at h
    · cases h
      simp
    · obtain ⟨⟨v, t'⟩, hv, h⟩ := Option.bind_eq_some_iff.1 h
      obtain ⟨⟨others, t''⟩, hothers, h⟩ := Option.bind_eq_some_iff.1 h
      cases h
      exact List.forall_mem_cons.2 ⟨hread _ _ _ hv, ih _ _ _ hothers⟩
    · cases h

theorem readArray_gives : Gives (fun vs => ∀ v ∈ vs, Value.isData v = true) (readArray read) := by
  intro t vs rest h
  unfold readArray at h
  split at h
  · cases h
    simp
  · obtain ⟨⟨v, t'⟩, hv, h⟩ := Option.bind_eq_some_iff.1 h
    obtain ⟨⟨others, t''⟩, hothers, h⟩ := Option.bind_eq_some_iff.1 h
    cases h
    exact List.forall_mem_cons.2 ⟨hread _ _ _ hv, readElements_gives hread _ _ _ _ hothers⟩

theorem readEntry_gives : Gives (fun entry => Value.isData entry.2 = true) (readEntry read) := by
  intro t entry rest h
  obtain ⟨⟨name, t'⟩, -, h⟩ := Option.bind_eq_some_iff.1 h
  dsimp only at h
  split at h
  · obtain ⟨⟨v, t''⟩, hv, h⟩ := Option.bind_eq_some_iff.1 h
    cases h
    exact hread _ _ _ hv
  · cases h

theorem readEntries_gives (fuel : Nat) :
    Gives (fun es => ∀ entry ∈ es, Value.isData entry.2 = true) (readEntries read fuel) := by
  induction fuel with
  | zero =>
    intro t es rest h
    cases h
  | succ fuel ih =>
    intro t es rest h
    unfold readEntries at h
    split at h
    · cases h
      simp
    · obtain ⟨⟨entry, t'⟩, hentry, h⟩ := Option.bind_eq_some_iff.1 h
      obtain ⟨⟨others, t''⟩, hothers, h⟩ := Option.bind_eq_some_iff.1 h
      cases h
      exact List.forall_mem_cons.2 ⟨readEntry_gives hread _ _ _ hentry, ih _ _ _ hothers⟩
    · cases h

theorem readObject_gives :
    Gives (fun es => ∀ entry ∈ es, Value.isData entry.2 = true) (readObject read) := by
  intro t es rest h
  unfold readObject at h
  split at h
  · cases h
    simp
  · obtain ⟨⟨entry, t'⟩, hentry, h⟩ := Option.bind_eq_some_iff.1 h
    obtain ⟨⟨others, t''⟩, hothers, h⟩ := Option.bind_eq_some_iff.1 h
    cases h
    exact List.forall_mem_cons.2
      ⟨readEntry_gives hread _ _ _ hentry, readEntries_gives hread _ _ _ _ hothers⟩

end Readers

theorem isData_whole (negative : Bool) (significand : Nat) : (whole negative significand).isData = true := by
  unfold whole
  split
  · split <;> rfl
  · split <;> rfl

theorem isData_of_map_signed {negative : Bool} {x? : Option Float} {t rest : Text} {v : Value}
    (h : (x?.map fun x => (signed negative x, t)) = some (v, rest)) : v.isData = true := by
  obtain ⟨x, -, hx⟩ := Option.map_eq_some_iff.1 h
  cases hx
  rfl

theorem readExponent_gives (negative : Bool) (significand : Nat) (exponent : Int) :
    Gives (Value.isData · = true) (readExponent negative significand exponent) := by
  intro t v rest h
  unfold readExponent at h
  split at h
  all_goals
    dsimp only at h
    split at h
    · cases h
    · split at h
      · split at h
        · cases h
        · cases h
          rfl
      · exact isData_of_map_signed h

theorem readUnsigned_gives (negative : Bool) : Gives (Value.isData · = true) (readUnsigned negative) := by
  intro t v rest h
  unfold readUnsigned at h
  dsimp only at h
  split at h
  · cases h
  · split at h
    · split at h
      · cases h
      · split at h
        · exact readExponent_gives _ _ _ _ _ _ h
        · exact readExponent_gives _ _ _ _ _ _ h
        · exact isData_of_map_signed h
    · exact readExponent_gives _ _ _ _ _ _ h
    · exact readExponent_gives _ _ _ _ _ _ h
    · split at h
      · cases h
        exact isData_whole negative _
      · exact isData_of_map_signed h

theorem readNumber_gives : Gives (Value.isData · = true) readNumber := by
  intro t v rest h
  unfold readNumber at h
  split at h <;> exact readUnsigned_gives _ _ _ _ h

/-- Values are data, however deep arrays and objects are nested. -/
theorem readValue_gives (depth : Nat) : Gives (Value.isData · = true) (readValue depth) := by
  induction depth with
  | zero =>
    intro t v rest h
    unfold readValue at h
    split at h
    · cases h
      rfl
    · cases h
      rfl
    · cases h
      rfl
    · obtain ⟨r, -, hr⟩ := Option.map_eq_some_iff.1 h
      cases hr
      rfl
    · cases h
    · cases h
    · exact readNumber_gives _ _ _ h
  | succ depth ih =>
    intro t v rest h
    unfold readValue at h
    split at h
    · cases h
      rfl
    · cases h
      rfl
    · cases h
      rfl
    · obtain ⟨r, -, hr⟩ := Option.map_eq_some_iff.1 h
      cases hr
      rfl
    · obtain ⟨⟨vs, t'⟩, hvs, hr⟩ := Option.map_eq_some_iff.1 h
      cases hr
      exact Value.isDataItems_of_forall_mem (readArray_gives ih _ _ _ hvs)
    · obtain ⟨⟨es, t'⟩, hes, hr⟩ := Option.map_eq_some_iff.1 h
      cases hr
      have hentries : ∀ entry ∈ es, entry.2.isData = true := readObject_gives ih _ _ _ hes
      exact Value.isDataEntries_of_forall_mem
        (Mapping.forall_mem_inOrder (P := (Value.isData · = true)) hentries)
    · exact readNumber_gives _ _ _ h

/-- What is read as JSON is data. -/
theorem isData_of_read? {t : Text} {v : Value} (h : read? t = some v) : v.isData = true := by
  unfold read? at h
  split at h
  · rename_i u rest hread
    split at h
    · cases h
      exact readValue_gives 127 _ _ _ hread
    · cases h
  · cases h

end Json

namespace CommandLine

/-- A root is data, as JSON or as text. -/
theorem isData_of_readRoot {t : Text} {root : Root} (h : Root.read t = .ok root) :
    root.value.isData = true := by
  unfold Root.read at h
  cases hsplit : splitBinding t with
  | error e =>
    rw [hsplit] at h
    cases h
  | ok r =>
    rw [hsplit] at h
    cases h
    show ((Json.read? r.2).getD (.text r.2)).isData = true
    cases hjson : Json.read? r.2 with
    | none => rfl
    | some v => exact Json.isData_of_read? hjson

end CommandLine
end TemplateExpressions
