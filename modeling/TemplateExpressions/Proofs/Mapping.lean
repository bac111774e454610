import Mathlib.Data.List.Perm.Subperm
import TemplateExpressions.Mapping

/-!
# Mappings and the entries they come from

A mapping that a list of entries describes has every name once, at its first place in the list
(`names_ofEntries`, `nodup_names_ofEntries`), with its last value there (`get?_ofEntries`). Entries that come in a
mapping of their own count like the entries that describe it (`putAll_ofEntries`).
-/

set_option autoImplicit false

namespace TemplateExpressions.Mapping

variable {ν : Type} {m : Mapping ν}

/-! ## Names -/

theorem mem_names_iff {name : Text} : name ∈ m.names ↔ (m.get? name).isSome = true := by
  induction m with
  | nil => simp [names, get?]
  | cons entry m ih =>
    obtain ⟨n, v⟩ := entry
    by_cases hn : n = name
    · simp [names, get?, hn]
    · simpa [names, get?, hn, Ne.symm hn] using ih

theorem mem_of_get? {name : Text} {value : ν} (h : m.get? name = some value) : (name, value) ∈ m := by
  induction m with
  | nil => cases h
  | cons entry m ih =>
    unfold get? at h
    split at h
    · rename_i hname
      cases h
      cases hname
      exact List.mem_cons_self
    · exact List.mem_cons_of_mem _ (ih h)

theorem nodup_names_put (h : m.names.Nodup) (name : Text) (value : ν) : (m.put name value).names.Nodup := by
  rw [names_put]
  split
  · exact h
  · rename_i hnew
    exact List.nodup_append.2 ⟨h, by simp, fun a ha b hb => by
      rw [List.mem_singleton.1 hb]
      exact fun e => hnew (e ▸ ha)⟩

/-- Every name stands in a mapping once. -/
theorem nodup_names_putAll (h : m.names.Nodup) (entries : List (Text × ν)) : (m.putAll entries).names.Nodup := by
  induction entries generalizing m with
  | nil => exact h
  | cons entry entries ih => exact ih (nodup_names_put h entry.1 entry.2)

theorem eraseDups_append_singleton (l : List Text) (name : Text) :
    (l ++ [name]).eraseDups = if name ∈ l then l.eraseDups else l.eraseDups ++ [name] := by
  rw [List.eraseDups_append, List.removeAll]
  split
  · rename_i h
    simp [h]
  · rename_i h
    simp [h, List.eraseDups_cons]

theorem names_putAll {names' : List Text} (h : m.names = names'.eraseDups) (entries : List (Text × ν)) :
    (m.putAll entries).names = (names' ++ entries.map Prod.fst).eraseDups := by
  induction entries generalizing m names' with
  | nil => rw [List.map_nil, List.append_nil, ← h, putAll, List.foldl_nil]
  | cons entry entries ih =>
    have hput : (m.put entry.1 entry.2).names = (names' ++ [entry.1]).eraseDups := by
      rw [names_put, h, eraseDups_append_singleton]
      simp only [List.mem_eraseDups]
    have hall := ih hput
    rwa [List.append_assoc, List.singleton_append] at hall

/-- The names that entries give to a mapping stand in it in the order in which they first came. -/
theorem names_ofEntries (entries : List (Text × ν)) :
    (ofEntries entries).names = (entries.map Prod.fst).eraseDups := by
  have hempty : names ([] : Mapping ν) = ([] : List Text).eraseDups := rfl
  exact names_putAll hempty entries

theorem nodup_names_ofEntries (entries : List (Text × ν)) : (ofEntries entries).names.Nodup := by
  have hempty : (names ([] : Mapping ν)).Nodup := List.nodup_nil
  exact nodup_names_putAll hempty entries

/-! ## Values -/

/-- The value that a name has last in a list of entries. -/
def lastValue? (entries : List (Text × ν)) (name : Text) : Option ν :=
  (entries.filter fun entry => entry.1 == name).getLast?.map Prod.snd

theorem lastValue?_append (entries others : List (Text × ν)) (name : Text) :
    lastValue? (entries ++ others) name = (lastValue? others name).or (lastValue? entries name) := by
  rw [lastValue?, List.filter_append, List.getLast?_append, Option.map_or]
  rfl

theorem lastValue?_cons (entry : Text × ν) (entries : List (Text × ν)) (name : Text) :
    lastValue? (entry :: entries) name =
      (lastValue? entries name).or (if entry.1 = name then some entry.2 else none) := by
  rw [← List.singleton_append, lastValue?_append, lastValue?, lastValue?]
  by_cases h : entry.1 = name <;> simp [h]

theorem get?_putAll (entries : List (Text × ν)) (name : Text) :
    (m.putAll entries).get? name = (lastValue? entries name).or (m.get? name) := by
  induction entries generalizing m with
  | nil => rfl
  | cons entry entries ih =>
    have hput : (m.put entry.1 entry.2).get? name =
        (if entry.1 = name then some entry.2 else none).or (m.get? name) := by
      rw [get?_put]
      by_cases h : entry.1 = name
      · rw [if_pos h, if_pos h.symm, Option.some_or]
      · rw [if_neg h, if_neg (Ne.symm h), Option.none_or]
    rw [lastValue?_cons, Option.or_assoc, ← hput]
    exact ih

/-- A name has the last of the values that entries give it. -/
theorem get?_ofEntries (entries : List (Text × ν)) (name : Text) :
    (ofEntries entries).get? name = lastValue? entries name := by
  rw [ofEntries, get?_putAll, get?_nil, Option.or_none]

/-- What holds of the values of a mapping and of a new one holds after writing it. -/
theorem forall_mem_put {P : ν → Prop} {name : Text} {value : ν} (hm : ∀ entry ∈ m, P entry.2)
    (hvalue : P value) : ∀ entry ∈ m.put name value, P entry.2 := by
  induction m with
  | nil => simpa [put] using hvalue
  | cons first m ih =>
    obtain ⟨hfirst, hrest⟩ := List.forall_mem_cons.1 hm
    unfold put
    split
    · exact List.forall_mem_cons.2 ⟨hvalue, hrest⟩
    · exact List.forall_mem_cons.2 ⟨hfirst, ih hrest⟩

theorem forall_mem_putAll {P : ν → Prop} {entries : List (Text × ν)} (hm : ∀ entry ∈ m, P entry.2)
    (hentries : ∀ entry ∈ entries, P entry.2) : ∀ entry ∈ m.putAll entries, P entry.2 := by
  induction entries generalizing m with
  | nil => exact hm
  | cons first entries ih =>
    obtain ⟨hfirst, hrest⟩ := List.forall_mem_cons.1 hentries
    exact ih (forall_mem_put hm hfirst) hrest

/-! ## Entries that come in a mapping -/

theorem put_put (name : Text) (value value' : ν) : (m.put name value).put name value' = m.put name value' := by
  induction m with
  | nil => simp [put]
  | cons entry m ih =>
    obtain ⟨n, v⟩ := entry
    by_cases h : n = name
    · simp [put, h]
    · simp [put, h, ih]

/-- A name that is there already stays in its place, whatever is written meanwhile. -/
theorem put_comm {name other : Text} (hmem : name ∈ m.names) (hne : other ≠ name) (value value' : ν) :
    (m.put other value').put name value = (m.put name value).put other value' := by
  induction m with
  | nil => cases hmem
  | cons entry m ih =>
    obtain ⟨n, v⟩ := entry
    by_cases hname : n = name
    · simp [put, hname, Ne.symm hne]
    · have hmem' : name ∈ names m := (List.mem_cons.1 hmem).resolve_left fun e => hname e.symm
      by_cases hother : n = other
      · simp [put, hother, hne]
      · simp [put, hname, hother, ih hmem']

theorem put_putAll {name : Text} (hmem : name ∈ m.names) (value : ν) {entries : List (Text × ν)}
    (hnew : name ∉ entries.map Prod.fst) : (m.putAll entries).put name value = (m.put name value).putAll entries := by
  induction entries generalizing m with
  | nil => rfl
  | cons entry entries ih =>
    obtain ⟨hne, hnew⟩ := not_or.1 (mt List.mem_cons.2 hnew)
    have hmem' : name ∈ (m.put entry.1 entry.2).names := by
      rw [names_put]
      split
      · exact hmem
      · exact List.mem_append_left _ hmem
    have hcomm := put_comm hmem (Ne.symm hne) value entry.2
    rw [putAll, List.foldl_cons, ← putAll, ih hmem' hnew, hcomm]
    rfl

theorem putAll_put (m : Mapping ν) {m' : Mapping ν} (hm' : m'.names.Nodup) (name : Text) (value : ν) :
    m.putAll (m'.put name value) = (m.putAll m').put name value := by
  induction m' generalizing m with
  | nil => rfl
  | cons entry m' ih =>
    obtain ⟨n, v⟩ := entry
    obtain ⟨hnew, hm'⟩ := List.nodup_cons.1 hm'
    by_cases hn : n = name
    · subst hn
      have hmem : n ∈ (m.put n v).names := mem_names_iff.2 (by rw [get?_put_self, Option.isSome_some])
      simp only [put, if_true, putAll, List.foldl_cons]
      rw [← putAll, ← putAll, put_putAll hmem value hnew, put_put]
    · simp only [put, if_neg hn, putAll, List.foldl_cons]
      exact ih (m.put n v) hm'

theorem putAll_putAll (m : Mapping ν) {m' : Mapping ν} (hm' : m'.names.Nodup) (entries : List (Text × ν)) :
    m.putAll (m'.putAll entries) = (m.putAll m').putAll entries := by
  induction entries generalizing m' with
  | nil => rfl
  | cons entry entries ih =>
    refine (ih (nodup_names_put hm' entry.1 entry.2)).trans ?_
    rw [putAll_put m hm']
    rfl

/-- Entries that come in a mapping of their own count like the entries that describe it. -/
theorem putAll_ofEntries (m : Mapping ν) (entries : List (Text × ν)) :
    m.putAll (ofEntries entries) = m.putAll entries := by
  have hempty : (names ([] : Mapping ν)).Nodup := List.nodup_nil
  exact putAll_putAll m hempty entries

/-- Entries and then more entries. -/
theorem putAll_append (m : Mapping ν) (entries others : List (Text × ν)) :
    m.putAll (entries ++ others) = (m.putAll entries).putAll others := List.foldl_append

end TemplateExpressions.Mapping
