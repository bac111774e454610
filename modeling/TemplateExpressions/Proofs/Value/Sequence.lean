import TemplateExpressions.Proofs.Mapping
import TemplateExpressions.Proofs.Number.Decimal
import TemplateExpressions.Value.Access

/-!
# Length, elements and items of a sequence

The length, the elements and the items of a value are found by functions of their own. What they have to agree on
is `SequenceView` for lists and texts, which are indexed by integers of 64 bits, and `MappingView` for mappings,
which are indexed by their keys. Index arithmetic in 64 bits is `machineItem?`; it neither overflows nor leaves
the sequence (`machineItem?_eq`). Main statement: in every list, text and mapping they agree
(`sequences_have_one_view`).
-/

set_option autoImplicit false

namespace TemplateExpressions.Value

open Number

variable {live : Live}

/-! ## Indices -/

section Indices

variable {key : Text} {k : Int64} {n : Nat}

theorem readInteger?_of_denotes (h : Denotes key k.toInt) : readInteger? key = some k.toInt :=
  readInteger?_eq_some_iff.2 ⟨k, rfl, h⟩

/-- An index counts from the start of a sequence, or from its end. -/
theorem resolveIndex_of_lt (h : Denotes key k.toInt) {i : Nat} (hi : i < n)
    (hk : k.toInt = i ∨ k.toInt = i - n) : resolveIndex key n = .ok i := by
  have hplace : (if k.toInt < 0 then k.toInt + n else k.toInt) = i := by
    split <;> omega
  rw [resolveIndex, readInteger?_of_denotes h]
  dsimp only
  rw [hplace, if_pos ⟨by omega, by omega⟩, Int.toNat_natCast]

/-- An index outside of a sequence. -/
theorem resolveIndex_of_not_lt (h : Denotes key k.toInt) (hk : k.toInt < -n ∨ n ≤ k.toInt) :
    resolveIndex key n = .error (.indexOutOfRange k.toInt n) := by
  rw [resolveIndex, readInteger?_of_denotes h]
  dsimp only
  rw [if_neg]
  split <;> omega

/-- What denotes no integer of 64 bits is no index. -/
theorem resolveIndex_of_not_denotes (h : ∀ k : Int64, ¬ Denotes key k.toInt) :
    resolveIndex key n =
      .error (.typeMismatch ("sequence indices must be integers, not \"".toList ++ key ++ ['"'])) := by
  rw [resolveIndex, readInteger?_eq_none_iff.2 h]

/-- An integer is an index of a sequence, from the start or from the end, or it lies outside. -/
theorem index_cases (k : Int64) (n : Nat) :
    (∃ i : Nat, i < n ∧ (k.toInt = i ∨ k.toInt = i - n)) ∨ k.toInt < -n ∨ n ≤ k.toInt := by
  by_cases hout : k.toInt < -n ∨ n ≤ k.toInt
  · exact .inr hout
  · refine .inl ⟨(if k.toInt < 0 then k.toInt + n else k.toInt).toNat, ?_⟩
    split <;> omega

end Indices

section Elements

variable {α : Type} {items : List α} {key : Text} {k : Int64}

theorem elementAt_of_lt (h : Denotes key k.toInt) {i : Nat} (hi : i < items.length)
    (hk : k.toInt = i ∨ k.toInt = i - items.length) : elementAt items key = .ok items[i] := by
  simp [elementAt, resolveIndex_of_lt h hi hk, hi]

theorem elementAt_of_not_lt (h : Denotes key k.toInt) (hk : k.toInt < -items.length ∨ items.length ≤ k.toInt) :
    elementAt items key = .error (.indexOutOfRange k.toInt items.length) := by
  rw [elementAt, resolveIndex_of_not_lt h hk]

theorem elementAt_of_not_denotes (h : ∀ k : Int64, ¬ Denotes key k.toInt) :
    elementAt items key =
      .error (.typeMismatch ("sequence indices must be integers, not \"".toList ++ key ++ ['"'])) := by
  rw [elementAt, resolveIndex_of_not_denotes h]

/-- To look up an element and to change it is to look it up among the changed ones. -/
theorem elementAt_map {β : Type} (f : α → β) (items : List α) (key : Text) :
    elementAt (items.map f) key = (elementAt items key).map f := by
  unfold elementAt
  rw [List.length_map]
  cases resolveIndex key items.length with
  | error e => rfl
  | ok place =>
    dsimp only
    rw [List.getElem?_map]
    cases items[place]? <;> rfl

/-! ## Indices in 64 bits -/

/-- The sum of two integers of 64 bits, unless it overflows. -/
def checkedAdd (a b : Int64) : Option Int64 := if fitsInt64 (a.toInt + b.toInt) then some (a + b) else none

/-- The element of an index, with all arithmetic in 64 bits. There is no answer if a sum overflows or if a place
outside of the elements is read. -/
def machineItem? (items : List α) (k : Int64) : Option (Except EvalError α) :=
  let length := Int64.ofNat items.length
  (if k < 0 then checkedAdd k length else some k).bind fun place =>
    if 0 ≤ place ∧ place < length then items[place.toInt.toNat]?.map .ok
    else some (.error (.indexOutOfRange k.toInt items.length))

theorem checkedAdd_eq_some {a b : Int64} (h : fitsInt64 (a.toInt + b.toInt) = true) :
    ∃ c, checkedAdd a b = some c ∧ c.toInt = a.toInt + b.toInt := by
  obtain ⟨k, hk⟩ := fitsInt64_iff.1 h
  refine ⟨a + b, if_pos h, ?_⟩
  rw [Int64.toInt_add, hk]
  exact k.toInt_bmod_size

/-- In a sequence whose length is an integer of 64 bits, no index makes the arithmetic overflow or reads a place
outside. -/
theorem machineItem?_eq (hlength : items.length < twoTo 63) (h : Denotes key k.toInt) :
    machineItem? items k = some (elementAt items key) := by
  have hlow := k.le_toInt
  have hn : (Int64.ofNat items.length).toInt = items.length := Int64.toInt_ofNat_of_lt hlength
  obtain ⟨place, hplace, hvalue⟩ :
      ∃ place, (if k < 0 then checkedAdd k (Int64.ofNat items.length) else some k) = some place ∧
        place.toInt = if k.toInt < 0 then k.toInt + items.length else k.toInt := by
    have hneg : k < 0 ↔ k.toInt < 0 := Int64.lt_iff_toInt_lt
    by_cases hk : k < 0
    · rw [if_pos hk, if_pos (hneg.1 hk), ← hn]
      refine checkedAdd_eq_some ?_
      have hk' := hneg.1 hk
      have hlimit : twoTo 63 = 9223372036854775808 := rfl
      rw [fitsInt64, Bool.and_eq_true, decide_eq_true_eq, decide_eq_true_eq, hn, hlimit]
      omega
    · rw [if_neg hk, if_neg (mt hneg.2 hk)]
      exact ⟨k, rfl, rfl⟩
  have hinside : (0 ≤ place ∧ place < Int64.ofNat items.length) ↔
      0 ≤ place.toInt ∧ place.toInt < items.length := by
    rw [Int64.le_iff_toInt_le, Int64.lt_iff_toInt_lt, hn]
    rfl
  simp only [machineItem?, hplace, Option.bind_some]
  rcases index_cases k items.length with ⟨i, hi, hk⟩ | hk
  · have hi' : place.toInt = i := by
      rw [hvalue]
      split <;> omega
    rw [if_pos (hinside.2 (by omega)), elementAt_of_lt h hi hk, hi', Int.toNat_natCast,
      List.getElem?_eq_getElem hi]
    rfl
  · have hout : ¬ (0 ≤ place.toInt ∧ place.toInt < items.length) := by
      rw [hvalue]
      split <;> omega
    rw [if_neg (mt hinside.1 hout), elementAt_of_not_lt h hk]

end Elements

/-! ## Views -/

/-- Length, elements, items and truth of a value that is a sequence of items. -/
structure SequenceView (live : Live) (v : Value) (items : List Value) : Prop where
  length : v.length? live = some items.length
  elements : v.elements live = .ok items
  /-- Items are counted from zero, or from the end by negative integers. -/
  item : ∀ (key : Text) (k : Int64), Denotes key k.toInt → ∀ (i : Nat) (h : i < items.length),
    k.toInt = i ∨ k.toInt = i - items.length → v.item live key = .ok items[i]
  /-- Every other integer of 64 bits lies outside. -/
  outside : ∀ (key : Text) (k : Int64), Denotes key k.toInt →
    k.toInt < -items.length ∨ items.length ≤ k.toInt →
    v.item live key = .error (.indexOutOfRange k.toInt items.length)
  /-- Nothing else is an index. -/
  noIndex : ∀ key : Text, (∀ k : Int64, ¬ Denotes key k.toInt) → v.item live key =
    .error (.typeMismatch ("sequence indices must be integers, not \"".toList ++ key ++ ['"']))
  /-- Arithmetic in 64 bits comes to the same, and never overflows nor reads a place outside. -/
  machine : items.length < twoTo 63 → ∀ (key : Text) (k : Int64), Denotes key k.toInt →
    machineItem? items k = some (v.item live key)
  truth : v.isTruthy live = true ↔ items ≠ []

/-- Length, elements, items and truth of a value with keys. -/
structure MappingView (live : Live) (v : Value) (keys : List Text) : Prop where
  distinct : keys.Nodup
  length : v.length? live = some keys.length
  elements : v.elements live = .ok (keys.map .text)
  item : ∀ key : Text, (∃ value, v.item live key = .ok value) ↔ key ∈ keys
  noKey : ∀ key : Text, key ∉ keys → v.item live key = .error (.keyNotFound key)
  truth : v.isTruthy live = true ↔ keys ≠ []

/-- The view of a value that looks its items up in a list. -/
theorem SequenceView.of_item {v : Value} {items : List Value} (hlength : v.length? live = some items.length)
    (helements : v.elements live = .ok items) (hitem : ∀ key, v.item live key = elementAt items key)
    (htruth : v.isTruthy live = true ↔ items ≠ []) : SequenceView live v items where
  length := hlength
  elements := helements
  item key _ h _ hi hk := (hitem key).trans (elementAt_of_lt h hi hk)
  outside key _ h hk := (hitem key).trans (elementAt_of_not_lt h hk)
  noIndex key h := (hitem key).trans (elementAt_of_not_denotes h)
  machine hn key _ h := hitem key ▸ machineItem?_eq hn h
  truth := htruth

theorem sequenceView_list (items : List Value) : SequenceView live (.list items) items :=
  .of_item rfl rfl (fun _ => rfl) (by simp [isTruthy])

/-- A text is a sequence of its characters. -/
theorem sequenceView_text (t : Text) : SequenceView live (.text t) (t.map fun c => .text [c]) :=
  .of_item (by rw [List.length_map]; rfl) rfl (fun key => (elementAt_map _ t key).symm) (by simp [isTruthy])

/-- A mapping is a sequence of its keys, in the order in which they first came in. -/
theorem mappingView_map (entries : List (Text × Value)) :
    MappingView live (.map (Mapping.ofEntries entries)) (entries.map Prod.fst).eraseDups := by
  rw [← Mapping.names_ofEntries]
  refine ⟨Mapping.nodup_names_ofEntries entries, ?_, ?_, fun key => ?_, fun key hkey => ?_, ?_⟩
  · rw [Mapping.names, List.length_map]
    rfl
  · rw [Mapping.names, List.map_map]
    rfl
  · rw [Mapping.mem_names_iff, item]
    cases Mapping.get? (Mapping.ofEntries entries) key <;> simp
  · have hnone := Option.not_isSome_iff_eq_none.1 (mt Mapping.mem_names_iff.2 hkey)
    rw [item, hnone]
  · simp [isTruthy, Mapping.names]

/-- Length, elements, items and truth of a list, a text and a mapping are those of one sequence. -/
theorem sequences_have_one_view (live : Live) :
    (∀ items, SequenceView live (.list items) items) ∧
      (∀ t : Text, SequenceView live (.text t) (t.map fun c => .text [c])) ∧
      ∀ entries, MappingView live (.map (Mapping.ofEntries entries)) (entries.map Prod.fst).eraseDups :=
  ⟨sequenceView_list, sequenceView_text, mappingView_map⟩

example (live : Live) (v w : Value) : (Value.list [v, w]).item live "-02".toList = .ok v := rfl

end TemplateExpressions.Value
