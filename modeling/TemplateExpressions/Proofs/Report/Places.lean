import TemplateExpressions.Report.Lines

/-!
# Places in lines

A source is its lines, one after the other (`flatten_cutLines`). So every place in it lies in one of them, so
many characters from its start (`exists_line_of_append`). Main statement: this is the line that is found for
the place, with its number and its offset (`lineAt?_eq`).
-/

set_option autoImplicit false

namespace TemplateExpressions.Report

/-! ## Lines and their places -/

/-- The lines of a text are all of it. -/
theorem flatten_cutLines (t : Text) : (cutLines t).flatten = t := by
  fun_induction cutLines t with
  | case1 => rfl
  | case2 t ih => rw [List.flatten_cons, ih]; rfl
  | case3 c t _ hc ih => rw [List.flatten_cons, ih]; rfl
  | case4 c hc d t first others _ hcut ih =>
    rw [hcut] at ih
    simp only [hcut, List.flatten_cons, List.cons_append] at ih ⊢
    rw [ih]
  | case5 c t _ hc hcut ih =>
    cases t with
    | nil => rfl
    | cons d t =>
      cases hlines : cutLines (d :: t) with
      | nil =>
        rw [hlines] at ih
        cases ih
      | cons first others => exact absurd hlines (hcut d t first others rfl)

/-- A place before the end of some lines lies in one of them. -/
theorem exists_line_of_append {lines : List Text} {before rest : Text}
    (h : lines.flatten = before ++ rest) (hrest : rest ≠ []) :
    ∃ earlier pre post later, lines = earlier ++ (pre ++ post) :: later ∧
      before = earlier.flatten ++ pre ∧ rest = post ++ later.flatten ∧ post ≠ [] := by
  induction lines generalizing before with
  | nil =>
    obtain ⟨-, rfl⟩ := List.append_eq_nil_iff.1 h.symm
    exact absurd rfl hrest
  | cons line lines ih =>
    -- the place is behind the line, or the rest of the line follows it
    have hlater : ∀ before', lines.flatten = before' ++ rest → before = line ++ before' →
        ∃ earlier pre post later, line :: lines = earlier ++ (pre ++ post) :: later ∧
          before = earlier.flatten ++ pre ∧ rest = post ++ later.flatten ∧ post ≠ [] := by
      rintro before' h' rfl
      obtain ⟨earlier, pre, post, later, rfl, rfl, hrest', hpost⟩ := ih h'
      exact ⟨line :: earlier, pre, post, later, rfl, by simp, hrest', hpost⟩
    rw [List.flatten_cons] at h
    rcases List.append_eq_append_iff.1 h with ⟨more, hbefore, hmore⟩ | ⟨post, hline, hpost⟩
    · exact hlater more hmore hbefore
    · by_cases hempty : post = []
      · subst hempty
        exact hlater [] (by simpa using hpost.symm) (by simpa using hline.symm)
      · exact ⟨[], before, post, lines, by rw [hline]; rfl, rfl, hpost, hempty⟩

/-- A character among some lines lies in one of them. -/
theorem exists_line_of_append_last {lines : List Text} {before rest : Text}
    (h : lines.flatten = before ++ rest) (hbefore : before ≠ []) :
    ∃ earlier pre post later, lines = earlier ++ (pre ++ post) :: later ∧
      before = earlier.flatten ++ pre ∧ rest = post ++ later.flatten ∧ pre ≠ [] := by
  rcases List.eq_nil_or_concat before with rfl | ⟨front, c, rfl⟩
  · exact absurd rfl hbefore
  · rw [List.concat_eq_append, List.append_assoc] at h
    obtain ⟨earlier, pre, post, later, hlines, hfront, hpost, hne⟩ :=
      exists_line_of_append h (List.cons_ne_nil c rest)
    obtain ⟨d, post, rfl⟩ := List.exists_cons_of_ne_nil hne
    obtain ⟨rfl, rfl⟩ := List.cons.inj hpost
    exact ⟨earlier, pre ++ [c], post, later, by simpa using hlines, by simp [hfront], rfl, by simp⟩

/-! ## Finding the line of a place -/

theorem placeLines_append (number offset : Nat) (lines others : List Text) :
    placeLines number offset (lines ++ others) = placeLines number offset lines ++
      placeLines (number + lines.length) (offset + lines.flatten.length) others := by
  induction lines generalizing number offset with
  | nil => rfl
  | cons line lines ih =>
    simp only [List.cons_append, placeLines, ih, List.length_cons, List.flatten_cons,
      List.length_append, Nat.add_assoc, Nat.add_comm 1]

theorem offset_of_mem_placeLines {number offset : Nat} {lines : List Text} {l : Line}
    (h : l ∈ placeLines number offset lines) :
    offset ≤ l.offset ∧ l.offset ≤ offset + lines.flatten.length := by
  induction lines generalizing number offset with
  | nil => cases h
  | cons line lines ih =>
    simp only [List.flatten_cons, List.length_append]
    rcases List.mem_cons.1 h with rfl | h
    · exact ⟨Nat.le_refl _, Nat.le_add_right _ _⟩
    · obtain ⟨hlow, hhigh⟩ := ih h
      omega

/-- The line of a place is the one that it lies in. -/
theorem lineAt?_eq {t line : Text} {earlier later : List Text}
    (h : cutLines t = earlier ++ line :: later) {column : Nat} (hcolumn : column < line.length) :
    lineAt? t (earlier.flatten.length + column) =
      some ⟨earlier.length + 1, earlier.flatten.length, line⟩ := by
  have hlength : t.length = earlier.flatten.length + (line.length + later.flatten.length) := by
    have hflatten := congrArg List.length (flatten_cutLines t)
    rw [h] at hflatten
    simpa using hflatten.symm
  have hlines : linesOf t = placeLines 1 0 earlier ++
      ⟨earlier.length + 1, earlier.flatten.length, line⟩ ::
        placeLines (earlier.length + 1 + 1) (earlier.flatten.length + line.length) later := by
    unfold linesOf
    rw [h]
    split
    · rename_i hnil
      simp at hnil
    · rw [placeLines_append, placeLines, Nat.add_comm 1, Nat.zero_add]
  have hearlier : (placeLines 1 0 earlier).filter
      (fun l => l.offset ≤ earlier.flatten.length + column) = placeLines 1 0 earlier := by
    refine List.filter_eq_self.2 fun l hl => decide_eq_true ?_
    have := (offset_of_mem_placeLines hl).2
    omega
  have hlater : (placeLines (earlier.length + 1 + 1) (earlier.flatten.length + line.length) later).filter
      (fun l => l.offset ≤ earlier.flatten.length + column) = [] := by
    refine List.filter_eq_nil_iff.2 fun l hl => ?_
    have := (offset_of_mem_placeLines hl).1
    rw [decide_eq_true_eq]
    omega
  have hinside : ¬ t.length < earlier.flatten.length + column := by omega
  rw [lineAt?, if_neg hinside, hlines, List.filter_append, List.filter_cons_of_pos (by simp), hearlier,
    hlater, List.getLast?_append]
  rfl

end TemplateExpressions.Report
