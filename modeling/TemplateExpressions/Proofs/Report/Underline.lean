import Mathlib.Algebra.GroupWithZero.Nat
import TemplateExpressions.Report
import TemplateExpressions.Proofs.Report.Places
import TemplateExpressions.Proofs.Text.Bytes

/-!
# What a report underlines

A report points at a stretch of its source if it says where the stretch starts, by line and column, and
marks its characters and no others, and shows the label below (`PointsAt`). It does so for the stretch
between its offsets, whatever characters the source is made of (`pointsAt_of_offsets`). But the offsets
that it is given are counted in bytes. Main statement: they are those of the text to blame exactly if
every character up to the end of that text takes one byte, and then the report points at it
(`reports_point_at_what_is_blamed`).
-/

set_option autoImplicit false

namespace TemplateExpressions.Report

open Text

namespace Snippet

/-! ## Rows -/

/-- Characters in one colour, from a column on. -/
def painted (colour : Nat) : Nat → Text → Row
  | _, [] => []
  | column, c :: t => character colour column c ++ painted colour (column + 1) t

/-- The cells of so many columns of a text, from one on. -/
def cellsOf (t : Text) (column count : Nat) : Nat :=
  ((List.range' column count).map (cellsAt t)).sum

/-- A mark below a character. -/
def IsMark (stretch : Stretch) : Prop :=
  stretch = tinted marked ['─'] ∨ stretch = tinted marked ['┬']

/-- The row that says where the stretch to blame starts, and the bar below it. -/
def placeRows (width number column : Nat) : List Row :=
  [[plain (List.replicate (width + 2) ' '), tinted frame ['╭'], tinted frame ['─'], tinted frame ['['],
    plain (" <expression>:".toList ++ Number.natText number ++ ':' :: Number.natText column ++ [' ']),
    tinted frame [']']],
   [plain (List.replicate (width + 2) ' '), tinted frame ['│']]]

/-- The row of a line of which so many characters from a column on are to blame. -/
def lineRow (width number column count : Nat) (gutter : Row) (line : Text) : Row :=
  numbered width number ++ gutter ++ painted calm 0 ((trimEnd line).take column) ++
    painted marked column (((trimEnd line).drop column).take count) ++
    painted calm (column + count) ((trimEnd line).drop (column + count))

/-- The row below a line of which so many characters from a column on are to blame, with marks below
these. -/
def underlineRow (width column count : Nat) (marks : Row) (line : Text) : Row :=
  unnumbered width '│' ++ List.replicate (cellsOf (trimEnd line) 0 column) (plain [' ']) ++ marks ++
    List.replicate (cellsOf (trimEnd line) (column + count) 2) (plain [' '])

/-- The report says where the stretch to blame starts, which stands behind the given text, by line and
column, marks its characters apart from all others, and shows the label below. A stretch of one line is
underlined; of one that spans several, the first line and the last are shown. -/
inductive PointsAt (s : Snippet) (before blamed : Text) : Prop
  | inLine {earlier later : List Text} {pre post : Text} {width : Nat} {marks hanger : Row} :
    cutLines s.source = earlier ++ (pre ++ blamed ++ post) :: later → before = earlier.flatten ++ pre →
    (∀ stretch ∈ marks, IsMark stretch) →
    marks.length = cellsOf (trimEnd (pre ++ blamed ++ post)) pre.length blamed.length →
    placeRows width (earlier.length + 1) (pre.length + 1) ++
      [lineRow width (earlier.length + 1) pre.length blamed.length [] (pre ++ blamed ++ post),
       underlineRow width pre.length blamed.length marks (pre ++ blamed ++ post),
       hanger ++ [plain (' ' :: s.label)]] <:+: s.rows →
    PointsAt s before blamed
  | acrossLines {earlier middle later : List Text} {pre first final post : Text} {width : Nat}
      {bar hanger : Row} :
    cutLines s.source = earlier ++ (pre ++ first) :: (middle ++ (final ++ post) :: later) →
    before = earlier.flatten ++ pre → blamed = first ++ middle.flatten ++ final → first ≠ [] → final ≠ [] →
    placeRows width (earlier.length + 1) (pre.length + 1) ++
      lineRow width (earlier.length + 1) pre.length first.length (bracket '╭') (pre ++ first) ::
      (if middle = [] then [] else [leftOut width]) ++
      [lineRow width (earlier.length + middle.length + 2) 0 final.length (bracket '├') (final ++ post),
       bar, hanger ++ [plain (' ' :: s.label)]] <:+: s.rows →
    PointsAt s before blamed

/-! ## Colours -/

section Colours

variable {s : Snippet} {offset : Nat}

theorem covers_iff : s.covers offset = true ↔ s.start ≤ offset ∧ offset < s.stop := by
  simp [covers]

theorem characters_eq_take_drop (column n : Nat) (t : Text) :
    s.characters offset column t =
      s.characters offset column (t.take n) ++ s.characters offset (column + n) (t.drop n) := by
  induction t generalizing column n with
  | nil => simp [characters]
  | cons c t ih =>
    cases n with
    | zero => simp [characters]
    | succ n =>
      have hcolumn : column + (n + 1) = column + 1 + n := by omega
      rw [List.take_succ_cons, List.drop_succ_cons, characters, characters, ih (column + 1) n, hcolumn,
        List.append_assoc]

theorem characters_eq_painted {colour column : Nat} {t : Text}
    (h : ∀ i < t.length, (if s.covers (offset + (column + i)) then marked else calm) = colour) :
    s.characters offset column t = painted colour column t := by
  induction t generalizing column with
  | nil => rfl
  | cons c t ih =>
    have hfirst := h 0 (by simp)
    rw [Nat.add_zero] at hfirst
    rw [characters, painted, hfirst, ih fun i hi => ?_]
    have hi' : i + 1 < (c :: t).length := by simpa using hi
    have hnext := h (i + 1) hi'
    rwa [Nat.add_comm i 1, ← Nat.add_assoc column] at hnext

/-- A line is in the colour of what is to blame in the columns that are covered. -/
theorem sourceText_eq {l : Line} {column count : Nat} (h : ∀ i < l.shown.length,
      s.covers (l.offset + i) = true ↔ column ≤ i ∧ i < column + count) :
    s.sourceText l = painted calm 0 (l.shown.take column) ++
      painted marked column ((l.shown.drop column).take count) ++
      painted calm (column + count) (l.shown.drop (column + count)) := by
  have hcalm : ∀ i < l.shown.length, ¬ (column ≤ i ∧ i < column + count) →
      (if s.covers (l.offset + i) then marked else calm) = calm :=
    fun i hi hout => if_neg fun hcovers => hout ((h i hi).1 hcovers)
  have hmarked : ∀ i < l.shown.length, column ≤ i ∧ i < column + count →
      (if s.covers (l.offset + i) then marked else calm) = marked :=
    fun i hi hin => if_pos ((h i hi).2 hin)
  rw [sourceText, characters_eq_take_drop 0 column, Nat.zero_add,
    characters_eq_take_drop column count (l.shown.drop column), List.drop_drop, ← List.append_assoc]
  congr 1
  · congr 1
    · refine characters_eq_painted fun i hi => ?_
      rw [List.length_take] at hi
      rw [Nat.zero_add]
      exact hcalm i (by omega) (by omega)
    · refine characters_eq_painted fun i hi => ?_
      rw [List.length_take, List.length_drop] at hi
      exact hmarked (column + i) (by omega) (by omega)
  · refine characters_eq_painted fun i hi => ?_
    rw [List.length_drop] at hi
    exact hcalm (column + count + i) (by omega) (by omega)

end Colours

/-! ## Marks -/

section Marks

variable {t : Text} {column : Nat} {head tail : Stretch}

theorem length_mark : (mark t column head tail).length = cellsAt t column := by
  unfold mark
  split
  · rename_i h
    simp [h]
  · rename_i cells h
    simp [h]

theorem mem_mark {stretch : Stretch} (h : stretch ∈ mark t column head tail) :
    stretch = head ∨ stretch = tail := by
  unfold mark at h
  split at h
  · cases h
  · rcases List.mem_cons.1 h with h | h
    · exact .inl h
    · exact .inr (List.eq_of_mem_replicate h)

theorem mark_same : mark t column head head = List.replicate (cellsAt t column) head := by
  refine List.eq_replicate_iff.2 ⟨length_mark, fun stretch h => ?_⟩
  rcases mem_mark h with h | h <;> exact h

/-- What stands below a column of a line. -/
def below (s : Snippet) (l : Line) (column : Nat) : Row :=
  if column = s.hook l then
    if s.covers (l.offset + column) then mark l.shown column (tinted marked ['┬']) (tinted marked ['─'])
    else mark l.shown column (tinted marked ['│']) (tinted marked [' '])
  else if s.covers (l.offset + column) then
    mark l.shown column (tinted marked ['─']) (tinted marked ['─'])
  else mark l.shown column (plain [' ']) (plain [' '])

theorem below_of_covers {s : Snippet} {l : Line} (h : s.covers (l.offset + column) = true) :
    (s.below l column).length = cellsAt l.shown column ∧
      ∀ stretch ∈ s.below l column, IsMark stretch := by
  unfold below
  rw [if_pos h, if_pos h]
  split
  · exact ⟨length_mark, fun stretch hstretch => (mem_mark hstretch).symm⟩
  · refine ⟨length_mark, fun stretch hstretch => .inl ?_⟩
    rcases mem_mark hstretch with hstretch | hstretch <;> exact hstretch

theorem below_of_not_covers {s : Snippet} {l : Line} (h : ¬ s.covers (l.offset + column) = true)
    (hhook : column ≠ s.hook l) :
    s.below l column = List.replicate (cellsAt l.shown column) (plain [' ']) := by
  rw [below, if_neg hhook, if_neg h, mark_same]

theorem flatMap_eq_replicate {f : Nat → Row} {count : Nat} {stretch : Stretch}
    (h : ∀ k, column ≤ k → k < column + count → f k = List.replicate (cellsAt t k) stretch) :
    (List.range' column count).flatMap f = List.replicate (cellsOf t column count) stretch := by
  have hrow : ∀ k ∈ List.range' column count, f k = List.replicate (cellsAt t k) stretch := by
    intro k hk
    obtain ⟨hlow, hhigh⟩ := List.mem_range'_1.1 hk
    exact h k hlow hhigh
  have hcells : cellsOf t column count =
      ((List.range' column count).map fun k => (f k).length).sum := by
    refine congrArg List.sum (List.map_congr_left fun k hk => ?_)
    rw [hrow k hk, List.length_replicate]
  refine List.eq_replicate_iff.2 ⟨by rw [List.length_flatMap, hcells], fun x hx => ?_⟩
  obtain ⟨k, hk, hx⟩ := List.mem_flatMap.1 hx
  rw [hrow k hk] at hx
  exact List.eq_of_mem_replicate hx

/-- The marks below a line are below the columns of the stretch, and below nothing else. -/
theorem underline_eq {s : Snippet} {l : Line} {count : Nat} (hcount : 0 < count)
    (hstart : s.start = l.offset + column) (hstop : s.stop = l.offset + (column + count)) :
    ∃ marks : Row, (∀ stretch ∈ marks, IsMark stretch) ∧ marks.length = cellsOf l.shown column count ∧
      s.underline l = List.replicate (cellsOf l.shown 0 column) (plain [' ']) ++ marks ++
        List.replicate (cellsOf l.shown (column + count) 2) (plain [' ']) := by
  have hcovers : ∀ k, s.covers (l.offset + k) = true ↔ column ≤ k ∧ k < column + count := by
    intro k
    rw [covers_iff, hstart, hstop]
    omega
  -- the label hangs from a column in the middle of the stretch
  have hblank : ∀ k, ¬ (column ≤ k ∧ k < column + count) →
      s.below l k = List.replicate (cellsAt l.shown k) (plain [' ']) := by
    intro k hk
    refine below_of_not_covers (fun h => hk ((hcovers k).1 h)) ?_
    unfold hook
    omega
  have hbefore : (List.range' 0 column).flatMap (s.below l) =
      List.replicate (cellsOf l.shown 0 column) (plain [' ']) :=
    flatMap_eq_replicate fun k hlow hhigh => hblank k (by omega)
  have hbehind : (List.range' (column + count) 2).flatMap (s.below l) =
      List.replicate (cellsOf l.shown (column + count) 2) (plain [' ']) :=
    flatMap_eq_replicate fun k hlow hhigh => hblank k (by omega)
  have hmarks : ∀ k ∈ List.range' column count, (s.below l k).length = cellsAt l.shown k ∧
      ∀ stretch ∈ s.below l k, IsMark stretch :=
    fun k hk => below_of_covers ((hcovers k).2 (List.mem_range'_1.1 hk))
  refine ⟨(List.range' column count).flatMap (s.below l), fun stretch hstretch => ?_, ?_, ?_⟩
  · obtain ⟨k, hk, hstretch⟩ := List.mem_flatMap.1 hstretch
    exact (hmarks k hk).2 stretch hstretch
  · rw [List.length_flatMap]
    exact congrArg List.sum (List.map_congr_left fun k hk => (hmarks k hk).1)
  · have hreach : s.reach l = column + count + 2 := by
      unfold reach
      omega
    have hrange : List.range (s.reach l) =
        List.range' 0 column ++ List.range' column count ++ List.range' (column + count) 2 := by
      have hfront := List.range'_append_1 (s := 0) (m := column) (n := count)
      have hall := List.range'_append_1 (s := 0) (m := column + count) (n := 2)
      rw [Nat.zero_add] at hfront hall
      rw [hfront, hall, hreach, List.range_eq_range']
    show (List.range (s.reach l)).flatMap (s.below l) = _
    rw [hrange, List.flatMap_append, List.flatMap_append, hbefore, hbehind]

end Marks

/-! ## Reports -/

section Reports

variable {s : Snippet} {first final : Line}

theorem lineRow_eq {l : Line} {column count : Nat} (h : ∀ i < l.shown.length,
      s.covers (l.offset + i) = true ↔ column ≤ i ∧ i < column + count) (width : Nat) (gutter : Row) :
    numbered width l.number ++ gutter ++ s.sourceText l =
      lineRow width l.number column count gutter l.chars := by
  rw [sourceText_eq h, lineRow]
  simp only [Line.shown, List.append_assoc]

theorem singleLine_eq {l : Line} {column count : Nat} (hcount : 0 < count)
    (hstart : s.start = l.offset + column) (hstop : s.stop = l.offset + (column + count))
    (hwhole : column + count ≤ l.chars.length) (width : Nat) :
    ∃ marks hanger : Row, (∀ stretch ∈ marks, IsMark stretch) ∧
      marks.length = cellsOf (trimEnd l.chars) column count ∧
      s.singleLine width l = [lineRow width l.number column count [] l.chars,
        underlineRow width column count marks l.chars, hanger ++ [plain (' ' :: s.label)]] := by
  have hinside : ¬ l.stop < s.stop := by
    unfold Line.stop
    omega
  have hcovers : ∀ i < l.shown.length,
      s.covers (l.offset + i) = true ↔ column ≤ i ∧ i < column + count := by
    intro i _
    rw [covers_iff]
    omega
  obtain ⟨marks, hmarks, hcells, hunderline⟩ := underline_eq hcount hstart hstop
  refine ⟨marks, unnumbered width '│' ++ s.lead l, hmarks, hcells, ?_⟩
  have hline := lineRow_eq hcovers width []
  rw [List.append_nil] at hline
  rw [singleLine, if_neg hinside, hline, hunderline]
  simp only [underlineRow, Line.shown, List.append_assoc]

theorem severalLines_eq (first final : Line) {column count : Nat} (hcount : 0 < count)
    (hstart : s.start = first.offset + column) (hstop : s.stop = final.offset + count)
    (horder : first.offset + first.chars.length ≤ final.offset) (hcolumn : column ≤ first.chars.length)
    (hwhole : count ≤ final.chars.length) (width : Nat) :
    ∃ bar hanger : Row, s.severalLines width first final =
      lineRow width first.number column (first.chars.length - column) (bracket '╭') first.chars ::
        (if first.number + 1 < final.number then [leftOut width] else []) ++
        [lineRow width final.number 0 count (bracket '├') final.chars, bar,
         hanger ++ [plain (' ' :: s.label)]] := by
  have hshown : ∀ l : Line, l.shown.length ≤ l.chars.length := by
    intro l
    have := (List.dropWhile_suffix (l := l.chars.reverse) isBlank).length_le
    simpa [Line.shown, trimEnd] using this
  have hfirst : ∀ i < first.shown.length, s.covers (first.offset + i) = true ↔
      column ≤ i ∧ i < column + (first.chars.length - column) := by
    intro i hi
    have := hshown first
    rw [covers_iff]
    omega
  have hfinal : ∀ i < final.shown.length, s.covers (final.offset + i) = true ↔ 0 ≤ i ∧ i < 0 + count := by
    intro i _
    rw [covers_iff]
    omega
  have hlast : s.last < final.stop := by
    have hnonempty : s.start < s.stop := by omega
    rw [last, if_pos hnonempty, Line.stop]
    omega
  unfold severalLines
  dsimp only
  rw [if_pos hlast, lineRow_eq hfirst, lineRow_eq hfinal]
  exact ⟨_, _, rfl⟩

/-- The rows of a report on a stretch that lies in the source. -/
theorem infix_rows (hfirst : lineAt? s.source s.start = some first)
    (hfinal : lineAt? s.source s.last = some final) :
    placeRows (Number.natText final.number).length first.number (s.start - first.offset + 1) ++
        (if first.number = final.number then s.singleLine (Number.natText final.number).length first
          else s.severalLines (Number.natText final.number).length first final) <:+: s.rows := by
  unfold rows
  rw [hfirst, hfinal]
  simp only [beq_iff_eq]
  -- the rows of the stretch stand behind the heading and before advice and notes
  refine List.IsInfix.trans ?_ (List.prefix_append _ _).isInfix
  refine List.IsInfix.trans ?_ (List.prefix_append _ _).isInfix
  refine List.IsInfix.trans ?_ (List.prefix_append _ _).isInfix
  exact (List.suffix_cons s.heading _).isInfix

theorem pointsAt_inLine {earlier later : List Text} {pre blamed post : Text}
    (hlines : cutLines s.source = earlier ++ (pre ++ blamed ++ post) :: later) (hblamed : blamed ≠ [])
    (hstart : s.start = earlier.flatten.length + pre.length)
    (hstop : s.stop = earlier.flatten.length + (pre.length + blamed.length)) :
    s.PointsAt (earlier.flatten ++ pre) blamed := by
  have hcount := List.length_pos_iff.2 hblamed
  have hwhole : pre.length + blamed.length ≤ (pre ++ blamed ++ post).length := by
    simp only [List.length_append]
    omega
  have hlast : s.last = earlier.flatten.length + (pre.length + blamed.length - 1) := by
    have hnonempty : s.start < s.stop := by omega
    rw [last, if_pos hnonempty]
    omega
  have hcolumn : pre.length < (pre ++ blamed ++ post).length := by omega
  have hcolumn' : pre.length + blamed.length - 1 < (pre ++ blamed ++ post).length := by omega
  have hfirst := lineAt?_eq hlines hcolumn
  have hfinal := lineAt?_eq hlines hcolumn'
  rw [← hstart] at hfirst
  rw [← hlast] at hfinal
  have hrows := infix_rows hfirst hfinal
  obtain ⟨marks, hanger, hmarks, hcells, hsingle⟩ := singleLine_eq (l := ⟨earlier.length + 1,
    earlier.flatten.length, pre ++ blamed ++ post⟩) hcount hstart hstop hwhole
    (Number.natText (earlier.length + 1)).length
  have hplace : s.start - earlier.flatten.length = pre.length := by omega
  rw [if_pos rfl, hsingle, hplace] at hrows
  exact .inLine hlines rfl hmarks hcells hrows

theorem pointsAt_acrossLines {earlier middle later : List Text} {pre head tail post : Text}
    (hlines : cutLines s.source = earlier ++ (pre ++ head) :: (middle ++ (tail ++ post) :: later))
    (hhead : head ≠ []) (htail : tail ≠ [])
    (hstart : s.start = earlier.flatten.length + pre.length)
    (hstop : s.stop = earlier.flatten.length + (pre.length + (head ++ middle.flatten ++ tail).length)) :
    s.PointsAt (earlier.flatten ++ pre) (head ++ middle.flatten ++ tail) := by
  have hcount := List.length_pos_iff.2 htail
  have hhead' := List.length_pos_iff.2 hhead
  have hlines' : cutLines s.source =
      (earlier ++ (pre ++ head) :: middle) ++ (tail ++ post) :: later := by
    simpa using hlines
  have hoffset : (earlier ++ (pre ++ head) :: middle).flatten.length =
      earlier.flatten.length + (pre.length + (head.length + middle.flatten.length)) := by
    simp only [List.flatten_append, List.flatten_cons, List.length_append, Nat.add_assoc]
  have hnumber : (earlier ++ (pre ++ head) :: middle).length + 1 = earlier.length + middle.length + 2 := by
    simp only [List.length_append, List.length_cons]
    omega
  have hlength : (head ++ middle.flatten ++ tail).length =
      head.length + middle.flatten.length + tail.length := by
    simp only [List.length_append]
  have hpre : (pre ++ head).length = pre.length + head.length := List.length_append
  have hpost : (tail ++ post).length = tail.length + post.length := List.length_append
  have hlast : s.last = (earlier ++ (pre ++ head) :: middle).flatten.length + (tail.length - 1) := by
    have hnonempty : s.start < s.stop := by omega
    rw [last, if_pos hnonempty]
    omega
  have hcolumn : pre.length < (pre ++ head).length := by omega
  have hcolumn' : tail.length - 1 < (tail ++ post).length := by omega
  have hfirst := lineAt?_eq hlines hcolumn
  have hfinal := lineAt?_eq hlines' hcolumn'
  rw [← hstart] at hfirst
  rw [← hlast, hnumber] at hfinal
  have hrows := infix_rows hfirst hfinal
  have hbehind : s.stop = (earlier ++ (pre ++ head) :: middle).flatten.length + tail.length := by omega
  have horder : earlier.flatten.length + (pre ++ head).length ≤
      (earlier ++ (pre ++ head) :: middle).flatten.length := by omega
  have hwhole : tail.length ≤ (tail ++ post).length := by omega
  obtain ⟨bar, hanger, hseveral⟩ := severalLines_eq
    ⟨earlier.length + 1, earlier.flatten.length, pre ++ head⟩
    ⟨earlier.length + middle.length + 2, (earlier ++ (pre ++ head) :: middle).flatten.length, tail ++ post⟩
    hcount hstart hbehind horder (Nat.le_of_lt hcolumn) hwhole
    (Number.natText (earlier.length + middle.length + 2)).length
  have hplace : s.start - earlier.flatten.length = pre.length := by omega
  have hdifferent : ¬ earlier.length + 1 = earlier.length + middle.length + 2 := by omega
  have hrest : (pre ++ head).length - pre.length = head.length := by omega
  have hmiddle : ∀ row : Row, (if earlier.length + 1 + 1 < earlier.length + middle.length + 2 then [row]
      else []) = if middle = [] then [] else [row] := by
    intro row
    cases middle with
    | nil => simp
    | cons line middle =>
      rw [if_neg (List.cons_ne_nil line middle), List.length_cons, if_pos (by omega)]
  rw [if_neg hdifferent, hseveral, hplace, hrest, hmiddle] at hrows
  exact .acrossLines hlines rfl rfl hhead htail hrows

/-- A report points at the stretch between its offsets. -/
theorem pointsAt_of_offsets {before blamed after : Text} (hsource : s.source = before ++ blamed ++ after)
    (hblamed : blamed ≠ []) (hstart : s.start = before.length)
    (hstop : s.stop = (before ++ blamed).length) : s.PointsAt before blamed := by
  have hcut : (cutLines s.source).flatten = before ++ (blamed ++ after) := by
    rw [flatten_cutLines, hsource, List.append_assoc]
  obtain ⟨earlier, pre, post, later, hlines, rfl, hrest, hpost⟩ :=
    exists_line_of_append hcut (by simp [hblamed])
  rw [List.length_append] at hstart
  rw [List.length_append, List.length_append, Nat.add_assoc] at hstop
  rcases List.append_eq_append_iff.1 hrest with ⟨behind, rfl, -⟩ | ⟨more, rfl, hlater⟩
  · rw [← List.append_assoc] at hlines
    exact pointsAt_inLine hlines hblamed hstart hstop
  · by_cases hmore : more = []
    · subst hmore
      rw [List.append_nil] at hblamed hstop ⊢
      have hlines' : cutLines s.source = earlier ++ (pre ++ post ++ []) :: later := by simpa using hlines
      exact pointsAt_inLine hlines' hblamed hstart hstop
    · obtain ⟨middle, tail, behind, later', rfl, rfl, -, htail⟩ :=
        exists_line_of_append_last hlater hmore
      rw [← List.append_assoc] at hstop ⊢
      exact pointsAt_acrossLines hlines hpost htail hstart hstop

theorem PointsAt.exists_label {before blamed : Text} (h : s.PointsAt before blamed) :
    ∃ row ∈ s.rows, row.getLast? = some (plain (' ' :: s.label)) := by
  cases h with
  | @inLine _ _ _ _ _ _ hanger _ _ _ _ hrows =>
    exact ⟨hanger ++ [plain (' ' :: s.label)], hrows.subset (by simp), by simp⟩
  | @acrossLines _ _ _ _ _ _ _ _ _ hanger _ _ _ _ _ hrows =>
    exact ⟨hanger ++ [plain (' ' :: s.label)], hrows.subset (by simp), by simp⟩

end Reports

end Snippet

/-! ## Failures -/

/-- The report of a failure is laid out by a snippet, and has to point at a stretch of text: for a text that
could not be compiled the stretch that the span takes up in bytes, and otherwise all of the expression. -/
inductive Blames : Failure → Snippet → Text → Text → Prop
  | compilation (cause : CompileCause) (before blamed after : Text) :
    Blames (.compilation ⟨cause, before ++ blamed ++ after, ⟨bytes before, bytes blamed⟩⟩)
      (ofCompileError ⟨cause, before ++ blamed ++ after, ⟨bytes before, bytes blamed⟩⟩) before blamed
  | evaluation (info : ErrorInfo) (expression : Text) :
    Blames (.evaluation info expression) (ofErrorInfo info expression) [] expression

variable {failure : Failure} {s : Snippet} {before blamed : Text}

/-- The offsets of a report are counted in bytes. -/
theorem Blames.offsets (h : Blames failure s before blamed) :
    (∃ after, s.source = before ++ blamed ++ after) ∧ s.start = bytes before ∧
      s.stop = bytes before + bytes blamed := by
  cases h with
  | compilation cause _ _ after =>
    refine ⟨⟨after, rfl⟩, ?_, ?_⟩
    · show min (bytes before) (bytes (before ++ blamed ++ after)) = _
      simp only [bytes_append]
      omega
    · show min (bytes before + bytes blamed) (bytes (before ++ blamed ++ after)) = _
      simp only [bytes_append]
      omega
  | evaluation info _ => exact ⟨⟨[], by simp [ofErrorInfo]⟩, rfl, by simp [ofErrorInfo, bytes]⟩

/-- A report marks the characters at its offsets. These are the characters to blame exactly if none of
them and none before them takes more than one byte. Then the report says by line and column where they
start, marks them and no others, and shows its label below them. -/
theorem reports_point_at_what_is_blamed (h : Blames failure s before blamed) (hblamed : blamed ≠ []) :
    (∀ coloured, failure.report coloured = s.write coloured) ∧
      ((∀ offset, s.covers offset = true ↔
          before.length ≤ offset ∧ offset < (before ++ blamed).length) ↔
        bytes (before ++ blamed) = (before ++ blamed).length) ∧
      (bytes (before ++ blamed) = (before ++ blamed).length → s.PointsAt before blamed) := by
  obtain ⟨⟨after, hsource⟩, hstart, hstop⟩ := h.offsets
  have hbefore := length_le_bytes before
  have hblamed' := length_le_bytes blamed
  have hpositive := List.length_pos_iff.2 hblamed
  rw [bytes_append, List.length_append]
  refine ⟨?_, ⟨fun hcovers => ?_, fun hbytes offset => ?_⟩, fun hbytes => ?_⟩
  · cases h <;> exact fun coloured => rfl
  · have hfirst := Snippet.covers_iff.1 ((hcovers before.length).2 (by omega))
    by_cases hbehind : before.length + blamed.length < s.stop
    · have hcovered := Snippet.covers_iff.2 (⟨by omega, hbehind⟩ :
        s.start ≤ before.length + blamed.length ∧ before.length + blamed.length < s.stop)
      have := (hcovers _).1 hcovered
      omega
    · omega
  · rw [Snippet.covers_iff]
    omega
  · refine Snippet.pointsAt_of_offsets hsource hblamed (by omega) ?_
    rw [List.length_append]
    omega

/-- A name that is no name stands before a letter of two bytes, which is not to blame; an expression
spans two lines. -/
theorem reports_point_at_ascii :
    (ofCompileError ⟨.invalidVariable "1b".toList, "a|1b/é".toList, ⟨2, 2⟩⟩).PointsAt "a|".toList
        "1b".toList ∧
      (ofErrorInfo ⟨.nameNotFound ['x'], ⟨none, none⟩, none⟩ "x |\n  y".toList).PointsAt []
        "x |\n  y".toList := by
  constructor
  · have h : Blames _ (ofCompileError ⟨.invalidVariable "1b".toList, "a|1b/é".toList, ⟨2, 2⟩⟩)
        "a|".toList "1b".toList :=
      .compilation (.invalidVariable "1b".toList) "a|".toList "1b".toList "/é".toList
    exact (reports_point_at_what_is_blamed h (by decide)).2.2 (by decide)
  · exact (reports_point_at_what_is_blamed (.evaluation _ _) (by decide)).2.2 (by decide)

/-- The expression has three characters and four bytes: no label is shown. -/
theorem report_misses_accent :
    Blames (.evaluation ⟨.nameNotFound ['q'], ⟨none, none⟩, none⟩ "é/x".toList)
        (ofErrorInfo ⟨.nameNotFound ['q'], ⟨none, none⟩, none⟩ "é/x".toList) [] "é/x".toList ∧
      ¬ (ofErrorInfo ⟨.nameNotFound ['q'], ⟨none, none⟩, none⟩ "é/x".toList).PointsAt []
        "é/x".toList := by
  refine ⟨.evaluation _ _, fun h => ?_⟩
  obtain ⟨row, hrow, hlabel⟩ := h.exists_label
  have hnone : ∀ row ∈ (ofErrorInfo ⟨.nameNotFound ['q'], ⟨none, none⟩, none⟩ "é/x".toList).rows,
      row.getLast? ≠ some (plain (' ' :: "while evaluating this expression".toList)) := by
    decide +kernel
  exact hnone row hrow hlabel

end TemplateExpressions.Report
