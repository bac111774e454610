import TemplateExpressions.Proofs.Engine.Nested
import TemplateExpressions.Proofs.Text.Pieces

/-!
# Paths as they are written

A route is writable if its text says what its base and its segments are (`Route.IsWritable`). In a path it
stands between bars, with any blanks around it (`Spaced`); reading such a stretch gives the route
(`Spaced.read_write`), whatever colons its segments hold (`Spaced.hasPrefix_write`). Main statement: the
alternatives of a path come back as they were written, and what a path was compiled to is written as its
text without the blanks around its stretches (`written_paths_come_back`).
-/

set_option autoImplicit false

namespace TemplateExpressions

open Text

/-! ## Writable routes -/

/-- A segment whose text stands for it: a text without slashes and bars that does not look like a variable,
or a variable. -/
inductive Segment.IsWritable : Segment → Prop
  | fixed {t : Text} : '/' ∉ t → '|' ∉ t → (∀ n, isName n = true → t ≠ '?' :: n) →
      IsWritable (.fixed t)
  | dynamic {n : Text} : isName n = true → IsWritable (.dynamic n)

/-- The last segment does not end in a blank; a variable never does. -/
def Route.EndsUnblank (r : Route) : Prop :=
  ∀ t, r.segments.getLast? = some (.fixed t) → ∀ c, t.getLast? = some c → isBlank c = false

/-- A route whose text stands for it: from a base name over writable segments, without a blank at the end. -/
structure Route.IsWritable (r : Route) : Prop where
  base : isName r.base = true
  segments : ∀ s ∈ r.segments, s.IsWritable
  last : r.EndsUnblank

namespace Segment

variable {s : Segment}

theorem read_of_forall_ne {t : Text} (h : ∀ n, isName n = true → t ≠ '?' :: n) :
    read t = .fixed t := by
  unfold read
  split
  · rename_i n
    rw [if_neg fun hn => h n hn rfl]
  · rfl

theorem IsWritable.read_write (h : s.IsWritable) : read s.write = s := by
  cases h with
  | fixed _ _ ht => exact read_of_forall_ne ht
  | dynamic hn => exact if_pos hn

theorem IsWritable.separator_notMem (h : s.IsWritable) {separator : Char}
    (hseparator : separator = '/' ∨ separator = '|') : separator ∉ s.write := by
  cases h with
  | fixed hslash hbar _ =>
    rcases hseparator with rfl | rfl
    · exact hslash
    · exact hbar
  | @dynamic n hn =>
    rcases hseparator with rfl | rfl
    · exact List.not_mem_cons_of_ne_of_not_mem (by decide) (notMem_of_isName hn (by decide))
    · exact List.not_mem_cons_of_ne_of_not_mem (by decide) (notMem_of_isName hn (by decide))

/-- What is read from a text without slashes and bars is writable. -/
theorem isWritable_read {t : Text} (hslash : '/' ∉ t) (hbar : '|' ∉ t) : (read t).IsWritable := by
  unfold read
  split
  · rename_i n
    split
    · rename_i hn
      exact .dynamic hn
    · rename_i hn
      refine .fixed hslash hbar fun m hm heq => hn ?_
      cases heq
      exact hm
  · rename_i hnot
    exact .fixed hslash hbar fun m _ heq => hnot m heq

end Segment

namespace Text

theorem isNamePart_of_mem {n : Text} (h : isName n = true) {c : Char} (hc : c ∈ n) :
    isNamePart c = true := by
  cases hpart : isNamePart c with
  | true => rfl
  | false => exact absurd hc (notMem_of_isName h hpart)

/-- A name does not end in a blank. -/
theorem isBlank_getLast?_of_isName {n : Text} (h : isName n = true) {c : Char}
    (hc : n.getLast? = some c) : isBlank c = false :=
  isBlank_eq_false_of_isNamePart (isNamePart_of_mem h (List.mem_of_getLast? hc))

end Text

namespace Route

variable {r : Route}

theorem IsWritable.separator_notMem (h : r.IsWritable) {separator : Char}
    (hseparator : separator = '/' ∨ separator = '|') :
    ∀ t ∈ r.base :: r.segments.map Segment.write, separator ∉ t := by
  refine List.forall_mem_cons.2 ⟨?_, List.forall_mem_map.2 fun s hs => ?_⟩
  · rcases hseparator with rfl | rfl
    · exact notMem_of_isName h.base (by decide)
    · exact notMem_of_isName h.base (by decide)
  · exact (h.segments s hs).separator_notMem hseparator

/-- The slashes of a written route are those between its parts. -/
theorem IsWritable.pieces_write (h : r.IsWritable) :
    pieces '/' r.write = r.base :: r.segments.map Segment.write :=
  pieces_joinWith (List.cons_ne_nil _ _) (h.separator_notMem (.inl rfl))

theorem IsWritable.map_read (h : r.IsWritable) :
    (r.segments.map Segment.write).map Segment.read = r.segments := by
  rw [List.map_map]
  exact (List.map_congr_left fun s hs => (h.segments s hs).read_write).trans (List.map_id _)

theorem write_eq_append (r : Route) : r.write = r.base ++ r.segments.flatMap fun s => '/' :: s.write := by
  obtain ⟨base, segments⟩ := r
  unfold write
  induction segments generalizing base with
  | nil => exact (List.append_nil base).symm
  | cons s segments ih =>
    rw [List.map_cons, joinWith_cons_cons, ih s.write]
    simp

theorem IsWritable.bar_notMem (h : r.IsWritable) : '|' ∉ r.write := by
  rw [write_eq_append, List.mem_append, List.mem_flatMap, not_or, not_exists]
  refine ⟨notMem_of_isName h.base (by decide), fun s hs => ?_⟩
  obtain ⟨hs, hbar⟩ := hs
  rcases List.mem_cons.1 hbar with hbar | hbar
  · exact absurd hbar (by decide)
  · exact (h.segments s hs).separator_notMem (.inr rfl) hbar

/-- A written route starts with a letter. -/
theorem IsWritable.isBlank_head? (h : r.IsWritable) {c : Char} (hc : r.write.head? = some c) :
    isBlank c = false := by
  obtain ⟨⟨_ | ⟨d, base⟩, segments⟩, hbase, -⟩ := r, h
  · cases hbase
  · rw [write_eq_append] at hc
    cases hc
    simp only [isName, Bool.and_eq_true] at hbase
    exact isBlank_eq_false_of_isAlpha hbase.1

/-- A written route does not end in a blank. -/
theorem IsWritable.isBlank_getLast? (h : r.IsWritable) {c : Char} (hc : r.write.getLast? = some c) :
    isBlank c = false := by
  obtain ⟨base, segments⟩ := r
  rcases List.eq_nil_or_concat segments with rfl | ⟨front, last, rfl⟩
  · exact isBlank_getLast?_of_isName h.base hc
  · rw [List.concat_eq_append] at h hc
    -- the last character is that of the last segment, or the slash before an empty one
    have hwrite : (⟨base, front ++ [last]⟩ : Route).write =
        joinWith ['/'] ((base :: front.map Segment.write) ++ [last.write]) := by
      simp [write]
    rw [hwrite] at hc
    rcases getLast?_joinWith hc with hlast | rfl
    · have hwritable := h.segments last (by simp)
      cases hwritable with
      | @fixed t _ _ _ => exact h.last t (by simp) c hlast
      | @dynamic n hn =>
        refine isBlank_getLast?_of_isName hn ?_
        cases n with
        | nil => cases hn
        | cons d n => rwa [Segment.write, List.getLast?_cons_cons] at hlast
    · decide

/-- What is read from a stretch without bars is writable. -/
theorem isWritable_of_read {source t : Text} {offset : Nat} (h : read source offset t = .ok r)
    (hbar : '|' ∉ t) : r.IsWritable := by
  have hwrite := write_of_read h
  unfold read at h
  split at h
  · cases h
  · rename_i base segments hpieces
    split at h
    · rename_i hbase
      cases h
      have hpiece : ∀ p ∈ pieces '/' (trim t), '/' ∉ p ∧ '|' ∉ p := fun p hp =>
        ⟨separator_notMem_of_mem_pieces '/' _ p hp,
          fun hmem => hbar (mem_of_mem_trim (mem_of_mem_pieces hp hmem))⟩
      refine ⟨hbase, List.forall_mem_map.2 fun p hp => ?_, fun text htext c hc => ?_⟩
      · obtain ⟨hslash, hbar⟩ := hpiece p (hpieces ▸ List.mem_cons_of_mem _ hp)
        exact Segment.isWritable_read hslash hbar
      · -- the route ends as its last segment does, and the trimmed stretch does not end in a blank
        refine isBlank_getLast?_trim (t := t) ?_
        obtain ⟨front, hfront⟩ := List.getLast?_eq_some_iff.1 htext
        rw [← hwrite, write, hfront, List.map_append, ← List.cons_append, List.map_singleton,
          joinWith_append_cons, joinWith, List.getLast?_append, Segment.write, hc]
        rfl
    · cases h

end Route

/-! ## Routes with blanks around them -/

/-- A route with the blanks that stand before and behind it in a path. -/
structure Spaced where
  before : Text
  route : Route
  after : Text

namespace Spaced

/-- The stretch of a path. -/
def write (s : Spaced) : Text := s.before ++ s.route.write ++ s.after

/-- A writable route with nothing but blanks around it. -/
structure IsWritable (s : Spaced) : Prop where
  before : ∀ c ∈ s.before, isBlank c = true
  route : s.route.IsWritable
  after : ∀ c ∈ s.after, isBlank c = true

variable {s : Spaced} (h : s.IsWritable)

include h

theorem trim_write : trim s.write = s.route.write :=
  trim_surrounded h.before h.after (fun _ hc => h.route.isBlank_head? hc)
    fun _ hc => h.route.isBlank_getLast? hc

/-- Reading a stretch gives the route that was written. -/
theorem read_write (source : Text) (offset : Nat) : Route.read source offset s.write = .ok s.route := by
  unfold Route.read
  rw [trim_write h, h.route.pieces_write]
  simp only [h.route.base, if_true, h.route.map_read]

theorem bar_notMem : '|' ∉ s.write := by
  have hblank : isBlank '|' = false := by decide
  simp only [write, List.mem_append, not_or]
  refine ⟨⟨fun hbar => ?_, h.route.bar_notMem⟩, fun hbar => ?_⟩
  · exact absurd (h.before _ hbar) (by simp [hblank])
  · exact absurd (h.after _ hbar) (by simp [hblank])

/-- The base name is followed by a slash, a blank or nothing, so no colon makes it a prefix. -/
theorem hasPrefix_write : hasPrefix (trimStart s.write) = false := by
  have hstart : trimStart s.write = s.route.write ++ s.after := by
    rw [write, List.append_assoc, trimStart_append_of_forall h.before]
    refine trimStart_eq_self fun c hc => ?_
    cases hroute : s.route.write with
    | nil =>
      have hbase := h.route.base
      rw [Route.write_eq_append, List.append_eq_nil_iff] at hroute
      rw [hroute.1] at hbase
      cases hbase
    | cons d t =>
      rw [hroute] at hc
      exact h.route.isBlank_head? (by rw [hroute]; exact hc)
  rw [hasPrefix, hstart, Route.write_eq_append, List.append_assoc,
    splitPrefix_append_eq_none h.route.base]
  · rfl
  · intro c hc
    cases hsegments : s.route.segments with
    | cons segment segments =>
      rw [hsegments] at hc
      cases hc
      decide
    | nil =>
      rw [hsegments] at hc
      have hblank := h.after c (List.mem_of_mem_head? hc)
      refine ⟨?_, ?_⟩
      · cases hpart : isNamePart c with
        | false => rfl
        | true =>
          rw [isBlank_eq_false_of_isNamePart hpart] at hblank
          cases hblank
      · rintro rfl
        exact absurd hblank (by decide)

end Spaced

/-! ## Paths -/

theorem compileAlternatives_write (compile : Compiler) (source : Text) (offset : Nat)
    {stretches : List Spaced} (h : ∀ s ∈ stretches, s.IsWritable) :
    compileAlternatives compile source offset (stretches.map Spaced.write) =
      .ok (stretches.map fun s => .route s.route) := by
  induction stretches generalizing offset with
  | nil => rfl
  | cons s stretches ih =>
    obtain ⟨hs, hothers⟩ := List.forall_mem_cons.1 h
    rw [List.map_cons, compileAlternatives, Spaced.hasPrefix_write hs, Spaced.read_write hs,
      ih _ hothers]
    rfl

/-- A path that is written compiles to what was written. -/
theorem compilePath_write (compile : Compiler) (traversal : Traversal) (typeName : Text)
    {stretches : List Spaced} (hne : stretches ≠ []) (h : ∀ s ∈ stretches, s.IsWritable) :
    compilePath compile traversal typeName (joinWith ['|'] (stretches.map Spaced.write)) =
      .ok (.path ⟨typeName, joinWith ['|'] (stretches.map Spaced.write)⟩ traversal
        (stretches.map fun s => .route s.route)) := by
  have hpieces : pieces '|' (joinWith ['|'] (stretches.map Spaced.write)) =
      stretches.map Spaced.write := by
    refine pieces_joinWith (by simpa using hne) (List.forall_mem_map.2 fun s hs => ?_)
    exact Spaced.bar_notMem (h s hs)
  rw [compilePath, hpieces, compileAlternatives_write compile _ 0 h]
  rfl

/-- Routes alone come from stretches without a prefix, each read by itself. -/
theorem write_of_compileAlternatives {compile : Compiler} {source : Text} {offset : Nat}
    {stretches : List Text} {routes : List Route}
    (h : compileAlternatives compile source offset stretches = .ok (routes.map .route)) :
    routes.map Route.write = stretches.map trim := by
  induction stretches generalizing offset routes with
  | nil =>
    rw [compileAlternatives, Except.ok.injEq, eq_comm, List.map_eq_nil_iff] at h
    rw [h]
    rfl
  | cons stretch stretches ih =>
    rcases compileAlternatives_cases h with ⟨-, e, -, hroutes⟩ | ⟨-, r, others, hread, hothers, hroutes⟩
    · -- a nested expression is no route
      obtain ⟨r, others, -, hr, -⟩ := List.map_eq_cons_iff.1 hroutes
      cases hr
    · obtain ⟨r', routes, rfl, hr, rfl⟩ := List.map_eq_cons_iff.1 hroutes
      cases hr
      rw [List.map_cons, List.map_cons, Route.write_of_read hread, ih hothers]

/-- Routes that are written with bars between them, and with any blanks around each, compile to these
routes, with their bases and segments, and to nothing else. The other way round, if a path compiles to
routes alone, they are written with bars between them as the text is without the blanks around its
stretches. -/
theorem written_paths_come_back (compile : Compiler) (site? : Option Compiler) (traversal : Traversal)
    (typeName : Text) :
    (∀ stretches : List Spaced, stretches ≠ [] → (∀ s ∈ stretches, s.IsWritable) →
      (Factory.path traversal).build compile site? typeName (joinWith ['|'] (stretches.map Spaced.write)) =
        .ok (.path ⟨typeName, joinWith ['|'] (stretches.map Spaced.write)⟩ traversal
          (stretches.map fun s => .route s.route))) ∧
    ∀ (text : Text) (heading : Heading) (traversal' : Traversal) (routes : List Route),
      (Factory.path traversal).build compile site? typeName text =
          .ok (.path heading traversal' (routes.map .route)) →
        joinWith ['|'] (routes.map Route.write) = joinWith ['|'] ((pieces '|' text).map trim) := by
  refine ⟨fun stretches hne h => compilePath_write compile traversal typeName hne h,
    fun text heading traversal' routes h => ?_⟩
  obtain ⟨alternatives, halternatives, hpath⟩ := compilePath_eq_ok h
  cases hpath
  rw [write_of_compileAlternatives halternatives]

/-- A path with colons, empty segments and question marks, and with blanks around its bars. -/
def spacedStretches : List Spaced :=
  [⟨[' '], ⟨['a'], [.fixed "b:c".toList, .dynamic ['x'], .fixed []]⟩, ['\u3000']⟩,
   ⟨['\t'], ⟨"CONTEXTS".toList, [.fixed " q".toList, .fixed "?1".toList, .fixed "path:z".toList]⟩, []⟩]

theorem isWritable_spacedStretches : ∀ s ∈ spacedStretches, s.IsWritable := by
  have hfixed : ∀ {t : Text}, '/' ∉ t → '|' ∉ t → t.head? ≠ some '?' → (Segment.fixed t).IsWritable :=
    fun hslash hbar hmark => .fixed hslash hbar fun n _ heq => hmark (by rw [heq]; rfl)
  have hblank : ∀ {c : Char}, isBlank c = true → ∀ d ∈ [c], isBlank d = true :=
    fun hc => List.forall_mem_singleton.2 hc
  refine List.forall_mem_cons.2 ⟨⟨hblank (by decide), ⟨by decide, ?_, ?_⟩, hblank (by decide)⟩,
    List.forall_mem_singleton.2 ⟨hblank (by decide), ⟨by decide, ?_, ?_⟩, by simp⟩⟩
  · simp only [List.forall_mem_cons]
    exact ⟨hfixed (by decide) (by decide) (by decide), .dynamic (by decide),
      hfixed (by decide) (by decide) (by decide), by simp⟩
  · intro t ht c hc
    cases ht
    cases hc
  · simp only [List.forall_mem_cons]
    refine ⟨hfixed (by decide) (by decide) (by decide), .fixed (by decide) (by decide) ?_,
      hfixed (by decide) (by decide) (by decide), by simp⟩
    intro n hn heq
    cases heq
    revert hn
    decide
  · intro t ht c hc
    cases ht
    cases hc
    decide

theorem spacedStretches_come_back :
    (∀ s ∈ spacedStretches, s.IsWritable) ∧
      joinWith ['|'] (spacedStretches.map Spaced.write) = " a/b:c/?x/\u3000|\tCONTEXTS/ q/?1/path:z".toList ∧
      (Factory.path .plain).build Engine.standard.compile none "path".toList
          " a/b:c/?x/\u3000|\tCONTEXTS/ q/?1/path:z".toList =
        .ok (.path ⟨"path".toList, " a/b:c/?x/\u3000|\tCONTEXTS/ q/?1/path:z".toList⟩ .plain
          [.route ⟨['a'], [.fixed "b:c".toList, .dynamic ['x'], .fixed []]⟩,
           .route ⟨"CONTEXTS".toList,
             [.fixed " q".toList, .fixed "?1".toList, .fixed "path:z".toList]⟩]) ∧
      joinWith ['|'] ((pieces '|' " a/b:c/?x/\u3000|\tCONTEXTS/ q/?1/path:z".toList).map trim) =
        "a/b:c/?x/|CONTEXTS/ q/?1/path:z".toList := by
  obtain ⟨hforth, hback⟩ :=
    written_paths_come_back Engine.standard.compile none .plain "path".toList
  have hcompile := hforth spacedStretches (by decide) isWritable_spacedStretches
  have hwrite := hback _ _ _ (spacedStretches.map Spaced.route) hcompile
  exact ⟨isWritable_spacedStretches, by decide, hcompile, hwrite.symm⟩

end TemplateExpressions
