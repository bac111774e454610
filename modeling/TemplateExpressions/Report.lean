import TemplateExpressions.Error.Wording
import TemplateExpressions.Report.Ink
import TemplateExpressions.Report.Lines

/-!
# Reports of failures

A failure is reported with the text it arose in. The stretch to blame is underlined where it lies in
one line, and bracketed where it spans several; advice and notes follow. The offsets of the stretch
are taken as character offsets, and a stretch that does not lie in the text leaves only the heading.
-/

set_option autoImplicit false

namespace TemplateExpressions.Report

/-- A failure, ready to be laid out. -/
structure Snippet where
  code : Text
  message : Text
  source : Text
  /-- The offset of the first character to blame. -/
  start : Nat
  /-- The offset behind the last character to blame. -/
  stop : Nat
  label : Text
  help : Option Text
  note : Option Text

namespace Snippet

/-- The colour of frames and line numbers. -/
def frame : Nat := 246

/-- The colour of frames beside rows that are not of the source. -/
def faint : Nat := 240

/-- The colour of source text that is not to blame. -/
def calm : Nat := 249

/-- The colour of what is to blame. -/
def marked : Nat := 155

/-- The colour of the words before advice and notes. -/
def advice : Nat := 115

/-- Whether an offset is to blame. -/
def covers (s : Snippet) (offset : Nat) : Bool := s.start ≤ offset && offset < s.stop

/-- The offset of the last character to blame, or of the place if there is none. -/
def last (s : Snippet) : Nat := if s.start < s.stop then s.stop - 1 else s.start

/-- The left margin of a line of the source. -/
def numbered (width number : Nat) : Row :=
  let digits := Number.natText number
  [plain [' '],
   tinted frame (List.replicate (width - digits.length) ' ' ++ digits ++ " │".toList),
   plain [' ']]

/-- The left margin of any other row. -/
def unnumbered (width : Nat) (bar : Char) : Row :=
  [plain [' '], tinted faint (List.replicate (width + 1) ' ' ++ [bar]), plain [' ']]

/-- A character of the source, each of its cells apart if it is blank. -/
def character (colour column : Nat) (c : Char) : Row :=
  let (shown, cells) := shownAs c column
  if Text.isBlank c then List.replicate cells (tinted colour [shown]) else [tinted colour [shown]]

/-- The characters of a line of the source from a column on. -/
def characters (s : Snippet) (offset : Nat) : Nat → Text → Row
  | _, [] => []
  | column, c :: t =>
    character (if s.covers (offset + column) then marked else calm) column c ++
      characters s offset (column + 1) t

/-- A line of the source. -/
def sourceText (s : Snippet) (l : Line) : Row := s.characters l.offset 0 l.shown

/-- A mark over the cells of a column: one character, then another for the rest of the cells. -/
def mark (t : Text) (column : Nat) (head tail : Stretch) : Row :=
  match cellsAt t column with
  | 0 => []
  | cells + 1 => head :: List.replicate cells tail

/-- The column that the label hangs from. -/
def hook (s : Snippet) (l : Line) : Nat := (s.start + s.stop) / 2 - l.offset

/-- The columns that the rows under a line take up. -/
def reach (s : Snippet) (l : Line) : Nat := s.stop - l.offset + 2

/-- The row that underlines the characters to blame. -/
def underline (s : Snippet) (l : Line) : Row :=
  (List.range (s.reach l)).flatMap fun column =>
    let under := s.covers (l.offset + column)
    if column = s.hook l then
      if under then mark l.shown column (tinted marked ['┬']) (tinted marked ['─'])
      else mark l.shown column (tinted marked ['│']) (tinted marked [' '])
    else if under then mark l.shown column (tinted marked ['─']) (tinted marked ['─'])
    else mark l.shown column (plain [' ']) (plain [' '])

/-- The row that leads from the underlined characters to the label. -/
def lead (s : Snippet) (l : Line) : Row :=
  (List.range (s.reach l)).flatMap fun column =>
    if column = s.hook l then mark l.shown column (tinted marked ['╰']) (tinted marked ['─'])
    else if s.hook l < column then
      mark l.shown column (tinted marked ['─']) (tinted marked ['─'])
    else mark l.shown column (plain [' ']) (plain [' '])

/-- The rows of a stretch that lies in one line. -/
def singleLine (s : Snippet) (width : Nat) (l : Line) : List Row :=
  if l.stop < s.stop then [unnumbered width '│']
  else
    [numbered width l.number ++ s.sourceText l,
     unnumbered width '│' ++ s.underline l,
     unnumbered width '│' ++ s.lead l ++ [plain (' ' :: s.label)]]

/-- The bracket beside the first or the last line of a stretch that spans several. -/
def bracket (corner : Char) : Row := [corner, '─', '▶', ' '].map fun c => tinted marked [c]

/-- The row in place of lines that are left out. -/
def leftOut (width : Nat) : Row :=
  unnumbered width '┆' ++ [tinted marked ['┆'], plain "   ".toList]

/-- The rows of a stretch that spans several lines. Lines between the first and the last are left
out. -/
def severalLines (s : Snippet) (width : Nat) (first final : Line) : List Row :=
  let opening := [numbered width first.number ++ bracket '╭' ++ s.sourceText first]
  let middle := if first.number + 1 < final.number then [leftOut width] else []
  if s.last < final.stop then
    let cells := ((List.range (final.chars.length + 2)).map (cellsAt final.shown)).foldl (· + ·) 0
    opening ++ middle ++
      [numbered width final.number ++ bracket '├' ++ s.sourceText final,
       unnumbered width '│' ++ [tinted marked ['│'], plain (List.replicate (cells + 3) ' ')],
       unnumbered width '│' ++ tinted marked ['╰'] ::
         List.replicate (cells + 3) (tinted marked ['─']) ++ [plain (' ' :: s.label)]]
  else opening ++ [leftOut width]

/-- The left margin of advice and notes. Under lines with brackets beside them it leaves room for
the brackets; the bar goes on through that room if the stretch starts right behind the first line of
the source. -/
def margin (s : Snippet) (width : Nat) (first final : Line) : Row :=
  unnumbered width '│' ++
    if first.number = final.number then []
    else if first.number = 2 ∧ s.start = first.offset then
      [tinted marked ['│'], plain (List.replicate 3 ' ')]
    else [plain (List.replicate 4 ' ')]

/-- The rows of an advice or a note under its word; its further lines are indented. -/
def remark (margin : Row) (word : Text) (t : Text) : List Row :=
  let lines := Text.lines t
  [margin, margin ++ [tinted advice word, plain (": ".toList ++ lines.headD [])]] ++
    lines.tail.map fun line => margin ++ [plain (List.replicate 6 ' ' ++ line)]

/-- The first row: code and message. -/
def heading (s : Snippet) : Row :=
  [⟨some .red, '[' :: s.code ++ "] Error:".toList⟩, plain (' ' :: s.message)]

/-- The row that says where in the source the stretch starts. -/
def location (s : Snippet) (width : Nat) (first : Line) : Row :=
  [plain (List.replicate (width + 2) ' '), tinted frame ['╭'], tinted frame ['─'],
   tinted frame ['['],
   plain (" <expression>:".toList ++ Number.natText first.number ++ ':' ::
     Number.natText (s.start - first.offset + 1) ++ [' ']),
   tinted frame [']']]

/-- All rows. -/
def rows (s : Snippet) : List Row :=
  match lineAt? s.source s.start, lineAt? s.source s.last with
  | some first, some final =>
    let width := (Number.natText final.number).length
    let oneLine := first.number == final.number
    let margin := s.margin width first final
    [s.heading, s.location width first,
     [plain (List.replicate (width + 2) ' '), tinted frame ['│']]] ++
      (if oneLine then s.singleLine width first else s.severalLines width first final) ++
      (s.help.map (remark margin "Help".toList)).getD [] ++
      (s.note.map (remark margin "Note".toList)).getD [] ++
      [[tinted frame (List.replicate (width + 2) '─' ++ ['╯'])]]
  | _, _ => [s.heading]

/-- The report. -/
def write (coloured : Bool) (s : Snippet) : Text := s.rows.flatMap (writeRow coloured)

end Snippet

/-- The snippet of a text that could not be compiled. A stretch that reaches beyond the text is cut
to it. -/
def ofCompileError (e : CompileError) : Snippet :=
  let length := Text.bytes e.source
  { code := e.code, message := e.message, source := e.source, start := min e.span.start length,
    stop := min e.span.stop length, label := e.label, help := some e.help,
    note := none }

/-- The snippet of an evaluation that failed: all of the expression is to blame. -/
def ofErrorInfo (info : ErrorInfo) (expression : Text) : Snippet :=
  { code := info.error.code, message := info.error.message, source := expression, start := 0,
    stop := Text.bytes expression, label := "while evaluating this expression".toList,
    help := info.error.help?,
    note := if info.location.isEmpty then none
      else some (Text.joinWith ", ".toList info.location) }

end TemplateExpressions.Report

namespace TemplateExpressions

/-- The report of a failure. -/
def Failure.report (coloured : Bool) : Failure → Text
  | .compilation error => (Report.ofCompileError error).write coloured
  | .registration error => "Registration error: ".toList ++ error.message ++ ['\n']
  | .evaluation info expression => (Report.ofErrorInfo info expression).write coloured

end TemplateExpressions
