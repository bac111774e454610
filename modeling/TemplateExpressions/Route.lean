import TemplateExpressions.Error
import TemplateExpressions.Expression
import TemplateExpressions.Text.Name

/-!
# Routes

A route is written as a base name and segments with slashes between them; a segment `?name` stands
for the value of a variable. `Route.write` writes a route, `Route.read` reads one from a stretch of
a path, which may have blanks around it.
-/

set_option autoImplicit false

namespace TemplateExpressions

/-- The base name that stands for the roots of the context. -/
def contextsBase : Text := "CONTEXTS".toList

namespace Segment

/-- The text of a segment. -/
def write : Segment → Text
  | .fixed text => text
  | .dynamic name => '?' :: name

/-- The segment that a text denotes: a question mark and a name are a variable, all else stands for
itself. -/
def read : Text → Segment
  | '?' :: name => if Text.isName name then .dynamic name else .fixed ('?' :: name)
  | text => .fixed text

theorem write_read (t : Text) : (read t).write = t := by
  unfold read
  split
  · split <;> rfl
  · rfl

end Segment

namespace Route

/-- The text of a route. -/
def write (r : Route) : Text := Text.joinWith ['/'] (r.base :: r.segments.map Segment.write)

/-- Reads a route from the stretch `t` of a source text that starts at byte `offset`. -/
def read (source : Text) (offset : Nat) (t : Text) : Except CompileError Route :=
  match Text.pieces '/' (Text.trim t) with
  | [] => .error ⟨.invalidVariable [], source, ⟨offset, 0⟩⟩
  | base :: segments =>
    if Text.isName base then .ok ⟨base, segments.map Segment.read⟩
    else
      let lead := Text.bytes t - Text.bytes (Text.trimStart t)
      .error ⟨.invalidVariable base, source, ⟨offset + lead, Text.bytes base⟩⟩

/-- A route that is read is written as the stretch without the blanks around it. -/
theorem write_of_read {source t : Text} {offset : Nat} {r : Route}
    (h : read source offset t = .ok r) : r.write = Text.trim t := by
  unfold read at h
  split at h
  · simp at h
  · rename_i base segments hp
    split at h
    · simp only [Except.ok.injEq] at h
      subst h
      have hm : (segments.map Segment.read).map Segment.write = segments := by
        rw [List.map_map]
        exact (List.map_congr_left fun t _ => Segment.write_read t).trans (List.map_id _)
      simp only [write, hm]
      rw [← hp, Text.joinWith_pieces]
    · simp at h

end Route
end TemplateExpressions
