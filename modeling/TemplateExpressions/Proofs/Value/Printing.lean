import TemplateExpressions.Proofs.Number.Decimal
import TemplateExpressions.Proofs.Text.Quoting
import TemplateExpressions.Value.Display

/-!
# Printed values are unambiguous

The first character of a printed literal tells of which kind the literal is (`Value.Literal.exists_cons_write`), and
from then on everything in it tells where it ends: words and integers do so by what may stand behind them, texts
by their closing quote, lists and mappings by their closing bracket (`joinWith_append_injective`). Main
statements: a literal can be read off any text that starts with its printed form (`Value.Literal.readable`);
so literals that are printed alike inside a list are the same (`printed_lists_are_unambiguous`).
-/

set_option autoImplicit false

namespace TemplateExpressions

open Number

/-! ## Rows of printed things -/

namespace Text

section Rows

variable {α : Type} {print print' : α → Text} {P : α → Prop} {close : Char}

/-- A thing can be read off any text that starts with its printed form, if nothing behind that goes on like an
integer: no other thing with a property is printed so. -/
def Readable (print print' : α → Text) (P : α → Prop) (a : α) : Prop :=
  ∀ b, P b → ∀ r r' : Text, EndsInteger r → EndsInteger r' → print a ++ r = print' b ++ r' → a = b ∧ r = r'

/-- Behind each thing in a row stands a comma, or the closing character. -/
theorem endsInteger_rest (hclose : isNumeric close = false) (ps : List Text) (r : Text) :
    EndsInteger (ps.flatMap (", ".toList ++ ·) ++ close :: r) := by
  cases ps with
  | nil =>
    rintro c ⟨⟩
    exact hclose
  | cons p ps =>
    rintro c ⟨⟩
    rfl

/-- Things in a row behind commas are told apart if each of them can be read off. -/
theorem flatMap_append_injective (hclose : isNumeric close = false) (hcomma : close ≠ ',') {as bs : List α}
    (has : ∀ a ∈ as, Readable print print' P a) (hbs : ∀ b ∈ bs, P b) {r r' : Text}
    (h : (as.map print).flatMap (", ".toList ++ ·) ++ close :: r =
      (bs.map print').flatMap (", ".toList ++ ·) ++ close :: r') : as = bs ∧ r = r' := by
  induction as generalizing bs with
  | nil =>
    cases bs with
    | nil => exact ⟨rfl, (List.cons.inj h).2⟩
    | cons b bs => exact absurd (List.cons.inj h).1 hcomma
  | cons a as ih =>
    cases bs with
    | nil => exact absurd (List.cons.inj h).1.symm hcomma
    | cons b bs =>
      obtain ⟨ha, has⟩ := List.forall_mem_cons.1 has
      obtain ⟨hb, hothers⟩ := List.forall_mem_cons.1 hbs
      simp only [List.map_cons, List.flatMap_cons, List.append_assoc] at h
      obtain ⟨rfl, hrest⟩ := ha b hb _ _ (endsInteger_rest hclose _ _) (endsInteger_rest hclose _ _)
        (List.append_cancel_left h)
      obtain ⟨htails, hr⟩ := ih has hothers hrest
      exact ⟨congrArg (a :: ·) htails, hr⟩

/-- So are things in a row with commas between them, when none of them starts like the end of the row. -/
theorem joinWith_append_injective (hclose : isNumeric close = false) (hcomma : close ≠ ',') {as bs : List α}
    (hopen : ∀ a ∈ as, ∃ c rest, print a = c :: rest ∧ c ≠ close)
    (hopen' : ∀ b ∈ bs, ∃ c rest, print' b = c :: rest ∧ c ≠ close)
    (has : ∀ a ∈ as, Readable print print' P a) (hbs : ∀ b ∈ bs, P b) {r r' : Text}
    (h : joinWith ", ".toList (as.map print) ++ close :: r =
      joinWith ", ".toList (bs.map print') ++ close :: r') : as = bs ∧ r = r' := by
  cases as with
  | nil =>
    cases bs with
    | nil => exact ⟨rfl, (List.cons.inj h).2⟩
    | cons b bs =>
      obtain ⟨c, rest, hb, hc⟩ := hopen' b List.mem_cons_self
      rw [List.map_cons, joinWith_cons_eq_flatMap, hb] at h
      exact absurd (List.cons.inj h).1.symm hc
  | cons a as =>
    cases bs with
    | nil =>
      obtain ⟨c, rest, ha, hc⟩ := hopen a List.mem_cons_self
      rw [List.map_cons, joinWith_cons_eq_flatMap, ha] at h
      exact absurd (List.cons.inj h).1 hc
    | cons b bs =>
      obtain ⟨ha, has⟩ := List.forall_mem_cons.1 has
      obtain ⟨hb, hothers⟩ := List.forall_mem_cons.1 hbs
      simp only [List.map_cons, joinWith_cons_eq_flatMap, List.append_assoc] at h
      obtain ⟨rfl, hrest⟩ := ha b hb _ _ (endsInteger_rest hclose _ _) (endsInteger_rest hclose _ _) h
      obtain ⟨htails, hr⟩ := flatMap_append_injective hclose hcomma has hothers hrest
      exact ⟨congrArg (a :: ·) htails, hr⟩

end Rows

end Text

namespace Value

variable {live live' : Live}

/-! ## Literals -/

/-- A value made of null and default values, truth values, integers, texts, lists and mappings only. -/
inductive Literal : Value → Prop
  | nothing : Literal .nothing
  | default : Literal .default
  | bool (b : Bool) : Literal (.bool b)
  | int (i : Int64) : Literal (.int i)
  | text (t : Text) : Literal (.text t)
  | list {items : List Value} : (∀ item ∈ items, Literal item) → Literal (.list items)
  | map {entries : List (Text × Value)} : (∀ entry ∈ entries, Literal entry.2) → Literal (.map entries)

/-- The printed form of an entry of a mapping. -/
def writeEntry (live : Live) (entry : Text × Value) : Text :=
  Text.quote entry.1 ++ ": ".toList ++ write live true entry.2

theorem write_nothing : write live true .nothing = "nothing".toList := rfl

theorem write_default : write live true .default = "default".toList := rfl

theorem write_bool (b : Bool) : write live true (.bool b) = if b then "true".toList else "false".toList := rfl

theorem write_int (i : Int64) : write live true (.int i) = intText i.toInt := rfl

theorem write_text (t : Text) : write live true (.text t) = Text.quote t := rfl

/-- A list is printed alike whether or not texts are quoted. -/
theorem write_list (quoted : Bool) (items : List Value) :
    write live quoted (.list items) =
      '[' :: (Text.joinWith ", ".toList (items.map (write live true)) ++ [']']) := by
  have hitems : writeItems live items = items.map (write live true) := by
    induction items with
    | nil => rfl
    | cons item items ih => exact congrArg (write live true item :: ·) ih
  rw [← hitems]
  rfl

theorem write_map (entries : List (Text × Value)) :
    write live true (.map entries) =
      '\x7b' :: (Text.joinWith ", ".toList (entries.map (writeEntry live)) ++ ['\x7d']) := by
  have hentries : writeEntries live entries = entries.map (writeEntry live) := by
    induction entries with
    | nil => rfl
    | cons entry entries ih => exact congrArg (writeEntry live entry :: ·) ih
  rw [← hentries]
  rfl

/-- The kinds of literals. -/
inductive Kind where
  | nothing | default | bool | int | text | list | map

/-- The kind of a literal. -/
def kind? : Value → Option Kind
  | .nothing => some .nothing
  | .default => some .default
  | .bool _ => some .bool
  | .int _ => some .int
  | .text _ => some .text
  | .list _ => some .list
  | .map _ => some .map
  | _ => none

/-- The kind of literal that is printed with a first character. -/
def kindOf? : Char → Option Kind
  | 'n' => some .nothing
  | 'd' => some .default
  | 't' | 'f' => some .bool
  | '"' => some .text
  | '[' => some .list
  | '\x7b' => some .map
  | c => if isNumeric c then some .int else none

theorem kindOf?_of_isNumeric {c : Char} (h : isNumeric c = true) : kindOf? c = some .int := by
  unfold kindOf?
  split
  all_goals first | exact absurd h (by decide) | rw [if_pos h]

/-- The first character of a printed literal tells its kind. -/
theorem Literal.exists_cons_write {v : Value} (h : v.Literal) (live : Live) :
    ∃ c rest, write live true v = c :: rest ∧ kindOf? c = v.kind? ∧ c ≠ ']' := by
  cases h with
  | nothing => exact ⟨'n', "othing".toList, rfl, rfl, by decide⟩
  | default => exact ⟨'d', "efault".toList, rfl, rfl, by decide⟩
  | bool b =>
    cases b with
    | true => exact ⟨'t', "rue".toList, rfl, rfl, by decide⟩
    | false => exact ⟨'f', "alse".toList, rfl, rfl, by decide⟩
  | int i =>
    obtain ⟨c, rest, hi⟩ := List.exists_cons_of_ne_nil (intText_ne_nil i.toInt)
    have hc : isNumeric c = true := isNumeric_of_mem_intText (i := i.toInt) (by rw [hi]; exact List.mem_cons_self)
    refine ⟨c, rest, hi, kindOf?_of_isNumeric hc, ?_⟩
    rintro rfl
    exact absurd hc (by decide)
  | text t => exact ⟨'"', _, by rw [write_text, Text.quote, List.cons_append], rfl, by decide⟩
  | list _ => exact ⟨'[', _, write_list true _, rfl, by decide⟩
  | map _ => exact ⟨'\x7b', _, write_map _, rfl, by decide⟩

/-- No printed literal starts like the end of a list. -/
theorem Literal.exists_cons_write_ne {v : Value} (h : v.Literal) (live : Live) :
    ∃ c rest, write live true v = c :: rest ∧ c ≠ ']' := by
  obtain ⟨c, rest, hwrite, -, hne⟩ := h.exists_cons_write live
  exact ⟨c, rest, hwrite, hne⟩

/-! ## Reading a literal off a text -/

/-- The kind of a printed literal can be seen, so only literals of one kind are to be told apart. -/
theorem Literal.readable_of_kind {v : Value} (hv : v.Literal)
    (h : ∀ w : Value, w.Literal → v.kind? = w.kind? → ∀ r r' : Text, EndsInteger r → EndsInteger r' →
      write live true v ++ r = write live' true w ++ r' → v = w ∧ r = r') :
    Text.Readable (write live true) (write live' true) Literal v := by
  intro w hw r r' hr hr' heq
  obtain ⟨c, rest, hwrite, hkind, -⟩ := hv.exists_cons_write live
  obtain ⟨c', rest', hwrite', hkind', -⟩ := hw.exists_cons_write live'
  have hsame : c :: (rest ++ r) = c' :: (rest' ++ r') := by
    rw [← List.cons_append, ← List.cons_append, ← hwrite, ← hwrite', heq]
  obtain rfl : c = c' := (List.cons.inj hsame).1
  exact h w hw (hkind.symm.trans hkind') r r' hr hr' heq

/-- An entry of a mapping is told by its quoted key, then by the literal behind the colon. -/
theorem readable_writeEntry {entry : Text × Value}
    (h : Text.Readable (write live true) (write live' true) Literal entry.2) :
    Text.Readable (writeEntry live) (writeEntry live') (fun other => other.2.Literal) entry := by
  intro other hother r r' hr hr' heq
  simp only [writeEntry, List.append_assoc] at heq
  obtain ⟨hkey, hvalues⟩ := Text.quote_append_injective heq
  obtain ⟨hvalue, hrest⟩ := h other.2 hother r r' hr hr' (List.append_cancel_left hvalues)
  exact ⟨Prod.ext hkey hvalue, hrest⟩

/-- A literal can be read off any text that starts with its printed form. -/
theorem Literal.readable {v : Value} (hv : v.Literal) :
    Text.Readable (write live true) (write live' true) Literal v := by
  induction hv with
  | nothing =>
    refine Literal.nothing.readable_of_kind fun w hw hkind r r' _ _ h => ?_
    cases hw with
    | nothing =>
      rw [write_nothing, write_nothing] at h
      exact ⟨rfl, List.append_cancel_left h⟩
    | _ => cases hkind
  | default =>
    refine Literal.default.readable_of_kind fun w hw hkind r r' _ _ h => ?_
    cases hw with
    | default =>
      rw [write_default, write_default] at h
      exact ⟨rfl, List.append_cancel_left h⟩
    | _ => cases hkind
  | bool b =>
    refine (Literal.bool b).readable_of_kind fun w hw hkind r r' _ _ h => ?_
    cases hw with
    | bool b' =>
      cases b <;> cases b' <;> simp only [write_bool, Bool.false_eq_true, if_true, if_false] at h
      · exact ⟨rfl, List.append_cancel_left h⟩
      · exact absurd (List.cons.inj h).1 (by decide)
      · exact absurd (List.cons.inj h).1 (by decide)
      · exact ⟨rfl, List.append_cancel_left h⟩
    | _ => cases hkind
  | int i =>
    refine (Literal.int i).readable_of_kind fun w hw hkind r r' hr hr' h => ?_
    cases hw with
    | int j =>
      rw [write_int, write_int] at h
      obtain ⟨hij, hrest⟩ := intText_append_injective hr hr' h
      exact ⟨congrArg Value.int (Int64.toInt_inj.1 hij), hrest⟩
    | _ => cases hkind
  | text t =>
    refine (Literal.text t).readable_of_kind fun w hw hkind r r' _ _ h => ?_
    cases hw with
    | text t' =>
      rw [write_text, write_text] at h
      obtain ⟨rfl, hrest⟩ := Text.quote_append_injective h
      exact ⟨rfl, hrest⟩
    | _ => cases hkind
  | list hitems ih =>
    refine (Literal.list hitems).readable_of_kind fun w hw hkind r r' _ _ h => ?_
    cases hw with
    | list hitems' =>
      simp only [write_list, List.cons_append, List.append_assoc, List.cons.injEq, true_and, List.nil_append] at h
      obtain ⟨heq, hrest⟩ := Text.joinWith_append_injective (by decide) (by decide)
        (fun item hitem => (hitems item hitem).exists_cons_write_ne live)
        (fun item hitem => (hitems' item hitem).exists_cons_write_ne live') ih hitems' h
      exact ⟨congrArg Value.list heq, hrest⟩
    | _ => cases hkind
  | map hentries ih =>
    refine (Literal.map hentries).readable_of_kind fun w hw hkind r r' _ _ h => ?_
    cases hw with
    | map hentries' =>
      simp only [write_map, List.cons_append, List.append_assoc, List.cons.injEq, true_and, List.nil_append] at h
      obtain ⟨heq, hrest⟩ := Text.joinWith_append_injective (by decide) (by decide)
        (fun entry _ => ⟨'"', _, rfl, by decide⟩) (fun entry _ => ⟨'"', _, rfl, by decide⟩)
        (fun entry hentry => readable_writeEntry (ih entry hentry)) hentries' h
      exact ⟨congrArg Value.map heq, hrest⟩
    | _ => cases hkind

/-- Literals that are printed alike as the only element of a list are the same, whatever their texts are made of. -/
theorem printed_lists_are_unambiguous {v w : Value} (hv : v.Literal) (hw : w.Literal)
    (h : (Value.list [v]).display live = (Value.list [w]).display live') : v = w := by
  simp only [display, write_list, List.map_cons, List.map_nil, Text.joinWith, List.cons.injEq, true_and] at h
  have hclose : EndsInteger [']'] := by
    rintro c ⟨⟩
    rfl
  exact (hv.readable w hw _ _ hclose hclose h).1

/-- A text that imitates the structure of a list, and the same text put together from its parts. -/
theorem printed_imitation_is_unambiguous :
    let live : Live := ⟨fun _ => [], fun _ => []⟩
    let v : Value := .map [("k".toList, .text "1\", \"2], nothing".toList)]
    let w : Value := .map [("k".toList, .text (Text.joinWith "\", \"".toList ["1".toList, "2], nothing".toList]))]
    v.Literal ∧ w.Literal ∧ (Value.list [v]).display live = (Value.list [w]).display live ∧ v = w := by
  intro live v w
  have hliteral : ∀ t, (Value.map [("k".toList, .text t)]).Literal := fun t => .map fun entry hentry => by
    rw [List.mem_singleton.1 hentry]
    exact .text t
  have hdisplay : (Value.list [v]).display live = (Value.list [w]).display live := rfl
  exact ⟨hliteral _, hliteral _, hdisplay, printed_lists_are_unambiguous (hliteral _) (hliteral _) hdisplay⟩

end Value
end TemplateExpressions
