import TemplateExpressions.Text.Basic

/-!
# Similar words

How alike two words are: the share of characters that both have at about the same place, less for
those that are out of order. A misspelt option is answered with the most similar one.
-/

set_option autoImplicit false

namespace TemplateExpressions.CommandLine

/-- The first free place at or behind `lowest` and before `highest` with a given character. -/
def findPlace (c : Char) (lowest highest : Nat) : Nat → List (Char × Bool) → Option Nat
  | _, [] => none
  | place, (d, taken) :: rest =>
    if place < highest && lowest ≤ place && c == d && !taken then some place
    else findPlace c lowest highest (place + 1) rest

/-- Pairs the characters of a word, from the left, with free equal ones of another within a range of
places. The answer is the characters that found a partner, and the other word with the partners
marked. -/
def pairUp (range : Nat) : Nat → Text → List (Char × Bool) → Text × List (Char × Bool)
  | _, [], other => ([], other)
  | place, c :: word, other =>
    match findPlace c (place - range) (place + range + 1) 0 other with
    | some found =>
      let (paired, other) := pairUp range (place + 1) word (other.set found (c, true))
      (c :: paired, other)
    | none => pairUp range (place + 1) word other

/-- The similarity of two words, from 0 to 1. -/
def similarity (a b : Text) : Float :=
  if a.isEmpty && b.isEmpty then 1
  else
    let range := max a.length b.length / 2 - 1
    let (paired, marked) := pairUp range 0 a (b.map fun c => (c, false))
    let partners := (marked.filter Prod.snd).map Prod.fst
    let common := paired.length
    let swapped := ((paired.zip partners).filter fun p => p.1 != p.2).length / 2
    if common = 0 then 0
    else
      (common.toFloat / a.length.toFloat + common.toFloat / b.length.toFloat +
        (common - swapped).toFloat / common.toFloat) / 3

/-- The most similar of some words, if any is similar enough; the last one of several. -/
def mostSimilar? (word : Text) (words : List Text) : Option Text :=
  (words.foldl (fun best candidate =>
    let closeness := similarity word candidate
    if closeness > 0.7 then
      match best with
      | some (other, _) => if other > closeness then best else some (closeness, candidate)
      | none => some (closeness, candidate)
    else best) (none : Option (Float × Text))).map Prod.snd

end TemplateExpressions.CommandLine
