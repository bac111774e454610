import TemplateExpressions.Text.Basic

/-!
# Questions to a cursor

What can be asked of a cursor, and the names under which paths ask it.
-/

set_option autoImplicit false

namespace TemplateExpressions

/-- A question to a cursor. -/
inductive Query where
  | index
  | number
  | even
  | odd
  | parity
  | letter
  | upperLetter
  | roman
  | upperRoman
  | start
  | «end»
  | item
  | length
deriving DecidableEq

namespace Query

/-- All questions. -/
def all : List Query :=
  [index, number, even, odd, parity, letter, upperLetter, roman, upperRoman, start, «end», item,
   length]

/-- The name of a question in a path. -/
def name : Query → Text
  | index => "index".toList
  | number => "number".toList
  | even => "even".toList
  | odd => "odd".toList
  | parity => "parity".toList
  | letter => "letter".toList
  | upperLetter => "Letter".toList
  | roman => "roman".toList
  | upperRoman => "Roman".toList
  | start => "start".toList
  | «end» => "end".toList
  | item => "item".toList
  | length => "length".toList

/-- The question of a name. -/
def ofName? (n : Text) : Option Query := all.find? fun q => q.name == n

end Query
end TemplateExpressions
