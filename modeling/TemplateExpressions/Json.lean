import TemplateExpressions.Json.Number
import TemplateExpressions.Text.Order

/-!
# JSON

Reads a text in JSON notation as a value. The names of an object come in order, and of a repeated
name the last value counts. Arrays and objects may be nested in one another 127 deep.
-/

set_option autoImplicit false

namespace TemplateExpressions.Json

/-- A character that may stand between the tokens. -/
def isSpace (c : Char) : Bool := c == ' ' || c == '\n' || c == '\t' || c == '\r'

/-- The text without leading space. -/
def skip (t : Text) : Text := t.dropWhile isSpace

/-- The value of a hexadecimal digit. -/
def hexValue? (c : Char) : Option Nat :=
  if c.isDigit then some (c.toNat - '0'.toNat)
  else if 'a' ≤ c && c ≤ 'f' then some (c.toNat - 'a'.toNat + 10)
  else if 'A' ≤ c && c ≤ 'F' then some (c.toNat - 'A'.toNat + 10)
  else none

/-- Reads four hexadecimal digits. -/
def readUnit : Text → Option (Nat × Text)
  | a :: b :: c :: d :: t => do
    let a ← hexValue? a
    let b ← hexValue? b
    let c ← hexValue? c
    let d ← hexValue? d
    return (((a * 16 + b) * 16 + c) * 16 + d, t)
  | _ => none

/-- Reads the digits of a character escape; a character beyond 16 bits is escaped as two units. -/
def readEscaped (t : Text) : Option (Char × Text) := do
  let (unit, t) ← readUnit t
  if 0xDC00 ≤ unit && unit < 0xE000 then none
  else if 0xD800 ≤ unit && unit < 0xDC00 then
    match t with
    | '\\' :: 'u' :: t =>
      let (low, t) ← readUnit t
      if 0xDC00 ≤ low && low < 0xE000 then
        some (Char.ofNat (0x10000 + (unit - 0xD800) * 0x400 + (low - 0xDC00)), t)
      else none
    | _ => none
  else some (Char.ofNat unit, t)

/-- The character of an escape of two characters. -/
def escaped? : Char → Option Char
  | '"' => some '"'
  | '\\' => some '\\'
  | '/' => some '/'
  | 'b' => some '\x08'
  | 'f' => some '\x0c'
  | 'n' => some '\n'
  | 'r' => some '\r'
  | 't' => some '\t'
  | _ => none

/-- Reads a string behind its opening quote, of at most `fuel` characters and escapes. -/
def readString : (fuel : Nat) → Text → Option (Text × Text)
  | 0, _ => none
  | fuel + 1, t =>
    match t with
    | [] => none
    | '"' :: t => some ([], t)
    | '\\' :: 'u' :: t => do
      let (c, t) ← readEscaped t
      let (s, t) ← readString fuel t
      return (c :: s, t)
    | '\\' :: letter :: t => do
      let c ← escaped? letter
      let (s, t) ← readString fuel t
      return (c :: s, t)
    | c :: t =>
      if c = '\\' || c.toNat < 0x20 then none
      else do
        let (s, t) ← readString fuel t
        return (c :: s, t)

/-- Reads a string with its quotes. -/
def readText : Text → Option (Text × Text)
  | '"' :: t => readString (t.length + 1) t
  | _ => none

/-- Reads the rest of an array behind an element, at most `fuel` elements more. -/
def readElements (read : Text → Option (Value × Text)) :
    (fuel : Nat) → Text → Option (List Value × Text)
  | 0, _ => none
  | fuel + 1, t =>
    match skip t with
    | ']' :: t => some ([], t)
    | ',' :: t => do
      let (v, t) ← read t
      let (vs, t) ← readElements read fuel t
      return (v :: vs, t)
    | _ => none

/-- Reads an array behind its opening bracket. -/
def readArray (read : Text → Option (Value × Text)) (t : Text) : Option (List Value × Text) :=
  match skip t with
  | ']' :: t => some ([], t)
  | t => do
    let (v, t) ← read t
    let (vs, t) ← readElements read (t.length + 1) t
    return (v :: vs, t)

/-- Reads an entry of an object. -/
def readEntry (read : Text → Option (Value × Text)) (t : Text) :
    Option ((Text × Value) × Text) := do
  let (name, t) ← readText (skip t)
  match skip t with
  | ':' :: t =>
    let (v, t) ← read t
    return ((name, v), t)
  | _ => none

/-- Reads the rest of an object behind an entry, at most `fuel` entries more. -/
def readEntries (read : Text → Option (Value × Text)) :
    (fuel : Nat) → Text → Option (List (Text × Value) × Text)
  | 0, _ => none
  | fuel + 1, t =>
    match skip t with
    | '\x7d' :: t => some ([], t)
    | ',' :: t => do
      let (e, t) ← readEntry read t
      let (es, t) ← readEntries read fuel t
      return (e :: es, t)
    | _ => none

/-- Reads an object behind its opening brace. -/
def readObject (read : Text → Option (Value × Text)) (t : Text) :
    Option (List (Text × Value) × Text) :=
  match skip t with
  | '\x7d' :: t => some ([], t)
  | t => do
    let (e, t) ← readEntry read t
    let (es, t) ← readEntries read (t.length + 1) t
    return (e :: es, t)

/-- Reads a value in which arrays and objects are nested at most `depth` deep. -/
def readValue (depth : Nat) (t : Text) : Option (Value × Text) :=
  match skip t with
  | 'n' :: 'u' :: 'l' :: 'l' :: t => some (.nothing, t)
  | 't' :: 'r' :: 'u' :: 'e' :: t => some (.bool true, t)
  | 'f' :: 'a' :: 'l' :: 's' :: 'e' :: t => some (.bool false, t)
  | '"' :: t => (readString (t.length + 1) t).map fun r => (.text r.1, r.2)
  | '[' :: t =>
    match depth with
    | 0 => none
    | depth + 1 => (readArray (readValue depth) t).map fun r => (.list r.1, r.2)
  | '\x7b' :: t =>
    match depth with
    | 0 => none
    | depth + 1 =>
      (readObject (readValue depth) t).map fun r => (.map (Mapping.inOrder r.1), r.2)
  | t => readNumber t

/-- The value that a text denotes, if it is JSON. -/
def read? (t : Text) : Option Value :=
  match readValue 127 t with
  | some (v, rest) => if (skip rest).isEmpty then some v else none
  | none => none

end TemplateExpressions.Json
