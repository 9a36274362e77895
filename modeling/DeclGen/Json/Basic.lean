import DeclGen.Text.Quoted

/-!
# JSON values and their text

A JSON value keeps the fields of its objects in order and its numbers as they are spelled. It is
written over several lines, two spaces per level, with empty lists and objects on one line. A value
with too many levels is not written at all.

## Implementation notes

Inside strings the characters `<`, `>` and `&` and the two line separators are escaped as well, so
that the text can stand in a web page or a script. A stray byte is written as the escaped
replacement character.
-/

namespace DeclGen

/-- A JSON value. -/
inductive Json where
  | null
  | bool (b : Bool)
  | number (literal : String)
  | string (t : Text)
  | array (elems : List Json)
  | object (fields : List (String × Json))
  deriving Repr, Inhabited

namespace Json

/-- A string value. -/
def ofString (s : String) : Json := .string (.ofString s)

/-- A whole number. -/
def ofNat (n : Nat) : Json := .number (toString n)

/-- A character written by its code. -/
def unicodeEscape (c : Char) : List Char := '\\' :: 'u' :: Text.hexDigits 4 c.toNat

/-- A character inside a string. -/
def escapedChar (c : Char) : List Char :=
  match c with
  | '"' => ['\\', '"']
  | '\\' => ['\\', '\\']
  | '\n' => ['\\', 'n']
  | '\r' => ['\\', 'r']
  | '\t' => ['\\', 't']
  | '\x08' => ['\\', 'b']
  | '\x0c' => ['\\', 'f']
  | '<' | '>' | '&' | '\u2028' | '\u2029' => unicodeEscape c
  | c => if c.toNat < 0x20 then unicodeEscape c else [c]

/-- A glyph inside a string. -/
def escapedGlyph : Text.Glyph → List Char
  | .char c => escapedChar c
  | .stray _ => unicodeEscape '\uFFFD'

/-- A string with its quotation marks. -/
def stringChars (t : Text) : List Char := '"' :: t.glyphs.flatMap escapedGlyph ++ ['"']

/-- The start of a line at a given depth. -/
def lineStart (depth : Nat) : List Char := '\n' :: List.replicate (2 * depth) ' '

mutual

/-- The text of a value that stands at a given depth. -/
def chars (depth : Nat) : Json → List Char
  | null => "null".toList
  | bool true => "true".toList
  | bool false => "false".toList
  | number l => l.toList
  | string t => stringChars t
  | array [] => ['[', ']']
  | array (e :: es) =>
    '[' :: lineStart (depth + 1) ++ chars (depth + 1) e ++ moreElems (depth + 1) es
      ++ lineStart depth ++ [']']
  | object [] => ['\x7b', '\x7d']
  | object ((k, v) :: fs) =>
    '\x7b' :: lineStart (depth + 1) ++ stringChars (.ofString k) ++ ':' :: ' '
      :: chars (depth + 1) v ++ moreFields (depth + 1) fs ++ lineStart depth ++ ['\x7d']

/-- The elements of a list after the first. -/
def moreElems (depth : Nat) : List Json → List Char
  | [] => []
  | e :: es => ',' :: lineStart depth ++ chars depth e ++ moreElems depth es

/-- The fields of an object after the first. -/
def moreFields (depth : Nat) : List (String × Json) → List Char
  | [] => []
  | (k, v) :: fs =>
    ',' :: lineStart depth ++ stringChars (.ofString k) ++ ':' :: ' ' :: chars depth v
      ++ moreFields depth fs

end

mutual

/-- The first bracket in the text of a value that opens a level beyond a number of levels. -/
def beyond? : (levels : Nat) → Json → Option Char
  | 0, array _ => some '['
  | 0, object _ => some '\x7b'
  | levels + 1, array es => beyondElems? levels es
  | levels + 1, object fs => beyondFields? levels fs
  | _, _ => none

/-- The first such bracket in the elements of a list. -/
def beyondElems? (levels : Nat) : List Json → Option Char
  | [] => none
  | e :: es => (beyond? levels e).or (beyondElems? levels es)

/-- The first such bracket in the values of fields. -/
def beyondFields? (levels : Nat) : List (String × Json) → Option Char
  | [] => none
  | (_, v) :: fs => (beyond? levels v).or (beyondFields? levels fs)

end

/-- The number of levels that a value may have to be read or written. -/
def maxDepth : Nat := 10000

/-- What is said about a bracket that opens a level beyond the limit. -/
def tooDeepMessage (bracket : Char) : String :=
  "invalid character '" ++ bracket.toString ++ "' exceeded max depth"

/-- The text of a value, with a line end. A value with too many levels has none, because of the
first bracket that opens one of them. -/
def text (j : Json) : Except Char Text :=
  match j.beyond? maxDepth with
  | some bracket => .error bracket
  | none => .ok (Text.ofChars (j.chars 0 ++ ['\n']))

/-- The value of the last field with a given name. -/
def field? (name : String) (fields : List (String × Json)) : Option Json :=
  (fields.reverse.find? (·.1 == name)).map (·.2)

end Json

end DeclGen
