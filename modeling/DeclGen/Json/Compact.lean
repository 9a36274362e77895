import DeclGen.Json.Basic

/-!
# JSON on one line

A value can also be written without any white space. In this form only the characters that have to
be escaped, and the two line separators, are escaped.
-/

namespace DeclGen.Json

/-- A character inside a string of the compact form. -/
def compactChar (c : Char) : List Char :=
  match c with
  | '<' | '>' | '&' => [c]
  | c => escapedChar c

/-- A string of the compact form with its quotation marks. -/
def compactString (s : String) : List Char := '"' :: s.toList.flatMap compactChar ++ ['"']

mutual

/-- The compact text of a value. -/
def compact : Json → List Char
  | null => "null".toList
  | bool true => "true".toList
  | bool false => "false".toList
  | number l => l.toList
  | string t => compactString t.toString
  | array [] => ['[', ']']
  | array (e :: es) => '[' :: compact e ++ compactElems es ++ [']']
  | object [] => ['\x7b', '\x7d']
  | object ((k, v) :: fs) =>
    '\x7b' :: compactString k ++ ':' :: compact v ++ compactFields fs ++ ['\x7d']

/-- The elements of a list after the first. -/
def compactElems : List Json → List Char
  | [] => []
  | e :: es => ',' :: compact e ++ compactElems es

/-- The fields of an object after the first. -/
def compactFields : List (String × Json) → List Char
  | [] => []
  | (k, v) :: fs => ',' :: compactString k ++ ':' :: compact v ++ compactFields fs

end

end DeclGen.Json
