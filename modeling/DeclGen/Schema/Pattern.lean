import DeclGen.Text.Fold
import DeclGen.Text.Quoted

/-!
# Patterns of strings

The schema restricts some strings by a pattern. Two kinds of patterns are needed: one of several
words with white space around it, and a sequence of digits.
-/

namespace DeclGen.Schema

/-- A restriction on strings. -/
inductive Pattern where
  /-- One of some words, in any letter case, with white space around it. -/
  | word (words : List String)
  /-- One or more decimal digits. -/
  | digits
  deriving DecidableEq, Repr, Inhabited

namespace Pattern

/-- White space in patterns. -/
def isSpace (c : Char) : Bool :=
  c == ' ' || c == '\t' || c == '\n' || c == '\x0c' || c == '\r'

/-- The characters of a list without white space at both ends. -/
def trimSpace (cs : List Char) : List Char :=
  ((cs.dropWhile isSpace).reverse.dropWhile isSpace).reverse

/-- Whether a string satisfies a pattern. -/
def holds : Pattern → List Char → Bool
  | word words, cs => words.any fun w => (trimSpace cs).map Text.foldChar == w.toList
  | digits, cs => !cs.isEmpty && cs.all Char.isDigit

/-- A word in the text of a pattern. -/
def wordText (w : String) : String :=
  String.join (w.toList.map fun c => if c == '+' then "\\+" else String.singleton c)

/-- The text of a pattern as a regular expression. -/
def text : Pattern → String
  | word words => "^\\s*(?i:" ++ "|".intercalate (words.map wordText) ++ ")\\s*$"
  | digits => "^[0-9]+$"

end Pattern

/-- Characters with the escape taken off their double quotation marks. -/
def plainMarks : List Char → List Char
  | '\\' :: '"' :: rest => '"' :: plainMarks rest
  | c :: rest => c :: plainMarks rest
  | [] => []

/-- A string between single quotation marks. -/
def singleQuoted (t : Text) : String :=
  let body := (plainMarks t.quotedChars).flatMap fun c => if c == '\'' then ['\\', c] else [c]
  String.ofList ('\'' :: (body.drop 1).dropLast ++ ['\''])

end DeclGen.Schema
