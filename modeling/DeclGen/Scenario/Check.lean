import DeclGen.Lang
import DeclGen.Scenario.Basic

/-!
# Checking assertions on generated texts

An assertion on outputs holds or falls short in one of a few ways. Lines are looked for in order:
each one behind the end of the one before, at its first occurrence there.
-/

namespace DeclGen

/-- The generated text of one target. -/
structure Output where
  lang : Lang
  text : Text
  deriving DecidableEq, Repr, Inhabited

/-- How an assertion falls short. -/
inductive Shortfall where
  | notRendered
  | missingText
  | foundText (line : Nat)
  | missingLine
  | outOfOrder (line previous : String)
  | unknownKind
  deriving DecidableEq, Repr, Inhabited

/-- The number of the line on which a position of a text stands. -/
def Text.lineOf (t : Text) (position : Nat) : Nat := ((t.take position).filter (· == 10)).length + 1

namespace Assertion

/-- The first line that is not found behind the lines before it, with the line just before it. -/
def firstMissing? (previous : Option String) :
    List String → (rest : Text) → Option (String × Option String)
  | [], _ => none
  | line :: more, rest =>
    match Text.find? (.ofString line) rest with
    | none => some (line, previous)
    | some i => firstMissing? (some line) more (rest.drop (i + (Text.ofString line).length))

/-- How the lines of a text fall short of an order. -/
def orderShortfall? (lines : List String) (t : Text) : Option Shortfall :=
  match firstMissing? none lines t with
  | none => none
  | some (line, some previous) =>
    if t.hasPart (.ofString line) then some (.outOfOrder line previous) else some .missingLine
  | some (_, none) => some .missingLine

/-- How the text of an assertion's target falls short of it. -/
def textShortfall? (a : Assertion) (t : Text) : Option Shortfall :=
  match a.kind with
  | .contains => if t.hasPart (.ofString a.text) then none else some .missingText
  | .excludes => (Text.find? (.ofString a.text) t).map fun i => .foundText (t.lineOf i)
  | .order => orderShortfall? (a.lines.getD []) t
  | .failure | .other _ => some .unknownKind

/-- The output of an assertion's target. -/
def output? (outputs : List Output) (a : Assertion) : Option Output := do
  let lang ← Lang.parse? a.lang
  outputs.find? (·.lang == lang)

/-- How outputs fall short of an assertion. -/
def shortfall? (outputs : List Output) (a : Assertion) : Option Shortfall :=
  match a.output? outputs with
  | none => some .notRendered
  | some o => a.textShortfall? o.text

/-- Strings in brackets, each between quotation marks. -/
def quotedList (ss : List String) : String := "[" ++ " ".intercalate (ss.map quote) ++ "]"

/-- The message of a failed assertion with what was expected and what was found. -/
def failureMessage (a : Assertion) (expected actual : String) : String :=
  "Assertion failed: " ++ a.kind.tag ++ (if a.lang = "" then "" else " (" ++ a.lang ++ ")")
    ++ "\n  Expected: " ++ expected ++ "\n  Actual: " ++ actual

/-- The message of how an assertion falls short. -/
def shortfallMessage (a : Assertion) : Shortfall → String
  | .notRendered =>
    a.failureMessage ("output for " ++ a.lang) "language not rendered (missing from langs?)"
  | .missingText => a.failureMessage ("output containing " ++ quote a.text) "not found in output"
  | .foundText line =>
    a.failureMessage ("output without " ++ quote a.text) ("found at line " ++ toString line)
  | .missingLine =>
    a.failureMessage ("lines in order: " ++ quotedList (a.lines.getD [])) "not found in output"
  | .outOfOrder line previous =>
    a.failureMessage ("lines in order: " ++ quotedList (a.lines.getD []))
      (quote line ++ " appears before " ++ quote previous)
  | .unknownKind => "unknown assertion type " ++ quote a.kind.tag

end Assertion

end DeclGen
