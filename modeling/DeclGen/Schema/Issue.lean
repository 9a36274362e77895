import DeclGen.Schema.Check

/-!
# Reports of the schema check

The leaves of the findings are the issues. They are reported once each and in increasing order of
path and message, so a report does not depend on the order in which findings were made.
-/

namespace DeclGen

/-- One violation of the schema, with the path of the value it is about. -/
structure Issue where
  path : String
  message : String
  deriving DecidableEq, Repr, Inhabited

namespace Issue

/-- An issue on one line; the document itself has no path. -/
def line (i : Issue) : String := if i.path.isEmpty then i.message else i.path ++ ": " ++ i.message

/-- The order of issues: by path, then by message, both bytewise. -/
def le (a b : Issue) : Bool :=
  if a.path = b.path then Text.le (.ofString a.message) (.ofString b.message)
  else Text.le (.ofString a.path) (.ofString b.path)

end Issue

namespace Schema

/-- Whether a segment of a path is a 64-bit whole number. -/
def isIndex (segment : String) : Bool :=
  let (negative, ds) := Decimal.takeSign segment.toList
  !ds.isEmpty && ds.all Char.isDigit &&
    (Decimal.ofDigits ds < Nat.pow 2 63 || (negative && Decimal.ofDigits ds == Nat.pow 2 63))

/-- A path with one more segment: numbers in brackets, names after a dot. -/
def pathBelow (path segment : String) : String :=
  if isIndex segment then path ++ "[" ++ segment ++ "]"
  else if path.isEmpty then segment
  else path ++ "." ++ segment

/-- The text of a location. -/
def Pointer.path (loc : Pointer) : String := loc.foldl pathBelow ""

mutual

/-- The leaves of a finding. -/
def Finding.leaves : Finding → List (Pointer × Problem)
  | .leaf loc p => [(loc, p)]
  | .group causes => leavesOf causes

/-- The leaves of several findings. -/
def leavesOf : List Finding → List (Pointer × Problem)
  | [] => []
  | f :: fs => f.leaves ++ leavesOf fs

end

/-- The report on findings: the issues of their leaves, each once and in order. -/
def report (findings : List Finding) : List Issue :=
  let issues := (leavesOf findings).map fun (loc, p) => (⟨loc.path, p.message⟩ : Issue)
  (issues.eraseDups).mergeSort Issue.le

/-- The issues of a document given as a JSON value. -/
def issues (v : Json) : List Issue := report (Part.document.check [] v)

end Schema

end DeclGen
