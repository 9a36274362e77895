import DeclGen.Command.Exit
import DeclGen.Data.Datum
import DeclGen.Log

/-!
# Reports

A command reports its result on the standard output, as text or as one JSON object, and leaves notes
on the error output. Which notes are shown depends on how much the user wants to see. An object with
too many levels is not written; nothing is printed then, and the command that wanted to report is
told so.
-/

namespace DeclGen

namespace Json

mutual

/-- The datum of a JSON value. -/
def datum : Json → Datum
  | null => .null
  | bool b => .bool b
  | number l =>
    match (Decimal.parse? l).bind Binary64.ofDecimal? with
    | some x => .float x
    | none => .string l
  | string t => .string t.toString
  | array es => .list (datumList es)
  | object fs => .table (datumFields fs)

/-- The data of a list. -/
def datumList : List Json → List Datum
  | [] => []
  | e :: es => e.datum :: datumList es

/-- The data of an object's fields. -/
def datumFields : List (String × Json) → List (Datum × Datum)
  | [] => []
  | (k, v) :: fs => (.string k, v.datum) :: datumFields fs

end

/-- Whether a value is a null. -/
def isNull : Json → Bool
  | null => true
  | _ => false

end Json

/-- The form of a report. -/
inductive ReportFormat where
  | text
  | json
  deriving DecidableEq, Repr, Inhabited

namespace ReportFormat

/-- The format with a tag. -/
def ofTag? : String → Option ReportFormat
  | "text" => some text
  | "json" => some json
  | _ => none

end ReportFormat

/-- How a command reports. -/
structure Reporting where
  format : ReportFormat := .text
  verbose : Bool := false
  deriving DecidableEq, Repr, Inhabited

/-- A line for the error output. -/
inductive Note where
  /-- Shown only when the user wants to see more. -/
  | detail (message : String)
  /-- Shown from the level on that the user wants to see. -/
  | record (r : Record)
  /-- Always shown. -/
  | always (message : String)
  deriving DecidableEq, Repr, Inhabited

namespace Note

/-- The text of a note that is shown, and nothing for one that is not. -/
def text (verbose : Bool) : Note → Text
  | detail m => if verbose then .ofString (m ++ "\n") else []
  | record r => if verbose || Level.info.rank ≤ r.level.rank then .ofString r.line else []
  | always m => .ofString m

end Note

namespace Reporting

/-- The texts of notes. -/
def notes (r : Reporting) (ns : List Note) : Text := ns.flatMap (Note.text r.verbose)

/-- The object that reports a success. A null is no payload. -/
def successObject (data : Json) : Json :=
  .object (("status", .ofString "ok") :: if data.isNull then [] else [("data", data)])

/-- The object that reports an error. A null is no detail. -/
def errorObject (code message : String) (details : Json) : Json :=
  .object [("status", .ofString "error"),
    ("error", .object ([("code", .ofString code), ("message", .ofString message)]
      ++ if details.isNull then [] else [("details", details)]))]

/-- The error about an object with too many levels, of which a bracket opens one. -/
def tooDeep (bracket : Char) : CommandError := .plain (Json.tooDeepMessage bracket)

/-- The text of an object, if it can be written. -/
def written (j : Json) : Except CommandError Text :=
  match j.text with
  | .ok t => .ok t
  | .error bracket => .error (tooDeep bracket)

/-- The report of a success. -/
def success (r : Reporting) (data : Json) : Except CommandError Text :=
  match r.format with
  | .json => written (successObject data)
  | .text => .ok (.ofString (data.datum.display ++ "\n"))

/-- The report of an error. Text tells the details only to a user who wants to see more. -/
def error (r : Reporting) (code message : String) (details : Json := .null) :
    Except CommandError Text :=
  match r.format with
  | .json => written (errorObject code message details)
  | .text =>
    .ok (.ofString ("Error [" ++ code ++ "]: " ++ message ++ "\n"
      ++ if r.verbose && !details.isNull then "Details: " ++ details.datum.display ++ "\n" else ""))

/-- The report of an error, or nothing if it cannot be written. -/
def errorText (r : Reporting) (code message : String) (details : Json := .null) : Text :=
  (r.error code message details).toOption.getD []

end Reporting

/-- A template with each `%s` replaced by the next argument. -/
def fillTemplate : List Char → List String → String
  | [], [] => ""
  | [], args =>
    "%!(EXTRA " ++ ", ".intercalate (args.map fun a => "string=" ++ a) ++ ")"
  | '%' :: '%' :: rest, args => "%" ++ fillTemplate rest args
  | '%' :: 's' :: rest, a :: args => a ++ fillTemplate rest args
  | '%' :: 's' :: rest, [] => "%!s(MISSING)" ++ fillTemplate rest []
  | c :: rest, args => String.singleton c ++ fillTemplate rest args

end DeclGen
