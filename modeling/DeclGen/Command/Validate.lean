import DeclGen.Command.Failure

/-!
# Validating documents

A document is checked against the schema, then the kinds of its items and the options of its
configurations are checked. All problems are reported.
-/

namespace DeclGen

/-- One problem of a document. -/
structure Complaint where
  code : String
  message : String
  lang : Option Lang := none
  path : String := ""
  deriving DecidableEq, Repr, Inhabited

namespace Validate

/-- The problem that a schema issue is. -/
def ofIssue (i : Issue) : Complaint := { code := "E204", message := i.line, path := i.path }

/-- The problem of a forest. -/
def treeComplaints (items : Forest) : List Complaint :=
  match Forest.validate items with
  | some v => [{ code := "E201", message := v.message, path := v.place }]
  | none => []

/-- The problem of the options for one target. -/
def optionComplaints (c : Content) (l : Lang) : List Complaint :=
  match Config.format (c.config l) with
  | .error e => [{ code := "E202", message := e.message, lang := some l }]
  | .ok _ => []

/-- The targets that a document has configurations for. -/
def configured (c : Content) : List Lang := Lang.all.filter fun l => (c.config l).isSome

/-- The problems of what a document means. -/
def complaints (c : Content) : List Complaint :=
  treeComplaints c.items ++ (configured c).flatMap (optionComplaints c)

/-- The notes about the parts that are checked. -/
def notes (c : Content) : List Note :=
  .detail "Validating tree"
    :: (configured c).map fun l => .detail ("Validating " ++ l.displayName ++ " config")

/-- The payload for one problem. -/
def complaintJson (i : Complaint) : Json :=
  .object ([("code", .ofString i.code), ("message", .ofString i.message)]
    ++ (i.lang.map fun l => ("lang", Json.ofString l.tag)).toList
    ++ if i.path = "" then [] else [("path", .ofString i.path)])

/-- The payload for a document with some problems. -/
def resultJson (c : Content) (found : List Complaint) : Json :=
  .object ([("valid", .bool found.isEmpty), ("items", .ofNat c.items.length),
    ("configs", .ofNat c.configCount)]
      ++ if found.isEmpty then [] else [("errors", .array (found.map complaintJson))])

/-- The report on a document with some problems. -/
def report (r : Reporting) (c : Content) (found : List Complaint) : Except CommandError Text :=
  match r.format, found with
  | .json, [] => r.success (resultJson c [])
  | .json, i :: _ => .ok (r.errorText i.code i.message (resultJson c found))
  | .text, [] =>
    .ok (.ofString ("✓ Document valid: " ++ toString c.items.length ++ " item(s), "
      ++ toString c.configCount ++ " config(s)\n"))
  | .text, found =>
    .ok (.ofString ("✗ Validation failed\n\n"
      ++ String.join (found.map fun i => "  " ++ i.code ++ ": " ++ i.message ++ "\n")))

/-- The error that a document with some problems ends the command with. -/
def error? (found : List Complaint) : Option CommandError :=
  if found.isEmpty then none
  else some (.exit
    { code := 1, message := "validation failed with " ++ toString found.length ++ " error(s)" })

/-- The validate command. -/
def run (r : Reporting) (path : String) (fs : Files) : Ending :=
  match Document.load fs path with
  | (warnings, .error e) => .stopped r fs (.load e) [] warnings
  | (warnings, .ok c) =>
    let loaded := c.loadedNote path
    match Document.lintFile fs path with
    | .error e => .stopped r fs (.lint e) [loaded] warnings
    | .ok issues =>
      let found := issues.map ofIssue ++ complaints c
      .reported fs (report r c found) (error? found) (loaded :: notes c) warnings

end Validate

end DeclGen
