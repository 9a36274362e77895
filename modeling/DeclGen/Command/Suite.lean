import DeclGen.Command.Failure
import DeclGen.Scenario.Golden
import DeclGen.Scenario.OfYaml
import DeclGen.Store.Glob

/-!
# Running all scenarios of a directory

The scenario files below a directory are run one after the other. A scenario passes when all its
assertions hold and its outputs are equal to its golden files, which may also be written anew.
-/

namespace DeclGen

/-- Which scenarios are run and how. -/
structure SuiteOptions where
  directory : String
  update : Bool := false
  filter : String := ""
  deriving DecidableEq, Repr, Inhabited

/-- The result of one scenario. -/
structure ScenarioResult where
  name : String
  errors : List String := []
  /-- Whether the golden files were written anew. -/
  updated : Bool := false
  deriving DecidableEq, Repr, Inhabited

/-- Whether a scenario passed. -/
def ScenarioResult.pass (r : ScenarioResult) : Bool := r.errors.isEmpty

namespace Suite

/-- Whether a name is that of a scenario file. -/
def isScenarioName (name : String) : Bool :=
  Path.extension name == ".yaml" || Path.extension name == ".yml"

/-- Whether the components of a name below the directory lead to a scenario file. Nothing below a
golden directory is one. -/
def isCandidate (directory : String) (components : List String) : Bool :=
  !components.dropLast.contains "golden" && isScenarioName (components.getLastD directory)

/-- The path name of a file below a directory; the directory may be a file itself. -/
def pathBelow (directory : String) (components : List String) : String :=
  if components.isEmpty then directory else Path.join directory ("/".intercalate components)

/-- Whether a file fits the filter, if there is one. -/
def fits (filter path : String) : Except Failure Bool :=
  if filter = "" then .ok true
  else match Glob.parse? filter with
    | some g => .ok (g.holds (Path.stem path).toList)
    | none => .error .filter

/-- The scenario files below a directory, in the order of a walk. -/
def files (o : SuiteOptions) (fs : Files) : Except Failure (List String) := do
  match fs.locate o.directory, fs.stat o.directory with
  | .ok root, .ok _ =>
    let found := ((fs.walk root).filter (isCandidate o.directory)).map (pathBelow o.directory)
    found.filterM (fits o.filter)
  | _, .error e | .error e, _ => throw (.walk ⟨"lstat", [o.directory], e⟩)

/-- The message about a golden file that differs from its output. -/
def mismatchMessage (l : Lang) : String :=
  "Golden file mismatch for " ++ l.displayName ++ " (run with --update to regenerate)"

/-- The golden files of a scenario that passed its assertions are written or compared. -/
def settleGolden (o : SuiteOptions) (fs : Files) (s : Scenario) (v : Verdict) :
    Files × ScenarioResult :=
  if o.update then
    match s.updateGolden fs v.outputs with
    | (fs, some e) => (fs, { name := s.name, errors := ["Golden update error: " ++ e.message] })
    | (fs, none) => (fs, { name := s.name, updated := true })
  else
    match s.mismatches fs v.outputs with
    | .error e => (fs, { name := s.name, errors := ["Golden comparison error: " ++ e.message] })
    | .ok langs => (fs, { name := s.name, errors := langs.map mismatchMessage })

/-- What one scenario leaves behind. -/
structure Step where
  files : Files
  records : List Record := []
  warnings : List Record := []
  result : ScenarioResult

/-- One scenario file is run. -/
def runFile (o : SuiteOptions) (fs : Files) (path : String) : Step :=
  match Scenario.load fs path with
  | .error e =>
    { files := fs, result := { name := Path.base path, errors := ["Load error: " ++ e.message] } }
  | .ok s =>
    let r := s.run fs
    let (files, result) : Files × ScenarioResult :=
      match r.result with
      | .error f => (fs, { name := s.name, errors := ["Execution error: " ++ s.runMessage f] })
      | .ok v =>
        if v.pass then settleGolden o fs s v else (fs, { name := s.name, errors := v.errors })
    { files, records := r.records, warnings := r.warnings, result }

/-- Scenario files are run one after the other. -/
def runFiles (o : SuiteOptions) :
    Files → List String → Files × List Record × List Record × List ScenarioResult
  | fs, [] => (fs, [], [], [])
  | fs, path :: rest =>
    let step := runFile o fs path
    let (fs, records, warnings, results) := runFiles o step.files rest
    (fs, step.records ++ records, step.warnings ++ warnings, step.result :: results)

/-- The number of scenarios that passed. -/
def passed (rs : List ScenarioResult) : Nat := (rs.filter (·.pass)).length

/-- The number of scenarios that failed. -/
def failed (rs : List ScenarioResult) : Nat := (rs.filter (!·.pass)).length

/-- The payload for one scenario. -/
def resultJson (r : ScenarioResult) : Json :=
  .object ([("name", .ofString r.name), ("pass", .bool r.pass)]
    ++ if r.errors.isEmpty then [] else [("errors", .array (r.errors.map .ofString))])

/-- The payload for all scenarios. -/
def summaryJson (rs : List ScenarioResult) : Json :=
  .object [("scenarios", .array (rs.map resultJson)), ("passed", .ofNat (passed rs)),
    ("failed", .ofNat (failed rs)), ("total", .ofNat rs.length)]

/-- The lines about one scenario. -/
def resultText (r : ScenarioResult) : String :=
  if r.pass then "✓ " ++ r.name ++ (if r.updated then " (golden updated)" else "") ++ "\n"
  else "✗ " ++ r.name ++ "\n" ++ String.join (r.errors.map fun e => "  " ++ e ++ "\n")

/-- The lines about all scenarios. -/
def summaryText (rs : List ScenarioResult) : String :=
  String.join (rs.map resultText) ++ "\nTest Summary: " ++ toString (passed rs) ++ " passed, "
    ++ toString (failed rs) ++ " failed, " ++ toString rs.length ++ " total\n"
    ++ if failed rs = 0 then "✓ All scenarios passed\n" else ""

/-- What is said when scenarios failed. -/
def failedMessage (rs : List ScenarioResult) : String :=
  toString (failed rs) ++ " scenario(s) failed"

/-- The report on all scenarios. -/
def report (r : Reporting) (rs : List ScenarioResult) : Except CommandError Text :=
  match r.format with
  | .json =>
    if failed rs = 0 then r.success (summaryJson rs)
    else r.error "E301" (failedMessage rs) (summaryJson rs)
  | .text => .ok (.ofString (if rs.isEmpty then "No scenarios found.\n" else summaryText rs))

/-- The error that scenarios end the command with. -/
def error? (rs : List ScenarioResult) : Option CommandError :=
  if failed rs = 0 then none else some (.exit { code := 1, message := failedMessage rs })

/-- The test command. -/
def run (r : Reporting) (o : SuiteOptions) (fs : Files) : Ending :=
  if fs.stat o.directory matches .error .notFound then
    .stopped r fs (.scenariosNotFound o.directory)
  else match files o fs with
    | .error f => .stopped r fs f
    | .ok paths =>
      let (after, records, warnings, results) := runFiles o fs paths
      .reported after (report r results) (error? results) (records.map .record) warnings

end Suite

end DeclGen
