import DeclGen.Command.Failure
import DeclGen.Tree.Json

/-!
# Showing trees

The tree of a document is shown as it was loaded, or as a target sees it after substitution.
-/

namespace DeclGen.Inspect

/-- The line about the configuration of a target. -/
def configLine (l : Lang) (c : Config) : String :=
  "Config " ++ l.displayName ++ ": " ++ toString c.types.size ++ " type(s), "
    ++ toString c.names.size ++ " name(s), " ++ toString c.options.size
    ++ " option(s)\n"

/-- The report on a document as it was loaded. -/
def plainReport (r : Reporting) (c : Content) : Except CommandError Text :=
  match r.format with
  | .json => r.success (.object [("items", Forest.json c.items)])
  | .text =>
    .ok (.ofString ("*\n" ++ Forest.dump c.items ++ "*\n" ++ String.join (Lang.all.map fun l =>
      match c.config l with
      | some config => configLine l config
      | none => "")))

/-- The report on a document as a target sees it. -/
def jobReport (r : Reporting) (l : Lang) (job : Job) : Except CommandError Text :=
  match r.format with
  | .json => r.success (.object [("lang", .ofString l.tag), ("items", Forest.json job.tree)])
  | .text => .ok (.ofString job.describe)

/-- The inspect command. -/
def run (r : Reporting) (lang path : String) (fs : Files) : Ending :=
  match Document.load fs path with
  | (warnings, .error e) => .stopped r fs (.load e) [] warnings
  | (warnings, .ok c) =>
    if lang = "" then .reported fs (plainReport r c) none [] warnings
    else match Lang.parse? lang with
      | none => .stopped r fs (.unknownLang lang) [] warnings
      | some l =>
        match Job.create l.tag (c.config l) c.items with
        | .error e => .stopped r fs (.job e) [] warnings
        | .ok job => .reported fs (jobReport r l job) none [.record job.createdRecord] warnings

end DeclGen.Inspect
