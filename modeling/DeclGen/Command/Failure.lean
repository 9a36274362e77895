import DeclGen.Command.Exit
import DeclGen.Command.Report
import DeclGen.Document.Loading
import DeclGen.Job

/-!
# Failures of commands

What can stop a command, with the code that is reported for it. A command that is stopped ends with
exit code two.
-/

namespace DeclGen

/-- What stops a command. -/
inductive Failure where
  | load (error : LoadError)
  | lint (error : LintError)
  | job (error : JobError)
  | render (violation : Violation)
  | write (error : WriteError)
  | unknownLang (tag : String)
  | watchWithoutDirectory
  /-- The directory of scenarios cannot be walked. -/
  | walk (failure : Files.Failure)
  /-- The filter of scenarios is not a name pattern. -/
  | filter
  | scenariosNotFound (path : String)
  deriving DecidableEq, Repr, Inhabited

namespace Failure

/-- The code of a failure. -/
def code : Failure → String
  | load e => e.code
  | lint e => e.code
  | job (.unknownLang _) | unknownLang _ => "E203"
  | job (.invalidOption _ _) => "E202"
  | job (.invalidTree _) | render _ => "E201"
  | write _ => "E007"
  | watchWithoutDirectory | walk _ | filter => "E001"
  | scenariosNotFound _ => "E005"

/-- The message of a failure. -/
def message : Failure → String
  | load e => e.message
  | lint e => e.message
  | job e => e.message
  | render v => v.message
  | write e => e.message
  | unknownLang tag => unknownLangMessage tag
  | watchWithoutDirectory => "--watch requires --out-dir"
  | walk f => "failed to find scenarios: " ++ f.message
  | filter => "failed to find scenarios: invalid filter pattern: syntax error in pattern"
  | scenariosNotFound path => "scenarios directory not found: " ++ path

/-- The error that a command ends with after a failure. -/
def exit : Failure → CommandError
  | scenariosNotFound path => .exit { code := 2, message := (scenariosNotFound path).message }
  | f => .exit { code := 2, message := f.code, cause := some f.message }

@[simp]
theorem code_exit (f : Failure) : f.exit.code = 2 := by cases f <;> rfl

/-- The report of a failure. -/
def report (r : Reporting) (f : Failure) : Text := r.errorText f.code f.message

end Failure

/-- What a command leaves behind. -/
structure Ending where
  files : Files
  out : Text := []
  notes : List Note := []
  /-- What was noticed about documents while they were loaded. -/
  warnings : List Record := []
  error : Option CommandError := none

namespace Ending

/-- The ending of a command that was stopped. -/
def stopped (r : Reporting) (files : Files) (f : Failure) (notes : List Note := [])
    (warnings : List Record := []) : Ending :=
  { files, out := f.report r, notes, warnings, error := some f.exit }

/-- The ending of a command that reports its result. When the report cannot be written, nothing is
printed, and the command ends with this error instead of its own. -/
def reported (files : Files) (report : Except CommandError Text)
    (error : Option CommandError := none) (notes : List Note := [])
    (warnings : List Record := []) : Ending :=
  match report with
  | .ok out => { files, out, notes, warnings, error }
  | .error e => { files, notes, warnings, error := some e }

@[simp]
theorem files_reported (files : Files) (report : Except CommandError Text)
    (error : Option CommandError) (notes : List Note) (warnings : List Record) :
    (reported files report error notes warnings).files = files := by
  cases report <;> rfl

end Ending

/-- The number of configurations of a document. -/
def Content.configCount (c : Content) : Nat := (Lang.all.filter fun l => (c.config l).isSome).length

/-- The note about a document that was loaded. -/
def Content.loadedNote (c : Content) (path : String) : Note :=
  .detail ("Loaded " ++ toString c.items.length ++ " item(s), " ++ toString c.configCount
    ++ " config(s) from " ++ path)

/-- The targets with some tags, each once and in order, or the first tag that names none. Without
any tags these are all targets. -/
def Lang.resolve (tags : List String) : Except Failure (List Lang) :=
  match tags with
  | [] => .ok Lang.all
  | tags => go [] tags
where
  /-- The targets of tags after those that were found already. -/
  go (found : List Lang) : List String → Except Failure (List Lang)
    | [] => .ok found
    | tag :: rest =>
      match Lang.parse? tag with
      | none => .error (.unknownLang tag)
      | some l => go (if found.contains l then found else found ++ [l]) rest

end DeclGen
