import DeclGen.Cue.Eval
import DeclGen.Document.OfJson
import DeclGen.Document.OfToml
import DeclGen.Document.OfYaml
import DeclGen.Json.Compact
import DeclGen.Schema.Issue
import DeclGen.Store.Files

/-!
# Loading and checking documents

`Document.decode` turns a text into the content of a document, and `Document.load` does so for a
file. `Document.lint` checks a text against the schema without interpreting it.
-/

namespace DeclGen

/-- Why a document is not loaded. -/
inductive LoadError where
  | unsupportedExtension (extension : String)
  | unsupportedFormat (tag : String)
  | notFound (path : String)
  | unreadable (failure : Files.Failure)
  | malformed (format : DocumentFormat) (file : String) (fault : Fault)
  | unknownLang (key : String)
  deriving DecidableEq, Repr, Inhabited

namespace LoadError

/-- The code of an error. -/
def code : LoadError → String
  | unsupportedExtension _ | unsupportedFormat _ => "E003"
  | malformed _ _ _ => "E004"
  | notFound _ | unreadable _ => "E005"
  | unknownLang _ => "E203"

/-- The file and line of an error that is told by its place. -/
def place? : LoadError → Option (String × Nat)
  | malformed _ file (.rejected line) => some (file, line)
  | _ => none

/-- The message of an error without its code. -/
def text : LoadError → String
  | unsupportedExtension e =>
    "unsupported document extension " ++ quote e ++ " (want .json, .yaml, .yml, .toml or .cue)"
  | unsupportedFormat t => "unsupported format " ++ quote t
  | notFound path => "document not found: " ++ path
  | unreadable f => "reading document: " ++ f.message
  | malformed format file fault => "parsing " ++ file ++ ": " ++ format.failure ++ fault.message
  | unknownLang key => "configs: unknown language " ++ quote key

/-- The message of an error. -/
def message (e : LoadError) : String := e.code ++ ": " ++ e.text

end LoadError

/-- Why a document is not checked against the schema. -/
inductive LintError where
  | unsupportedExtension (extension : String)
  | unsupportedFormat (tag file : String)
  | unreadable (failure : Files.Failure)
  | malformed (file : String) (fault : Fault)
  deriving DecidableEq, Repr, Inhabited

namespace LintError

/-- The code of an error. -/
def code : LintError → String
  | unsupportedExtension _ => "E003"
  | unsupportedFormat _ _ | malformed _ _ => "E004"
  | unreadable _ => "E005"

/-- The message of an error without its code. -/
def text : LintError → String
  | unsupportedExtension e => "unsupported document extension " ++ quote e
  | unsupportedFormat t file => "parsing " ++ file ++ ": unsupported format " ++ quote t
  | unreadable f => "reading document: " ++ f.message
  | malformed file fault => "parsing " ++ file ++ ": " ++ fault.message

/-- The message of an error. -/
def message (e : LintError) : String := e.code ++ ": " ++ e.text

end LintError

/-- The format of a file, told by its extension in any letter case. -/
def DocumentFormat.ofPath? (path : String) : Option DocumentFormat :=
  ofExtension? (Path.lowerExtension path)

namespace Document

/-- The JSON text of a text in CUE. -/
def exportCue (t : Text) : Except Fault Text :=
  match Cue.readJson t with
  | .ok v => .ok (.ofChars v.compact)
  | .error line => .error (.rejected line)

/-- The document that a text in a format describes. -/
def read (format : DocumentFormat) (t : Text) : Except Fault Document :=
  match format with
  | .json => readJson t
  | .yaml => readYaml t
  | .toml => readToml t
  | .cue => do readJson (← exportCue t)

/-- The JSON value of a datum, which not every datum has. It is written as text and read again, so
it may not have too many levels. -/
def exported (d : Datum) : Except Fault Json :=
  match d.json with
  | .error obstacle => .error (.unwritable obstacle)
  | .ok v =>
    match v.beyond? Json.maxDepth with
    | some bracket => .error (.tooDeep bracket)
    | none => .ok v

/-- The JSON value that a text in JSON stands for. -/
def readJsonValue (t : Text) : Except Fault Json :=
  match Json.readAll t.chars with
  | .ok v => .ok v.value
  | .error e => .error (.ofReadError e)

/-- The JSON value that a text in a format stands for. -/
def readValue (format : DocumentFormat) (t : Text) : Except Fault Json :=
  match format with
  | .json => readJsonValue t
  | .yaml => do
    match ← Yaml.readDatum t with
    | .null => return .object []
    | d => exported d
  | .toml =>
    match Toml.read? t with
    | some r => exported (.table (Toml.Value.datumEntries r.table))
    | none => .error .malformed
  | .cue => do readJsonValue (← exportCue t)

/-- What a text in a format means, with the records about it. -/
def decode (format : DocumentFormat) (t : Text) (file : String) :
    List Record × Except LoadError Content :=
  match read format t with
  | .error f => ([], .error (.malformed format file f))
  | .ok d => (d.warnings, d.content.mapError .unknownLang)

/-- What the document in a file means, with the records about it. -/
def load (fs : Files) (path : String) : List Record × Except LoadError Content :=
  match DocumentFormat.ofPath? path with
  | none => ([], .error (.unsupportedExtension (Path.extension path)))
  | some format =>
    match fs.read path with
    | .error f =>
      ([], .error (if f.cause = .notFound then .notFound path else .unreadable f))
    | .ok t => decode format t path

/-- The issues of a text in a format. -/
def lint (format : DocumentFormat) (t : Text) (file : String) : Except LintError (List Issue) :=
  match readValue format t with
  | .error f => .error (.malformed file f)
  | .ok v => .ok (Schema.issues v)

/-- The issues of the document in a file. -/
def lintFile (fs : Files) (path : String) : Except LintError (List Issue) :=
  match DocumentFormat.ofPath? path with
  | none => .error (.unsupportedExtension (Path.extension path))
  | some format =>
    match fs.read path with
    | .error f => .error (.unreadable f)
    | .ok t => lint format t path

end Document

end DeclGen
