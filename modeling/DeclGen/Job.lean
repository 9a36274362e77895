import DeclGen.Log
import DeclGen.Render.Layout
import DeclGen.Store.Atomic
import DeclGen.Tree.Dump

/-!
# Jobs

A job is a rendering request for one target: a validated forest, a format and a substitution. A job
that was created always renders, and may be rendered as often as wanted.
-/

namespace DeclGen

/-- Why a job cannot be created. -/
inductive JobError where
  | unknownLang (tag : String)
  | invalidOption (tag : String) (cause : InvalidOption)
  | invalidTree (violation : Violation)
  deriving DecidableEq, Repr, Inhabited

/-- The message for a language tag that names no target. -/
def unknownLangMessage (tag : String) : String := "unknown target language: " ++ quote tag

/-- The message of a job error. -/
def JobError.message : JobError → String
  | unknownLang tag => unknownLangMessage tag
  | invalidOption tag cause => tag ++ " config: " ++ cause.message
  | invalidTree v => v.message

/-- A rendering request for one target. -/
structure Job where
  /-- The language tag under which the job was asked for. -/
  tag : String
  items : Forest
  style : Style

namespace Job

/-- A job for the language `tag`. The dialect is that of the language unless another is given. -/
def create (tag : String) (config : Option Config) (items : Forest)
    (dialect : Option Dialect := none) : Except JobError Job := do
  let dialect ← match dialect, Lang.ofTag? tag with
    | some d, _ => pure d
    | none, some l => pure l.dialect
    | none, none => throw (.unknownLang tag)
  let format ← (Config.format config).mapError (.invalidOption tag)
  match Forest.validate items with
  | some v => throw (.invalidTree v)
  | none => return { tag, items, style := { dialect, format, substitution := .ofConfig config } }

/-- The file name extension of a job's target. -/
def extension (j : Job) : String := j.style.dialect.extension.toString

/-- The generated source text. -/
def text (j : Job) : Except Violation Text := j.style.render j.items

/-- The forest after substitution. -/
def tree (j : Job) : Forest := j.style.substitution.apply j.items

/-- A description: the target and the forest after substitution. -/
def describe (j : Job) : String :=
  "Target: " ++ Lang.displayNameOfTag j.tag ++ "\n*\n" ++ j.tree.dump ++ "*\n"

/-- The record of a job's creation. -/
def createdRecord (j : Job) : Record where
  level := .debug
  message := "job created"
  fields := [("lang", j.tag), ("items", toString j.items.length),
    ("indent_width", toString j.style.format.width.toNat),
    ("indent_char", String.singleton j.style.format.fill),
    ("substitution", toString (!j.style.substitution.isIdentity))]

/-- The record of a written file. -/
def writtenRecord (j : Job) (path : String) (text : Text) : Record where
  level := .info
  message := "output written"
  fields := [("lang", j.tag), ("path", path), ("bytes", toString text.length)]

/-- Why a job's output is not written. -/
inductive OutputError where
  | render (violation : Violation)
  | write (error : WriteError)
  deriving DecidableEq, Repr, Inhabited

/-- The message of an output error. -/
def OutputError.message : OutputError → String
  | render v => v.message
  | write e => e.message

/-- The store after an attempt to write a job's text to `path`, with the record of the writing. -/
def persist (interruption : Option Files.Interruption) (j : Job) (fs : Files)
    (token path : String) : Files × Except OutputError Record :=
  match j.text with
  | .error v => (fs, .error (.render v))
  | .ok text =>
    match fs.persist interruption token path text with
    | (fs, some e) => (fs, .error (.write e))
    | (fs, none) => (fs, .ok (j.writtenRecord path text))

/-- The store after a job's text was written to `path`, with the record of the writing. -/
def writeFile (j : Job) (fs : Files) (token path : String) :
    Files × Except OutputError Record :=
  j.persist none fs token path

end Job

end DeclGen
