import DeclGen.Command.Generate

/-!
# Watching a document

After the first generation the directory of the document is watched. An event that creates or writes
the document arms a timer, and when the timer expires the code is generated anew. A generation that
fails is logged, and the files stay as they were.
-/

namespace DeclGen

/-- What happened to a file. -/
inductive FileOperation where
  | create
  | write
  | remove
  deriving DecidableEq, Repr, Inhabited

/-- The name of an operation on a file. -/
def FileOperation.label : FileOperation → String
  | create => "CREATE"
  | write => "WRITE"
  | remove => "REMOVE"

/-- An event in the watched directory. -/
structure FileEvent where
  name : String
  operation : FileOperation
  deriving DecidableEq, Repr, Inhabited

/-- A watched document: what is generated from it, for which targets, and whether the timer is
armed. -/
structure Watch where
  reporting : Reporting
  options : GenerateOptions
  langs : List Lang
  armed : Bool := false
  deriving DecidableEq, Repr, Inhabited

namespace Watch

/-- The record of the start of watching. -/
def startedRecord (path : String) : Record where
  level := .info
  message := "watching document"
  fields := [("path", path)]

/-- The record of a change of the document. -/
def changedRecord (e : FileEvent) : Record where
  level := .debug
  message := "document changed"
  fields := [("file", e.name), ("op", e.operation.label)]

/-- The record of a generation that failed, or whose report did, with an error message. -/
def failedRecord (path error : String) : Record where
  level := .error
  message := "regeneration failed"
  fields := [("path", path), ("error", error)]

/-- The record of a generation. -/
def regeneratedRecord (path : String) : Record where
  level := .info
  message := "regenerated"
  fields := [("path", path)]

/-- The event that a change of a file causes; a change in another directory causes none. -/
def event? (document changed : String) (operation : FileOperation) : Option FileEvent :=
  if Path.dir changed = Path.dir document then
    some ⟨Path.dir document ++ "/" ++ Path.base changed, operation⟩
  else none

/-- Whether an event asks for a generation. -/
def concerns (document : String) (e : FileEvent) : Bool :=
  Path.base e.name == Path.base document && e.operation != .remove

/-- What an event does. -/
def notice (w : Watch) (e : FileEvent) : Watch × List Note :=
  if concerns w.options.document e then
    ({ w with armed := true }, [.record (changedRecord e)])
  else (w, [])

/-- What the expiry of the timer does. -/
def expire (w : Watch) (token : String) (fs : Files) : Watch × Ending :=
  if w.armed then
    let g := Generate.once w.options token w.langs fs
    let path := w.options.document
    let (out, last) := match g.result with
      | .error f => ([], failedRecord path f.message)
      | .ok gs =>
        match Generate.report w.reporting gs with
        | .error e => ([], failedRecord path e.text)
        | .ok out => (out, regeneratedRecord path)
    ({ w with armed := false },
      { files := g.files, out, notes := g.notes ++ [.record last], warnings := g.warnings })
  else (w, { files := fs })

end Watch

end DeclGen
