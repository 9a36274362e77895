import DeclGen.Command.Failure

/-!
# Generating code

Code is generated from a document for some targets, one after the other. It is printed, or written
to one file per target below an output directory.
-/

namespace DeclGen

/-- What code is generated and where it goes. -/
structure GenerateOptions where
  document : String
  langs : List String := []
  /-- The output directory; nothing for the standard output. -/
  directory : String := ""
  /-- The stem of output file names; nothing for that of the document. -/
  basename : String := ""
  watch : Bool := false
  deriving DecidableEq, Repr, Inhabited

/-- The result for one target: its text, or the path name of the file that holds it. -/
structure Generated where
  lang : Lang
  path : String := ""
  text : Text := []
  deriving DecidableEq, Repr, Inhabited

namespace Generate

/-- The stem of output file names. -/
def stem (o : GenerateOptions) : String :=
  if o.basename = "" then Path.stem o.document else o.basename

/-- The output file of a job. -/
def outputPath (o : GenerateOptions) (job : Job) : String :=
  Path.join o.directory (stem o ++ job.extension)

/-- The result of one job, with the store after it and the notes about it. -/
def emit (o : GenerateOptions) (token : String) (l : Lang) (job : Job) (fs : Files) :
    Files × List Note × Except Failure Generated :=
  if o.directory = "" then
    match job.text with
    | .error v => (fs, [], .error (.render v))
    | .ok text => (fs, [], .ok { lang := l, text })
  else
    let path := outputPath o job
    match job.writeFile fs token path with
    | (fs, .error (.render v)) => (fs, [], .error (.render v))
    | (fs, .error (.write e)) => (fs, [], .error (.write e))
    | (fs, .ok r) => (fs, [.record r], .ok { lang := l, path })

/-- The results for some targets, with the store after them and the notes about them. The first
failure ends it. -/
def renderAll (o : GenerateOptions) (token : String) (c : Content) :
    List Lang → Files → Files × List Note × Except Failure (List Generated)
  | [], fs => (fs, [], .ok [])
  | l :: rest, fs =>
    match Job.create l.tag (c.config l) c.items with
    | .error e => (fs, [], .error (.job e))
    | .ok job =>
      let started := [.record job.createdRecord, .detail ("Rendering " ++ l.displayName)]
      match emit o token l job fs with
      | (fs, notes, .error f) => (fs, started ++ notes, .error f)
      | (fs, notes, .ok g) =>
        let (fs, more, result) := renderAll o token c rest fs
        (fs, started ++ notes ++ more, result.map (g :: ·))

/-- The store with the output directory, where one is wanted. -/
def prepare (o : GenerateOptions) (fs : Files) : Except Failure Files :=
  if o.directory = "" then .ok fs
  else match fs.makeDirectories o.directory with
    | .ok fs => .ok fs
    | .error f => .error (.write ⟨.create, o.directory, f⟩)

/-- What one generation leaves behind. -/
structure Generation where
  files : Files
  notes : List Note := []
  warnings : List Record := []
  result : Except Failure (List Generated)

/-- One generation: the document is loaded and rendered for some targets. -/
def once (o : GenerateOptions) (token : String) (langs : List Lang) (fs : Files) : Generation :=
  match Document.load fs o.document with
  | (warnings, .error e) => { files := fs, warnings, result := .error (.load e) }
  | (warnings, .ok c) =>
    let loaded := c.loadedNote o.document
    match prepare o fs with
    | .error f => { files := fs, notes := [loaded], warnings, result := .error f }
    | .ok fs =>
      let (files, notes, result) := renderAll o token c langs fs
      { files, notes := loaded :: notes, warnings, result }

/-- The payload for one target. -/
def resultJson (g : Generated) : Json :=
  .object (("lang", .ofString g.lang.tag)
    :: (if g.path = "" then [] else [("path", .ofString g.path)])
    ++ if g.text.isEmpty then [] else [("text", .string g.text)])

/-- The report of results: the texts themselves, or a list of the files that were written. -/
def report (r : Reporting) (gs : List Generated) : Except CommandError Text :=
  match r.format with
  | .json => r.success (.object [("outputs", .array (gs.map resultJson))])
  | .text =>
    let printed := (gs.filter (·.path = "")).flatMap (·.text)
    let written := (gs.filter (·.path ≠ "")).length
    if written = 0 then .ok printed
    else .ok (printed ++ .ofString ("✓ Generated " ++ toString written ++ " file(s)\n"
      ++ String.join (gs.map fun g => "  " ++ g.lang.displayName ++ ": " ++ g.path ++ "\n")))

/-- The generate command up to the report of the first generation, with the targets it found. -/
def start (r : Reporting) (o : GenerateOptions) (token : String) (fs : Files) :
    Ending × Option (List Lang) :=
  if o.watch && o.directory = "" then (.stopped r fs .watchWithoutDirectory, none)
  else match Lang.resolve o.langs with
    | .error f => (.stopped r fs f, none)
    | .ok langs =>
      let g := once o token langs fs
      match g.result with
      | .error f => (.stopped r g.files f g.notes g.warnings, none)
      | .ok gs =>
        let printed := report r gs
        (.reported g.files printed none g.notes g.warnings,
          if printed.isOk then some langs else none)

end Generate

end DeclGen
