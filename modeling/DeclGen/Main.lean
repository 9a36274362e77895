import DeclGen.Command.Run

/-!
# The program

The outer layer: it reads the files that a command line names into a store, runs the command line on
the store, and writes what changed.
-/

namespace DeclGen

/-- The content of a file. -/
def readText (path : String) : IO Text := do return (← IO.FS.readBinFile path).toList

/-- The store with a file or directory, if there is one under this name. -/
def addName (fs : Files) (path : String) : IO Files := do
  try
    if ← (← IO.FS.realPath path).isDir then return fs.addDirectory path
    else return fs.addFile path (← readText path)
  catch _ => return fs

/-- The store with a file or with all that is below a directory. -/
partial def addTree (fs : Files) (path : String) : IO Files := do
  let fs ← addName fs path
  try
    let here ← IO.FS.realPath path
    if ← here.isDir then
      (← here.readDir).foldlM (fun fs e => addTree fs (path ++ "/" ++ e.fileName)) fs
    else return fs
  catch _ => return fs

/-- The store with the documents of scenarios. -/
def addDocuments (o : SuiteOptions) (fs : Files) : IO Files := do
  match Suite.files { o with filter := "" } fs with
  | .error _ => return fs
  | .ok paths => paths.foldlM (fun fs path =>
      match (fs.read path).toOption.bind fun t => (Scenario.readYaml t).toOption with
      | some s => addName fs (s.placed path).document
      | none => return fs) fs

/-- The store with all that a command looks at, and the directory that it may write to. -/
def gather : Command → IO (Files × String)
  | .generate o => do
    let fs ← addName (← addName {} o.document) o.directory
    let fs ← if o.directory = "" then pure fs else
      Lang.all.foldlM (fun fs l => addName fs (Path.join o.directory
        (Generate.stem o ++ Listing.extension l))) fs
    return (fs, o.directory)
  | .validate path | .inspect _ path => do return (← addName {} path, "")
  | .test o => do return (← addDocuments o (← addTree {} o.directory), o.directory)
  | .langs | .schema => return ({}, "")

/-- Writes the files of a store that another store does not have. A file is replaced as a whole. -/
def writeChanges (before after : Files) (directory token : String) : IO Unit := do
  let root := if Path.isAbsolute directory then "/" else ""
  for (loc, content) in after.regular do
    if before.get? loc != some (.file content) then
      let path := root ++ "/".intercalate loc
      IO.FS.createDirAll (Path.dir path)
      let temporary := Files.temporaryName token path
      IO.FS.writeBinFile temporary ⟨content.toArray⟩
      IO.FS.rename temporary path

/-- Prints a text. -/
def printText (stream : IO.FS.Stream) (t : Text) : IO Unit := do
  stream.write ⟨t.toArray⟩
  stream.flush

/-- A name that no other file has. -/
def freshToken : IO String := do
  let a ← IO.rand 0 (Nat.pow 2 64 - 1)
  let b ← IO.rand 0 (Nat.pow 2 64 - 1)
  return String.ofList (Text.hexDigits 16 a ++ Text.hexDigits 16 b)

/-- Generates anew whenever the document has changed. -/
partial def watchLoop (w : Watch) (before : Files) : IO Unit := do
  IO.sleep 200
  let path := w.options.document
  let now ← addName before path
  let (w, notes) :=
    if now.get? (Path.components path) == before.get? (Path.components path) then (w, [])
    else match Watch.event? path path .write with
      | some e => w.notice e
      | none => (w, [])
  let token ← freshToken
  let (w, e) := w.expire token now
  writeChanges now e.files w.options.directory token
  printText (← IO.getStdout) e.out
  printText (← IO.getStderr) (w.reporting.notes (notes ++ e.warnings.map .record ++ e.notes))
  watchLoop w e.files

end DeclGen

open DeclGen in
/-- Runs a command line. -/
def main (args : List String) : IO UInt32 := do
  let (files, directory) ← match Request.parse args with
    | .ok (.command _ c) => gather c
    | _ => pure ({}, "")
  let token ← freshToken
  let p := perform token files args
  writeChanges files p.ending.files directory token
  printText (← IO.getStdout) p.ending.out
  let warnings := p.ending.warnings.flatMap fun r => Text.ofString r.line
  printText (← IO.getStderr) (warnings ++ p.err)
  if let some w := p.watch then watchLoop w p.ending.files
  match p.ending.error with
  | some (.plain message) => (← IO.getStderr).putStrLn ("Error: " ++ message)
  | _ => pure ()
  return (exitCode p.ending.error).toNat.toUInt32
