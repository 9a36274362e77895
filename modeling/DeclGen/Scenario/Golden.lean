import DeclGen.Scenario.Run
import DeclGen.Store.Files

/-!
# Golden files

Beside a scenario there may be a file for each target that holds the exact output. Outputs are
compared with these files, and the files can be written anew.
-/

namespace DeclGen

/-- Why golden files are not compared or written. -/
inductive GoldenError where
  | unreadable (failure : Files.Failure)
  | directory (failure : Files.Failure)
  | unwritable (failure : Files.Failure)
  deriving DecidableEq, Repr, Inhabited

/-- The message of golden files that are not compared or written. -/
def GoldenError.message : GoldenError → String
  | unreadable f => "failed to read golden file: " ++ f.message
  | directory f => "failed to create golden directory: " ++ f.message
  | unwritable f => "failed to write golden file: " ++ f.message

namespace Scenario

/-- The directory of a scenario's golden files. -/
@[irreducible]
def goldenDirectory (s : Scenario) : String := Path.join (Path.dir (s.file.getD "")) "golden"

/-- The stem of the names of a scenario's golden files: that of its own file, or its name. -/
def goldenStem (s : Scenario) : String :=
  match s.file with
  | some path => Path.stem path
  | none => s.name

/-- The golden file of a scenario for a target. -/
@[irreducible]
def goldenPath (s : Scenario) (l : Lang) : String :=
  Path.join s.goldenDirectory (s.goldenStem ++ "." ++ l.tag ++ ".golden")

/-- Whether an output differs from its golden file; without a file nothing differs. -/
def differs (fs : Files) (s : Scenario) (o : Output) : Except GoldenError Bool :=
  match fs.read (s.goldenPath o.lang) with
  | .ok t => .ok (t ≠ o.text)
  | .error f => if f.cause = .notFound then .ok false else .error (.unreadable f)

/-- The targets whose outputs differ from their golden files. -/
def mismatches (fs : Files) (s : Scenario) : List Output → Except GoldenError (List Lang)
  | [] => .ok []
  | o :: rest => do
    let d ← s.differs fs o
    let more ← mismatches fs s rest
    return if d then o.lang :: more else more

/-- The store with each output in its golden file, up to the first that cannot be written. -/
def writeGolden (s : Scenario) : Files → List Output → Files × Option GoldenError
  | fs, [] => (fs, none)
  | fs, o :: rest =>
    match fs.write (s.goldenPath o.lang) o.text with
    | .error f => (fs, some (.unwritable f))
    | .ok fs => writeGolden s fs rest

/-- The store with the golden files of a scenario written anew. -/
def updateGolden (fs : Files) (s : Scenario) (outputs : List Output) : Files × Option GoldenError :=
  match fs.makeDirectories s.goldenDirectory with
  | .error f => (fs, some (.directory f))
  | .ok fs => s.writeGolden fs outputs

end Scenario

end DeclGen
