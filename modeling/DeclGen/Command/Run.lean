import DeclGen.Command.Arguments
import DeclGen.Command.Inspect
import DeclGen.Command.Listing
import DeclGen.Command.Validate
import DeclGen.Command.Watch

/-!
# Running a command line

A command line is read and its command is run on a store. What is printed, the store afterwards and
the exit code are one value.
-/

namespace DeclGen

/-- The generate command, and the watch that goes on after it. -/
def Generate.run (r : Reporting) (o : GenerateOptions) (token : String) (fs : Files) :
    Ending × Option Watch :=
  match Generate.start r o token fs with
  | (e, some langs) =>
    if o.watch then
      ({ e with notes := e.notes ++ [.record (Watch.startedRecord o.document)] },
        some { reporting := r, options := o, langs })
    else (e, none)
  | (e, none) => (e, none)

namespace Command

/-- A command is run. -/
def run (r : Reporting) (token : String) (fs : Files) : Command → Ending × Option Watch
  | generate o => Generate.run r o token fs
  | validate path => (Validate.run r path fs, none)
  | inspect lang path => (Inspect.run r lang path fs, none)
  | langs => (.reported fs (Listing.langs r), none)
  | test o => (Suite.run r o fs, none)
  | schema => (.reported fs (Listing.schema r), none)

end Command

/-- What the program prints when it is asked for help. -/
def helpText : Text :=
  .ofString ("Usage:\n  " ++ UsageError.program ++ " [command]\n\nAvailable Commands:\n"
    ++ String.join (CommandName.all.map fun c => "  " ++ c.word ++ "\n"))

/-- The ending of a command line that was not understood. Only a command that does not exist is told
at once. -/
def UsageError.ending (fs : Files) (e : UsageError) : Ending :=
  { files := fs
    notes := match e with
      | .unknownCommand _ _ =>
        [.always ("Error: " ++ e.message ++ "\nRun '" ++ UsageError.program
          ++ " --help' for usage.\n")]
      | _ => []
    error := some (.plain e.message) }

/-- What the run of a command line leaves behind: its ending, what its error output shows, and the
watch that goes on. -/
structure Performance where
  ending : Ending
  err : Text
  watch : Option Watch := none

/-- A command line is run on a store. -/
def perform (token : String) (fs : Files) (args : List String) : Performance :=
  match Request.parse args with
  | .error e =>
    let ending := e.ending fs
    { ending, err := ({} : Reporting).notes ending.notes }
  | .ok .help => { ending := { files := fs, out := helpText }, err := [] }
  | .ok (.command r c) =>
    let (ending, watch) := c.run r token fs
    { ending, err := r.notes ending.notes, watch }

end DeclGen
