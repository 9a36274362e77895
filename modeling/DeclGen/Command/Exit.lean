/-!
# Exit codes

A command ends well or with an error. An error that the command has reported itself carries an exit
code; any other error counts as a failure.
-/

namespace DeclGen

/-- An error with an exit code. -/
structure ExitError where
  code : Int
  message : String
  cause : Option String := none
  deriving DecidableEq, Repr, Inhabited

/-- The text of an error with an exit code. -/
def ExitError.text (e : ExitError) : String :=
  match e.cause with
  | some c => e.message ++ ": " ++ c
  | none => e.message

/-- How a command ends that does not end well. -/
inductive CommandError where
  | exit (e : ExitError)
  | plain (message : String)
  deriving DecidableEq, Repr, Inhabited

namespace CommandError

/-- The text of an error. -/
def text : CommandError → String
  | exit e => e.text
  | plain m => m

/-- The exit code of an error. -/
def code : CommandError → Int
  | exit e => e.code
  | plain _ => 1

/-- Whether an error was reported by the command itself. -/
def isReported : CommandError → Bool
  | exit _ => true
  | plain _ => false

end CommandError

/-- The exit code of a command. -/
def exitCode : Option CommandError → Int
  | none => 0
  | some e => e.code

end DeclGen
