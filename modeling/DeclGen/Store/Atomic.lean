import DeclGen.Store.Files

/-!
# Atomic writes

A file is written under a temporary name in the same directory and then moved to its own name. When
a step fails the temporary file is taken away, and the old file is as it was.
-/

namespace DeclGen

/-- The step of an atomic write that failed. -/
inductive WriteStep where
  | create
  | write
  | rename
  deriving DecidableEq, Repr, Inhabited

/-- The spelling of a step. -/
def WriteStep.spelling : WriteStep → String
  | create => "create"
  | write => "write"
  | rename => "rename"

/-- Output that could not be written. -/
structure WriteError where
  step : WriteStep
  path : String
  cause : Files.Failure
  deriving DecidableEq, Repr, Inhabited

/-- The message of output that could not be written. -/
def WriteError.message (e : WriteError) : String :=
  e.step.spelling ++ " " ++ e.path ++ ": " ++ e.cause.message

namespace Files

/-- The temporary name for a file; `token` makes it different from all names in use. -/
def temporaryName (token path : String) : String :=
  Path.join (Path.dir path) ("." ++ Path.base path ++ "." ++ token ++ ".tmp")

/-- What can go wrong with the bytes of a new file. -/
inductive Interruption where
  /-- Writing stops when some bytes are taken. -/
  | write (taken : Nat) (cause : StoreError)
  /-- All bytes are taken, but the file cannot be closed. -/
  | close (cause : StoreError)
  deriving DecidableEq, Repr, Inhabited

namespace Interruption

/-- The bytes that have reached the file. -/
def taken (content : Text) : Interruption → Text
  | write n _ => content.take n
  | close _ => content

/-- The failure that is reported of a file. -/
def failure (name : String) : Interruption → Failure
  | write _ e => ⟨"write", [name], e⟩
  | close e => ⟨"close", [name], e⟩

end Interruption

/-- The store after an attempt to write a file atomically, and the error that stopped it. The bytes
may be interrupted on their way into the temporary file. -/
def persist (interruption : Option Interruption) (fs : Files) (token path : String)
    (content : Text) : Files × Option WriteError :=
  let temp := temporaryName token path
  match fs.create temp with
  | .error f => (fs, some ⟨.create, path, f⟩)
  | .ok (loc, created) =>
    match interruption with
    | some i =>
      let stopped := created.set loc (.file (i.taken content))
      (stopped.remove temp, some ⟨.write, path, i.failure temp⟩)
    | none =>
      let written := created.set loc (.file content)
      match written.rename temp path with
      | .error f => (written.remove temp, some ⟨.rename, path, f⟩)
      | .ok moved => (moved, none)

/-- The store after a file was written atomically, and the error that stopped the writing. -/
def writeAtomic (fs : Files) (token path : String) (content : Text) : Files × Option WriteError :=
  fs.persist none token path content

end Files

end DeclGen
