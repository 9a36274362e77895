import DeclGen.Store.Path
import DeclGen.Text.Basic

/-!
# A store of files

The store holds directories and regular files by location, relative to the working directory. Its
operations take path names, follow them component by component, and fail with the errors of the
system interface.

## Implementation notes

A location is a list of components. It may begin with steps to the parent of the working directory;
such places outside exist as directories, and nothing is known to be in them.
-/

namespace DeclGen

/-- Why an operation on the store fails. -/
inductive StoreError where
  | notFound
  | notDirectory
  | isDirectory
  | alreadyExists
  | noSpace
  deriving DecidableEq, Repr, Inhabited

/-- The wording of a store error. -/
def StoreError.text : StoreError → String
  | notFound => "no such file or directory"
  | notDirectory => "not a directory"
  | isDirectory => "is a directory"
  | alreadyExists => "file exists"
  | noSpace => "no space left on device"

/-- What stands at a location. -/
inductive Entry where
  | directory
  | file (content : Text)
  deriving DecidableEq, Repr, Inhabited

/-- A place in the store. -/
abbrev Location := List String

/-- The directories and files of a store. -/
structure Files where
  entries : List (Location × Entry) := []
  deriving Repr, Inhabited

namespace Files

/-- Whether a location is the working directory or above it. -/
def isOutside (loc : Location) : Bool := loc.all (· == "..")

/-- What stands at a location. -/
def get? (fs : Files) (loc : Location) : Option Entry :=
  if isOutside loc then some .directory else fs.entries.lookup loc

/-- The entry list with one entry set. -/
def setEntry (loc : Location) (e : Entry) : List (Location × Entry) → List (Location × Entry)
  | [] => [(loc, e)]
  | (l, x) :: rest => if l = loc then (l, e) :: rest else (l, x) :: setEntry loc e rest

/-- The store with an entry set. -/
def set (fs : Files) (loc : Location) (e : Entry) : Files := ⟨setEntry loc e fs.entries⟩

/-- The store without the entry at a location. -/
def erase (fs : Files) (loc : Location) : Files := ⟨fs.entries.filter (·.1 != loc)⟩

/-- The location one piece further on. -/
def step (loc : Location) (piece : String) : Location :=
  (Path.push false loc.reverse piece).reverse

/-- The location that the pieces of a name lead to; every place passed through must be a
directory. -/
def follow (fs : Files) : Location → List String → Except StoreError Location
  | loc, [] => .ok loc
  | loc, piece :: rest =>
    match fs.get? loc with
    | some .directory => fs.follow (step loc piece) rest
    | some (.file _) => .error .notDirectory
    | none => .error .notFound

/-- The location of a path name. -/
def locate (fs : Files) (path : String) : Except StoreError Location :=
  if path.isEmpty then .error .notFound else fs.follow [] (Path.pieces path)

/-- What stands at a path name. -/
def stat (fs : Files) (path : String) : Except StoreError Entry := do
  let loc ← fs.locate path
  match fs.get? loc with
  | some e => .ok e
  | none => .error .notFound

/-- A failed operation, with the names it was given. -/
structure Failure where
  operation : String
  names : List String
  cause : StoreError
  deriving DecidableEq, Repr, Inhabited

/-- The message of a failed operation. -/
def Failure.message (f : Failure) : String :=
  " ".intercalate (f.operation :: f.names) ++ ": " ++ f.cause.text

/-- The content of a file. -/
def read (fs : Files) (path : String) : Except Failure Text :=
  match fs.stat path with
  | .ok (.file t) => .ok t
  | .ok .directory => .error ⟨"read", [path], .isDirectory⟩
  | .error e => .error ⟨"open", [path], e⟩

/-- A new, empty file; nothing may stand there yet. -/
def create (fs : Files) (path : String) : Except Failure (Location × Files) :=
  match fs.locate path with
  | .error e => .error ⟨"open", [path], e⟩
  | .ok loc =>
    match fs.get? loc with
    | some _ => .error ⟨"open", [path], .alreadyExists⟩
    | none => .ok (loc, fs.set loc (.file []))

/-- The store with a file at `path` that holds `content`, new or in place of the old file. -/
def write (fs : Files) (path : String) (content : Text) : Except Failure Files :=
  match fs.locate path with
  | .error e => .error ⟨"open", [path], e⟩
  | .ok loc =>
    match fs.get? loc with
    | some .directory => .error ⟨"open", [path], .isDirectory⟩
    | _ => .ok (fs.set loc (.file content))

/-- The store with a file moved to another name; a directory is never replaced. -/
def rename (fs : Files) (source target : String) : Except Failure Files :=
  let fail (e : StoreError) : Except Failure Files := .error ⟨"rename", [source, target], e⟩
  match fs.locate source, fs.locate target with
  | .error e, _ => fail e
  | _, .error e => fail e
  | .ok a, .ok b =>
    match fs.get? b with
    | some .directory => fail .alreadyExists
    | _ =>
      match fs.get? a with
      | none => fail .notFound
      | some e => .ok ((fs.erase a).set b e)

/-- The store without the file at a path name. -/
def remove (fs : Files) (path : String) : Files :=
  match fs.locate path with
  | .ok loc => fs.erase loc
  | .error _ => fs

/-- The names that lead to the parents of a path name and to itself, the shortest first. -/
def leadingNames (path : String) : List String :=
  let rec go (read : List Char) : List Char → List String
    | [] => [String.ofList read.reverse]
    | '/' :: rest => String.ofList read.reverse :: go ('/' :: read) rest
    | c :: rest => go (c :: read) rest
  (go [] path.toList).filter (· != "")

/-- The store with a directory at a path name. -/
def makeDirectory (fs : Files) (path : String) : Except Failure Files :=
  match fs.stat path with
  | .ok .directory => .ok fs
  | .ok (.file _) => .error ⟨"mkdir", [path], .notDirectory⟩
  | .error _ =>
    match fs.locate path with
    | .ok loc => .ok (fs.set loc .directory)
    | .error e => .error ⟨"mkdir", [path], e⟩

/-- The store with a directory at a path name and at all its parents. -/
def makeDirectories (fs : Files) (path : String) : Except Failure Files :=
  (leadingNames path).foldlM makeDirectory fs

/-- Whether one list of components stands before another: component by component, and a directory
before what is in it. -/
def locationLe : Location → Location → Bool
  | [], _ => true
  | _ :: _, [] => false
  | a :: s, b :: t => a < b || (a == b && locationLe s t)

/-- The regular files below a location, in the order of a walk that takes the names of each
directory in increasing order. Each comes with its components below that location. -/
def walk (fs : Files) (root : Location) : List (List String) :=
  let below := fs.entries.filterMap fun (loc, e) =>
    match e with
    | .file _ => if root.isPrefixOf loc then some (loc.drop root.length) else none
    | .directory => none
  below.mergeSort locationLe

/-- The regular files of a store, with their contents. -/
def regular (fs : Files) : List (Location × Text) :=
  fs.entries.filterMap fun (loc, e) =>
    match e with
    | .file t => some (loc, t)
    | .directory => none

/-- The store with a directory and its parents, where nothing stands in the way. -/
def addDirectory (fs : Files) (path : String) : Files :=
  match fs.makeDirectories path with
  | .ok fs => fs
  | .error _ => fs

/-- The store with a file and its parents. -/
def addFile (fs : Files) (path : String) (content : Text) : Files :=
  (fs.addDirectory (Path.dir path)).set (Path.components path) (.file content)

/-- The store that holds the given directories and files with all their parents. -/
def ofLists (dirs : List String) (files : List (String × Text)) : Files :=
  files.foldl (fun fs (path, content) => fs.addFile path content) (dirs.foldl addDirectory {})

end Files

end DeclGen
