/-!
# Path names

Path names are strings of components separated by slashes. The functions here work on names alone
and never look at what a name leads to.
-/

namespace DeclGen.Path

/-- The pieces of a name between its slashes, given the piece that is being read, last character
first. -/
def piecesFrom (piece : List Char) : List Char → List String
  | [] => [String.ofList piece.reverse]
  | '/' :: rest => String.ofList piece.reverse :: piecesFrom [] rest
  | c :: rest => piecesFrom (c :: piece) rest

/-- The pieces of a name between its slashes; two slashes in a row have an empty piece between. -/
def pieces (path : String) : List String := piecesFrom [] path.toList

/-- Whether a name starts at the root. -/
def isAbsolute (path : String) : Bool := path.toList.head? == some '/'

/-- A component list with one more piece taken in; the list stands in reverse. -/
def push (rooted : Bool) (stack : List String) (piece : String) : List String :=
  if piece == "" || piece == "." then stack
  else if piece == ".." then
    match stack with
    | [] => if rooted then [] else [".."]
    | top :: below => if top == ".." then ".." :: stack else below
  else piece :: stack

/-- The components of a name after all steps to the same or to the parent directory are taken. -/
def components (path : String) : List String :=
  ((pieces path).foldl (push (isAbsolute path)) []).reverse

/-- The shortest name for the same place. -/
def clean (path : String) : String :=
  let body := "/".intercalate (components path)
  if isAbsolute path then "/" ++ body else if body.isEmpty then "." else body

/-- Two names, one below the other; empty names are left out. -/
def join (dir name : String) : String :=
  if dir.isEmpty then (if name.isEmpty then "" else clean name)
  else if name.isEmpty then clean dir
  else clean (dir ++ "/" ++ name)

/-- The characters after the last slash, in reverse. -/
def lastPiece (path : String) : List Char := path.toList.reverse.takeWhile (· != '/')

/-- The directory part of a name. -/
def dir (path : String) : String :=
  clean (String.ofList (path.toList.reverse.dropWhile (· != '/')).reverse)

/-- The last component of a name. -/
def base (path : String) : String :=
  if path.isEmpty then "."
  else
    let trimmed := path.toList.reverse.dropWhile (· == '/')
    if trimmed.isEmpty then "/" else String.ofList (trimmed.takeWhile (· != '/')).reverse

/-- The extension of a name: the last dot of its last component and what follows. -/
def extension (path : String) : String :=
  let last := lastPiece path
  if last.contains '.' then
    String.ofList ('.' :: (last.takeWhile (· != '.')).reverse)
  else ""

/-- A string without an ending, if it has that ending. -/
def dropEnding (s ending : String) : String :=
  let cs := s.toList
  if ending.toList.isSuffixOf cs then String.ofList (cs.take (cs.length - ending.length)) else s

/-- The last component of a name without its extension. -/
def stem (path : String) : String := dropEnding (base path) (extension path)

/-- The extension in lower case, for comparison with ASCII extensions. -/
def lowerExtension (path : String) : String := (extension path).map Char.toLower

end DeclGen.Path
