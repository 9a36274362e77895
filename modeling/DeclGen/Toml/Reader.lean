import DeclGen.Toml.Scalar

/-!
# Reading TOML

A text is a sequence of headers and assignments, one on a line. Reading gives the table that the
text describes and the list of its keys in the order of the text, with the lines on which their
values start.

## Implementation notes

The readers of values, elements and pairs call each other and are bounded by a number that goes down
with every call; the length of the text is always enough. A line number is found by counting the
line ends in front of the characters that are left.

Keys that differ only in letter case are different keys of a table. Where both are read as the same
field of a document, they are read in the order of the text and the last one counts; elsewhere no
order is promised for this.
-/

namespace DeclGen.Toml

/-- A key of a text and the line of its value. -/
structure KeyLine where
  key : Key
  line : Nat
  deriving DecidableEq, Repr, Inhabited

/-- The characters after spaces. -/
def skipSpace (cs : List Char) : List Char := cs.dropWhile isSpace

/-- The characters after a comment, from the end of its line on; there may be no comment. -/
def skipComment (cs : List Char) : Option (List Char) :=
  match cs with
  | '#' :: rest =>
    let body := rest.takeWhile (· != '\n')
    let body := if body.getLast? == some '\r' && rest.dropWhile (· != '\n') != [] then body.dropLast
      else body
    if body.any isControl then none else some (rest.drop body.length)
  | cs => some cs

/-- The characters after white space, line ends and comments, of which there are at most `fuel`. -/
def skipLines : (fuel : Nat) → List Char → Option (List Char)
  | 0, cs => some cs
  | fuel + 1, cs => do
    match ← skipComment (skipSpace cs) with
    | '\n' :: rest => skipLines fuel rest
    | '\r' :: '\n' :: rest => skipLines fuel rest
    | cs => some cs

/-- The characters after the end of a line. -/
def endLine (cs : List Char) : Option (List Char) := do
  match ← skipComment (skipSpace cs) with
  | [] => some []
  | '\n' :: rest => some rest
  | '\r' :: '\n' :: rest => some rest
  | _ => none

/-- One name of a key, and the characters after it. -/
def name? (cs : List Char) : Option (String × List Char) :=
  match cs with
  | '"' :: rest =>
    (stringFrom '"' false [] (.text false) rest).map fun (s, r) => (String.ofList s, r)
  | '\'' :: rest =>
    (stringFrom '\'' false [] (.text false) rest).map fun (s, r) => (String.ofList s, r)
  | _ =>
    let word := cs.takeWhile Key.isBare
    if word.isEmpty then none else some (String.ofList word, cs.dropWhile Key.isBare)

/-- A dotted key of at most `fuel` names, and the characters after it and the spaces behind it. -/
def key? : (fuel : Nat) → List Char → Option (Key × List Char)
  | 0, _ => none
  | fuel + 1, cs => do
    let (name, rest) ← name? cs
    match skipSpace rest with
    | '.' :: rest => do
      let (more, rest) ← key? fuel (skipSpace rest)
      return (name :: more, rest)
    | rest => return ([name], rest)

/-- The line of what is left of a text. -/
def lineAt (whole rest : List Char) : Nat :=
  ((whole.take (whole.length - rest.length)).filter (· == '\n')).length + 1

/-- What the reading of a value gives: the value, the keys inside it, and the characters after
it. -/
abbrev Read (α : Type) := α × List KeyLine × List Char

mutual

/-- A value under a key. -/
def value? (whole : List Char) (key : Key) : (fuel : Nat) → List Char → Option (Read Value)
  | 0, _ => none
  | fuel + 1, cs =>
    match cs with
    | '[' :: rest => do
      let (es, ks, rest) ← elems? whole key fuel rest
      return (.list es, ks, rest)
    | '\x7b' :: rest => do
      let (t, ks, rest) ← pairs? whole key [] fuel rest
      return (.table false t, ks, rest)
    | '"' :: _ | '\'' :: _ => (string? cs).map fun (s, r) => (.string s, [], r)
    | _ =>
      let (word, rest) := takeWord cs
      (word? word).map fun v => (v, [], rest)

/-- The elements of a list up to its closing bracket. -/
def elems? (whole : List Char) (key : Key) : (fuel : Nat) → List Char → Option (Read (List Value))
  | 0, _ => none
  | fuel + 1, cs => do
    match ← skipLines cs.length cs with
    | ']' :: rest => return ([], [], rest)
    | cs => do
      let (v, ks, rest) ← value? whole key fuel cs
      match ← skipLines rest.length rest with
      | ',' :: rest => do
        let (vs, more, rest) ← elems? whole key fuel rest
        return (v :: vs, ks ++ more, rest)
      | ']' :: rest => return ([v], ks, rest)
      | _ => none

/-- The pairs of a table up to its closing brace, put into a table. -/
def pairs? (whole : List Char) (key : Key) (t : Table) :
    (fuel : Nat) → List Char → Option (Read Table)
  | 0, _ => none
  | fuel + 1, cs => do
    match ← skipLines cs.length cs with
    | '\x7d' :: rest => return (t, [], rest)
    | cs => do
      let (k, rest) ← key? (cs.length + 1) cs
      let line := lineAt whole cs
      let rest ← after '=' rest
      let (v, ks, rest) ← value? whole (key ++ k) fuel (skipSpace rest)
      let t ← t.assignAt [] k v
      let ks := ⟨key ++ k, line⟩ :: ks
      match ← skipLines rest.length rest with
      | ',' :: rest => do
        let (t, more, rest) ← pairs? whole key t fuel rest
        return (t, ks ++ more, rest)
      | '\x7d' :: rest => return (t, ks, rest)
      | _ => none

end

/-- What was read of a text. -/
structure Reading where
  table : Table := []
  keys : List KeyLine := []
  /-- The key of the last header. -/
  place : Key := []
  deriving Inhabited

/-- One header or assignment, and the characters after its line. -/
def statement (whole : List Char) (r : Reading) (cs : List Char) :
    Option (Reading × List Char) := do
  let line := lineAt whole cs
  match cs with
  | '[' :: '[' :: rest =>
    let (key, rest) ← key? (rest.length + 1) (skipSpace rest)
    let rest ← after ']' (← after ']' rest)
    let table ← r.table.openElementAt key
    return ({ table, keys := r.keys ++ [⟨key, line⟩], place := key }, ← endLine rest)
  | '[' :: rest =>
    let (key, rest) ← key? (rest.length + 1) (skipSpace rest)
    let rest ← after ']' rest
    let table ← r.table.openAt key
    return ({ table, keys := r.keys ++ [⟨key, line⟩], place := key }, ← endLine rest)
  | _ =>
    let (key, rest) ← key? (cs.length + 1) cs
    let rest ← after '=' rest
    let (v, ks, rest) ← value? whole (r.place ++ key) (rest.length + 1) (skipSpace rest)
    let table ← r.table.assignAt r.place key v
    return ({ r with table, keys := r.keys ++ ⟨r.place ++ key, line⟩ :: ks }, ← endLine rest)

/-- All headers and assignments of a text, of which there are at most `fuel`. -/
def statements (whole : List Char) : (fuel : Nat) → Reading → List Char → Option Reading
  | 0, _, _ => none
  | fuel + 1, r, cs => do
    match ← skipLines cs.length cs with
    | [] => return r
    | cs => do
      let (r, rest) ← statement whole r cs
      statements whole fuel r rest

/-- What a text describes; nothing where it is not well formed. -/
def read? (t : Text) : Option Reading := do
  let cs ← t.chars?
  let cs := match cs with
    | '\uFEFF' :: rest => rest
    | cs => cs
  statements cs (cs.length + 1) {} cs

/-- The line of the last value under a key; a key that no value was written for has none. -/
def Reading.lineOf (r : Reading) (key : Key) : Nat :=
  match r.keys.reverse.find? (·.key == key) with
  | some k => k.line
  | none => 0

end DeclGen.Toml
