import DeclGen.Command.Flag
import DeclGen.Command.Generate
import DeclGen.Command.Suite

/-!
# Commands

The first word of a command line that is neither a flag nor the value of one names the command. Two
flags belong to all commands and may stand in front of it.
-/

namespace DeclGen

/-- The commands. -/
inductive CommandName where
  | generate
  | validate
  | inspect
  | langs
  | test
  | schema
  deriving DecidableEq, Repr, Inhabited

/-- A command with all it needs. -/
inductive Command where
  | generate (o : GenerateOptions)
  | validate (document : String)
  | inspect (lang document : String)
  | langs
  | test (o : SuiteOptions)
  | schema
  deriving DecidableEq, Repr, Inhabited

namespace CommandName

/-- All commands, in the order in which similar ones are listed. -/
def all : List CommandName := [generate, validate, inspect, langs, test, schema]

/-- The word for a command. -/
def word : CommandName → String
  | generate => "generate"
  | validate => "validate"
  | inspect => "inspect"
  | langs => "langs"
  | test => "test"
  | schema => "schema"

/-- The command that a word names. -/
def ofWord? (w : String) : Option CommandName := all.find? (·.word == w)

/-- The flag that asks for help. -/
def helpFlag : Flag := { name := "help", letter := some 'h', type := .switch }

/-- The flags of all commands. -/
def commonFlags : List Flag :=
  [{ name := "verbose", letter := some 'v', type := .switch }, { name := "format", type := .text }]

/-- The flags of a command. -/
def flags : CommandName → List Flag
  | generate =>
    [{ name := "lang", letter := some 'l', type := .list },
      { name := "out-dir", letter := some 'o', type := .text },
      { name := "basename", type := .text },
      { name := "watch", letter := some 'w', type := .switch },
      { name := "debounce", type := .duration }] ++ helpFlag :: commonFlags
  | inspect => { name := "lang", letter := some 'l', type := .text } :: helpFlag :: commonFlags
  | test =>
    [{ name := "update", type := .switch }, { name := "filter", type := .text }]
      ++ helpFlag :: commonFlags
  | validate | langs | schema => helpFlag :: commonFlags

/-- Whether a command takes an operand. -/
def takesOperand : CommandName → Bool
  | langs | schema => false
  | _ => true

/-- The command with the settings and the operand that were given. -/
def complete (w : Words) (operand : String) : CommandName → Command
  | generate =>
    .generate
      { document := operand, langs := w.all "lang", directory := w.last "out-dir"
        basename := w.last "basename", watch := w.isOn "watch" }
  | validate => .validate operand
  | inspect => .inspect (w.last "lang") operand
  | langs => .langs
  | test =>
    .test { directory := operand, update := w.isOn "update", filter := w.last "filter" }
  | schema => .schema

end CommandName

/-- What a command line asks for. -/
inductive Request where
  | help
  | command (r : Reporting) (c : Command)
  deriving DecidableEq, Repr, Inhabited

namespace Request

/-- Whether a word in front of the command takes the next word as its value. -/
def takesNext (word : String) : Bool :=
  let cs := word.toList
  if cs.contains '=' then false
  else match cs with
    | '-' :: '-' :: name =>
      !((Words.byName? CommandName.commonFlags (String.ofList name)).any (·.type = .switch))
    | ['-', c] =>
      c.toNat < 0x80 && !((Words.byLetter? CommandName.commonFlags c).any (·.type = .switch))
    | _ => false

/-- Whether a word can be the name of a command. -/
def isPlain (word : String) : Bool := word.toList.head?.any (· != '-')

/-- The first word that is no flag and no value of one, with the words around it. Two dashes end the
search, and so does a flag whose value is the last word. -/
def split (before : List String) : List String → Option (String × List String)
  | [] => none
  | word :: rest =>
    if word == "--" then none
    else if takesNext word then
      match rest with
      | value :: next :: rest => split (before ++ [word, value]) (next :: rest)
      | _ => none
    else if isPlain word then some (word, before ++ rest)
    else split (before ++ [word]) rest

/-- A row of the table of edit distances: the distances of the beginnings of a word to a longer
beginning of the other. `diagonal` and `left` are the entries above left and to the left. -/
def distanceRow (c : Char) : (diagonal left : Nat) → List Char → List Nat → List Nat
  | diagonal, left, d :: ds, above :: rest =>
    let here := if c == d then diagonal else 1 + min diagonal (min left above)
    here :: distanceRow c above here ds rest
  | _, _, _, _ => []

/-- The number of single letter edits between two words. -/
def distance (s t : List Char) : Nat :=
  let first := List.range (t.length + 1)
  let rows := s.foldl (fun row c =>
    match row with
    | corner :: above => (corner + 1) :: distanceRow c corner (corner + 1) t above
    | [] => []) first
  rows.getLastD 0

/-- The commands whose names are similar to a word: they start with it or need at most two edits. -/
def similar (word : String) : List String :=
  let low := word.toList.map Char.toLower
  (CommandName.all.map (·.word) ++ ["completion"]).filter fun w =>
    distance low w.toList ≤ 2 || low.isPrefixOf w.toList

/-- What a command line asks for. -/
def parse (args : List String) : Except UsageError Request :=
  match split [] args with
  | none => do
    let _ ← Words.parse (CommandName.helpFlag :: CommandName.commonFlags) args
    return .help
  | some (word, rest) =>
    match CommandName.ofWord? word with
    | none => if word == "help" then .ok .help else .error (.unknownCommand word (similar word))
    | some name => do
      let w ← Words.parse name.flags rest
      if w.isOn "help" then return .help
      let operand ← match name.takesOperand, w.operands with
        | true, [o] => pure o
        | true, os => throw (.operandCount os.length)
        | false, [] => pure ""
        | false, o :: _ => throw (.unexpectedOperand o name.word)
      let tag := w.last "format" "text"
      match ReportFormat.ofTag? tag with
      | none => throw (.invalidFormat tag)
      | some format =>
        return .command { format, verbose := w.isOn "verbose" } (name.complete w operand)

end Request

end DeclGen
