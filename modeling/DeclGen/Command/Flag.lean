import DeclGen.Text.Quoted

/-!
# Flags on the command line

A flag has a long name and maybe a letter. It is a switch, or it takes a string, a list of strings
or a duration, in the same word behind an equals sign or in the next word. Words that are no flags
are operands, and all words behind two dashes are.
-/

namespace DeclGen

/-- What a flag takes. -/
inductive FlagType where
  | switch
  | text
  | list
  | duration
  deriving DecidableEq, Repr, Inhabited

/-- A flag. -/
structure Flag where
  name : String
  letter : Option Char := none
  type : FlagType
  deriving DecidableEq, Repr, Inhabited

/-- Why the words of a command line are not understood. -/
inductive UsageError where
  | badSyntax (word : String)
  | unknownFlag (name : String)
  | unknownLetter (c : Char) (letters : String)
  | missingValue (word : String)
  | missingLetterValue (c : Char) (letters : String)
  | invalidValue (flag : Flag) (value reason : String)
  | operandCount (count : Nat)
  | unexpectedOperand (operand command : String)
  | unknownCommand (name : String) (similar : List String)
  | invalidFormat (tag : String)
  deriving DecidableEq, Repr, Inhabited

namespace Flag

/-- The name of a flag in messages. -/
def label (f : Flag) : String :=
  match f.letter with
  | some c => "-" ++ String.singleton c ++ ", --" ++ f.name
  | none => "--" ++ f.name

/-- The truth value that a word spells. -/
def bool? : String → Option Bool
  | "1" | "t" | "T" | "TRUE" | "true" | "True" => some true
  | "0" | "f" | "F" | "FALSE" | "false" | "False" => some false
  | _ => none

/-- The length of a unit of time in nanoseconds. -/
def unitLength? : String → Option Nat
  | "ns" => some 1
  | "us" | "µs" | "μs" => some (Nat.pow 10 3)
  | "ms" => some (Nat.pow 10 6)
  | "s" => some (Nat.pow 10 9)
  | "m" => some (60 * Nat.pow 10 9)
  | "h" => some (3600 * Nat.pow 10 9)
  | _ => none

/-- A string in a message about durations: only plain characters stand for themselves. -/
def durationQuote (s : String) : String :=
  let escaped (c : Char) : List Char :=
    if c.toNat ≥ 0x80 || c.toNat < 0x20 then
      (Text.ofChar c).flatMap fun b => '\\' :: 'x' :: Text.hexDigits 2 b.toNat
    else if c == '"' || c == '\\' then ['\\', c]
    else [c]
  String.ofList ('"' :: s.toList.flatMap escaped ++ ['"'])

/-- The value of digits. -/
def number (ds : List Char) : Nat := ds.foldl (fun n c => n * 10 + (c.toNat - 48)) 0

/-- Whether a character belongs to a number with a point. -/
def isNumberChar (c : Char) : Bool := c == '.' || c.isDigit

/-- The nanoseconds that numbers with units add up to, at most `fuel` of them. `whole` is the string
that messages quote. -/
def durationFrom (whole : String) : (fuel : Nat) → (sum : Nat) → List Char → Except String Nat
  | 0, _, _ => .error ("time: invalid duration " ++ durationQuote whole)
  | _ + 1, sum, [] => .ok sum
  | fuel + 1, sum, cs => do
    let invalid : Except String Nat := .error ("time: invalid duration " ++ durationQuote whole)
    let digits := cs.takeWhile Char.isDigit
    let rest := cs.dropWhile Char.isDigit
    let (fraction, rest) := match rest with
      | '.' :: more => (more.takeWhile Char.isDigit, more.dropWhile Char.isDigit)
      | rest => ([], rest)
    if digits.isEmpty && fraction.isEmpty then invalid
    else if Nat.pow 2 63 < number digits then invalid
    else
      let unit := rest.takeWhile fun c => !isNumberChar c
      let rest := rest.dropWhile fun c => !isNumberChar c
      if unit.isEmpty then .error ("time: missing unit in duration " ++ durationQuote whole)
      else match unitLength? (String.ofList unit) with
        | none =>
          .error ("time: unknown unit " ++ durationQuote (String.ofList unit) ++ " in duration "
            ++ durationQuote whole)
        | some length =>
          let part := number fraction * length / Nat.pow 10 fraction.length
          let sum := sum + number digits * length + part
          if Nat.pow 2 63 < sum then invalid else durationFrom whole fuel sum rest

/-- The nanoseconds that a string spells: numbers with units, and maybe a sign in front. -/
def duration (s : String) : Except String Int := do
  let (negative, cs) := match s.toList with
    | '-' :: rest => (true, rest)
    | '+' :: rest => (false, rest)
    | cs => (false, cs)
  if cs = ['0'] then return 0
  if cs.isEmpty then throw ("time: invalid duration " ++ durationQuote s)
  let n ← durationFrom s (cs.length + 1) 0 cs
  if negative then return -n
  else if n = Nat.pow 2 63 then throw ("time: invalid duration " ++ durationQuote s)
  else return n

/-- The fields of a line with commas between, the current one last character first. Inside quotation
marks, commas are plain and two marks stand for one. The number of characters before the line is
`column`. -/
def fieldsFrom : (quoted : Bool) → (atStart : Bool) → (field : List Char) → (column : Nat) →
    List Char → Except String (List String)
  | true, _, _, column, [] =>
    .error ("parse error on line 1, column " ++ toString (column + 1)
      ++ ": extraneous or missing \" in quoted-field")
  | false, _, field, _, [] => .ok [String.ofList field.reverse]
  | true, _, field, column, '"' :: '"' :: rest =>
    fieldsFrom true false ('"' :: field) (column + 2) rest
  | true, _, field, column, '"' :: ',' :: rest => do
    return String.ofList field.reverse :: (← fieldsFrom false true [] (column + 2) rest)
  | true, _, field, _, '"' :: [] => .ok [String.ofList field.reverse]
  | true, _, _, column, '"' :: _ :: _ =>
    .error ("parse error on line 1, column " ++ toString (column + 1)
      ++ ": extraneous or missing \" in quoted-field")
  | true, _, field, column, c :: rest =>
    fieldsFrom true false (c :: field) (column + c.utf8Size) rest
  | false, true, field, column, '"' :: rest => fieldsFrom true false field (column + 1) rest
  | false, _, field, column, c :: rest =>
    if c == '"' then
      .error ("parse error on line 1, column " ++ toString (column + 1)
        ++ ": bare \" in non-quoted field")
    else if c == ',' then do
      return String.ofList field.reverse :: (← fieldsFrom false true [] (column + 1) rest)
    else fieldsFrom false false (c :: field) (column + c.utf8Size) rest

/-- The strings of a list with commas between; nothing is the empty list. -/
def list (s : String) : Except String (List String) :=
  if s = "" then .ok [] else fieldsFrom false true [] 0 s.toList

/-- Why a value does not fit what a flag takes. -/
def reason? (f : Flag) (value : String) : Option String :=
  match f.type with
  | .switch =>
    if (bool? value).isSome then none
    else some ("strconv.ParseBool: parsing " ++ quote value ++ ": invalid syntax")
  | .text => none
  | .list =>
    match list value with
    | .ok _ => none
    | .error e => some e
  | .duration =>
    match duration value with
    | .ok _ => none
    | .error e => some e

end Flag

namespace UsageError

/-- The name of the program. -/
def program : String := "codespawn"

/-- The names of similar commands, which may have been meant. -/
def similarText (similar : List String) : String :=
  if similar.isEmpty then ""
  else "\n\nDid you mean this?\n" ++ String.join (similar.map fun s => "\t" ++ s ++ "\n")

/-- The first byte of a character, between single quotation marks. -/
def letterText (c : Char) : String :=
  let first := match Text.ofChar c with
    | b :: _ => Char.ofNat b.toNat
    | [] => c
  String.ofList ('\'' :: Text.quotedChar '\'' first ++ ['\''])

/-- The message of a usage error. -/
def message : UsageError → String
  | badSyntax w => "bad flag syntax: " ++ w
  | unknownFlag n => "unknown flag: --" ++ n
  | unknownLetter c letters => "unknown shorthand flag: " ++ letterText c ++ " in -" ++ letters
  | missingValue w => "flag needs an argument: " ++ w
  | missingLetterValue c letters =>
    "flag needs an argument: " ++ letterText c ++ " in -" ++ letters
  | invalidValue f value reason =>
    "invalid argument " ++ quote value ++ " for " ++ quote f.label ++ " flag: " ++ reason
  | operandCount n => "accepts 1 arg(s), received " ++ toString n
  | unexpectedOperand o command =>
    "unknown command " ++ quote o ++ " for " ++ quote (program ++ " " ++ command)
  | unknownCommand name similar =>
    "unknown command " ++ quote name ++ " for " ++ quote program ++ similarText similar
  | invalidFormat tag => "invalid format " ++ quote tag ++ ": must be one of [text json]"

end UsageError

/-- What the words of a command line say: flags with their values, in order, and operands. -/
structure Words where
  settings : List (String × String) := []
  operands : List String := []
  deriving DecidableEq, Repr, Inhabited

namespace Words

/-- A flag with a value that was checked. -/
def setting (f : Flag) (value : String) : Except UsageError (String × String) :=
  match f.reason? value with
  | some r => .error (.invalidValue f value r)
  | none => .ok (f.name, value)

/-- The flag with a long name. -/
def byName? (flags : List Flag) (name : String) : Option Flag := flags.find? (·.name == name)

/-- The flag with a letter. -/
def byLetter? (flags : List Flag) (c : Char) : Option Flag := flags.find? (·.letter == some c)

/-- What a word with flag letters says: settings, and the last letter's flag if it still needs a
value from the next word. -/
def letters (flags : List Flag) :
    List Char → Except UsageError (List (String × String) × Option Flag)
  | [] => .ok ([], none)
  | c :: rest =>
    match byLetter? flags c with
    | none => .error (.unknownLetter c (String.ofList (c :: rest)))
    | some f =>
      match rest with
      | '=' :: v :: vs => do return ([← setting f (String.ofList (v :: vs))], none)
      | rest =>
        if f.type = .switch then do
          let s ← setting f "true"
          let (more, open?) ← letters flags rest
          return (s :: more, open?)
        else if rest.isEmpty then .ok ([], some f)
        else do return ([← setting f (String.ofList rest)], none)

/-- What a word says. -/
inductive Reading where
  | operand (word : String)
  /-- All further words are operands. -/
  | finish
  | settings (ss : List (String × String))
  /-- Settings, and a flag that takes the next word; the error is for the case that there is
  none. -/
  | pending (ss : List (String × String)) (flag : Flag) (error : UsageError)

/-- The name and the value of a word with an equals sign. -/
def splitWord (cs : List Char) : String × Option String :=
  let name := cs.takeWhile (· != '=')
  match cs.drop name.length with
  | _ :: value => (String.ofList name, some (String.ofList value))
  | [] => (String.ofList name, none)

/-- The reading of a word. -/
def read (flags : List Flag) (word : String) : Except UsageError Reading :=
  match word.toList with
  | '-' :: '-' :: [] => .ok .finish
  | '-' :: '-' :: c :: cs =>
    if c == '-' || c == '=' then .error (.badSyntax word)
    else
      let (name, value?) := splitWord (c :: cs)
      match byName? flags name, value? with
      | none, _ => .error (.unknownFlag name)
      | some f, some v => do return .settings [← setting f v]
      | some f, none =>
        if f.type = .switch then do return .settings [← setting f "true"]
        else .ok (.pending [] f (.missingValue word))
  | '-' :: c :: cs => do
    match ← letters flags (c :: cs) with
    | (ss, none) => return .settings ss
    | (ss, some f) =>
      let last := f.letter.getD c
      return .pending ss f (.missingLetterValue last (String.singleton last))
  | _ => .ok (.operand word)

/-- What the words of a command line say. -/
def parse (flags : List Flag) : List String → Except UsageError Words
  | [] => .ok {}
  | word :: rest => do
    match ← read flags word with
    | .operand w =>
      let more ← parse flags rest
      return { more with operands := w :: more.operands }
    | .finish => return { operands := rest }
    | .settings ss =>
      let more ← parse flags rest
      return { more with settings := ss ++ more.settings }
    | .pending ss f e =>
      match rest with
      | [] => throw e
      | value :: rest =>
        let s ← setting f value
        let more ← parse flags rest
        return { more with settings := ss ++ s :: more.settings }

/-- Whether a switch is on; the last setting counts. -/
def isOn (w : Words) (name : String) : Bool :=
  ((w.settings.reverse.lookup name).bind Flag.bool?).getD false

/-- The last value of a flag. -/
def last (w : Words) (name : String) (initial : String := "") : String :=
  (w.settings.reverse.lookup name).getD initial

/-- The values of all settings of a flag that takes a list. -/
def all (w : Words) (name : String) : List String :=
  w.settings.flatMap fun (n, v) =>
    if n == name then
      match Flag.list v with
      | .ok vs => vs
      | .error _ => []
    else []

end Words

end DeclGen
