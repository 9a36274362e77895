import DeclGen.Decimal.Basic
import DeclGen.Json.Reader

/-!
# Tokens

A text in CUE is cut into names, numbers, strings and signs. Where a line ends behind something that
can end a field, a comma is put in.
-/

namespace DeclGen.Cue

/-- A number as it is spelled: `coefficient · 10 ^ exponent`. Whole numbers are a type of their
own. -/
structure Number where
  coefficient : Int
  exponent : Int := 0
  isWhole : Bool := true
  deriving DecidableEq, Repr, Inhabited

/-- A piece of a string: text, or an expression whose value is put in. -/
inductive Piece where
  | text (s : String)
  | code (source : List Char)
  deriving DecidableEq, Repr, Inhabited

/-- What a token is. -/
inductive TokenKind where
  | name (s : String)
  | number (n : Number)
  | string (pieces : List Piece)
  | sign (s : String)
  | comma
  | finish
  | invalid
  deriving DecidableEq, Repr, Inhabited

/-- A token and its line. -/
structure Token where
  kind : TokenKind
  line : Nat
  deriving DecidableEq, Repr, Inhabited

/-- Whether a character may be part of a name. -/
def isNameChar (c : Char) : Bool := c.isAlphanum || c == '_' || c == '$' || c.toNat ≥ 0x80

/-- The length of the name at the start of a text; marks may stand in front of it. -/
def nameLength : List Char → Nat
  | '_' :: '#' :: rest => 2 + (rest.takeWhile isNameChar).length
  | '#' :: rest => 1 + (rest.takeWhile isNameChar).length
  | cs => (cs.takeWhile isNameChar).length

/-- The value of digits in a base, with underscores left out. -/
def digitsIn? (base : Nat) (cs : List Char) : Option Nat :=
  let ds := cs.filter (· != '_')
  if ds.isEmpty then none
  else ds.foldlM (fun n c => do
    let d ← Json.hexValue? c
    if d < base then some (n * base + d) else none) 0

/-- The factor of a suffix of a number. -/
def factor? : String → Option Nat
  | "K" => some (Nat.pow 10 3)
  | "M" => some (Nat.pow 10 6)
  | "G" => some (Nat.pow 10 9)
  | "T" => some (Nat.pow 10 12)
  | "Ki" => some (Nat.pow 2 10)
  | "Mi" => some (Nat.pow 2 20)
  | "Gi" => some (Nat.pow 2 30)
  | "Ti" => some (Nat.pow 2 40)
  | _ => none

/-- The number that a word spells. -/
def number? (cs : List Char) : Option Number :=
  match cs with
  | '0' :: 'x' :: rest => (digitsIn? 16 rest).map fun n => { coefficient := n }
  | '0' :: 'o' :: rest => (digitsIn? 8 rest).map fun n => { coefficient := n }
  | '0' :: 'b' :: rest => (digitsIn? 2 rest).map fun n => { coefficient := n }
  | _ =>
    let plain := cs.filter (· != '_')
    let digits := plain.takeWhile fun c => c.isDigit
    match factor? (String.ofList (plain.drop digits.length)) with
    | some f => (digitsIn? 10 digits).map fun n => { coefficient := n * f }
    | none => do
      let l ← Decimal.literal? plain
      let isWhole := plain.all Char.isDigit
      if isWhole && 1 < plain.length && plain.head? == some '0' then none
      return { coefficient := l.value.digits, exponent := l.value.exponent, isWhole }

/-- The length of the number word at the start of a text. The sign of an exponent belongs to it. -/
def numberLength (before : Char) : List Char → Nat
  | [] => 0
  | c :: rest =>
    if c.isAlphanum || c == '_' || c == '.'
        || ((c == '+' || c == '-') && (before == 'e' || before == 'E')) then
      1 + numberLength c rest
    else 0

/-- The characters up to the parenthesis that closes an open one, and those after it. -/
def untilParen (depth : Nat) (inString : Bool) (acc : List Char) :
    List Char → Option (List Char × List Char)
  | [] => none
  | '\\' :: c :: rest => untilParen depth inString (c :: '\\' :: acc) rest
  | c :: rest =>
    if c == '"' then untilParen depth (!inString) (c :: acc) rest
    else if inString then untilParen depth inString (c :: acc) rest
    else if c == '(' then untilParen (depth + 1) inString (c :: acc) rest
    else if c == ')' then
      if depth == 0 then some (acc.reverse, rest)
      else untilParen (depth - 1) inString (c :: acc) rest
    else untilParen depth inString (c :: acc) rest

/-- The character that a one-letter escape stands for. -/
def escape? : Char → Option Char
  | 'a' => some '\x07'
  | 'b' => some '\x08'
  | 'f' => some '\x0c'
  | 'n' => some '\n'
  | 'r' => some '\r'
  | 't' => some '\t'
  | 'v' => some '\x0b'
  | '\\' => some '\\'
  | '/' => some '/'
  | '"' => some '"'
  | _ => none

/-- The character that hexadecimal digits name. -/
def codeChar? (ds : List Char) : Option Char := do
  let v ← digitsIn? 16 ds
  if h : v.isValidChar then some (Char.ofNatAux v h) else none

/-- The character that a code unit of four digits names, or that it names together with a second one
behind it. -/
def unitChar? (cs : List Char) : Option (Char × List Char) :=
  match cs.drop 4 with
  | '\\' :: 'u' :: more =>
    match do Json.pair? (← digitsIn? 16 (cs.take 4)) (← digitsIn? 16 (more.take 4)) with
    | some c => some (c, more.drop 4)
    | none => (codeChar? (cs.take 4)).map (·, '\\' :: 'u' :: more)
  | rest => (codeChar? (cs.take 4)).map (·, rest)

/-- The pieces of a string up to its closing mark or, where it was cut out before, up to the end of
the text; at most `fuel` characters and escapes. -/
def pieces (isCut : Bool) :
    (fuel : Nat) → (acc : List Char) → List Char → Option (List Piece × List Char)
  | 0, _, _ => none
  | _ + 1, acc, [] => if isCut then some ([.text (String.ofList acc.reverse)], []) else none
  | fuel + 1, acc, '\\' :: '(' :: rest => do
    let (source, rest) ← untilParen 0 false [] rest
    let (more, rest) ← pieces isCut fuel [] rest
    return (.text (String.ofList acc.reverse) :: .code source :: more, rest)
  | fuel + 1, acc, '\\' :: 'u' :: rest => do
    let (c, rest) ← unitChar? rest
    pieces isCut fuel (c :: acc) rest
  | fuel + 1, acc, '\\' :: 'U' :: rest => do
    pieces isCut fuel ((← codeChar? (rest.take 8)) :: acc) (rest.drop 8)
  | fuel + 1, acc, '\\' :: e :: rest => do pieces isCut fuel ((← escape? e) :: acc) rest
  | fuel + 1, acc, c :: rest =>
    if isCut then pieces isCut fuel (c :: acc) rest
    else if c == '"' then some ([.text (String.ofList acc.reverse)], rest)
    else if c == '\n' then none
    else pieces isCut fuel (c :: acc) rest

/-- The characters before three quotation marks, and those after them. -/
def untilMarks (acc : List Char) : List Char → Option (List Char × List Char)
  | '"' :: '"' :: '"' :: rest => some (acc.reverse, rest)
  | c :: rest => untilMarks (c :: acc) rest
  | [] => none

/-- The lines of a text. -/
def lines (acc : List Char) : List Char → List (List Char)
  | [] => [acc.reverse]
  | '\n' :: rest => acc.reverse :: lines [] rest
  | c :: rest => lines (c :: acc) rest

/-- The text of a string over several lines: the white space in front of the closing marks is taken
off each line. -/
def dedent (cs : List Char) : Option (List Char) :=
  match lines [] cs with
  | [] :: rest =>
    match rest.reverse with
    | [] => none
    | last :: body =>
      if !last.all (fun c => c == ' ' || c == '\t') then none
      else
        let strip (l : List Char) : Option (List Char) :=
          if last.isPrefixOf l then some (l.drop last.length)
          else if l.isEmpty then some []
          else none
        (body.reverse.mapM strip).map fun ls => ['\n'].intercalate ls
  | _ => none

/-- A string after its first quotation mark, and the characters after it. -/
def string? (cs : List Char) : Option (List Piece × List Char) :=
  match cs with
  | '"' :: '"' :: rest => do
    let (raw, rest) ← untilMarks [] rest
    let text ← dedent raw
    let (ps, _) ← pieces true (text.length + 1) [] text
    return (ps, rest)
  | _ => pieces false (cs.length + 1) [] cs

/-- Signs of several characters, and those of one. -/
def signs : List String :=
  ["...", "_|_", "&&", "||", "==", "!=", "<=", ">=", "=~", "!~", "\x7b", "\x7d", "[", "]", "(", ")",
    ":", "?", "!", "&", "|", "+", "-", "*", "/", "<", ">", "=", ".", ";"]

/-- Whether a line end behind a token ends a field. -/
def endsField : TokenKind → Bool
  | .name _ | .number _ | .string _ => true
  | .sign s => s == ")" || s == "]" || s == "\x7d" || s == "..." || s == "_|_" || s == "?"
  | _ => false

/-- The next token of a text that is not white space, and the characters after it. -/
def token? (cs : List Char) : Option (TokenKind × List Char) :=
  match cs with
  | ',' :: rest => some (.comma, rest)
  | '"' :: rest => (string? rest).map fun (ps, r) => (.string ps, r)
  | c :: _ =>
    match signs.find? fun s => s.toList.isPrefixOf cs with
    | some s => some (.sign s, cs.drop s.length)
    | none =>
      if c.isDigit then
        let n := numberLength c cs
        (number? (cs.take n)).map fun v => (.number v, cs.drop n)
      else
        let n := nameLength cs
        if n == 0 then none else some (.name (String.ofList (cs.take n)), cs.drop n)
  | [] => none

/-- The tokens of a text from a line on, of which there are at most `fuel`. `pending` says that a
line end has to be taken for a comma. Behind the first thing that is no token nothing is read. -/
def tokensFrom : (fuel : Nat) → (line : Nat) → (pending : Bool) → List Char → List Token
  | 0, line, _, _ => [⟨.invalid, line⟩]
  | _ + 1, line, pending, [] =>
    (if pending then [⟨.comma, line⟩] else []) ++ [⟨.finish, line⟩]
  | fuel + 1, line, pending, '\n' :: rest =>
    (if pending then [⟨.comma, line⟩] else []) ++ tokensFrom fuel (line + 1) false rest
  | fuel + 1, line, pending, '/' :: '/' :: rest =>
    tokensFrom fuel line pending (rest.dropWhile (· != '\n'))
  | fuel + 1, line, pending, c :: rest =>
    if c == ' ' || c == '\t' || c == '\r' then tokensFrom fuel line pending rest
    else match token? (c :: rest) with
      | none => [⟨.invalid, line⟩]
      | some (kind, more) =>
        let passed := (c :: rest).take ((c :: rest).length - more.length)
        ⟨kind, line⟩
          :: tokensFrom fuel (line + (passed.filter (· == '\n')).length) (endsField kind) more

/-- The tokens of a text that starts on a line. -/
def tokens (line : Nat) (cs : List Char) : List Token := tokensFrom (cs.length + 1) line false cs

end DeclGen.Cue
