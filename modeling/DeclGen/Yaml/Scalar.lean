import DeclGen.Json.Reader
import DeclGen.Yaml.Cell

/-!
# Scalars

The three ways to write a scalar: plain, between quotation marks, and as a block of lines. Line ends
inside a plain or quoted scalar are folded: one line end becomes a space, and further ones are kept.
-/

namespace DeclGen.Yaml

/-- White space inside a scalar that is not yet part of it. The lists stand in reverse. -/
inductive Gap where
  | none
  | blanks (cs : List Char)
  /-- A first line end and those after it. The first is missing when it was escaped. -/
  | breaks (first : Option Char) (more : List Char)
  deriving DecidableEq, Repr, Inhabited

namespace Gap

/-- Whether a gap holds a line end. -/
def hasBreak : Gap → Bool
  | breaks _ _ => true
  | _ => false

/-- A gap with one more character of white space. -/
def push (c : Char) : Gap → Gap
  | none => if isBreak c then breaks (some c) [] else blanks [c]
  | blanks cs => if isBreak c then breaks (some c) [] else blanks (c :: cs)
  | breaks f more => if isBreak c then breaks f (c :: more) else breaks f more

/-- What a gap contributes to the scalar, in reverse. -/
def folded : Gap → List Char
  | none => []
  | blanks cs => cs
  | breaks (some '\n') [] => [' ']
  | breaks (some '\n') more => more
  | breaks (some b) more => more ++ [b]
  | breaks Option.none more => more

end Gap

/-- Characters that end a plain scalar inside brackets. -/
def endsFlow (c : Char) : Bool :=
  c == ',' || c == '?' || c == '[' || c == ']' || c == '\x7b' || c == '\x7d'

/-- A plain scalar with what was read of it, whether a line ended behind it, and the cells after it.
`inFlow` says that it stands inside brackets, and `indent` is the least column of its lines. -/
def plainFrom (inFlow : Bool) (indent : Nat) (acc : List Char) (gap : Gap) :
    List Cell → Option (List Char × Bool × List Cell)
  | [] => some (acc.reverse, gap.hasBreak, [])
  | c :: rest =>
    if isGap c.char then
      if gap.hasBreak && c.char == '\t' && c.column < indent then none
      else plainFrom inFlow indent acc (gap.push c.char) rest
    else
      let isFirst := gap != .none || acc.isEmpty
      let ends :=
        (!inFlow && c.column < indent && gap.hasBreak)
          || (isFirst && (atDocumentMark (c :: rest) || c.char == '#'))
          || (c.char == ':' && atGap rest)
          || (inFlow && endsFlow c.char)
      if ends then some (acc.reverse, gap.hasBreak, c :: rest)
      else plainFrom inFlow indent (c.char :: (gap.folded ++ acc)) .none rest

/-- The character that a one-letter escape stands for. -/
def escape? : Char → Option Char
  | '0' => some '\x00'
  | 'a' => some '\x07'
  | 'b' => some '\x08'
  | 't' | '\t' => some '\t'
  | 'n' => some '\n'
  | 'v' => some '\x0b'
  | 'f' => some '\x0c'
  | 'r' => some '\r'
  | 'e' => some '\x1b'
  | ' ' => some ' '
  | '"' => some '"'
  | '\'' => some '\''
  | '/' => some '/'
  | '\\' => some '\\'
  | 'N' => some '\u0085'
  | '_' => some '\u00a0'
  | 'L' => some '\u2028'
  | 'P' => some '\u2029'
  | _ => none

/-- The number of digits after an escape letter that names a code. -/
def codeLength? : Char → Option Nat
  | 'x' => some 2
  | 'u' => some 4
  | 'U' => some 8
  | _ => none

/-- Where the reading of a quoted scalar stands. -/
inductive QuoteState where
  | text
  | escape
  | code (left value : Nat)
  | mark
  deriving DecidableEq, Repr, Inhabited

/-- A quoted scalar after its opening mark, with what was read of it, and the cells after it. -/
def quotedFrom (mark : Char) (acc : List Char) (gap : Gap) :
    QuoteState → List Cell → Option (List Char × List Cell)
  | .mark, [] => some ((gap.folded ++ acc).reverse, [])
  | _, [] => none
  | .text, c :: rest =>
    if isGap c.char then quotedFrom mark acc (gap.push c.char) .text rest
    else if atDocumentMark (c :: rest) then none
    else if c.char == mark then
      if mark == '\'' then quotedFrom mark (gap.folded ++ acc) .none .mark rest
      else some ((gap.folded ++ acc).reverse, rest)
    else if mark == '"' && c.char == '\\' then
      quotedFrom mark (gap.folded ++ acc) .none .escape rest
    else quotedFrom mark (c.char :: (gap.folded ++ acc)) .none .text rest
  | .escape, c :: rest =>
    if isBreak c.char then quotedFrom mark acc (.breaks none []) .text rest
    else match codeLength? c.char with
      | some n => quotedFrom mark acc .none (.code n 0) rest
      | none =>
        match escape? c.char with
        | some e => quotedFrom mark (e :: acc) .none .text rest
        | none => none
  | .code left value, c :: rest =>
    match Json.hexValue? c.char with
    | none => none
    | some h =>
      let v := value * 16 + h
      if left ≤ 1 then
        if h : v.isValidChar then quotedFrom mark (Char.ofNatAux v h :: acc) .none .text rest
        else none
      else quotedFrom mark acc .none (.code (left - 1) v) rest
  | .mark, c :: rest =>
    if c.char == mark then quotedFrom mark (mark :: acc) .none .text rest
    else some (acc.reverse, c :: rest)

/-- What becomes of the line ends at the end of a block scalar. -/
inductive Chomping where
  | strip
  | clip
  | keep
  deriving DecidableEq, Repr, Inhabited

/-- The marks after the sign of a block scalar: how it ends, and how far it is indented. -/
def blockMarks (cs : List Cell) : Option (Chomping × Nat × List Cell) :=
  let chomping? : List Cell → Option (Chomping × List Cell)
    | c :: rest =>
      if c.char == '+' then some (.keep, rest)
      else if c.char == '-' then some (.strip, rest)
      else none
    | [] => none
  let indent? : List Cell → Option (Nat × List Cell)
    | c :: rest => if c.char.isDigit then some (c.char.toNat - 48, rest) else none
    | [] => none
  match chomping? cs with
  | some (ch, rest) =>
    match indent? rest with
    | some (0, _) => none
    | some (n, rest) => some (ch, n, rest)
    | none => some (ch, 0, rest)
  | none =>
    match indent? cs with
    | some (0, _) => none
    | some (n, rest) =>
      match chomping? rest with
      | some (ch, rest) => some (ch, n, rest)
      | none => some (.clip, n, rest)
    | none => some (.clip, 0, cs)

/-- The cells from the end of the line on. -/
def dropLine (cs : List Cell) : List Cell := cs.dropWhile fun c => !isBreak c.char

/-- The cells after blanks, a comment and the end of the line; nothing if there is anything else. -/
def restOfLine (cs : List Cell) : Option (List Cell) :=
  let cs := cs.dropWhile fun c => isBlank c.char
  let cs := match cs with
    | c :: _ => if c.char == '#' then dropLine cs else cs
    | [] => []
  match cs with
  | [] => some []
  | c :: rest => if isBreak c.char then some rest else none

/-- The line ends in front of the next line of a block with some text, the greatest column reached
by the spaces passed, and the cells from that line on. An indentation of zero is not yet known. -/
def blockBreaks (indent widest : Nat) (acc : List Char) :
    List Cell → Option (List Char × Nat × List Cell)
  | [] => some (acc.reverse, widest, [])
  | c :: rest =>
    let inside := indent == 0 || c.column < indent
    if c.char == ' ' && inside then blockBreaks indent (max widest (c.column + 1)) acc rest
    else if c.char == '\t' && inside then none
    else if isBreak c.char then blockBreaks indent widest (c.char :: acc) rest
    else some (acc.reverse, widest, c :: rest)

/-- What was read of a block scalar so far. -/
structure Block where
  /-- The text, in reverse. -/
  text : List Char := []
  /-- The end of the last line. -/
  lead : List Char := []
  /-- The ends of the empty lines after it. -/
  trail : List Char := []
  /-- Whether the last line started with a blank. -/
  indented : Bool := false

/-- The lines of a block scalar, of which there are at most `fuel`. -/
def blockLines (literal : Bool) (indent : Nat) :
    (fuel : Nat) → Block → List Cell → Option (Block × List Cell)
  | 0, b, cs => some (b, cs)
  | _ + 1, b, [] => some (b, [])
  | fuel + 1, b, c :: cs =>
    if c.column != indent then some (b, c :: cs)
    else
      let blank := isBlank c.char
      let lead :=
        if !literal && !b.indented && !blank && b.lead == ['\n'] then
          if b.trail.isEmpty then [' '] else []
        else b.lead
      let line := (c :: cs).takeWhile fun c => !isBreak c.char
      let text := (charsOf line).reverse ++ b.trail.reverse ++ lead ++ b.text
      let (newLead, rest) := match dropLine (c :: cs) with
        | [] => ([], [])
        | e :: rest => ([e.char], rest)
      match blockBreaks indent 0 [] rest with
      | none => none
      | some (trail, _, rest) =>
        blockLines literal indent fuel { text, lead := newLead, trail, indented := blank } rest

/-- A block scalar after its sign, and the cells after it. `outer` is the column of the collection
around it, if there is one. -/
def blockScalar (literal : Bool) (outer : Option Nat) (cs : List Cell) :
    Option (List Char × List Cell) := do
  let (chomping, increment, cs) ← blockMarks cs
  let cs ← restOfLine cs
  let fixed := if increment == 0 then 0 else outer.getD 0 + increment
  let (trail, widest, cs) ← blockBreaks fixed 0 [] cs
  let least := match outer with
    | some n => n + 1
    | none => 1
  let indent := if fixed == 0 then max widest least else fixed
  let (b, cs) ← blockLines literal indent (cs.length + 1) { trail } cs
  let tail := match chomping with
    | .strip => []
    | .clip => b.lead
    | .keep => b.lead ++ b.trail
  return (b.text.reverse ++ tail, cs)

end DeclGen.Yaml
