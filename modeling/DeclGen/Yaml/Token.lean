import DeclGen.Yaml.Scalar

/-!
# Tokens

A stream is cut into tokens. Block structure, which is written by indentation, becomes explicit: a
token marks where a block starts and where it ends, and a token marks each key.

## Implementation notes

A key is recognised only at the colon behind it. Until then its place is remembered, and the tokens
for the key and for the start of its block are put in there. A key has to stand on one line and not
too far from its colon. Neither brackets nor blocks may be open in too large a number. Scanning
stops at the first thing that is no token; what came before is kept, because only the first document
of a stream is read.
-/

namespace DeclGen.Yaml

/-- What a token is. -/
inductive TokenKind where
  | streamEnd
  | version (major minor : Nat)
  | handle (name expansion : String)
  | documentStart
  | documentEnd
  | blockListStart
  | blockTableStart
  | blockEnd
  | listStart
  | listEnd
  | tableStart
  | tableEnd
  | entry
  | comma
  | key
  | value
  | aliasOf (name : String)
  | anchor (name : String)
  | tag (handle suffix : String)
  | scalar (isPlain : Bool) (text : String)
  | invalid
  deriving DecidableEq, Repr, Inhabited

/-- A token and the line on which it starts, counted from one. -/
structure Token where
  kind : TokenKind
  line : Nat
  deriving DecidableEq, Repr, Inhabited

/-- A place where a key may have started. -/
structure KeyPlace where
  /-- Whether something has to be a key here. -/
  isRequired : Bool
  /-- The number of tokens before it. -/
  position : Nat
  line : Nat
  column : Nat
  index : Nat
  deriving DecidableEq, Repr, Inhabited

/-- The state of scanning. -/
structure Scanner where
  rest : List Cell
  tokens : Array Token := #[]
  /-- The columns of the open blocks, the innermost first. -/
  blocks : List Nat := []
  /-- The possible keys of the brackets that are open, the innermost first, and then of the
  block. -/
  keys : List (Option KeyPlace) := [none]
  /-- Whether a key may start here. -/
  keyAllowed : Bool := true
  deriving Inhabited

namespace Scanner

/-- Whether the scanner is inside brackets. -/
def inFlow (s : Scanner) : Bool := s.keys.length != 1

/-- The line of the next cell, counted from one. -/
def line (s : Scanner) : Nat :=
  match s.rest with
  | c :: _ => c.line + 1
  | [] => 1

/-- The scanner with a token at the end. -/
def push (s : Scanner) (kind : TokenKind) : Scanner :=
  { s with tokens := s.tokens.push ⟨kind, s.line⟩ }

/-- The tokens with one put in at a position. -/
def insertAt (tokens : Array Token) (position : Nat) (t : Token) : Array Token :=
  (tokens.extract 0 position).push t ++ tokens.extract position tokens.size

/-- The scanner after the blocks right of a column are closed. -/
def closeBlocks (column : Nat) (s : Scanner) : Scanner :=
  if s.inFlow then s
  else
    let closed := s.blocks.takeWhile (column < ·)
    { closed.foldl (fun s _ => s.push .blockEnd) s with blocks := s.blocks.drop closed.length }

/-- The scanner after all blocks are closed. -/
def closeAllBlocks (s : Scanner) : Scanner :=
  if s.inFlow then s
  else { s.blocks.foldl (fun s _ => s.push .blockEnd) s with blocks := [] }

/-- The number of brackets that may be open, and that of blocks. -/
def maxDepth : Nat := 10000

/-- The scanner after a block is opened at a column, unless one is open there already. -/
def openBlock (column position line : Nat) (kind : TokenKind) (s : Scanner) : Option Scanner :=
  let isOpen := match s.blocks with
    | b :: _ => column ≤ b
    | [] => false
  if s.inFlow || isOpen then some s
  else if maxDepth ≤ s.blocks.length then none
  else
    some { s with
      blocks := column :: s.blocks
      tokens := insertAt s.tokens position ⟨kind, line⟩ }

/-- The scanner without a possible key; fails where a key is required. -/
def dropKey (s : Scanner) : Option Scanner :=
  match s.keys with
  | some k :: rest => if k.isRequired then none else some { s with keys := none :: rest }
  | _ => some s

/-- The scanner with the next cell as a possible key. -/
def saveKey (s : Scanner) : Option Scanner :=
  if !s.keyAllowed then some s
  else match s.rest with
    | [] => some s
    | c :: _ => do
      let isRequired := !s.inFlow && s.blocks.head? == some c.column
      let s ← s.dropKey
      let place : KeyPlace :=
        { isRequired, position := s.tokens.size,
          line := c.line, column := c.column, index := c.index }
      return { s with keys := some place :: s.keys.tail }

/-- The cells after blanks, comments and line ends, and whether a key may start there. A new line
outside of brackets may start a key, and where a key may start a tab is no blank. -/
def skipGaps (inFlow keyAllowed : Bool) : (inComment : Bool) → List Cell → Bool × List Cell
  | _, [] => (keyAllowed, [])
  | inComment, c :: rest =>
    if isBreak c.char then skipGaps inFlow (keyAllowed || !inFlow) false rest
    else if inComment then skipGaps inFlow keyAllowed true rest
    else if c.char == ' ' || (c.char == '\t' && (inFlow || !keyAllowed))
        || (c.char == '\uFEFF' && c.column == 0) then
      skipGaps inFlow keyAllowed false rest
    else if c.char == '#' then skipGaps inFlow keyAllowed true rest
    else (keyAllowed, c :: rest)

/-- The scanner with `count` cells passed. -/
def skip (count : Nat) (s : Scanner) : Scanner := { s with rest := s.rest.drop count }

/-- Whether a character may be part of an anchor or of a handle. -/
def isWord (c : Char) : Bool := c.isAlphanum || c == '_' || c == '-'

/-- Whether a character may follow an anchor. -/
def endsAnchor (c : Char) : Bool :=
  isGap c || c == '?' || c == ':' || c == ',' || c == ']' || c == '\x7d' || c == '%' || c == '@'
    || c.toNat == 0x60

/-- The name behind an anchor sign, and the cells after it. -/
def anchorName (cs : List Cell) : Option (String × List Cell) :=
  let name := cs.takeWhile fun c => isWord c.char
  let rest := cs.dropWhile fun c => isWord c.char
  let ends := match rest with
    | [] => true
    | c :: _ => endsAnchor c.char
  if name.isEmpty || !ends then none else some (String.ofList (charsOf name), rest)

/-- Whether a character may be part of a tag. -/
def isTagChar (c : Char) : Bool := isWord c || ";/?:@&=+$,.!~*'()[]%".toList.contains c

/-- The bytes that percent signs stand for in a tag. -/
def unescapeTag : List Char → Option Text
  | '%' :: a :: b :: rest => do
    let h ← Json.hexValue? a
    let l ← Json.hexValue? b
    let more ← unescapeTag rest
    return UInt8.ofNat (h * 16 + l) :: more
  | '%' :: _ => none
  | c :: rest => do return Text.ofChar c ++ (← unescapeTag rest)
  | [] => some []

/-- The text of a tag part. -/
def tagText (cs : List Char) : Option String := do
  let t ← unescapeTag cs
  let cs ← t.chars?
  return String.ofList cs

/-- A tag behind its exclamation mark, as handle and suffix, and the cells after it. -/
def tagParts (cs : List Cell) : Option (String × String × List Cell) := do
  let (handle, suffix, rest) ← match cs with
    | ⟨'<', _, _, _⟩ :: rest =>
      let uri := rest.takeWhile fun c => isTagChar c.char
      match rest.dropWhile fun c : Cell => isTagChar c.char with
      | ⟨'>', _, _, _⟩ :: more =>
        if uri.isEmpty then none else some ("", ← tagText (charsOf uri), more)
      | _ => none
    | _ =>
      let word := cs.takeWhile fun c => isWord c.char
      match cs.dropWhile fun c : Cell => isWord c.char with
      | ⟨'!', _, _, _⟩ :: rest =>
        let suffix := rest.takeWhile fun c => isTagChar c.char
        if suffix.isEmpty then none
        else
          some ("!" ++ String.ofList (charsOf word) ++ "!", ← tagText (charsOf suffix),
            rest.dropWhile fun c => isTagChar c.char)
      | _ =>
        let suffix := cs.takeWhile fun c => isTagChar c.char
        let rest := cs.dropWhile fun c => isTagChar c.char
        if suffix.isEmpty then some ("", "!", rest)
        else some ("!", ← tagText (charsOf suffix), rest)
  if atGap rest then some (handle, suffix, rest) else none

/-- The number at the start of some cells. -/
def number (cs : List Cell) : Option (Nat × List Cell) :=
  let ds := cs.takeWhile fun c => c.char.isDigit
  if ds.isEmpty || ds.length > 9 then none
  else
    some ((charsOf ds).foldl (fun n c => n * 10 + (c.toNat - 48)) 0,
      cs.dropWhile fun c => c.char.isDigit)

/-- The cells after blanks. -/
def skipBlanks (cs : List Cell) : List Cell := cs.dropWhile fun c => isBlank c.char

/-- A directive behind its percent sign, and the cells after its line. -/
def directive (cs : List Cell) : Option (TokenKind × List Cell) := do
  let name := String.ofList (charsOf (cs.takeWhile fun c => isWord c.char))
  let cs := cs.dropWhile fun c => isWord c.char
  if !atGap cs then none
  let (kind, cs) ← match name with
    | "YAML" =>
      let (major, cs) ← number (skipBlanks cs)
      match cs with
      | ⟨'.', _, _, _⟩ :: cs =>
        let (minor, cs) ← number cs
        some (TokenKind.version major minor, cs)
      | _ => none
    | "TAG" =>
      let cs := skipBlanks cs
      let handle := String.ofList (charsOf (cs.takeWhile fun c => !isGap c.char))
      let cs := skipBlanks (cs.dropWhile fun c => !isGap c.char)
      let expansion := String.ofList (charsOf (cs.takeWhile fun c => isTagChar c.char))
      let cs := cs.dropWhile fun c => isTagChar c.char
      if handle.isEmpty || expansion.isEmpty || !atGap cs then none
      else some (TokenKind.handle handle expansion, cs)
    | _ => none
  let cs ← restOfLine cs
  return (kind, cs)

/-- Whether a character cannot start a plain scalar, whatever follows. -/
def isIndicator (c : Char) : Bool :=
  ",[]#&*!|>'\"%@\x7b\x7d".toList.contains c || c.toNat == 0x60

/-- Whether a plain scalar starts with a character, given the cells after it. -/
def startsPlain (inFlow : Bool) (c : Char) (rest : List Cell) : Bool :=
  if c == '-' then
    match rest with
    | [] => true
    | d :: _ => !isBlank d.char
  else if c == '?' || c == ':' then !inFlow && !atGap rest
  else !isGap c && !isIndicator c

/-- The scanner after the sign of an entry of a block list. -/
def pushEntry (column : Nat) (s : Scanner) : Option Scanner := do
  let s ← if s.inFlow then some s
    else if s.keyAllowed then s.openBlock column s.tokens.size s.line .blockListStart
    else none
  let s ← s.dropKey
  return ({ s with keyAllowed := true }.push .entry).skip 1

/-- The scanner after the sign of a key. -/
def pushKey (column : Nat) (s : Scanner) : Option Scanner := do
  let s ← if s.inFlow then some s
    else if s.keyAllowed then s.openBlock column s.tokens.size s.line .blockTableStart
    else none
  let s ← s.dropKey
  return ({ s with keyAllowed := !s.inFlow }.push .key).skip 1

/-- Whether a possible key can still be one at a cell; fails where it has to and cannot. -/
def isLive (k : KeyPlace) (c : Cell) : Option Bool :=
  if k.line < c.line || k.index + 1024 < c.index then
    if k.isRequired then none else some false
  else some true

/-- The scanner after the colon of a value. -/
def pushValue (c : Cell) (s : Scanner) : Option Scanner := do
  let live ← match s.keys with
    | some k :: _ => do if ← isLive k c then some (some k) else some none
    | _ => some none
  let s ← match live with
    | some k =>
      let s := { s with
        tokens := insertAt s.tokens k.position ⟨.key, k.line + 1⟩
        keys := none :: s.keys.tail }
      let s ← s.openBlock k.column k.position (k.line + 1) .blockTableStart
      some { s with keyAllowed := false }
    | none =>
      let s := { s with keys := none :: s.keys.tail }
      if s.inFlow then some { s with keyAllowed := false }
      else if s.keyAllowed then
        let s ← s.openBlock c.column s.tokens.size s.line .blockTableStart
        some { s with keyAllowed := true }
      else none
  return (s.push .value).skip 1

/-- The scanner after an opening bracket. -/
def pushOpening (kind : TokenKind) (s : Scanner) : Option Scanner := do
  let s ← s.saveKey
  if maxDepth < s.keys.length then none
  else return ({ s with keys := none :: s.keys, keyAllowed := true }.push kind).skip 1

/-- The scanner after a closing bracket. -/
def pushClosing (kind : TokenKind) (s : Scanner) : Option Scanner := do
  let s ← s.dropKey
  let keys := if s.inFlow then s.keys.tail else s.keys
  return ({ s with keys, keyAllowed := false }.push kind).skip 1

/-- The scanner after a token that may be a key, whose kind and following cells are given. -/
def pushContent (read : Option (TokenKind × List Cell)) (s : Scanner) : Option Scanner := do
  let s ← s.saveKey
  let (kind, rest) ← read
  return { { s with keyAllowed := false }.push kind with rest }

/-- The scanner after a plain scalar. -/
def pushPlain (s : Scanner) : Option Scanner := do
  let s ← s.saveKey
  let indent := match s.blocks with
    | b :: _ => b + 1
    | [] => 0
  let (text, broken, rest) ← plainFrom s.inFlow indent [] .none s.rest
  return { s.push (.scalar true (String.ofList text)) with rest, keyAllowed := broken }

/-- The scanner after a block scalar. -/
def pushBlock (literal : Bool) (rest : List Cell) (s : Scanner) : Option Scanner := do
  let s ← s.dropKey
  let (text, rest) ← blockScalar literal s.blocks.head? rest
  return { s.push (.scalar false (String.ofList text)) with rest, keyAllowed := true }

/-- The scanner after a mark or a directive, which stand outside of all blocks. -/
def pushOuter (kind : TokenKind) (rest : List Cell) (s : Scanner) : Option Scanner := do
  let s := s.closeAllBlocks
  let s ← s.dropKey
  return { { s with keyAllowed := false }.push kind with rest }

/-- The scanner after the end of the stream. -/
def finish (s : Scanner) : Option Scanner := s.pushOuter .streamEnd []

/-- The scanner after the next token, which is not the end of the stream. -/
def step (c : Cell) (rest : List Cell) (s : Scanner) : Option Scanner :=
  let quoted (mark : Char) : Option (TokenKind × List Cell) :=
    (quotedFrom mark [] .none .text rest).map fun (t, r) => (.scalar false (String.ofList t), r)
  if c.column == 0 && c.char == '%' then do
    let (kind, more) ← directive rest
    s.pushOuter kind more
  else if c.column == 0 && startsMark '-' '-' '-' (c :: rest) then
    s.pushOuter .documentStart (rest.drop 2)
  else if c.column == 0 && startsMark '.' '.' '.' (c :: rest) then
    s.pushOuter .documentEnd (rest.drop 2)
  else match c.char with
    | '[' => s.pushOpening .listStart
    | '\x7b' => s.pushOpening .tableStart
    | ']' => s.pushClosing .listEnd
    | '\x7d' => s.pushClosing .tableEnd
    | ',' => do
      let s ← s.dropKey
      return ({ s with keyAllowed := true }.push .comma).skip 1
    | '*' => s.pushContent ((anchorName rest).map fun (n, r) => (.aliasOf n, r))
    | '&' => s.pushContent ((anchorName rest).map fun (n, r) => (.anchor n, r))
    | '!' => s.pushContent ((tagParts rest).map fun (h, t, r) => (.tag h t, r))
    | '\'' => s.pushContent (quoted '\'')
    | '"' => s.pushContent (quoted '"')
    | '-' => if atGap rest then s.pushEntry c.column
        else if startsPlain s.inFlow c.char rest then s.pushPlain else none
    | '?' => if s.inFlow || atGap rest then s.pushKey c.column else s.pushPlain
    | ':' => if s.inFlow || atGap rest then s.pushValue c else s.pushPlain
    | '|' => if s.inFlow then none else s.pushBlock true rest
    | '>' => if s.inFlow then none else s.pushBlock false rest
    | ch => if startsPlain s.inFlow ch rest then s.pushPlain else none

/-- All tokens of a scanner's cells, in at most `fuel` steps. -/
def run : (fuel : Nat) → Scanner → List Token
  | 0, s => (s.push .invalid).tokens.toList
  | fuel + 1, s =>
    let (keyAllowed, rest) := skipGaps s.inFlow s.keyAllowed false s.rest
    let s := { s with keyAllowed, rest }
    match rest with
    | [] =>
      match s.finish with
      | some s => s.tokens.toList
      | none => (s.push .invalid).tokens.toList
    | c :: more =>
      let s := s.closeBlocks c.column
      match s.step c more with
      | some s => run fuel s
      | none => (s.push .invalid).tokens.toList

end Scanner

/-- The tokens of a stream. -/
def tokens (cs : List Cell) : List Token := Scanner.run (cs.length + 1) { rest := cs }

end DeclGen.Yaml
