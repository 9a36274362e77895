import DeclGen.Text.Basic

/-!
# Characters with their positions

The text of a YAML stream is prepared once: every character gets its line and column, and all ways
to end a line are brought to one. What reads the text afterwards works on lists of such cells and
needs no counters of its own.
-/

namespace DeclGen.Yaml

/-- A character and where it stands. -/
structure Cell where
  char : Char
  line : Nat
  column : Nat
  index : Nat
  deriving DecidableEq, Repr, Inhabited

/-- Whether a character is allowed in a stream. -/
def isAllowed (c : Char) : Bool :=
  let v := c.toNat
  v == 0x09 || v == 0x0A || v == 0x0D || (0x20 ≤ v && v ≤ 0x7E) || v == 0x85 ||
    (0xA0 ≤ v && v ≤ 0xFFFD) || 0x10000 ≤ v

/-- Whether a character ends a line. -/
def isBreak (c : Char) : Bool := c == '\n' || c == '\u2028' || c == '\u2029'

/-- Whether a character is a space or a tab. -/
def isBlank (c : Char) : Bool := c == ' ' || c == '\t'

/-- Whether a character is a space, a tab or ends a line. -/
def isGap (c : Char) : Bool := isBlank c || isBreak c

/-- The characters of a text from a given position on, with line ends unified. -/
def cellsFrom (line column index : Nat) : List Char → List Cell
  | [] => []
  | '\r' :: '\n' :: rest => ⟨'\n', line, column, index⟩ :: cellsFrom (line + 1) 0 (index + 2) rest
  | c :: rest =>
    let c := if c == '\r' || c == '\u0085' then '\n' else c
    let after := if isBreak c then cellsFrom (line + 1) 0 (index + 1) rest
      else cellsFrom line (column + 1) (index + 1) rest
    ⟨c, line, column, index⟩ :: after

/-- The cells of a stream; nothing where it is not UTF-8 or holds a control character. -/
def cells? (t : Text) : Option (List Cell) := do
  let cs ← t.chars?
  let cs := match cs with
    | '\uFEFF' :: rest => rest
    | cs => cs
  if cs.all isAllowed then some (cellsFrom 0 0 0 cs) else none

/-- Whether a list of cells is at its end or at a space, a tab or a line end. -/
def atGap : List Cell → Bool
  | [] => true
  | c :: _ => isGap c.char

/-- Whether the first cells are these characters, followed by a gap. -/
def startsMark (a b c : Char) : List Cell → Bool
  | x :: y :: z :: rest => x.char == a && y.char == b && z.char == c && atGap rest
  | _ => false

/-- Whether a line starts with the mark that begins or ends a document. -/
def atDocumentMark (cs : List Cell) : Bool :=
  match cs with
  | [] => false
  | c :: _ => c.column == 0 && (startsMark '-' '-' '-' cs || startsMark '.' '.' '.' cs)

/-- The characters of cells. -/
def charsOf (cs : List Cell) : List Char := cs.map (·.char)

end DeclGen.Yaml
