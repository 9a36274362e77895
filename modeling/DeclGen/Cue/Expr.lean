import DeclGen.Cue.Token

/-!
# Expressions

The expressions and declarations that a text consists of, and how they are read.

## Implementation notes

The readers call each other and are bounded by a number that goes down with every call. A reader
that fails gives the line of the token it could not use.

What is read is the part of the language in which data are written and combined. The rest of it is
refused like a text that is not well formed, at the first token that does not fit: imports,
attributes, calls of functions such as `len`, division, bounds such as `>0`, matches such as `=~`,
constraints on the elements of a list such as `[...#D]` or on many fields such as `[string]: int`,
names for fields, and labels that are computed.
-/

namespace DeclGen.Cue

/-- An operator between two expressions. -/
inductive Operator where
  | meet
  | join
  | add
  | subtract
  | multiply
  | equal
  | notEqual
  | less
  | lessEqual
  | greater
  | greaterEqual
  | both
  | either
  deriving DecidableEq, Repr, Inhabited

/-- The name of a field. Fields that are not regular are hidden or are definitions; they can be
referred to, but are not part of the output. -/
structure Label where
  name : String
  isRegular : Bool := true
  deriving DecidableEq, Repr, Inhabited

namespace Label

/-- Whether a name is that of a definition. -/
def isDefinitionName (name : String) : Bool :=
  match name.toList with
  | '#' :: _ | '_' :: '#' :: _ => true
  | _ => false

/-- The label that a name without quotation marks stands for. -/
def ofName (name : String) : Label where
  name := name
  isRegular := match name.toList with
    | '#' :: _ | '_' :: _ => false
    | _ => true

end Label

mutual

/-- An expression, with its line. -/
inductive Expr where
  | null (line : Nat)
  | bool (line : Nat) (b : Bool)
  | number (line : Nat) (n : Number)
  | string (line : Nat) (parts : List Part)
  | name (line : Nat) (s : String)
  | bottom (line : Nat)
  | list (line : Nat) (elems : List Elem)
  | struct (line : Nat) (decls : List Decl)
  | marked (e : Expr)
  | negative (line : Nat) (e : Expr)
  | not (line : Nat) (e : Expr)
  | binary (line : Nat) (op : Operator) (a b : Expr)
  | select (line : Nat) (e : Expr) (field : String)
  | index (line : Nat) (e i : Expr)

/-- A part of a string. -/
inductive Part where
  | text (s : String)
  | code (e : Expr)

/-- An element of a list. -/
inductive Elem where
  | value (e : Expr)
  | rest
  | each (clauses : List Clause) (body : List Decl)

/-- A declaration of a struct. -/
inductive Decl where
  | field (line : Nat) (label : Label) (isOptional : Bool) (value : Expr)
  | binding (name : String) (value : Expr)
  | ellipsis
  | embed (e : Expr)
  | each (clauses : List Clause) (body : List Decl)

/-- A clause of a comprehension. -/
inductive Clause where
  | over (key : Option String) (value : String) (source : Expr)
  | given (condition : Expr)

end

instance : Inhabited Expr := ⟨.null 0⟩

namespace Expr

/-- A step of reading. The error is a line. -/
abbrev Reader := StateT (List Token) (Except Nat)

/-- The next token. -/
def peek : Reader Token := do return ((← get).head?).getD ⟨.invalid, 1⟩

/-- Passes the next token. -/
def advance : Reader Unit := modify List.tail

/-- Fails at the next token. -/
def unexpected {α : Type} : Reader α := do throw (← peek).line

/-- Whether the next token is a sign. -/
def isSign (s : String) : Reader Bool := do return (← peek).kind == .sign s

/-- Passes a sign, which has to come next. -/
def expect (s : String) : Reader Unit := do
  if ← isSign s then advance else unexpected

/-- Passes commas. -/
def skipComma : Reader Bool := do
  if (← peek).kind == .comma then advance; return true
  else return false

/-- Whether the tokens start with a label. -/
def startsField : List Token → Bool
  | ⟨.name _, _⟩ :: ⟨.sign s, _⟩ :: rest | ⟨.string _, _⟩ :: ⟨.sign s, _⟩ :: rest =>
    s == ":" || ((s == "?" || s == "!") && (rest.head?.map (·.kind)) == some (.sign ":"))
  | _ => false

/-- The operators of each strength, the weakest first. -/
def operators : List (List (String × Operator)) :=
  [[("|", .join)], [("&", .meet)], [("||", .either)], [("&&", .both)],
    [("==", .equal), ("!=", .notEqual), ("<=", .lessEqual), (">=", .greaterEqual), ("<", .less),
      (">", .greater)],
    [("+", .add), ("-", .subtract)], [("*", .multiply)]]

/-- The operator of one strength that a token is. -/
def operator? (table : List (String × Operator)) : TokenKind → Option Operator
  | .sign s => table.lookup s
  | _ => none

/-- The text of pieces without expressions. -/
def plainText : List Piece → Option String
  | [] => some ""
  | .text s :: rest => (plainText rest).map (s ++ ·)
  | .code _ :: _ => none

mutual

/-- An expression. -/
def read : (fuel : Nat) → Reader Expr
  | 0 => unexpected
  | fuel + 1 => readLevel operators fuel

/-- An expression with operators of some strengths. -/
def readLevel : List (List (String × Operator)) → (fuel : Nat) → Reader Expr
  | _, 0 => unexpected
  | [], fuel + 1 => readUnary fuel
  | table :: stronger, fuel + 1 => do
    let e ← readLevel stronger fuel
    readMore table stronger e fuel

/-- The operators of one strength behind an expression. -/
def readMore (table : List (String × Operator)) (stronger : List (List (String × Operator)))
    (e : Expr) : (fuel : Nat) → Reader Expr
  | 0 => unexpected
  | fuel + 1 => do
    let t ← peek
    match operator? table t.kind with
    | none => return e
    | some op =>
      advance
      let f ← readLevel stronger fuel
      readMore table stronger (.binary t.line op e f) fuel

/-- An expression with signs in front. -/
def readUnary : (fuel : Nat) → Reader Expr
  | 0 => unexpected
  | fuel + 1 => do
    let t ← peek
    match t.kind with
    | .sign "*" => advance; return .marked (← readUnary fuel)
    | .sign "-" => advance; return .negative t.line (← readUnary fuel)
    | .sign "+" => advance; readUnary fuel
    | .sign "!" => advance; return .not t.line (← readUnary fuel)
    | _ =>
      let e ← readOperand fuel
      readSuffixes e fuel

/-- The selectors and indexes behind an expression. -/
def readSuffixes (e : Expr) : (fuel : Nat) → Reader Expr
  | 0 => unexpected
  | fuel + 1 => do
    let t ← peek
    match t.kind with
    | .sign "." =>
      advance
      match (← peek).kind with
      | .name s =>
        advance
        readSuffixes (.select t.line e s) fuel
      | .string ps =>
        match plainText ps with
        | some s =>
          advance
          readSuffixes (.select t.line e s) fuel
        | none => unexpected
      | _ => unexpected
    | .sign "[" =>
      advance
      let i ← read fuel
      expect "]"
      readSuffixes (.index t.line e i) fuel
    | _ => return e

/-- An expression without operators. -/
def readOperand : (fuel : Nat) → Reader Expr
  | 0 => unexpected
  | fuel + 1 => do
    let t ← peek
    match t.kind with
    | .name "null" => advance; return .null t.line
    | .name "true" => advance; return .bool t.line true
    | .name "false" => advance; return .bool t.line false
    | .name s =>
      if ["for", "in", "if", "let", "import", "package"].contains s then unexpected
      advance
      return .name t.line s
    | .number n => advance; return .number t.line n
    | .string ps =>
      advance
      return .string t.line (← readParts t.line ps fuel)
    | .sign "_|_" => advance; return .bottom t.line
    | .sign "(" =>
      advance
      let e ← read fuel
      expect ")"
      return e
    | .sign "[" =>
      advance
      return .list t.line (← readElems fuel)
    | .sign "\x7b" =>
      advance
      let ds ← readDecls fuel
      expect "\x7d"
      return .struct t.line ds
    | _ => unexpected

/-- The parts of a string on a line. -/
def readParts (line : Nat) : List Piece → (fuel : Nat) → Reader (List Part)
  | _, 0 => unexpected
  | [], _ + 1 => return []
  | .text s :: rest, fuel + 1 => do return .text s :: (← readParts line rest fuel)
  | .code source :: rest, fuel + 1 => do
    let outer ← get
    set ((tokens line source).filter fun t => t.kind != .comma)
    let e ← read fuel
    if (← peek).kind != .finish then unexpected
    set outer
    return .code e :: (← readParts line rest fuel)

/-- The elements of a list up to its closing bracket. -/
def readElems : (fuel : Nat) → Reader (List Elem)
  | 0 => unexpected
  | fuel + 1 => do
    let t ← peek
    match t.kind with
    | .sign "]" => advance; return []
    | kind =>
      let e ← match kind with
        | .sign "..." => do advance; pure Elem.rest
        | .name "for" | .name "if" => do
          let (cs, ds) ← readComprehension fuel
          pure (Elem.each cs ds)
        | _ => do pure (Elem.value (← read fuel))
      if ← skipComma then return e :: (← readElems fuel)
      else
        expect "]"
        return [e]

/-- The clauses and the body of a comprehension. -/
def readComprehension : (fuel : Nat) → Reader (List Clause × List Decl)
  | 0 => unexpected
  | fuel + 1 => do
    match (← peek).kind with
    | .name "for" =>
      advance
      let first ← readName
      let second ← if ← skipComma then do pure (some (← readName)) else pure none
      if (← peek).kind != .name "in" then unexpected
      advance
      let source ← read fuel
      let clause := match second with
        | some v => Clause.over (some first) v source
        | none => Clause.over none first source
      let (cs, ds) ← readComprehension fuel
      return (clause :: cs, ds)
    | .name "if" =>
      advance
      let condition ← read fuel
      let (cs, ds) ← readComprehension fuel
      return (.given condition :: cs, ds)
    | .comma =>
      advance
      readComprehension fuel
    | _ =>
      expect "\x7b"
      let ds ← readDecls fuel
      expect "\x7d"
      return ([], ds)

/-- A name. -/
def readName : Reader String := do
  match (← peek).kind with
  | .name s => advance; return s
  | _ => unexpected

/-- The declarations up to the end of a struct or of the text. -/
def readDecls : (fuel : Nat) → Reader (List Decl)
  | 0 => unexpected
  | fuel + 1 => do
    let t ← peek
    if t.kind == .sign "\x7d" || t.kind == .finish then return []
    let d ← readDecl fuel
    if ← skipComma then return d :: (← readDecls fuel)
    else
      let t ← peek
      if t.kind == .sign "\x7d" || t.kind == .finish then return [d] else unexpected

/-- A declaration. -/
def readDecl : (fuel : Nat) → Reader Decl
  | 0 => unexpected
  | fuel + 1 => do
    if startsField (← get) then readField fuel
    else match (← peek).kind with
      | .sign "..." => advance; return .ellipsis
      | .name "let" =>
        advance
        let name ← readName
        expect "="
        return .binding name (← read fuel)
      | .name "for" | .name "if" =>
        let (cs, ds) ← readComprehension fuel
        return .each cs ds
      | _ => return .embed (← read fuel)

/-- A field, whose value may be a field again. -/
def readField : (fuel : Nat) → Reader Decl
  | 0 => unexpected
  | fuel + 1 => do
    let t ← peek
    let label ← match t.kind with
      | .name s => pure (Label.ofName s)
      | .string ps =>
        match plainText ps with
        | some s => pure { name := s }
        | none => unexpected
      | _ => unexpected
    advance
    let isOptional ← if ← isSign "?" then do advance; pure true
      else if ← isSign "!" then do advance; pure false
      else pure false
    expect ":"
    let value ← if startsField (← get) then do pure (Expr.struct t.line [← readField fuel])
      else read fuel
    return .field t.line label isOptional value

end

/-- The declarations of a text, or the line of the first thing that does not fit. -/
def ofTokens (ts : List Token) : Except Nat (List Decl) := do
  let fuel := 16 * ts.length + 64
  let ts := match ts with
    | ⟨.name "package", _⟩ :: ⟨.name _, _⟩ :: ⟨.comma, _⟩ :: rest => rest
    | ts => ts
  let (ds, rest) ← (readDecls fuel).run ts
  match rest with
  | ⟨.finish, _⟩ :: _ => return ds
  | t :: _ => throw t.line
  | [] => throw 1

end Expr

end DeclGen.Cue
