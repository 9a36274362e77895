import DeclGen.Yaml.Resolve
import DeclGen.Yaml.Token

/-!
# Nodes

The tokens of a document describe one node: a scalar, a list, a table, or an alias that repeats a
node given before. `Node.ofTokens` reads the first document of a stream.

## Implementation notes

The readers of nodes call each other and are bounded by a number that goes down with every call; a
multiple of the number of tokens is always enough. An alias inside the node that it names is kept as
a cycle, which has no value.
-/

namespace DeclGen.Yaml

/-- A node of a document with the line on which it starts. -/
inductive Node where
  | scalar (line : Nat) (tag : Tag) (text : String)
  | list (line : Nat) (elems : List Node)
  | table (line : Nat) (entries : List (Node × Node))
  | aliasOf (line : Nat) (name : String) (target : Node)
  | cycle (line : Nat) (name : String)
  deriving Repr, Inhabited

namespace Node

/-- The line on which a node starts. -/
def line : Node → Nat
  | scalar l _ _ | list l _ | table l _ | aliasOf l _ _ | cycle l _ => l

/-- What is known while nodes are read. -/
structure Reading where
  tokens : List Token
  /-- The anchors, the latest first; the node of an anchor that is still being read is missing. -/
  anchors : List (String × Option Node) := []
  /-- What the handles of tags stand for. -/
  handles : List (String × String) := []

/-- A step of reading. -/
abbrev Reader := StateT Reading Option

/-- The next token; a stream that was not scanned to its end has none there. -/
def peek : Reader Token := fun r =>
  match r.tokens with
  | t :: _ => if t.kind == .invalid then none else some (t, r)
  | [] => none

/-- Passes the next token. -/
def advance : Reader Unit := fun r => some ((), { r with tokens := r.tokens.tail })

/-- Whether the next token is one of some kinds. -/
def isNext (kinds : List TokenKind) : Reader Bool := do
  return kinds.contains (← peek).kind

/-- A null that is not written. -/
def absent : Reader Node := do return .scalar (← peek).line .null ""

/-- Notes an anchor whose node is about to be read. -/
def openAnchor (name : String) : Reader Unit :=
  modify fun r => { r with anchors := (name, none) :: r.anchors }

/-- The anchors with the node of one that was being read. -/
def fillAnchor (name : String) (n : Node) :
    List (String × Option Node) → List (String × Option Node)
  | [] => []
  | (a, none) :: rest =>
    if a == name then (a, some n) :: rest else (a, none) :: fillAnchor name n rest
  | e :: rest => e :: fillAnchor name n rest

/-- Notes the node of an anchor. -/
def closeAnchor (anchor : Option String) (n : Node) : Reader Node := do
  match anchor with
  | some name => modify fun r => { r with anchors := fillAnchor name n r.anchors }
  | none => pure ()
  return n

/-- What an anchor and a tag say about the node after them. -/
structure Properties where
  line : Option Nat := none
  anchor : Option String := none
  tag : Option String := none

/-- The full name of a tag. -/
def tagName (handle suffix : String) : Reader String := fun r =>
  if handle.isEmpty then some (suffix, r)
  else match r.handles.lookup handle with
    | some expansion => some (expansion ++ suffix, r)
    | none => none

/-- The properties in front of a node, of which there are at most two. -/
def properties : (fuel : Nat) → Properties → Reader Properties
  | 0, p => pure p
  | fuel + 1, p => do
    let t ← peek
    let line := some (p.line.getD t.line)
    match t.kind with
    | .anchor name =>
      if p.anchor.isSome then return p
      advance
      properties fuel { p with line, anchor := some name }
    | .tag handle suffix =>
      if p.tag.isSome then return p
      advance
      let name ← tagName handle suffix
      properties fuel { p with line, tag := some name }
    | _ => return p

/-- The tag of a scalar. -/
def scalarTag (tag : Option String) (isPlain : Bool) (text : String) : Tag :=
  match tag with
  | some "" | some "!" | none => if isPlain then plainTag text else .string
  | some name => .ofName name

mutual

/-- A node. `block` allows blocks, and `dashes` a list whose entries stand at the column of the key
before it. -/
def read (block dashes : Bool) : (fuel : Nat) → Reader Node
  | 0 => failure
  | fuel + 1 => do
    let first ← peek
    match first.kind with
    | .aliasOf name =>
      advance
      match (← get).anchors.lookup name with
      | some (some n) => return .aliasOf first.line name n
      | some none => return .cycle first.line name
      | none => failure
    | _ =>
      let p ← properties 2 {}
      match p.anchor with
      | some name => openAnchor name
      | none => pure ()
      let t ← peek
      let line := p.line.getD t.line
      let n ← match t.kind with
        | .scalar isPlain text => do
          advance
          pure (.scalar line (scalarTag p.tag isPlain text) text)
        | .listStart => do
          advance
          pure (.list line (← flowList true fuel))
        | .tableStart => do
          advance
          pure (.table line (← flowTable true fuel))
        | kind =>
          if kind == .entry && dashes then do pure (.list line (← dashList fuel))
          else if kind == .blockListStart && block then do
            advance
            pure (.list line (← blockList fuel))
          else if kind == .blockTableStart && block then do
            advance
            pure (.table line (← blockTable fuel))
          else if p.line.isSome then pure (.scalar line (scalarTag p.tag true "") "")
          else failure
      closeAnchor p.anchor n

/-- A node, or an absent one before some kinds of tokens. -/
def readUnless (kinds : List TokenKind) (block dashes : Bool) : (fuel : Nat) → Reader Node
  | 0 => failure
  | fuel + 1 => do
    if ← isNext kinds then absent else read block dashes fuel

/-- The elements of a block list. -/
def blockList : (fuel : Nat) → Reader (List Node)
  | 0 => failure
  | fuel + 1 => do
    let t ← peek
    match t.kind with
    | .entry =>
      advance
      let n ← readUnless [.entry, .blockEnd] true false fuel
      return n :: (← blockList fuel)
    | .blockEnd =>
      advance
      return []
    | _ => failure

/-- The elements of a list whose entries stand at the column of a key. -/
def dashList : (fuel : Nat) → Reader (List Node)
  | 0 => failure
  | fuel + 1 => do
    if ← isNext [.entry] then
      advance
      let n ← readUnless [.entry, .key, .value, .blockEnd] true false fuel
      return n :: (← dashList fuel)
    else return []

/-- The value after a key of a block table. -/
def blockValue : (fuel : Nat) → Reader Node
  | 0 => failure
  | fuel + 1 => do
    if ← isNext [.value] then
      advance
      readUnless [.key, .value, .blockEnd] true true fuel
    else absent

/-- The entries of a block table. -/
def blockTable : (fuel : Nat) → Reader (List (Node × Node))
  | 0 => failure
  | fuel + 1 => do
    let t ← peek
    match t.kind with
    | .key =>
      advance
      let k ← readUnless [.key, .value, .blockEnd] true true fuel
      let v ← blockValue fuel
      return (k, v) :: (← blockTable fuel)
    | .blockEnd =>
      advance
      return []
    | _ => failure

/-- The value after a key inside brackets that are closed by a kind of token. -/
def flowValue (closing : TokenKind) : (fuel : Nat) → Reader Node
  | 0 => failure
  | fuel + 1 => do
    if ← isNext [.value] then
      advance
      readUnless [.comma, closing] false false fuel
    else absent

/-- The elements of a list in brackets; `isFirst` says that none came before. -/
def flowList (isFirst : Bool) : (fuel : Nat) → Reader (List Node)
  | 0 => failure
  | fuel + 1 => do
    if ← isNext [.listEnd] then
      advance
      return []
    if !isFirst then
      if ← isNext [.comma] then advance else failure
    let t ← peek
    match t.kind with
    | .listEnd =>
      advance
      return []
    | .key =>
      advance
      let k ← if ← isNext [.value, .comma, .listEnd] then do
          let n ← absent
          advance
          pure n
        else read false false fuel
      let v ← flowValue .listEnd fuel
      return .table t.line [(k, v)] :: (← flowList false fuel)
    | _ =>
      let n ← read false false fuel
      return n :: (← flowList false fuel)

/-- The entries of a table in braces; `isFirst` says that none came before. -/
def flowTable (isFirst : Bool) : (fuel : Nat) → Reader (List (Node × Node))
  | 0 => failure
  | fuel + 1 => do
    if ← isNext [.tableEnd] then
      advance
      return []
    if !isFirst then
      if ← isNext [.comma] then advance else failure
    let t ← peek
    match t.kind with
    | .tableEnd =>
      advance
      return []
    | .key =>
      advance
      let k ← readUnless [.value, .comma, .tableEnd] false false fuel
      let v ← flowValue .tableEnd fuel
      return (k, v) :: (← flowTable false fuel)
    | _ =>
      let k ← read false false fuel
      let v ← absent
      return (k, v) :: (← flowTable false fuel)

end

/-- Reads the directives in front of a document. -/
def directives (seen : Bool) : (fuel : Nat) → Reader Unit
  | 0 => failure
  | fuel + 1 => do
    match (← peek).kind with
    | .version major minor =>
      if seen || major != 1 || minor != 1 then failure
      advance
      directives true fuel
    | .handle name expansion =>
      if ((← get).handles.lookup name).isSome then failure
      advance
      modify fun r => { r with handles := (name, expansion) :: r.handles }
      directives seen fuel
    | _ => return ()

/-- The handles that need no directive. -/
def standardHandles : List (String × String) := [("!", "!"), ("!!", "tag:yaml.org,2002:")]

/-- The first document of a stream, if the stream has one. -/
def document (fuel : Nat) : Reader (Option Node) := do
  match (← peek).kind with
  | .streamEnd => return none
  | .version _ _ | .handle _ _ | .documentStart =>
    directives false fuel
    if !(← isNext [.documentStart]) then failure
    advance
    modify fun r => { r with handles := r.handles ++ standardHandles }
    match (← peek).kind with
    | .version _ _ | .handle _ _ | .documentStart | .documentEnd | .streamEnd =>
      return some (← absent)
    | _ => return some (← read true false fuel)
  | _ =>
    modify fun r => { r with handles := standardHandles }
    return some (← read true false fuel)

/-- The first document of a stream of tokens. The two tokens after its end have to be valid too. -/
def ofTokens (ts : List Token) : Option (Option Node) := do
  let (n, r) ← (document (4 * ts.length + 8)).run { tokens := ts }
  if (r.tokens.take 3).any (·.kind == .invalid) then none else some n

/-- The first document of a text. -/
def ofText (t : Text) : Option (Option Node) := do
  let cs ← cells? t
  ofTokens (tokens cs)

end Node

end DeclGen.Yaml
