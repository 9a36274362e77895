import DeclGen.Document.Fault
import DeclGen.Yaml.Node

/-!
# Trees without aliases and merges

Aliases are replaced by what they repeat, and the entries that a table takes over from other tables
are put behind its own. What remains is a plain tree, from which fields are read.

## Implementation notes

Reading goes on after most troubles, so that all unknown fields of a text are reported together. A
trouble that would end the reading is marked as fatal, and the first of these is the one that
counts. How much of a text aliases may repeat is not limited, so a text that is refused elsewhere
because it would become too large is read here.
-/

namespace DeclGen.Yaml

/-- Something wrong that is met while fields are read. -/
inductive Trouble where
  /-- Nothing after this is looked at. -/
  | fatal (fault : Fault)
  | unknown (field : UnknownField)
  /-- A value of the wrong type, or a key that comes twice. -/
  | mismatch
  deriving DecidableEq, Repr, Inhabited

namespace Trouble

/-- The fault of a fatal trouble. -/
def fatal? : Trouble → Option Fault
  | fatal f => some f
  | _ => none

/-- The unknown field that a trouble is about. -/
def unknown? : Trouble → Option UnknownField
  | unknown f => some f
  | _ => none

/-- The fault that troubles amount to, if there are any. -/
def reported? (ts : List Trouble) : Option Fault :=
  match ts.findSome? fatal? with
  | some f => some f
  | none =>
    if ts.isEmpty then none
    else if ts.contains mismatch then some .malformed
    else some (.unknownFields (ts.filterMap unknown?))

end Trouble

/-- A value without aliases and merges. -/
inductive Tree where
  | scalar (line : Nat) (tag : Tag) (text : String)
  | list (line : Nat) (elems : List Tree)
  /-- A table: whether all its keys are strings, its entries with the lines of their keys, and the
  troubles met behind the entries. -/
  | table (line : Nat) (textKeys : Bool) (entries : List (Nat × Tree × Tree)) (after : List Trouble)
  | cycle
  deriving Repr, Inhabited

namespace Node

/-- Whether two keys are the same. -/
def isSameKey : Node → Node → Bool
  | scalar _ _ a, scalar _ _ b => a == b
  | list _ _, list _ _ | table _ _, table _ _ => true
  | aliasOf _ a _, aliasOf _ b _ | aliasOf _ a _, cycle _ b | cycle _ a, aliasOf _ b _
  | cycle _ a, cycle _ b => a == b
  | _, _ => false

/-- Whether a key comes twice. -/
def hasTwins : List (Node × Node) → Bool
  | [] => false
  | (k, _) :: rest => rest.any (fun e => isSameKey k e.1) || hasTwins rest

/-- Whether a key asks to take over the entries of other tables. -/
def isMerge : Node → Bool
  | scalar _ .merge "<<" => true
  | _ => false

/-- The tag of a node as a key. -/
def keyTag : Node → Tag
  | scalar _ t _ => t
  | list _ _ => .list
  | table _ _ => .table
  | aliasOf _ _ n => n.keyTag
  | cycle _ _ => .table

/-- Whether a key is a string or asks for a merge. -/
def isTextKey (n : Node) : Bool := n.keyTag == .string || n.keyTag == .merge

/-- Whether a node can be merged: a table or an alias of one. -/
def isMergeable : Node → Bool
  | table _ _ | aliasOf _ _ (table _ _) => true
  | _ => false

end Node

namespace Tree

/-- The text of a scalar key. -/
def keyText? : Tree → Option String
  | scalar _ _ s => some s
  | _ => none

/-- The entries whose keys were not seen before. -/
def unseen (seen : List String) : List (Nat × Tree × Tree) → List (Nat × Tree × Tree)
  | [] => []
  | (l, k, v) :: rest =>
    match k.keyText? with
    | some s => if seen.contains s then unseen seen rest else (l, k, v) :: unseen (s :: seen) rest
    | none => (l, k, v) :: unseen seen rest

/-- The keys of entries. -/
def keysOf (es : List (Nat × Tree × Tree)) : List String := es.filterMap fun e => e.2.1.keyText?

/-- The entries that tables contribute to one whose keys are `seen`, and the troubles after them.
The first node that is no table ends it. -/
def mergeAll (seen : List String) :
    List (Node × Tree) → List (Nat × Tree × Tree) × List Trouble
  | [] => ([], [])
  | (n, t) :: rest =>
    match n.isMergeable, t with
    | true, table _ _ es after =>
      let new := unseen seen es
      let (more, troubles) := mergeAll (keysOf new ++ seen) rest
      (new ++ more, after ++ troubles)
    | _, _ => ([], [.fatal .malformed])

/-- The tables that a merge names: one, or those of a list. -/
def mergeSources : Node × Tree → List (Node × Tree)
  | (.list _ ns, list _ ts) => ns.zip ts
  | nt => [nt]

/-- The table with given entries. A table with a key that comes twice has no entries. -/
def ofEntries (line : Nat) (raw : List (Node × Node)) (es : List (Nat × Tree × Tree)) : Tree :=
  let textKeys := raw.all fun e => e.1.isTextKey
  if Node.hasTwins raw then table line textKeys [] [.mismatch]
  else
    let pairs := raw.zip es
    let own := (pairs.filter fun p => !p.1.1.isMerge).map (·.2)
    match pairs.find? fun p => p.1.1.isMerge with
    | none => table line textKeys own []
    | some (n, _, _, v) =>
      let (merged, after) := mergeAll (keysOf own) (mergeSources (n.2, v))
      table line textKeys (own ++ merged) after

mutual

/-- The tree of a node. -/
def ofNode : Node → Tree
  | .scalar l t s => scalar l t s
  | .list l ns => list l (ofNodes ns)
  | .table l es => ofEntries l es (ofPairs es)
  | .aliasOf _ _ n => ofNode n
  | .cycle _ _ => cycle

/-- The trees of the elements of a list. -/
def ofNodes : List Node → List Tree
  | [] => []
  | n :: rest => ofNode n :: ofNodes rest

/-- The trees of the entries of a table. -/
def ofPairs : List (Node × Node) → List (Nat × Tree × Tree)
  | [] => []
  | (k, v) :: rest => (k.line, ofNode k, ofNode v) :: ofPairs rest

end

/-- Whether a tree is a null. -/
def isNull : Tree → Bool
  | scalar _ .null _ => true
  | _ => false

/-- The trouble with a value where something else than a scalar is expected. A null is no
trouble. -/
def expectedOther : Tree → List Trouble
  | scalar _ tag s =>
    match meaning? tag s with
    | none => [.fatal .malformed]
    | some .null => []
    | some _ => [.mismatch]
  | list _ _ | table _ _ _ _ => [.mismatch]
  | cycle => [.fatal .malformed]

/-- The source text of a scalar; a null has none. -/
def string : Tree → Option String × List Trouble
  | scalar _ tag s =>
    match meaning? tag s with
    | none => (none, [.fatal .malformed])
    | some .null => (none, [])
    | some _ => (some s, [])
  | t => (none, t.expectedOther)

/-- The texts of the elements of a list; nulls are left out. -/
def stringElems : List Tree → List String × List Trouble
  | [] => ([], [])
  | e :: es =>
    let (s, t) := e.string
    let (more, u) := stringElems es
    (s.toList ++ more, t ++ u)

/-- A list of strings, nothing for a null. -/
def strings : Tree → Option (List String) × List Trouble
  | list _ es =>
    let (ss, t) := stringElems es
    (some ss, t)
  | t => (none, t.expectedOther)

mutual

/-- The datum of a tree. -/
def datum : Tree → Datum × List Trouble
  | scalar _ tag s =>
    match meaning? tag s with
    | some d => (d, [])
    | none => (.null, [.fatal .malformed])
  | list _ es =>
    let (ds, t) := datumList es
    (.list ds, t)
  | table _ textKeys es after =>
    let (ds, t) := datumEntries textKeys es
    (.table ds, t ++ after)
  | cycle => (.null, [.fatal .malformed])

/-- The data of the elements of a list. -/
def datumList : List Tree → List Datum × List Trouble
  | [] => ([], [])
  | e :: es =>
    let (d, t) := e.datum
    let (ds, u) := datumList es
    (d :: ds, t ++ u)

/-- The data of the entries of a table. A list or a table is no key. -/
def datumEntries (textKeys : Bool) :
    List (Nat × Tree × Tree) → List (Datum × Datum) × List Trouble
  | [] => ([], [])
  | (_, k, v) :: es =>
    let (key, t) : Datum × List Trouble :=
      match k with
      | list _ _ | table _ _ _ _ => (.null, [.fatal .malformed])
      | k =>
        if textKeys then
          let (s, t) := k.string
          (.string (s.getD ""), t)
        else k.datum
    let (d, u) := v.datum
    let (ds, w) := datumEntries textKeys es
    ((key, d) :: ds, t ++ u ++ w)

end

end Tree

/-- The first document of a text as a tree; a text without a document has none. -/
def readTree (t : Text) : Except Fault (Option Tree) :=
  match Node.ofText t with
  | none => .error .malformed
  | some n => .ok (n.map Tree.ofNode)

/-- The datum of the first document of a text; a text without a document is a null. -/
def readDatum (t : Text) : Except Fault Datum := do
  match ← readTree t with
  | none => return .null
  | some tree =>
    let (d, troubles) := tree.datum
    match Trouble.reported? troubles with
    | some f => throw f
    | none => return d

end DeclGen.Yaml
