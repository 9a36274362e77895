import DeclGen.Text.Basic
import DeclGen.Tree.Kind

/-!
# Trees of declarations

A node has a kind, an ordered list of attributes and an ordered list of children. When a key
repeats, its last occurrence counts. A child position may be left free; a hole takes up its
position and describes nothing.
-/

namespace DeclGen

/-- The name of an attribute. Five names have a meaning, all others are carried along. -/
inductive AttrKey where
  | name
  | type
  | value
  | qualifier
  | decoration
  | other (spelling : String)
  deriving DecidableEq, Repr, Inhabited

namespace AttrKey

/-- The spelling of an attribute name. -/
def spelling : AttrKey → String
  | name => "name"
  | type => "type"
  | value => "value"
  | qualifier => "qualifier"
  | decoration => "attribute"
  | other s => s

/-- The attribute name with a given spelling. -/
def ofSpelling : String → AttrKey
  | "name" => name
  | "type" => type
  | "value" => value
  | "qualifier" => qualifier
  | "attribute" => decoration
  | s => other s

@[simp]
theorem spelling_ofSpelling (s : String) : (ofSpelling s).spelling = s := by
  unfold ofSpelling
  split <;> rfl

end AttrKey

/-- One attribute of a node. -/
structure Attr where
  key : AttrKey
  value : Text
  deriving DecidableEq, Repr, Inhabited

namespace Attr

/-- The value of the last attribute with a given key. -/
def lookup? (key : AttrKey) (attrs : List Attr) : Option Text :=
  (attrs.reverse.find? (·.key == key)).map (·.value)

/-- The value of the last attribute with a given key, or else the empty text. -/
def get (key : AttrKey) (attrs : List Attr) : Text := (lookup? key attrs).getD []

end Attr

/-- One position of a tree: a declaration with its parts, or a hole. -/
inductive Node where
  | hole
  | node (kind : Kind) (attrs : List Attr) (children : List Node)
  deriving Repr, BEq, Inhabited

/-- The top-level declarations of a document. -/
abbrev Forest := List Node

namespace Node

/-- The kind of a node; a hole has none. -/
def kind? : Node → Option Kind
  | hole => none
  | node k _ _ => some k

/-- The attributes of a node. -/
def attrs : Node → List Attr
  | hole => []
  | node _ as _ => as

/-- The children of a node. -/
def children : Node → List Node
  | hole => []
  | node _ _ cs => cs

/-- A node with one more attribute at the end. -/
def addAttr (a : Attr) : Node → Node
  | hole => hole
  | node k as cs => node k (as ++ [a]) cs

/-- A node with one more child at the end. -/
def addChild (c : Node) : Node → Node
  | hole => hole
  | node k as cs => node k as (cs ++ [c])

mutual

/-- The kind and the attributes of every node below and including a node, parents first; the
children of a node are left out where `stop` holds of its kind. -/
def preorder (stop : Kind → Bool) : Node → List (Kind × List Attr)
  | hole => []
  | node k as cs => (k, as) :: if stop k then [] else preorderList stop cs

/-- The kinds and attributes of the nodes of several trees, one tree after the other. -/
def preorderList (stop : Kind → Bool) : List Node → List (Kind × List Attr)
  | [] => []
  | n :: rest => preorder stop n ++ preorderList stop rest

end

end Node

namespace Forest

/-- The node at an address, which is a position among the trees and then among children. -/
def at? : Forest → List Nat → Option Node
  | _, [] => none
  | f, [i] => f[i]?
  | f, i :: j :: rest => do
    let n ← f[i]?
    at? n.children (j :: rest)

/-- The forest with the node at an address changed. -/
def modifyAt (change : Node → Node) : Forest → List Nat → Forest
  | f, [] => f
  | f, [i] => f.modify i change
  | f, i :: j :: rest =>
    f.modify i fun
      | .hole => .hole
      | .node k as cs => .node k as (modifyAt change cs (j :: rest))

end Forest

end DeclGen
