import DeclGen.Text.Fold
import DeclGen.Tree.Json

/-!
# Trees read from JSON

A forest is read from the list of its trees. Field names are matched without regard to letter case,
and fields with other names are passed over. A field that is left out or null stays as it was, but a
null in the place of a list empties it, and a null in the place of a node is a hole. A field that
comes again is read over what is there already. Every other value in the place of a field is
refused.
-/

namespace DeclGen

/-- A field of an attribute in JSON. -/
inductive AttrField where
  | key
  | value
  deriving DecidableEq, Repr, Inhabited

/-- The field of an attribute with exactly this name. -/
def AttrField.ofName? : String → Option AttrField
  | "key" => some key
  | "value" => some value
  | _ => none

/-- A field of a node in JSON. -/
inductive NodeField where
  | kind
  | attrs
  | children
  deriving DecidableEq, Repr, Inhabited

/-- The field of a node with exactly this name. -/
def NodeField.ofName? : String → Option NodeField
  | "kind" => some kind
  | "attrs" => some attrs
  | "children" => some children
  | _ => none

/-- A kind read over an old one: a tag that names no kind gives the unknown kind. -/
def Kind.overJson (old : Kind) : Json → Option Kind
  | .null => some old
  | .string t => some (ofTag t.toString)
  | _ => none

/-- A text read over an old one. -/
def Text.overJson (old : Text) : Json → Option Text
  | .null => some old
  | .string t => some t
  | _ => none

namespace Attr

/-- An attribute of which nothing was read yet. -/
def blank : Attr := ⟨.ofSpelling "", []⟩

/-- The fields of an attribute read over an old one. -/
def overFields (old : Attr) : List (String × Json) → Option Attr
  | [] => some old
  | (name, v) :: rest =>
    match AttrField.ofName? (Text.fold name) with
    | none => overFields old rest
    | some .key => do
      let t ← Text.overJson (.ofString old.key.spelling) v
      overFields { old with key := .ofSpelling t.toString } rest
    | some .value => do
      let t ← Text.overJson old.value v
      overFields { old with value := t } rest

/-- An attribute read over an old one. -/
def overJson (old : Attr) : Json → Option Attr
  | .null => some old
  | .object fs => overFields old fs
  | _ => none

/-- The attributes of a list, each read over the old one in its position. -/
def overElems (old : List Attr) : List Json → Option (List Attr)
  | [] => some []
  | e :: es => do
    let a ← overJson (old.headD blank) e
    let as ← overElems old.tail es
    return a :: as

/-- A list of attributes read over an old one. -/
def overList (old : List Attr) : Json → Option (List Attr)
  | .null => some []
  | .array es => overElems old es
  | _ => none

end Attr

namespace Node

mutual

/-- A node read over an old one. -/
def overJson (old : Node) : Json → Option Node
  | .null => some .hole
  | .object fs => overFields (old.kind?.getD .unknown) old.attrs old.children fs
  | _ => none

/-- The fields of a node read over old ones. -/
def overFields (kind : Kind) (attrs : List Attr) (children : List Node) :
    List (String × Json) → Option Node
  | [] => some (.node kind attrs children)
  | (name, v) :: rest =>
    match NodeField.ofName? (Text.fold name) with
    | none => overFields kind attrs children rest
    | some .kind => do
      let k ← kind.overJson v
      overFields k attrs children rest
    | some .attrs => do
      let as ← Attr.overList attrs v
      overFields kind as children rest
    | some .children => do
      let cs ← overList children v
      overFields kind attrs cs rest

/-- A list of nodes read over an old one. -/
def overList (old : List Node) : Json → Option (List Node)
  | .null => some []
  | .array es => overElems old es
  | _ => none

/-- The nodes of a list, each read over the old one in its position. -/
def overElems (old : List Node) : List Json → Option (List Node)
  | [] => some []
  | e :: es => do
    let n ← overJson (old.headD .hole) e
    let ns ← overElems old.tail es
    return n :: ns

end

end Node

/-- The forest that a JSON value describes. -/
def Forest.ofJson? (j : Json) : Option Forest := Node.overList [] j

end DeclGen
