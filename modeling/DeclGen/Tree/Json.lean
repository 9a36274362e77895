import DeclGen.Json.Basic
import DeclGen.Tree.Node

/-!
# Trees in JSON

A node is an object with its kind, its attributes in order, and its children; empty lists are left
out. A missing node is a null.
-/

namespace DeclGen

/-- An attribute in JSON. -/
def Attr.json (a : Attr) : Json :=
  .object [("key", .ofString a.key.spelling), ("value", .string a.value)]

namespace Node

mutual

/-- A node in JSON. -/
def json : Node → Json
  | hole => .null
  | node kind attrs children =>
    .object (("kind", .ofString kind.tag)
      :: (if attrs.isEmpty then [] else [("attrs", .array (attrs.map Attr.json))])
      ++ (if children.isEmpty then [] else [("children", .array (jsonList children))]))

/-- The nodes of a list in JSON. -/
def jsonList : List Node → List Json
  | [] => []
  | n :: ns => n.json :: jsonList ns

end

end Node

/-- A forest in JSON. -/
def Forest.json (f : Forest) : Json := .array (Node.jsonList f)

end DeclGen
