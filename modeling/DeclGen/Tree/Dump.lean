import DeclGen.Text.Quoted
import DeclGen.Tree.Node

/-!
# Dumps of trees

A dump shows one node per line, with its tag and its attributes in order, two spaces deeper than
its parent. Holes leave no trace.
-/

namespace DeclGen

/-- An attribute in a dump. -/
def Attr.dump (a : Attr) : String := " " ++ a.key.spelling ++ "=" ++ a.value.quoted

namespace Node

/-- The line of a node in a dump. -/
def dumpLine (depth : Nat) (kind : Kind) (attrs : List Attr) : String :=
  String.ofList (List.replicate (2 * depth) ' ') ++ kind.tag ++ String.join (attrs.map Attr.dump)
    ++ "\n"

mutual

/-- The dump of a tree whose root stands at a given depth. -/
def dumpFrom (depth : Nat) : Node → String
  | hole => ""
  | node k as cs => dumpLine depth k as ++ dumpListFrom (depth + 1) cs

/-- The dumps of several trees at a given depth, one after the other. -/
def dumpListFrom (depth : Nat) : List Node → String
  | [] => ""
  | n :: rest => dumpFrom depth n ++ dumpListFrom depth rest

end

end Node

/-- The dump of a forest. -/
def Forest.dump (f : Forest) : String := Node.dumpListFrom 0 f

end DeclGen
