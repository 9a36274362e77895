import DeclGen.Config.Options
import DeclGen.Tree.Node

/-!
# Substitution of attribute values

A substitution replaces whole attribute values: first by the dictionary of types, then, on the
result, by the dictionary of names. It is used in two ways. `Substitution.resolve` is read through
while rendering, and `Substitution.apply` gives the tree with every value replaced.
-/

namespace DeclGen

/-- Replacements of attribute values. -/
structure Substitution where
  types : Dict := .empty
  names : Dict := .empty
  deriving Inhabited

namespace Substitution

/-- The substitution that a configuration asks for. -/
def ofConfig : Option Config → Substitution
  | some c => { types := c.types, names := c.names }
  | none => {}

/-- Whether a substitution has no entries. -/
def isIdentity (s : Substitution) : Bool := s.types.isEmpty && s.names.isEmpty

/-- The replacement of a value. -/
def resolve (s : Substitution) (v : Text) : Text :=
  let v := (s.types.get? v).getD v
  (s.names.get? v).getD v

/-- An attribute with its value replaced. -/
def applyAttr (s : Substitution) (a : Attr) : Attr := { a with value := s.resolve a.value }

mutual

/-- A tree with every attribute value replaced. -/
def applyNode (s : Substitution) : Node → Node
  | .hole => .hole
  | .node k as cs => .node k (as.map s.applyAttr) (apply s cs)

/-- Trees with every attribute value replaced. -/
def apply (s : Substitution) : List Node → List Node
  | [] => []
  | n :: rest => applyNode s n :: apply s rest

end

end Substitution

end DeclGen
