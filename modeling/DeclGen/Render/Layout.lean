import DeclGen.Config.Substitution
import DeclGen.Render.Dialect
import DeclGen.Text.Upper
import DeclGen.Tree.Rules

/-!
# Rendering of forests

A forest is rendered between two banner lines. Struct members stand one level deeper than their
struct, the entries of enumerations and flag sets one level deeper than the header. A variable
without a type and a node of unknown kind render as nothing. Rendering stops at the first node that
breaks a rule of nesting among those it visits.

## Implementation notes

Every attribute value is read through the substitution, so the forest itself stays as it is. The
rendered node is followed structurally: `Style.node` for declarations, `Style.signature` for
functions in all their places, `Style.params` and `Style.nested` for parameter lists.
-/

namespace DeclGen

open Text (ofString)

/-- Everything rendering depends on besides the forest. -/
structure Style where
  dialect : Dialect
  format : Format := {}
  substitution : Substitution := {}

/-- Where a function stands, which decides how its declaration is finished. -/
inductive Place where
  | statement
  | member
  | parameter
  deriving DecidableEq, Repr, Inhabited

/-- The end of a line. -/
def newline : Text := ofString "\n"

namespace Style

variable (style : Style)

/-- The replaced value of an attribute, if it is present. -/
def lookup? (attrs : List Attr) (key : AttrKey) : Option Text :=
  (Attr.lookup? key attrs).map style.substitution.resolve

/-- The replaced value of an attribute, or else the empty text. -/
def get (attrs : List Attr) (key : AttrKey) : Text := (style.lookup? attrs key).getD []

/-- A line at a given depth. -/
def line (depth : Nat) (t : Text) : Text := style.format.indent depth ++ t ++ newline

/-- A line at a given depth, where there is something to write. -/
def lineIfAny (depth : Nat) (t : Text) : Text := if t.isEmpty then [] else style.line depth t

/-- The lines of a decoration: every attribute that is not empty. -/
def decoration (depth : Nat) (attrs : List Attr) : Text :=
  attrs.flatMap fun a => style.lineIfAny depth (style.substitution.resolve a.value)

/-- The lines of the decorations among the children of a block. -/
def decorations (depth : Nat) (children : List Node) : Text :=
  children.flatMap fun
    | .node .decoration as _ => style.decoration depth as
    | _ => []

/-- The line of a block's own decoration. -/
def headerDecoration (depth : Nat) (attrs : List Attr) : Text :=
  style.lineIfAny depth (style.get attrs .decoration)

/-- An entry of an enumeration or a flag set, given its name. -/
def entry (name : Text) (attrs : List Attr) : Text :=
  let value := style.get attrs .value
  let type := style.get attrs .type
  if value.isEmpty then name
  else if type.isEmpty then name ++ ofString " = " ++ value
  else name ++ ofString " = " ++ style.dialect.cast value type

/-- The lines of the entries among the children of an enumeration. -/
def enumEntries (depth : Nat) (children : List Node) : Text :=
  children.flatMap fun
    | .node .var as _ =>
      style.line depth (style.entry (style.get as .name) as ++ ofString ",")
    | _ => []

/-- The lines of the entries among the children of a flag set, with names in upper case. -/
def flagEntries (depth : Nat) (children : List Node) : Text :=
  children.flatMap fun
    | .node .var as _ =>
      style.line depth (style.dialect.flagsEntryStart
        ++ style.entry (style.get as .name).upper as ++ ofString ",")
    | _ => []

/-- A block between empty lines. -/
def block (kind : Block) (depth : Nat) (attrs : List Attr) (children : List Node) (body : Text) :
    Text :=
  newline ++ style.decorations depth children ++ style.headerDecoration depth attrs
    ++ style.line depth (style.dialect.blockHeader kind (style.get attrs .name)) ++ body
    ++ style.line depth (style.dialect.blockClose kind) ++ newline

/-- The first child whose kind its parent does not allow. -/
def firstMismatch (parent : Kind) (i : Nat) : List Node → Option Violation
  | [] => none
  | .hole :: rest => firstMismatch parent (i + 1) rest
  | .node k _ _ :: rest =>
    match parent.checkChild k with
    | some m => some { mismatch := m, address := [i] }
    | none => firstMismatch parent (i + 1) rest

/-- A text, unless a child has a kind that its parent does not allow. -/
def checked (parent : Kind) (children : List Node) (t : Text) : Except Violation Text :=
  match firstMismatch parent 0 children with
  | some v => .error v
  | none => .ok t

/-- An enumeration. -/
def enumeration (depth : Nat) (attrs : List Attr) (children : List Node) : Except Violation Text :=
  checked .enumeration children <|
    style.block .enumeration depth attrs children (style.enumEntries (depth + 1) children)

/-- The lines of a flag set without its wrapper. -/
def flagBody (depth : Nat) (attrs : List Attr) (children : List Node) : Text :=
  style.decorations depth children ++ style.headerDecoration depth attrs
    ++ style.line depth (style.dialect.flagsHeader (style.get attrs .name) (style.get attrs .type))
    ++ style.flagEntries (depth + 1) children ++ style.line depth style.dialect.flagsClose

/-- A flag set; a wrapper moves it one level deeper. -/
def flagSet (depth : Nat) (attrs : List Attr) (children : List Node) : Except Violation Text :=
  checked .flagSet children <|
    match style.dialect.flagsWrapper with
    | some w =>
      style.line depth w.opening ++ style.flagBody (depth + 1) attrs children
        ++ style.line depth w.closing ++ newline
    | none => style.flagBody depth attrs children ++ newline

/-- The initial value of a variable, with its equals sign. -/
def initializer (attrs : List Attr) : Text :=
  let value := style.get attrs .value
  if value.isEmpty then [] else ofString " = " ++ value

/-- Whether a qualifier opens a generic type. -/
def isGeneric (qualifier : Text) : Bool := qualifier.hasPart style.dialect.genericOpen

/-- The qualifier of a variable at the top level. -/
def varQualifier (attrs : List Attr) : Text :=
  (style.lookup? attrs .qualifier).getD (ofString "const")

/-- A variable as a member of a struct. -/
def memberVar (depth : Nat) (attrs : List Attr) : Text :=
  let type := style.get attrs .type
  if type.isEmpty then []
  else style.line depth <|
    style.dialect.bind (style.get attrs .name) type ++ style.initializer attrs
      ++ style.dialect.fieldSeparator

/-- A variable at the top level. -/
def topVar (depth : Nat) (attrs : List Attr) : Text :=
  let type := style.get attrs .type
  let name := style.get attrs .name
  let qualifier := style.varQualifier attrs
  if type.isEmpty then []
  else style.line depth <|
    style.dialect.visibility
      ++ (if style.isGeneric qualifier then
            style.dialect.bind name (qualifier ++ type ++ style.dialect.genericClose)
          else Dialect.qualified qualifier (style.dialect.bind name type))
      ++ style.initializer attrs ++ style.dialect.terminator

/-- The qualifier of a function; a function pointer without one gets the dialect's. -/
def funcQualifier (place : Place) (kind : Kind) (attrs : List Attr) : Text :=
  let qualifier := style.get attrs .qualifier
  if kind == .functionPointer && qualifier.isEmpty then
    style.dialect.pointerQualifier (place == .statement)
  else qualifier

/-- The declaration of a function, given its rendered parameters. A generic qualifier supplies the
indirection itself, so that the type inside is a plain function type. -/
def declaration (place : Place) (kind : Kind) (attrs : List Attr) (params : Text) : Text :=
  let name := style.get attrs .name
  let result := style.get attrs .type
  let qualifier := style.funcQualifier place kind attrs
  if style.isGeneric qualifier then
    style.dialect.bind name
      (qualifier ++ style.dialect.funcType { params, result } ++ style.dialect.genericClose)
  else
    style.dialect.funcType
      { name, qualifier, params, result, isPointer := kind == .functionPointer }

/-- A declaration of a function in its place. -/
def finish (place : Place) (depth : Nat) (decl : Text) : Text :=
  match place with
  | .parameter => decl
  | .member => style.line depth (decl ++ style.dialect.fieldSeparator)
  | .statement =>
    style.line depth (style.dialect.visibility ++ decl ++ style.dialect.terminator)

/-- Parameters with separators between them; a function with at most one child has none to
separate. -/
def joinParams (childCount : Nat) (params : List Text) : Text :=
  Text.join (if childCount > 1 then ofString ", " else []) params

/-- The parameter that a variable itself stands for, if it has a type. -/
def ownParam (attrs : List Attr) : List Text :=
  let type := style.get attrs .type
  if type.isEmpty then [] else [style.dialect.bind (style.get attrs .name) type]

/-- The outcome of a child at position `i`, seen from its parent. -/
def atChild {α : Type} (i : Nat) (r : Except Violation α) : Except Violation α :=
  r.mapError (·.under i)

mutual

/-- A function or function pointer with the given children. -/
def signature (place : Place) (depth : Nat) : Node → Except Violation Text
  | .hole => .ok []
  | .node k as cs => do
    let params ← params depth k 0 cs
    return style.finish place depth (style.declaration place k as (joinParams cs.length params))

/-- The parameters that the children of a function of kind `fn` give, the first child of which
stands at position `i`. -/
def params (depth : Nat) (fn : Kind) (i : Nat) : List Node → Except Violation (List Text)
  | [] => .ok []
  | .hole :: rest => params depth fn (i + 1) rest
  | .node k as cs :: rest =>
    match fn.checkChild k with
    | some m => .error { mismatch := m, address := [i] }
    | none =>
      match k with
      | .var =>
        match checkParamsFrom fn 0 cs with
        | some v => .error (v.under i)
        | none => do
          let inner ← atChild i (nested depth 0 cs)
          let others ← params depth fn (i + 1) rest
          return inner ++ style.ownParam as ++ others
      | .functionPointer => do
        let own ← atChild i (signature .parameter depth (.node k as cs))
        let others ← params depth fn (i + 1) rest
        return own :: others
      | _ => params depth fn (i + 1) rest

/-- The parameters that the function pointers inside a variable parameter give, the first child of
which stands at position `i`. -/
def nested (depth : Nat) (i : Nat) : List Node → Except Violation (List Text)
  | [] => .ok []
  | .node .functionPointer as cs :: rest => do
    let own ← atChild i (signature .parameter depth (.node .functionPointer as cs))
    let others ← nested depth (i + 1) rest
    return own :: others
  | _ :: rest => nested depth (i + 1) rest

end

mutual

/-- A declaration at the top level, or a member of a struct. -/
def node (isMember : Bool) (depth : Nat) : Node → Except Violation Text
  | .hole => .ok []
  | .node k as cs =>
    match k with
    | .var => .ok (if isMember then style.memberVar depth as else style.topVar depth as)
    | .function | .functionPointer =>
      style.signature (if isMember then .member else .statement) depth (.node k as cs)
    | .enumeration => style.enumeration depth as cs
    | .struct => do
      let body ← members (depth + 1) 0 cs
      return style.block .struct depth as cs body
    | .flagSet => style.flagSet depth as cs
    | .decoration => .ok (style.decoration depth as)
    | .unknown => .ok []

/-- The members among the children of a struct, the first of which stands at position `i`. -/
def members (depth : Nat) (i : Nat) : List Node → Except Violation Text
  | [] => .ok []
  | .node .decoration _ _ :: rest => members depth (i + 1) rest
  | n :: rest => do
    let own ← atChild i (node true depth n)
    let others ← members depth (i + 1) rest
    return own ++ others

end

/-- The declarations of a forest, the first of which stands at position `i`. -/
def items (i : Nat) : Forest → Except Violation Text
  | [] => .ok []
  | n :: rest => do
    let own ← atChild i (style.node false 0 n)
    let others ← items (i + 1) rest
    return own ++ others

/-- The first line of generated code. -/
def bannerHeader : Text := ofString "Code generated by codespawn. DO NOT EDIT."

/-- The last line of generated code. -/
def bannerFooter : Text := ofString "End of generated code."

/-- A comment line. -/
def comment (t : Text) : Text := style.dialect.lineComment ++ ofString " " ++ t ++ newline

/-- A forest as source text. -/
def render (f : Forest) : Except Violation Text := do
  let body ← style.items 0 f
  return style.comment bannerHeader ++ body ++ style.comment bannerFooter

end Style

end DeclGen
