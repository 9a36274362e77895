import DeclGen.Config.Options
import DeclGen.Data.Datum
import DeclGen.Lang
import DeclGen.Log
import DeclGen.Tree.Node

/-!
# Documents

A document lists items, which describe a forest, and gives settings per language. Whatever format it
is written in, it has this shape. `Document.content` turns it into a forest and configurations: an
item becomes one node, and an item with an unknown tag is reported and kept as a node of unknown
kind.

## Implementation notes

Settings are looked up by a key that names a language in one of several spellings. Keys are taken in
bytewise order, so the first refused key and the winner among several spellings do not depend on the
order in the document.

The texts of items and settings are `String`s, so they are well-formed UTF-8. Nothing else can come
from a text that is read, whatever its format: a stray byte is refused or replaced there. A `Text`,
which may hold any bytes, is needed only from here on, for the values of a forest.
-/

namespace DeclGen

/-- One item of a document. Texts are empty where the document leaves them out; of the qualifier it
matters whether it is there. -/
structure Item where
  tag : String := ""
  name : String := ""
  type : String := ""
  value : String := ""
  qualifier : Option String := none
  decoration : String := ""
  children : List Item := []
  deriving Repr, Inhabited

/-- The settings that a document gives under one key. Later entries of a list win. -/
structure Settings where
  types : List (String × String) := []
  names : List (String × String) := []
  options : List (String × Datum) := []
  deriving Repr, Inhabited

/-- What a document says, before any of it is interpreted. -/
structure Document where
  items : List Item := []
  settings : List (String × Settings) := []
  deriving Repr, Inhabited

/-- What a document means: a forest, and a configuration for some of the languages. -/
structure Content where
  items : Forest
  config : Lang → Option Config

namespace Item

/-- An attribute that is left out when its text is empty. -/
def attrUnlessEmpty (key : AttrKey) (s : String) : List Attr :=
  if s.isEmpty then [] else [⟨key, .ofString s⟩]

/-- The attributes of an item. -/
def attrs (i : Item) : List Attr :=
  attrUnlessEmpty .name i.name ++ attrUnlessEmpty .type i.type ++ attrUnlessEmpty .value i.value
    ++ (i.qualifier.toList.map fun q => ⟨.qualifier, .ofString q⟩)
    ++ attrUnlessEmpty .decoration i.decoration

/-- The record about a tag that names no kind. -/
def unknownTagRecord (tag place : String) : Record where
  level := .warn
  message := "unknown node kind, rendering nothing"
  fields := [("kind", tag), ("path", place)]

mutual

/-- The node that an item describes. -/
def node : Item → Node
  | ⟨tag, name, type, value, qualifier, decoration, children⟩ =>
    .node (Kind.ofTag tag) (attrs ⟨tag, name, type, value, qualifier, decoration, []⟩)
      (nodes children)

/-- The nodes that items describe. -/
def nodes : List Item → List Node
  | [] => []
  | i :: rest => node i :: nodes rest

end

mutual

/-- The records about an item at a place and the items below it, parents first. -/
def warnings (place : String) : Item → List Record
  | ⟨tag, _, _, _, _, _, children⟩ =>
    (if (Kind.parse? tag).isNone then [unknownTagRecord tag place] else [])
      ++ childWarnings place 0 children

/-- The records about the children of the item at a place, from the child with number `i` on. -/
def childWarnings (place : String) (i : Nat) : List Item → List Record
  | [] => []
  | c :: rest =>
    warnings (place ++ ".children[" ++ toString i ++ "]") c ++ childWarnings place (i + 1) rest

end

/-- The records about top-level items, from the item with number `i` on. -/
def topWarnings (i : Nat) : List Item → List Record
  | [] => []
  | it :: rest => warnings ("items[" ++ toString i ++ "]") it ++ topWarnings (i + 1) rest

end Item

namespace Settings

/-- A dictionary of strings. -/
def dict (entries : List (String × String)) : Dict :=
  Dict.ofList (entries.map fun (k, v) => (Text.ofString k, Text.ofString v))

/-- The configuration that settings describe. -/
def config (s : Settings) : Config where
  types := dict s.types
  names := dict s.names
  options := dict (s.options.map fun (k, v) => (k, v.display))

end Settings

namespace Document

/-- The settings with those under one key replaced. -/
def putSettings (key : String) (s : Settings) :
    List (String × Settings) → List (String × Settings)
  | [] => [(key, s)]
  | (k, v) :: rest => if k == key then (k, s) :: rest else (k, v) :: putSettings key s rest

/-- Settings in the order of their keys. -/
def sortedSettings (d : Document) : List (String × Settings) :=
  d.settings.mergeSort fun a b => Text.le (.ofString a.1) (.ofString b.1)

/-- The configurations that settings give, the last one for each language. The result is the first
key that names no language, if there is one. -/
def configsOf : List (String × Settings) → Except String (List (Lang × Config))
  | [] => .ok []
  | (key, s) :: rest =>
    match Lang.parse? key with
    | none => .error key
    | some l => do return (l, s.config) :: (← configsOf rest)

/-- The last configuration of a language. -/
def lastConfig (configs : List (Lang × Config)) (l : Lang) : Option Config :=
  configs.reverse.lookup l

/-- The records about the items of a document. -/
def warnings (d : Document) : List Record := Item.topWarnings 0 d.items

/-- What a document means, or the first settings key that names no language. -/
def content (d : Document) : Except String Content := do
  let configs ← configsOf d.sortedSettings
  return { items := Item.nodes d.items, config := lastConfig configs }

end Document

end DeclGen
