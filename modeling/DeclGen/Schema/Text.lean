import DeclGen.Json.Compact
import DeclGen.Schema.Rules

/-!
# The schema as a document

The schema itself is a JSON document. It is published in a layout that keeps small objects on one
line.

## Implementation notes

The patterns are taken from the rules that documents are checked against, so the published patterns
and the checked ones are the same.
-/

namespace DeclGen

namespace Json

/-- Whether a value has no parts. -/
def isSingle : Json → Bool
  | array _ | object _ => false
  | _ => true

mutual

/-- A value on one line, with a space behind each comma and colon. -/
def spaced : Json → List Char
  | array [] => ['[', ']']
  | array (e :: es) => '[' :: spaced e ++ spacedElems es ++ [']']
  | object [] => ['\x7b', '\x7d']
  | object ((k, v) :: fs) =>
    '\x7b' :: compactString k ++ ':' :: ' ' :: spaced v ++ spacedFields fs ++ ['\x7d']
  | v => compact v

/-- The elements of a list after the first. -/
def spacedElems : List Json → List Char
  | [] => []
  | e :: es => ',' :: ' ' :: spaced e ++ spacedElems es

/-- The fields of an object after the first. -/
def spacedFields : List (String × Json) → List Char
  | [] => []
  | (k, v) :: fs => ',' :: ' ' :: compactString k ++ ':' :: ' ' :: spaced v ++ spacedFields fs

end

/-- The greatest width of an object on one line. -/
def lineWidth : Nat := 80

/-- Whether an object goes on one line: it is not too wide and its fields have no parts. -/
def isSmall (fields : List (String × Json)) : Bool :=
  fields.all (fun f => f.2.isSingle) && (spaced (.object fields)).length ≤ lineWidth

mutual

/-- A value at a depth, with lists and small objects on one line. -/
def folded (depth : Nat) : Json → List Char
  | object ((k, v) :: fs) =>
    if isSmall ((k, v) :: fs) then spaced (.object ((k, v) :: fs))
    else
      '\x7b' :: lineStart (depth + 1) ++ compactString k ++ ':' :: ' ' :: folded (depth + 1) v
        ++ foldedFields (depth + 1) fs ++ lineStart depth ++ ['\x7d']
  | v => spaced v

/-- The fields of an object after the first. -/
def foldedFields (depth : Nat) : List (String × Json) → List Char
  | [] => []
  | (k, v) :: fs =>
    ',' :: lineStart depth ++ compactString k ++ ':' :: ' ' :: folded depth v
      ++ foldedFields depth fs

end

end Json

namespace Schema

/-- A reference to a named part of the schema. -/
def reference (name : String) : Json := .object [("$ref", .ofString ("#/$defs/" ++ name))]

/-- A type, or a list of types. -/
def typeField (names : List String) : String × Json :=
  match names with
  | [name] => ("type", .ofString name)
  | names => ("type", .array (names.map .ofString))

/-- A pattern. -/
def patternField (p : Pattern) : String × Json := ("pattern", .ofString p.text)

/-- No other fields than the listed ones. -/
def noOthers : String × Json := ("additionalProperties", .bool false)

/-- A list of items. -/
def itemList : Json := .object [typeField ["array"], ("items", reference "item")]

/-- The part about items. -/
def itemPart : Json :=
  .object [typeField ["object"], ("required", .array [.ofString "kind"]), noOthers,
    ("properties", .object (
      ("kind", .object [typeField ["string"], patternField (.word kindWords)])
        :: (["name", "type", "value", "qualifier", "attribute"].map (·, reference "scalar"))
        ++ [("children", itemList)]))]

/-- The part about options. -/
def optionsPart : Json :=
  .object [typeField ["object"], ("properties", .object [
    ("num_tabs", .object [typeField ["integer", "string"], patternField .digits,
      ("minimum", .ofNat 0), ("maximum", .ofNat 255)]),
    ("tab_char", .object [typeField ["string"], ("minLength", .ofNat 1)])])]

/-- The part about configurations. -/
def configPart : Json :=
  .object [typeField ["object"], noOthers, ("properties", .object [
    ("types", reference "dict"), ("names", reference "dict"), ("global", optionsPart)])]

/-- The schema as a JSON value. -/
def json : Json :=
  .object [
    ("$schema", .ofString "https://json-schema.org/draft/2020-12/schema"),
    ("$id", .ofString "https://github.com/roach88/codespawn/document.schema.json"),
    ("title", .ofString "codespawn document"),
    typeField ["object"],
    noOthers,
    ("properties", .object [
      ("items", itemList),
      ("configs", .object [typeField ["object"],
        ("propertyNames", .object [patternField (.word langWords)]),
        ("additionalProperties", reference "config")])]),
    ("$defs", .object [
      ("scalar", .object [typeField ["string", "number", "boolean", "null"]]),
      ("item", itemPart),
      ("config", configPart),
      ("dict", .object [typeField ["object"],
        ("additionalProperties", .object [typeField ["string"]])])])]

/-- The text of the schema. -/
def text : Text := .ofChars (json.folded 0 ++ ['\n'])

end Schema

end DeclGen
