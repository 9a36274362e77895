import DeclGen.Schema.Pattern
import DeclGen.Tree.Kind
import DeclGen.Lang

/-!
# The rules of the document schema

The schema is a finite graph of named parts. Each part has one rule, which may send the parts of a
value on to other names.
-/

namespace DeclGen.Schema

/-- A type of JSON values. Whole numbers are a type of their own in rules. -/
inductive ValueType where
  | null
  | boolean
  | number
  | integer
  | string
  | array
  | object
  deriving DecidableEq, Repr, Inhabited

/-- The name of a type in messages. -/
def ValueType.label : ValueType → String
  | null => "null"
  | boolean => "boolean"
  | number => "number"
  | integer => "integer"
  | string => "string"
  | array => "array"
  | object => "object"

/-- A part of the schema. -/
inductive Part where
  | document
  | items
  | item
  | tag
  | scalar
  | settings
  | config
  | dict
  | dictValue
  | options
  | indentWidth
  | indentChar
  deriving DecidableEq, Repr, Inhabited

/-- What a rule says about the fields of an object that it does not list. -/
inductive Others where
  | allowed
  | forbidden
  | checked (part : Part)
  deriving DecidableEq, Repr, Inhabited

/-- What is asked of a value. A condition on one type says nothing about values of other types. -/
structure Rule where
  /-- The allowed types, in the order in which messages list them. -/
  types : List ValueType
  pattern : Option Pattern := none
  minLength : Nat := 0
  minimum : Option Nat := none
  maximum : Option Nat := none
  elements : Option Part := none
  required : List String := []
  fields : List (String × Part) := []
  others : Others := .allowed
  names : Option Pattern := none
  deriving DecidableEq, Repr, Inhabited

/-- The spellings of kinds that the schema allows. -/
def kindWords : List String :=
  ["var", "variable", "func", "function", "fptr", "function_pointer", "enum", "struct", "bitflags",
    "attribute", "attr"]

/-- The spellings of languages that the schema allows. -/
def langWords : List String := ["rust", "rs", "cpp", "c++", "c"]

/-- The rule of a part. -/
def Part.rule : Part → Rule
  | document =>
    { types := [.object],
      fields := [("items", items), ("configs", settings)],
      others := .forbidden }
  | items => { types := [.array], elements := some item }
  | item =>
    { types := [.object], required := ["kind"], others := .forbidden
      fields := [("kind", tag), ("name", scalar), ("type", scalar), ("value", scalar),
        ("qualifier", scalar), ("attribute", scalar), ("children", items)] }
  | tag => { types := [.string], pattern := some (.word kindWords) }
  | scalar => { types := [.null, .boolean, .number, .string] }
  | settings => { types := [.object], names := some (.word langWords), others := .checked config }
  | config =>
    { types := [.object], others := .forbidden
      fields := [("types", dict), ("names", dict), ("global", options)] }
  | dict => { types := [.object], others := .checked dictValue }
  | dictValue => { types := [.string] }
  | options =>
    { types := [.object], fields := [("num_tabs", indentWidth), ("tab_char", indentChar)] }
  | indentWidth =>
    { types := [.integer, .string], pattern := some .digits,
      minimum := some 0, maximum := some 255 }
  | indentChar => { types := [.string], minLength := 1 }

end DeclGen.Schema
