import DeclGen.Data.Datum
import DeclGen.Json.Reader

/-!
# Document formats and what can be wrong in a text

A document is written in one of four formats, told by the extension of its file name. A fault says
why a text in one of the formats does not describe a document.
-/

namespace DeclGen

/-- A document format. -/
inductive DocumentFormat where
  | json
  | yaml
  | toml
  | cue
  deriving DecidableEq, Repr, Inhabited

namespace DocumentFormat

/-- The tag of a format. -/
def tag : DocumentFormat → String
  | json => "json"
  | yaml => "yaml"
  | toml => "toml"
  | cue => "cue"

/-- The format with exactly this tag. -/
def ofTag? : String → Option DocumentFormat
  | "json" => some json
  | "yaml" => some yaml
  | "toml" => some toml
  | "cue" => some cue
  | _ => none

/-- The format that a file name extension in lower case stands for. -/
def ofExtension? : String → Option DocumentFormat
  | ".json" => some json
  | ".yaml" | ".yml" => some yaml
  | ".toml" => some toml
  | ".cue" => some cue
  | _ => none

/-- What is said about a text of a format before the fault. The last format is exported to the first
one and shares its wording. -/
def failure : DocumentFormat → String
  | json | cue => "failed to parse JSON: "
  | yaml => "failed to parse YAML: "
  | toml => "failed to parse TOML: "

end DocumentFormat

/-- The part of a text in which a field name is looked up. -/
inductive Section where
  | document
  | item
  | settings
  | scenario
  | assertion
  deriving DecidableEq, Repr, Inhabited

namespace Section

/-- The name of a section in messages. -/
def label : Section → String
  | document => "loader.document"
  | item => "loader.itemDoc"
  | settings => "loader.configDoc"
  | scenario => "harness.Scenario"
  | assertion => "harness.Assertion"

end Section

/-- A field name that its section does not know. -/
structure UnknownField where
  line : Nat
  field : String
  part : Section
  deriving DecidableEq, Repr, Inhabited

/-- What an attribute holds instead of a single value. -/
inductive Shape where
  | list
  | table
  | tables
  | moment
  deriving DecidableEq, Repr, Inhabited

namespace Shape

/-- The name of a shape in messages. -/
def label : Shape → String
  | list => "[]interface \x7b\x7d"
  | table => "map[string]interface \x7b\x7d"
  | tables => "[]map[string]interface \x7b\x7d"
  | moment => "time.Time"

end Shape

/-- Why a text does not describe a document. -/
inductive Fault where
  /-- The text is not well formed, or a value has another type than its field. -/
  | malformed
  /-- The text is blank where a value is needed. -/
  | blank
  /-- A bracket in the text opens a level beyond the limit. -/
  | tooDeep (bracket : Char)
  /-- The text goes on after its value where nothing may follow. -/
  | trailing
  /-- The text has a value without a JSON form. -/
  | unwritable (obstacle : Datum.Obstacle)
  /-- The text is not well formed or has no value, because of something on this line. -/
  | rejected (line : Nat)
  | unknownField (name : String)
  | unknownFields (fields : List UnknownField)
  | unknownKeys (keys : List String)
  /-- An attribute is a list or an object with this source text. -/
  | attributeSource (source : String)
  /-- An attribute is a list or a mapping that starts on this line. -/
  | attributeLine (line : Nat)
  /-- The attribute under a key on this line has another shape than a single value. -/
  | attributeShape (line : Nat) (key : String) (shape : Shape)
  deriving DecidableEq, Repr, Inhabited

namespace Fault

/-- What is said about an attribute that is not a single value. -/
def singleValue : String := "attribute value must be a string, number or boolean, got "

/-- The fault that stops the reading of a text in JSON. -/
def ofReadError : Json.ReadError → Fault
  | .blank => blank
  | .malformed => malformed
  | .tooDeep bracket => tooDeep bracket
  | .trailing => trailing

/-- The message of a fault. -/
def message : Fault → String
  | malformed => "the text is not well formed or a value has the wrong type"
  | blank => "EOF"
  | tooDeep bracket => Json.tooDeepMessage bracket
  | trailing => "invalid character after top-level value"
  | unwritable obstacle => obstacle.message
  | rejected line => "line " ++ toString line ++ " is not well formed or has no value"
  | unknownField name => "json: unknown field " ++ quote name
  | unknownFields fields =>
    "yaml: unmarshal errors:" ++ String.join (fields.map fun f =>
      "\n  line " ++ toString f.line ++ ": field " ++ f.field ++ " not found in type "
        ++ f.part.label)
  | unknownKeys keys => "unknown fields " ++ ", ".intercalate keys
  | attributeSource source => singleValue ++ source
  | attributeLine line => "line " ++ toString line ++ ": attribute value must be a scalar"
  | attributeShape line key shape =>
    "toml: line " ++ toString line ++ " (last key " ++ quote key ++ "): " ++ singleValue
      ++ shape.label

/-- Whether a fault is about an attribute; such a fault ends the reading at once. -/
def isAttribute : Fault → Bool
  | attributeSource _ | attributeLine _ | attributeShape _ _ _ => true
  | _ => false

/-- The fault that is reported: the first about an attribute, or else the first. -/
def reported? (faults : List Fault) : Option Fault :=
  (faults.find? isAttribute).or faults.head?

end Fault

end DeclGen
