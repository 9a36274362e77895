import DeclGen.Text.Quoted

/-!
# Scenarios

A scenario names a document and says what is expected of the code generated from it: texts that the
output contains or not, lines in a given order, or a failure of a given kind.

## Implementation notes

The texts and lines of a scenario are `String`s, so they are well-formed UTF-8, as everything is
that can be read from a scenario file: a file with a stray byte is refused. The outputs that they
are compared with are `Text`s and may hold any bytes.
-/

namespace DeclGen

/-- What an assertion asks for. Scenarios that were not read from a file may ask for something
unknown. -/
inductive AssertionKind where
  | contains
  | excludes
  | order
  | failure
  | other (tag : String)
  deriving DecidableEq, Repr, Inhabited

namespace AssertionKind

/-- The tag of a kind. -/
def tag : AssertionKind → String
  | contains => "output_contains"
  | excludes => "output_excludes"
  | order => "output_order"
  | failure => "error"
  | other t => t

/-- The kind with a tag. -/
def ofTag : String → AssertionKind
  | "output_contains" => contains
  | "output_excludes" => excludes
  | "output_order" => order
  | "error" => failure
  | t => other t

end AssertionKind

/-- The kind of failure that a run ends with. -/
inductive FailureCode where
  | load
  | invalidTree
  | invalidOption
  | unknownLang
  deriving DecidableEq, Repr, Inhabited

namespace FailureCode

/-- All kinds of failure, in the order in which messages list them. -/
def all : List FailureCode := [load, invalidTree, invalidOption, unknownLang]

/-- The tag of a kind of failure. -/
def tag : FailureCode → String
  | load => "load"
  | invalidTree => "invalid_ir"
  | invalidOption => "invalid_config"
  | unknownLang => "unknown_lang"

end FailureCode

/-- One expectation. Which fields are used depends on the kind. -/
structure Assertion where
  kind : AssertionKind
  lang : String := ""
  text : String := ""
  lines : Option (List String) := none
  code : String := ""
  deriving DecidableEq, Repr, Inhabited

/-- A document and what is expected of it. -/
structure Scenario where
  name : String := ""
  description : String := ""
  document : String := ""
  /-- The targets to render; none or no list at all means every target. -/
  langs : Option (List String) := none
  assertions : List Assertion := []
  /-- The path name of the file that the scenario was read from. -/
  file : Option String := none
  deriving DecidableEq, Repr, Inhabited

namespace Scenario

/-- Whether a failure is among the expectations. -/
def expectsFailure (s : Scenario) : Bool := s.assertions.any (·.kind == .failure)

end Scenario

end DeclGen
