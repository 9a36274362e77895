import DeclGen.Lang
import DeclGen.Scenario.Basic
import DeclGen.Store.Files
import DeclGen.Yaml.Tree

/-!
# Scenario files

A scenario is read from a file in YAML. Its document is looked for relative to the directory of that
file. A scenario that was read has a name, a description, an existing document, known targets, and
well formed assertions.
-/

namespace DeclGen

open Yaml (Tree Trouble)

/-- What an assertion lacks. -/
inductive AssertionFault where
  | noKind
  | unknownKind (tag : String)
  | noLang (kind : AssertionKind)
  | unknownLang (tag : String)
  | noText (kind : AssertionKind)
  | noLines
  | unknownCode
  deriving DecidableEq, Repr, Inhabited

/-- The message of what an assertion lacks. -/
def AssertionFault.message : AssertionFault → String
  | noKind => "type is required"
  | unknownKind tag => "unknown assertion type " ++ quote tag
  | noLang kind => "lang is required for " ++ kind.tag
  | unknownLang tag => "unknown language " ++ quote tag
  | noText kind => "text is required for " ++ kind.tag
  | noLines => "lines list is required for output_order"
  | unknownCode => "code must be one of " ++ ", ".intercalate (FailureCode.all.map (·.tag))

/-- What a scenario lacks. -/
inductive ScenarioFault where
  | noName
  | noDescription
  | noDocument
  | documentNotFound (path : String)
  | unknownLang (index : Nat) (tag : String)
  | noAssertions
  | assertion (index : Nat) (fault : AssertionFault)
  deriving DecidableEq, Repr, Inhabited

/-- The message of what a scenario lacks. -/
def ScenarioFault.message : ScenarioFault → String
  | noName => "name is required"
  | noDescription => "description is required"
  | noDocument => "document is required"
  | documentNotFound path => "document not found: " ++ path
  | unknownLang i tag => "langs[" ++ toString i ++ "]: unknown language " ++ quote tag
  | noAssertions => "assertions list is required and must be non-empty"
  | assertion i fault => "assertions[" ++ toString i ++ "]: " ++ fault.message

/-- Why a scenario is not read. -/
inductive ScenarioError where
  | unreadable (failure : Files.Failure)
  | malformed (fault : Fault)
  | invalid (fault : ScenarioFault)
  deriving DecidableEq, Repr, Inhabited

/-- The message of a scenario that is not read. -/
def ScenarioError.message : ScenarioError → String
  | unreadable f => "failed to read scenario file: " ++ f.message
  | malformed f => "failed to parse YAML: " ++ f.message
  | invalid f => "invalid scenario: " ++ f.message

namespace Assertion

/-- The fields of an assertion. -/
def ofYamlFields (a : Assertion) : List (Nat × Tree × Tree) → Assertion × List Trouble
  | [] => (a, [])
  | (line, k, v) :: rest =>
    let (key, t) := k.string
    let (a, u) : Assertion × List Trouble :=
      match key with
      | none => (a, [])
      | some "type" => let (s, u) := v.string; ({ a with kind := .ofTag (s.getD a.kind.tag) }, u)
      | some "lang" => let (s, u) := v.string; ({ a with lang := s.getD a.lang }, u)
      | some "text" => let (s, u) := v.string; ({ a with text := s.getD a.text }, u)
      | some "lines" => let (ss, u) := v.strings; ({ a with lines := ss }, u)
      | some "code" => let (s, u) := v.string; ({ a with code := s.getD a.code }, u)
      | some name => (a, [.unknown ⟨line, name, .assertion⟩])
    let (a, w) := ofYamlFields a rest
    (a, t ++ u ++ w)

/-- The assertion that a tree describes; a null describes none. -/
def ofYaml : Tree → Option Assertion × List Trouble
  | .table _ _ es after =>
    let (a, t) := ofYamlFields { kind := .ofTag "" } es
    (some a, t ++ after)
  | t => (none, t.expectedOther)

/-- The assertions that the elements of a list describe. -/
def ofYamlElems : List Tree → List Assertion × List Trouble
  | [] => ([], [])
  | e :: es =>
    let (a, t) := ofYaml e
    let (as, u) := ofYamlElems es
    (a.toList ++ as, t ++ u)

/-- The assertions of a list. -/
def ofYamlList : Tree → List Assertion × List Trouble
  | .list _ es => ofYamlElems es
  | t => ([], t.expectedOther)

/-- What is wrong with the target of an assertion. -/
def langFault? (a : Assertion) : Option AssertionFault :=
  if a.lang = "" then some (.noLang a.kind)
  else if (Lang.parse? a.lang).isNone then some (.unknownLang a.lang)
  else none

/-- What an assertion lacks. -/
def fault? (a : Assertion) : Option AssertionFault :=
  match a.kind with
  | .contains | .excludes =>
    a.langFault?.or (if a.text = "" then some (.noText a.kind) else none)
  | .order => a.langFault?.or (if (a.lines.getD []).isEmpty then some .noLines else none)
  | .failure => if (FailureCode.all.map (·.tag)).contains a.code then none else some .unknownCode
  | .other "" => some .noKind
  | .other tag => some (.unknownKind tag)

/-- The first fault of a list of assertions, which starts with the assertion with number `i`. -/
def firstFault? (i : Nat) : List Assertion → Option ScenarioFault
  | [] => none
  | a :: rest =>
    match a.fault? with
    | some f => some (.assertion i f)
    | none => firstFault? (i + 1) rest

end Assertion

namespace Scenario

/-- The fields of a scenario. -/
def ofYamlFields (s : Scenario) : List (Nat × Tree × Tree) → Scenario × List Trouble
  | [] => (s, [])
  | (line, k, v) :: rest =>
    let (key, t) := k.string
    let (s, u) : Scenario × List Trouble :=
      match key with
      | none => (s, [])
      | some "name" => let (x, u) := v.string; ({ s with name := x.getD s.name }, u)
      | some "description" =>
        let (x, u) := v.string
        ({ s with description := x.getD s.description }, u)
      | some "document" => let (x, u) := v.string; ({ s with document := x.getD s.document }, u)
      | some "langs" => let (xs, u) := v.strings; ({ s with langs := xs }, u)
      | some "assertions" =>
        let (as, u) := Assertion.ofYamlList v
        ({ s with assertions := as }, u)
      | some name => (s, [.unknown ⟨line, name, .scenario⟩])
    let (s, w) := ofYamlFields s rest
    (s, t ++ u ++ w)

/-- The scenario that a tree describes, with all troubles. -/
def ofYaml : Tree → Scenario × List Trouble
  | .table _ _ es after =>
    let (s, t) := ofYamlFields {} es
    (s, t ++ after)
  | t => ({}, t.expectedOther)

/-- The scenario that a text describes. A text without a document describes none. -/
def readYaml (t : Text) : Except Fault Scenario := do
  match ← Yaml.readTree t with
  | none => throw .blank
  | some tree =>
    let (s, troubles) := ofYaml tree
    match Trouble.reported? troubles with
    | some f => throw f
    | none => return s

/-- The first target that is not known, in a list that starts with number `i`. -/
def unknownLang? (i : Nat) : List String → Option ScenarioFault
  | [] => none
  | tag :: rest =>
    if (Lang.parse? tag).isNone then some (.unknownLang i tag) else unknownLang? (i + 1) rest

/-- What a scenario lacks in a store. -/
def fault? (fs : Files) (s : Scenario) : Option ScenarioFault :=
  if s.name = "" then some .noName
  else if s.description = "" then some .noDescription
  else if s.document = "" then some .noDocument
  else if fs.stat s.document matches .error .notFound then some (.documentNotFound s.document)
  else (unknownLang? 0 (s.langs.getD [])).or
    (if s.assertions.isEmpty then some .noAssertions else Assertion.firstFault? 0 s.assertions)

/-- The scenario with its place and with the path name of its document seen from there. -/
def placed (path : String) (s : Scenario) : Scenario :=
  { s with
    file := some path
    document :=
      if s.document = "" || Path.isAbsolute s.document then s.document
      else Path.join (Path.dir path) s.document }

/-- The scenario in a file. -/
def load (fs : Files) (path : String) : Except ScenarioError Scenario := do
  let t ← (fs.read path).mapError .unreadable
  let s ← (readYaml t).mapError .malformed
  let s := s.placed path
  match s.fault? fs with
  | some f => throw (.invalid f)
  | none => return s

end Scenario

end DeclGen
