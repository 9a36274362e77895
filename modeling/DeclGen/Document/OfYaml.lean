import DeclGen.Document.Basic
import DeclGen.Document.Fields
import DeclGen.Yaml.Tree

/-!
# Documents in YAML

Field names are matched exactly, and all unknown fields are reported together. Attributes keep the
source text of their scalars, whatever type these have; a null leaves a field out.
-/

namespace DeclGen

open Yaml (Tree Trouble)

namespace Yaml.Tree

/-- The text of an attribute; a null has none. -/
def attrText : Tree → Option String × List Trouble
  | scalar _ .null s => (none, (scalar 0 .null s).expectedOther)
  | scalar _ _ s => (some s, [])
  | list l _ | table l _ _ _ => (none, [.fatal (.attributeLine l)])
  | cycle => (none, [.fatal .malformed])

/-- The entries of a dictionary. A null is an empty text, and an entry with a null as key is left
out. -/
def dictEntries : List (Nat × Tree × Tree) → List (String × String) × List Trouble
  | [] => ([], [])
  | (_, k, v) :: rest =>
    let (key, t) := k.string
    let (es, w) := dictEntries rest
    match key with
    | none => (es, t ++ w)
    | some key =>
      let (s, u) := v.string
      ((key, s.getD "") :: es, t ++ u ++ w)

/-- A dictionary. -/
def dict : Tree → List (String × String) × List Trouble
  | table _ _ es after =>
    let (d, t) := dictEntries es
    (d, t ++ after)
  | t => ([], t.expectedOther)

/-- The entries of a bag of options. -/
def optionEntries : List (Nat × Tree × Tree) → List (String × Datum) × List Trouble
  | [] => ([], [])
  | (_, k, v) :: rest =>
    let (key, t) := k.string
    let (es, w) := optionEntries rest
    match key with
    | none => (es, t ++ w)
    | some key =>
      let (d, u) := v.datum
      ((key, d) :: es, t ++ u ++ w)

/-- A bag of options. -/
def options : Tree → List (String × Datum) × List Trouble
  | table _ _ es after =>
    let (d, t) := optionEntries es
    (d, t ++ after)
  | t => ([], t.expectedOther)

end Yaml.Tree

namespace Item

mutual

/-- The item that a tree describes; a null describes none. -/
def ofYaml : Tree → Option Item × List Trouble
  | .table _ _ es after =>
    let (i, t) := ofYamlFields {} es
    (some i, t ++ after)
  | t => (none, t.expectedOther)

/-- The fields of an item. -/
def ofYamlFields (i : Item) : List (Nat × Tree × Tree) → Item × List Trouble
  | [] => (i, [])
  | (line, k, v) :: rest =>
    let (key, t) := k.string
    let (i, u) : Item × List Trouble :=
      match key with
      | none => (i, [])
      | some name =>
        match ItemField.ofName? name with
        | none => (i, [.unknown ⟨line, name, .item⟩])
        | some .tag => let (s, u) := v.string; ({ i with tag := s.getD i.tag }, u)
        | some .name => let (s, u) := v.attrText; ({ i with name := s.getD i.name }, u)
        | some .type => let (s, u) := v.attrText; ({ i with type := s.getD i.type }, u)
        | some .value => let (s, u) := v.attrText; ({ i with value := s.getD i.value }, u)
        | some .qualifier => let (s, u) := v.attrText; ({ i with qualifier := s }, u)
        | some .decoration =>
          let (s, u) := v.attrText
          ({ i with decoration := s.getD i.decoration }, u)
        | some .children => let (cs, u) := ofYamlList v; ({ i with children := cs }, u)
    let (i, w) := ofYamlFields i rest
    (i, t ++ u ++ w)

/-- The items of a list. -/
def ofYamlList : Tree → List Item × List Trouble
  | .list _ es => ofYamlElems es
  | t => ([], t.expectedOther)

/-- The items that the elements of a list describe. -/
def ofYamlElems : List Tree → List Item × List Trouble
  | [] => ([], [])
  | e :: es =>
    let (i, t) := ofYaml e
    let (is, u) := ofYamlElems es
    (i.toList ++ is, t ++ u)

end

end Item

namespace Settings

/-- The fields of settings. -/
def ofYamlFields (s : Settings) : List (Nat × Tree × Tree) → Settings × List Trouble
  | [] => (s, [])
  | (line, k, v) :: rest =>
    let (key, t) := k.string
    let (s, u) : Settings × List Trouble :=
      match key with
      | none => (s, [])
      | some name =>
        match SettingsField.ofName? name with
        | none => (s, [.unknown ⟨line, name, .settings⟩])
        | some .types => let (d, u) := v.dict; ({ s with types := d }, u)
        | some .names => let (d, u) := v.dict; ({ s with names := d }, u)
        | some .options => let (d, u) := v.options; ({ s with options := d }, u)
    let (s, w) := ofYamlFields s rest
    (s, t ++ u ++ w)

/-- The settings that a tree describes. -/
def ofYaml : Tree → Settings × List Trouble
  | .table _ _ es after =>
    let (s, t) := ofYamlFields {} es
    (s, t ++ after)
  | t => ({}, t.expectedOther)

/-- The settings under several keys. -/
def ofYamlEntries (old : List (String × Settings)) :
    List (Nat × Tree × Tree) → List (String × Settings) × List Trouble
  | [] => (old, [])
  | (_, k, v) :: rest =>
    let (key, t) := k.string
    match key with
    | none =>
      let (ss, w) := ofYamlEntries old rest
      (ss, t ++ w)
    | some name =>
      let (s, u) := ofYaml v
      let (ss, w) := ofYamlEntries (Document.putSettings name s old) rest
      (ss, t ++ u ++ w)

end Settings

namespace Document

/-- The fields of a document. -/
def ofYamlFields (d : Document) : List (Nat × Tree × Tree) → Document × List Trouble
  | [] => (d, [])
  | (line, k, v) :: rest =>
    let (key, t) := k.string
    let (d, u) : Document × List Trouble :=
      match key with
      | none => (d, [])
      | some name =>
        match DocumentField.ofName? name with
        | none => (d, [.unknown ⟨line, name, .document⟩])
        | some .items => let (is, u) := Item.ofYamlList v; ({ d with items := is }, u)
        | some .settings =>
          match v with
          | .table _ _ es after =>
            let (ss, u) := Settings.ofYamlEntries [] es
            ({ d with settings := ss }, u ++ after)
          | v => ({ d with settings := [] }, v.expectedOther)
    let (d, w) := ofYamlFields d rest
    (d, t ++ u ++ w)

/-- The document that a tree describes, with all troubles. -/
def ofYaml : Tree → Document × List Trouble
  | .table _ _ es after =>
    let (d, t) := ofYamlFields {} es
    (d, t ++ after)
  | t => ({}, t.expectedOther)

/-- The document that a text in YAML describes. -/
def readYaml (t : Text) : Except Fault Document := do
  match ← Yaml.readTree t with
  | none => return {}
  | some tree =>
    let (d, troubles) := ofYaml tree
    match Trouble.reported? troubles with
    | some f => throw f
    | none => return d

end Document

end DeclGen
