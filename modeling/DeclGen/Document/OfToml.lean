import DeclGen.Document.Basic
import DeclGen.Document.Fault
import DeclGen.Document.Fields
import DeclGen.Text.Fold
import DeclGen.Toml.Reader

/-!
# Documents in TOML

Field names are matched without regard to letter case. Attributes are the texts of strings, numbers
and truth values. After everything else is read, all keys that nothing was read from are reported
together.
-/

namespace DeclGen

open Toml (Key Reading Value)

namespace Toml.Value

/-- The text of an attribute, or the shape that it has instead. -/
def attrText : Value → Except Shape String
  | string s => .ok s
  | int n => .ok (Datum.int n).display
  | float x => .ok (Datum.float x).display
  | bool b => .ok (Datum.bool b).display
  | moment _ => .error .moment
  | list _ => .error .list
  | table _ _ => .error .table
  | tables _ => .error .tables

/-- The text of the attribute under a key. -/
def attrAt (r : Reading) (key : Key) (v : Value) : String × List Fault :=
  match v.attrText with
  | .ok s => (s, [])
  | .error shape => ("", [.attributeShape (r.lineOf key) key.text shape])

/-- A string. -/
def string? : Value → String × List Fault
  | string s => (s, [])
  | _ => ("", [.malformed])

/-- The entries of a dictionary. -/
def dictEntries : List (String × Value) → List (String × String) × List Fault
  | [] => ([], [])
  | (k, v) :: rest =>
    let (s, f) := v.string?
    let (es, g) := dictEntries rest
    ((k, s) :: es, f ++ g)

/-- A dictionary. -/
def dict : Value → List (String × String) × List Fault
  | table _ es => dictEntries es
  | _ => ([], [.malformed])

/-- A bag of options. -/
def options : Value → List (String × Datum) × List Fault
  | table _ es => (es.map fun (k, v) => (k, v.datum), [])
  | _ => ([], [.malformed])

end Toml.Value

namespace Item

mutual

/-- The item that a value under a key describes. -/
def ofToml (r : Reading) (key : Key) : Value → Item × List Fault
  | .table _ es => ofTomlFields r key {} es
  | _ => ({}, [.malformed])

/-- The fields of an item under a key. -/
def ofTomlFields (r : Reading) (key : Key) (i : Item) : List (String × Value) → Item × List Fault
  | [] => (i, [])
  | (k, v) :: rest =>
    let (i, f) : Item × List Fault :=
      match ItemField.ofName? (Text.fold k) with
      | none => (i, [])
      | some .tag => let (s, f) := v.string?; ({ i with tag := s }, f)
      | some .name => let (s, f) := v.attrAt r (key ++ [k]); ({ i with name := s }, f)
      | some .type => let (s, f) := v.attrAt r (key ++ [k]); ({ i with type := s }, f)
      | some .value => let (s, f) := v.attrAt r (key ++ [k]); ({ i with value := s }, f)
      | some .qualifier =>
        let (s, f) := v.attrAt r (key ++ [k])
        ({ i with qualifier := some s }, f)
      | some .decoration => let (s, f) := v.attrAt r (key ++ [k]); ({ i with decoration := s }, f)
      | some .children =>
        let (cs, f) := ofTomlList r (key ++ [k]) v
        ({ i with children := cs }, f)
    let (i, g) := ofTomlFields r key i rest
    (i, f ++ g)

/-- The items of the list under a key. -/
def ofTomlList (r : Reading) (key : Key) : Value → List Item × List Fault
  | .list es => ofTomlElems r key es
  | .tables ts => ofTomlTables r key ts
  | _ => ([], [.malformed])

/-- The items that the elements of a list describe. -/
def ofTomlElems (r : Reading) (key : Key) : List Value → List Item × List Fault
  | [] => ([], [])
  | e :: es =>
    let (i, f) := ofToml r key e
    let (is, g) := ofTomlElems r key es
    (i :: is, f ++ g)

/-- The items that tables describe. -/
def ofTomlTables (r : Reading) (key : Key) : List (List (String × Value)) → List Item × List Fault
  | [] => ([], [])
  | t :: ts =>
    let (i, f) := ofTomlFields r key {} t
    let (is, g) := ofTomlTables r key ts
    (i :: is, f ++ g)

end

end Item

namespace Settings

/-- The fields of settings. -/
def ofTomlFields (s : Settings) : List (String × Value) → Settings × List Fault
  | [] => (s, [])
  | (k, v) :: rest =>
    let (s, f) : Settings × List Fault :=
      match SettingsField.ofName? (Text.fold k) with
      | none => (s, [])
      | some .types => let (d, f) := v.dict; ({ s with types := d }, f)
      | some .names => let (d, f) := v.dict; ({ s with names := d }, f)
      | some .options => let (d, f) := v.options; ({ s with options := d }, f)
    let (s, g) := ofTomlFields s rest
    (s, f ++ g)

/-- The settings that a value describes. -/
def ofToml : Value → Settings × List Fault
  | .table _ es => ofTomlFields {} es
  | _ => ({}, [.malformed])

/-- The settings under several keys, put over old ones. -/
def ofTomlEntries (old : List (String × Settings)) :
    List (String × Value) → List (String × Settings) × List Fault
  | [] => (old, [])
  | (k, v) :: rest =>
    let (s, f) := ofToml v
    let (ss, g) := ofTomlEntries (Document.putSettings k s old) rest
    (ss, f ++ g)

end Settings

namespace Document

/-- The fields of a document. -/
def ofTomlFields (r : Reading) (d : Document) : List (String × Value) → Document × List Fault
  | [] => (d, [])
  | (k, v) :: rest =>
    let (d, f) : Document × List Fault :=
      match DocumentField.ofName? (Text.fold k) with
      | none => (d, [])
      | some .items => let (is, f) := Item.ofTomlList r [k] v; ({ d with items := is }, f)
      | some .settings =>
        match v with
        | .table _ es =>
          let (ss, f) := Settings.ofTomlEntries d.settings es
          ({ d with settings := ss }, f)
        | _ => (d, [.malformed])
    let (d, g) := ofTomlFields r d rest
    (d, f ++ g)

/-- Whether an item has something under a key. -/
def knowsItemKey : Key → Bool
  | [] => true
  | k :: rest =>
    match ItemField.ofName? (Text.fold k) with
    | none => false
    | some .children => knowsItemKey rest
    | some _ => rest.isEmpty

/-- Whether settings have something under a key. Option values are not looked into. -/
def knowsSettingsKey : Key → Bool
  | [] => true
  | k :: rest => (SettingsField.ofName? (Text.fold k)).isSome && rest.length ≤ 1

/-- Whether a document has something under a key. -/
def knowsKey : Key → Bool
  | [] => true
  | k :: rest =>
    match DocumentField.ofName? (Text.fold k) with
    | none => false
    | some .items => knowsItemKey rest
    | some .settings => knowsSettingsKey rest.tail

/-- The keys of a text that a document does not have, in order. -/
def unknownKeys (r : Reading) : List String :=
  ((r.keys.filter fun k => !knowsKey k.key).map fun k => k.key.text).mergeSort
    fun a b => Text.le (.ofString a) (.ofString b)

/-- The document that a text in TOML describes. -/
def readToml (t : Text) : Except Fault Document :=
  match Toml.read? t with
  | none => .error .malformed
  | some r =>
    let (d, faults) := ofTomlFields r {} r.table
    match faults with
    | f :: _ => .error f
    | [] =>
      match unknownKeys r with
      | [] => .ok d
      | keys => .error (.unknownKeys keys)

end Document

end DeclGen
