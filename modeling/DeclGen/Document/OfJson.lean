import DeclGen.Document.Basic
import DeclGen.Document.Fault
import DeclGen.Document.Fields
import DeclGen.Json.Reader
import DeclGen.Text.Fold

/-!
# Documents in JSON

Field names are matched without regard to letter case, a null leaves its field as it was, and a
field that comes again is read over what is there already. A text may go on after its first value.

## Implementation notes

Every step gives a value and the faults met on the way, in order; nothing stops early. Which of the
faults is reported is decided at the end.
-/

namespace DeclGen

namespace Datum

/-- The entries of a list with the value under one key set. -/
def putEntry (key : String) (v : Datum) : List (String × Datum) → List (String × Datum)
  | [] => [(key, v)]
  | (k, w) :: rest => if k == key then (k, v) :: rest else (k, w) :: putEntry key v rest

/-- The table with string keys of a list of entries, of which later ones win. -/
def ofEntries (es : List (String × Datum)) : Datum :=
  .table ((es.foldl (fun acc e => putEntry e.1 e.2 acc) []).map fun (k, v) => (.string k, v))

/-- The binary number that a literal spells. -/
def ofLiteral? (literal : String) : Option Datum := do
  let d ← Decimal.parse? literal
  let x ← Binary64.ofDecimal? d
  return .float x

mutual

/-- The datum of a JSON value. A number beyond the greatest binary number is a fault. -/
def ofJson : Json.Sourced → Datum × List Fault
  | .null => (.null, [])
  | .bool b => (.bool b, [])
  | .number l =>
    match ofLiteral? l with
    | some d => (d, [])
    | none => (.null, [.malformed])
  | .string s => (.string s, [])
  | .array _ es =>
    let (ds, f) := ofJsonList es
    (.list ds, f)
  | .object _ fs =>
    let (es, f) := ofJsonFields fs
    (ofEntries es, f)

/-- The data of a list. -/
def ofJsonList : List Json.Sourced → List Datum × List Fault
  | [] => ([], [])
  | e :: es =>
    let (d, f) := ofJson e
    let (ds, g) := ofJsonList es
    (d :: ds, f ++ g)

/-- The data of the fields of an object. -/
def ofJsonFields : List (String × Json.Sourced) → List (String × Datum) × List Fault
  | [] => ([], [])
  | (k, v) :: es =>
    let (d, f) := ofJson v
    let (ds, g) := ofJsonFields es
    ((k, d) :: ds, f ++ g)

end

end Datum

namespace Json.Sourced

/-- The text of an attribute: strings without quotation marks, numbers and truth values as they are
spelled. -/
def attrText : Sourced → String × List Fault
  | null => ("", [])
  | bool b => (if b then "true" else "false", [])
  | number l => (l, [])
  | string s => (s, [])
  | array source _ | object source _ => ("", [.attributeSource source.text])

/-- A string read over an old one. -/
def stringOver (old : String) : Sourced → String × List Fault
  | null => (old, [])
  | string s => (s, [])
  | _ => (old, [.malformed])

/-- A qualifier, which a null takes away. -/
def qualifier : Sourced → Option String × List Fault
  | null => (none, [])
  | v =>
    let (s, f) := v.attrText
    (some s, f)

/-- The entries of a dictionary. -/
def dictEntries : List (String × Sourced) → List (String × String) × List Fault
  | [] => ([], [])
  | (k, v) :: rest =>
    let (s, f) := v.stringOver ""
    let (es, g) := dictEntries rest
    ((k, s) :: es, f ++ g)

/-- A dictionary read over an old one. -/
def dictOver (old : List (String × String)) : Sourced → List (String × String) × List Fault
  | null => ([], [])
  | object _ fs =>
    let (es, f) := dictEntries fs
    (old ++ es, f)
  | _ => (old, [.malformed])

/-- Options read over old ones. -/
def optionsOver (old : List (String × Datum)) : Sourced → List (String × Datum) × List Fault
  | null => ([], [])
  | object _ fs =>
    let (es, f) := Datum.ofJsonFields fs
    (old ++ es, f)
  | _ => (old, [.malformed])

end Json.Sourced

namespace Item

mutual

/-- An item read over an old one. -/
def overJson (old : Item) : Json.Sourced → Item × List Fault
  | .null => (old, [])
  | .object _ fs => overFields old fs
  | _ => (old, [.malformed])

/-- The fields of an item read over an old item. -/
def overFields (old : Item) : List (String × Json.Sourced) → Item × List Fault
  | [] => (old, [])
  | (k, v) :: rest =>
    let (new, f) : Item × List Fault :=
      match ItemField.ofName? (Text.fold k) with
      | none => (old, [.unknownField k])
      | some .tag => let (s, f) := v.stringOver old.tag; ({ old with tag := s }, f)
      | some .name => let (s, f) := v.attrText; ({ old with name := s }, f)
      | some .type => let (s, f) := v.attrText; ({ old with type := s }, f)
      | some .value => let (s, f) := v.attrText; ({ old with value := s }, f)
      | some .qualifier => let (q, f) := v.qualifier; ({ old with qualifier := q }, f)
      | some .decoration => let (s, f) := v.attrText; ({ old with decoration := s }, f)
      | some .children =>
        let (cs, f) := overList old.children v
        ({ old with children := cs }, f)
    let (new, g) := overFields new rest
    (new, f ++ g)

/-- A list of items read over an old list. -/
def overList (old : List Item) : Json.Sourced → List Item × List Fault
  | .null => ([], [])
  | .array _ es => overElems old es
  | _ => (old, [.malformed])

/-- The elements of a list of items, each read over the old item in its position. -/
def overElems (old : List Item) : List Json.Sourced → List Item × List Fault
  | [] => ([], [])
  | e :: es =>
    let (i, f) := overJson (old.headD {}) e
    let (is, g) := overElems old.tail es
    (i :: is, f ++ g)

end

end Item

namespace Settings

/-- The fields of settings read over old settings. -/
def overFields (old : Settings) : List (String × Json.Sourced) → Settings × List Fault
  | [] => (old, [])
  | (k, v) :: rest =>
    let (new, f) : Settings × List Fault :=
      match SettingsField.ofName? (Text.fold k) with
      | none => (old, [.unknownField k])
      | some .types => let (d, f) := v.dictOver old.types; ({ old with types := d }, f)
      | some .names => let (d, f) := v.dictOver old.names; ({ old with names := d }, f)
      | some .options => let (d, f) := v.optionsOver old.options; ({ old with options := d }, f)
    let (new, g) := overFields new rest
    (new, f ++ g)

/-- The settings that a JSON value gives. -/
def ofJson : Json.Sourced → Settings × List Fault
  | .null => ({}, [])
  | .object _ fs => overFields {} fs
  | _ => ({}, [.malformed])

/-- Settings per key read over old ones. -/
def overEntries (old : List (String × Settings)) :
    List (String × Json.Sourced) → List (String × Settings) × List Fault
  | [] => (old, [])
  | (k, v) :: rest =>
    let (s, f) := ofJson v
    let (new, g) := overEntries (Document.putSettings k s old) rest
    (new, f ++ g)

end Settings

namespace Document

/-- The fields of a document read over an old document. -/
def overFields (old : Document) : List (String × Json.Sourced) → Document × List Fault
  | [] => (old, [])
  | (k, v) :: rest =>
    let (new, f) : Document × List Fault :=
      match DocumentField.ofName? (Text.fold k) with
      | none => (old, [.unknownField k])
      | some .items =>
        let (is, f) := Item.overList old.items v
        ({ old with items := is }, f)
      | some .settings =>
        match v with
        | .null => ({ old with settings := [] }, [])
        | .object _ fs =>
          let (s, f) := Settings.overEntries old.settings fs
          ({ old with settings := s }, f)
        | _ => (old, [.malformed])
    let (new, g) := overFields new rest
    (new, f ++ g)

/-- The document that a JSON value describes, with all faults. -/
def ofJson : Json.Sourced → Document × List Fault
  | .null => ({}, [])
  | .object _ fs => overFields {} fs
  | _ => ({}, [.malformed])

/-- The document that a text in JSON describes. -/
def readJson (t : Text) : Except Fault Document :=
  match Json.readFirst t.chars with
  | .error e => .error (.ofReadError e)
  | .ok (v, _) =>
    let (d, faults) := ofJson v
    match Fault.reported? faults with
    | some f => .error f
    | none => .ok d

end Document

end DeclGen
