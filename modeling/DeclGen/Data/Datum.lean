import DeclGen.Data.Moment
import DeclGen.Decimal.Layout
import DeclGen.Json.Basic

/-!
# Data of documents

Option values may be any data that a document format can express. They are used as text
(`Datum.display`), and for the check against the schema they are turned into JSON (`Datum.json`).

## Implementation notes

The keys of a table are data themselves, because one of the formats allows it. Only tables whose
keys are strings have a JSON form.
-/

namespace DeclGen

/-- A value of a document. -/
inductive Datum where
  | null
  | bool (b : Bool)
  | int (n : Int)
  | float (x : Binary64)
  | string (s : String)
  | moment (m : Moment)
  | list (elems : List Datum)
  | table (entries : List (Datum × Datum))
  deriving Repr, Inhabited

namespace Datum

/-- The rank of a kind of keys. -/
def keyRank : Datum → Nat
  | null => 0
  | bool _ => 1
  | int _ => 2
  | float _ => 3
  | string _ => 4
  | moment _ => 5
  | list _ => 6
  | table _ => 7

/-- The order in which the keys of a table are shown. -/
def keyLe : Datum → Datum → Bool
  | bool a, bool b => !a || b
  | int a, int b => a ≤ b
  | string a, string b => Text.le (.ofString a) (.ofString b)
  | a, b => a.keyRank ≤ b.keyRank

mutual

/-- The text of a value. -/
def display : Datum → String
  | null => "<nil>"
  | bool b => if b then "true" else "false"
  | int n => toString n
  | float x => x.plain
  | string s => s
  | moment m => m.display
  | list es => "[" ++ " ".intercalate (displayList es) ++ "]"
  | table es =>
    let shown := (displayEntries es).mergeSort fun a b => keyLe a.1 b.1
    "map[" ++ " ".intercalate (shown.map (·.2)) ++ "]"

/-- The texts of the elements of a list. -/
def displayList : List Datum → List String
  | [] => []
  | e :: es => e.display :: displayList es

/-- The entries of a table as texts, each after its key. -/
def displayEntries : List (Datum × Datum) → List (Datum × String)
  | [] => []
  | (k, v) :: es => (k, k.display ++ ":" ++ v.display) :: displayEntries es

end

/-- The JSON form of a decimal number. -/
def numberJson (d : Decimal) : Json :=
  .number ((if d.negative then "-" else "") ++ toString d.digits ++ "e" ++ toString d.exponent)

/-- What may stand in the way of a JSON form. -/
inductive Obstacle where
  /-- A number that is not finite. -/
  | number (x : Binary64)
  /-- A table with a key that is no string. -/
  | keys
  /-- A moment whose offset is a day or more. -/
  | offset
  deriving DecidableEq, Repr, Inhabited

/-- What is said about an obstacle. -/
def Obstacle.message : Obstacle → String
  | number x => "json: unsupported value: " ++ x.plain
  | keys => "json: unsupported type: map[interface \x7b\x7d]interface \x7b\x7d"
  | offset =>
    "json: error calling MarshalJSON for type time.Time: Time.MarshalJSON: "
      ++ "timezone hour outside of range [0,23]"

/-- Fields with one more. Of two obstacles the one under the smaller key is met first. -/
def consField (key : String) (value : Except Obstacle Json)
    (fields : Except (String × Obstacle) (List (String × Json))) :
    Except (String × Obstacle) (List (String × Json)) :=
  match value, fields with
  | .ok v, .ok fs => .ok ((key, v) :: fs)
  | .ok _, .error e => .error e
  | .error o, .ok _ => .error (key, o)
  | .error o, .error e =>
    if Text.le (.ofString key) (.ofString e.1) then .error (key, o) else .error e

/-- The object with some fields, in the order of their keys. -/
def objectOf : Except (String × Obstacle) (List (String × Json)) → Except Obstacle Json
  | .ok fs => .ok (.object (fs.mergeSort fun a b => Text.le (.ofString a.1) (.ofString b.1)))
  | .error e => .error e.2

/-- Whether a value is a string. -/
def isString : Datum → Bool
  | string _ => true
  | _ => false

mutual

/-- The JSON form of a value, or the first obstacle to it. -/
def json : Datum → Except Obstacle Json
  | null => .ok .null
  | bool b => .ok (.bool b)
  | int n => .ok (.number (toString n))
  | float x =>
    match x.toDecimal? with
    | some d => .ok (numberJson d)
    | none => .error (.number x)
  | string s => .ok (.ofString s)
  | moment m =>
    match m.interchange? with
    | some s => .ok (.ofString s)
    | none => .error .offset
  | list es => do return .array (← jsonList es)
  | table es => if es.all fun e => e.1.isString then objectOf (jsonFields es) else .error .keys

/-- The JSON forms of the elements of a list. -/
def jsonList : List Datum → Except Obstacle (List Json)
  | [] => .ok []
  | e :: es => do return (← e.json) :: (← jsonList es)

/-- The fields of the JSON form of a table, or the first obstacle and its key. -/
def jsonFields : List (Datum × Datum) → Except (String × Obstacle) (List (String × Json))
  | [] => .ok []
  | (k, v) :: es => consField k.display v.json (jsonFields es)

end

end Datum

end DeclGen
