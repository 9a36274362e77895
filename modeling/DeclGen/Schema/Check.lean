import DeclGen.Decimal.Layout
import DeclGen.Json.Basic
import DeclGen.Schema.Rules

/-!
# Checking a value against the schema

`Part.check` gives the findings about a value as a tree: a leaf is one problem at one location, and
a group gathers the findings below one value. A value of a wrong type has no other problem.

## Implementation notes

Of several fields with one name only the last is part of the object.
-/

namespace DeclGen.Schema

/-- One thing that is wrong with a value. -/
inductive Problem where
  | wrongType (got : ValueType) (want : List ValueType)
  | missing (field : String)
  | unexpected (fields : List String)
  | noMatch (value : Text) (pattern : Pattern)
  | tooSmall (got : Decimal) (want : Nat)
  | tooGreat (got : Decimal) (want : Nat)
  | tooShort (got want : Nat)
  deriving DecidableEq, Repr, Inhabited

namespace Problem

/-- A number in a message. -/
def numberText (d : Decimal) : String := (Binary64.ofDecimal d).english

/-- The message of a problem. -/
def message : Problem → String
  | wrongType got want =>
    "got " ++ got.label ++ ", want " ++ " or ".intercalate (want.map ValueType.label)
  | missing field => "missing property " ++ singleQuoted (.ofString field)
  | unexpected fields =>
    "additional properties " ++ ", ".intercalate (fields.map fun f => singleQuoted (.ofString f))
      ++ " not allowed"
  | noMatch value pattern =>
    singleQuoted value ++ " does not match pattern " ++ singleQuoted (.ofString pattern.text)
  | tooSmall got want =>
    "minimum: got " ++ numberText got ++ ", want " ++ numberText (.ofInt want)
  | tooGreat got want =>
    "maximum: got " ++ numberText got ++ ", want " ++ numberText (.ofInt want)
  | tooShort got want => "minLength: got " ++ toString got ++ ", want " ++ toString want

end Problem

/-- Where a value stands: the field names and positions that lead to it. -/
abbrev Pointer := List String

/-- What a check finds: a problem, or the findings about parts of a value. -/
inductive Finding where
  | leaf (location : Pointer) (problem : Problem)
  | group (causes : List Finding)
  deriving Repr, Inhabited

/-- The decimal number of a literal. -/
def literalValue (literal : String) : Decimal := (Decimal.parse? literal).getD (.ofInt 0)

/-- The type of a value. -/
def typeOf : Json → ValueType
  | .null => .null
  | .bool _ => .boolean
  | .number _ => .number
  | .string _ => .string
  | .array _ => .array
  | .object _ => .object

/-- Whether a value has a type. -/
def hasType (v : Json) (t : ValueType) : Bool :=
  match t, v with
  | .integer, .number l => (literalValue l).isInteger
  | t, v => typeOf v == t

/-- The findings about a string. -/
def checkString (r : Rule) (loc : Pointer) (t : Text) : List Finding :=
  (match r.pattern with
    | some p => if p.holds t.chars then [] else [.leaf loc (.noMatch t p)]
    | none => [])
  ++ (if t.chars.length < r.minLength then [.leaf loc (.tooShort t.chars.length r.minLength)]
      else [])

/-- The findings about a number. -/
def checkNumber (r : Rule) (loc : Pointer) (d : Decimal) : List Finding :=
  (match r.minimum with
    | some n => if d.isBelow n then [.leaf loc (.tooSmall d n)] else []
    | none => [])
  ++ (match r.maximum with
    | some n => if d.exceeds n then [.leaf loc (.tooGreat d n)] else []
    | none => [])

/-- The part that a rule asks for a field. -/
def Rule.partOf (r : Rule) (field : String) : Option Part :=
  match r.fields.lookup field with
  | some p => some p
  | none =>
    match r.others with
    | .checked p => some p
    | _ => none

/-- Whether a rule forbids a field. -/
def Rule.forbids (r : Rule) (field : String) : Bool :=
  (r.fields.lookup field).isNone && r.others == .forbidden

/-- The findings about the names of an object's fields. A name that breaks the pattern of names is
reported at the root. -/
def checkNames (r : Rule) (loc : Pointer) (names : List String) : List Finding :=
  ((r.required.filter fun f => !names.contains f).map fun f => .leaf loc (.missing f))
  ++ (let extra := names.eraseDups.filter r.forbids
      if extra.isEmpty then [] else [.leaf loc (.unexpected extra)])
  ++ (match r.names with
    | some p =>
      (names.filter fun n => !p.holds n.toList).map fun n =>
        .leaf [] (.noMatch (.ofString n) p)
    | none => [])

mutual

/-- The findings about a value at a location, seen as a part of the schema. -/
def Part.check (part : Part) (loc : Pointer) (v : Json) : List Finding :=
  let r := part.rule
  if !r.types.any (hasType v) then [.leaf loc (.wrongType (typeOf v) r.types)]
  else match v with
    | .string t => checkString r loc t
    | .number l => checkNumber r loc (literalValue l)
    | .array es =>
      match r.elements with
      | some p => checkElems p loc 0 es
      | none => []
    | .object fs => checkNames r loc (fs.map (·.1)) ++ checkFields r loc fs
    | _ => []

/-- The findings about the elements of a list from position `i` on. -/
def checkElems (part : Part) (loc : Pointer) (i : Nat) : List Json → List Finding
  | [] => []
  | e :: es => .group (part.check (loc ++ [toString i]) e) :: checkElems part loc (i + 1) es

/-- The findings about the fields of an object. -/
def checkFields (r : Rule) (loc : Pointer) : List (String × Json) → List Finding
  | [] => []
  | (k, v) :: rest =>
    let more := checkFields r loc rest
    if rest.any (·.1 == k) then more
    else match r.partOf k with
      | some p => .group (p.check (loc ++ [k]) v) :: more
      | none => more

end

end DeclGen.Schema
