import DeclGen.Data.Datum
import DeclGen.Json.Reader

/-!
# The meaning of scalars

A plain scalar without a tag is taken for a null, a truth value, a number or a moment if it looks
like one, and else for a string. A tag asks for a meaning, and the scalar must have it.

## Implementation notes

Two kinds of tags are taken more simply than they could be. The text of a scalar with the tag
`!!binary` stands for itself and is not decoded. A scalar with a tag that a text has made up itself,
such as `!mine`, has no meaning and is refused where its value is needed.
-/

namespace DeclGen.Yaml

/-- What a node is tagged as, or found to be. -/
inductive Tag where
  | null
  | bool
  | int
  | float
  | string
  | moment
  | binary
  | merge
  | list
  | table
  | other (name : String)
  deriving DecidableEq, Repr, Inhabited

namespace Tag

/-- The tag with a given full name. -/
def ofName (name : String) : Tag :=
  let long := "tag:yaml.org,2002:".toList
  let short := if long.isPrefixOf name.toList then
    "!!" ++ String.ofList (name.toList.drop long.length) else name
  match short with
  | "!!null" => null
  | "!!bool" => bool
  | "!!int" => int
  | "!!float" => float
  | "!!str" => string
  | "!!timestamp" => moment
  | "!!binary" => binary
  | "!!merge" => merge
  | "!!seq" => list
  | "!!map" => table
  | _ => .other short

end Tag

/-- The scalars that stand for fixed values. -/
def fixed? : String → Option (Tag × Datum)
  | "" | "~" | "null" | "Null" | "NULL" => some (.null, .null)
  | "true" | "True" | "TRUE" => some (.bool, .bool true)
  | "false" | "False" | "FALSE" => some (.bool, .bool false)
  | ".nan" | ".NaN" | ".NAN" => some (.float, .float .nan)
  | ".inf" | ".Inf" | ".INF" | "+.inf" | "+.Inf" | "+.INF" =>
    some (.float, .float (.infinite false))
  | "-.inf" | "-.Inf" | "-.INF" => some (.float, .float (.infinite true))
  | _ => none

/-- One or two digits as a number, and the characters after them. -/
def shortNumber : List Char → Option (Nat × List Char)
  | a :: b :: rest =>
    if a.isDigit then
      if b.isDigit then some (Decimal.ofDigits [a, b], rest)
      else some (Decimal.ofDigits [a], b :: rest)
    else none
  | [a] => if a.isDigit then some (Decimal.ofDigits [a], []) else none
  | [] => none

/-- The characters after a given one. -/
def after (c : Char) : List Char → Option (List Char)
  | d :: rest => if c == d then some rest else none
  | [] => none

/-- The fraction of a second as a number of nanoseconds, and the characters after it. -/
def secondFraction : List Char → Nat × List Char
  | p :: d :: rest =>
    if (p == '.' || p == ',') && d.isDigit then
      (Moment.nanosOf ((d :: rest).takeWhile Char.isDigit), (d :: rest).dropWhile Char.isDigit)
    else (0, p :: d :: rest)
  | cs => (0, cs)

/-- A time of day, as hour, minute, second and nanosecond, and the characters after it. -/
def clock (cs : List Char) : Option ((Nat × Nat × Nat × Nat) × List Char) := do
  let (hour, cs) ← shortNumber cs
  let (minute, cs) ← shortNumber (← after ':' cs)
  let (second, cs) ← shortNumber (← after ':' cs)
  let (nanos, cs) := secondFraction cs
  return ((hour, minute, second, nanos), cs)

/-- A zone, which ends the text. -/
def zone? : List Char → Option Zone
  | ['Z'] => some .utc
  | [sign, a, b, ':', c, d] =>
    if (sign == '+' || sign == '-') && [a, b, c, d].all Char.isDigit then
      let hours := Decimal.ofDigits [a, b]
      let minutes := Decimal.ofDigits [c, d]
      if hours ≤ 24 && minutes ≤ 60 then
        let total := hours * 60 + minutes
        some (Zone.ofOffset (sign == '-') (total / 60) (total % 60))
      else none
    else none
  | _ => none

/-- The moment that a scalar spells: a date, or a date and a time with a zone or without. -/
def moment? (s : String) : Option Moment := do
  let cs := s.toList
  let digits := cs.takeWhile Char.isDigit
  if digits.length != 4 then none
  let year := Decimal.ofDigits digits
  let (month, cs) ← shortNumber (← after '-' (cs.drop 4))
  let (day, cs) ← shortNumber (← after '-' cs)
  let m : Moment := { year, month, day }
  let m ← match cs with
    | [] => some m
    | sep :: cs => do
      let ((hour, minute, second, nanos), cs) ← clock cs
      let m := { m with hour, minute, second, nanos }
      if sep == ' ' then if cs.isEmpty then some m else none
      else if sep == 'T' || sep == 't' then do return { m with zone := ← zone? cs }
      else none
  if m.isValid then some m else none

/-- The value of digits in a base up to sixteen. -/
def digitsIn? (base : Nat) (cs : List Char) : Option Nat :=
  if cs.isEmpty then none
  else cs.foldlM (fun n c => do
    let d ← Json.hexValue? c
    if d < base then some (n * base + d) else none) 0

/-- The whole number without a sign that characters spell: hexadecimal, octal, binary or decimal. -/
def magnitude? : List Char → Option Nat
  | '0' :: x :: rest =>
    if x == 'x' || x == 'X' then digitsIn? 16 rest
    else if x == 'o' || x == 'O' then digitsIn? 8 rest
    else if x == 'b' || x == 'B' then digitsIn? 2 rest
    else digitsIn? 8 (x :: rest)
  | cs => digitsIn? 10 cs

/-- The whole number that characters spell, as far as it fits into 64 bits. -/
def int? (cs : List Char) : Option Int :=
  match cs with
  | '-' :: rest => do
    let n ← magnitude? rest
    if n ≤ Nat.pow 2 63 then some (-(n : Int)) else none
  | '+' :: rest => do
    let n ← magnitude? rest
    if n < Nat.pow 2 63 then some n else none
  | cs => do
    let n ← magnitude? cs
    if n < Nat.pow 2 64 then some n else none

/-- The binary number that a decimal literal spells, unless it is too great. -/
def float? (cs : List Char) : Option Binary64 := do
  let l ← Decimal.literal? cs
  Binary64.ofDecimal? l.value

/-- The meaning of a plain scalar. Whether moments are looked for is given. -/
def plainMeaning (moments : Bool) (s : String) : Tag × Datum :=
  let asString := (Tag.string, Datum.string s)
  match fixed? s with
  | some r => r
  | none =>
    match s.toList with
    | [] => asString
    | c :: _ =>
      if c == '.' then
        match float? s.toList with
        | some x => (.float, .float x)
        | none => asString
      else if c == '+' || c == '-' || c.isDigit then
        match if moments then moment? s else none with
        | some m => (.moment, .moment m)
        | none =>
          let plain := s.toList.filter (· != '_')
          match int? plain with
          | some n => (.int, .int n)
          | none =>
            match float? plain with
            | some x => (.float, .float x)
            | none => asString
      else asString

/-- The tag that a plain scalar has by its looks. -/
def plainTag (s : String) : Tag :=
  if s == "<<" then .merge else (plainMeaning true s).1

/-- The value of a whole number as a binary number. -/
def floatOf : Datum → Option Datum
  | .int n => (Binary64.ofDecimal? (.ofInt n)).map .float
  | _ => none

/-- The value of a scalar with a tag; nothing where the tag does not fit. -/
def meaning? (tag : Tag) (s : String) : Option Datum :=
  match tag with
  | .string | .binary | .merge => some (.string s)
  | _ =>
    let (found, d) := plainMeaning (tag == .moment) s
    if found == tag then some d
    else if tag == .float && found == .int then floatOf d
    else none

end DeclGen.Yaml
