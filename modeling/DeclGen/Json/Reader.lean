import DeclGen.Json.Basic

/-!
# Reading JSON

A reader takes a list of characters and gives a value and the characters after it. Lists and objects
keep the part of the text that they were read from, because messages quote it.

## Implementation notes

The readers of values, elements and fields call each other and are bounded by a number that goes
down with every call; the length of the input is always enough. Whether a value has too many levels
is looked at when it has been read. A text that is not well formed is refused either way, so only
the message could tell which of the two was found first.
-/

namespace DeclGen.Json

/-- A part of a text: all characters from its start on, and those after its end. -/
structure Span where
  start : List Char
  rest : List Char
  deriving DecidableEq, Repr, Inhabited

/-- The part of `cs` before `rest`, which is an end of it. -/
def consumed (cs rest : List Char) : List Char := cs.take (cs.length - rest.length)

/-- The text of a part. -/
def Span.text (s : Span) : String := String.ofList (consumed s.start s.rest)

/-- A JSON value as it was read, with the parts of the text that are its lists and objects. -/
inductive Sourced where
  | null
  | bool (b : Bool)
  | number (literal : String)
  | string (s : String)
  | array (source : Span) (elems : List Sourced)
  | object (source : Span) (fields : List (String × Sourced))
  deriving Repr, Inhabited

mutual

/-- The value that was read. -/
def Sourced.value : Sourced → Json
  | .null => .null
  | .bool b => .bool b
  | .number l => .number l
  | .string s => .ofString s
  | .array _ es => .array (valueList es)
  | .object _ fs => .object (valueFields fs)

/-- The values of a list. -/
def valueList : List Sourced → List Json
  | [] => []
  | e :: es => e.value :: valueList es

/-- The values of an object's fields. -/
def valueFields : List (String × Sourced) → List (String × Json)
  | [] => []
  | (k, v) :: fs => (k, v.value) :: valueFields fs

end

/-- White space between tokens. -/
def isSpace (c : Char) : Bool := c == ' ' || c == '\t' || c == '\n' || c == '\r'

/-- The characters after white space. -/
def skipSpace (cs : List Char) : List Char := cs.dropWhile isSpace

/-- The value of a hexadecimal digit. -/
def hexValue? (c : Char) : Option Nat :=
  if '0' ≤ c ∧ c ≤ '9' then some (c.toNat - 48)
  else if 'a' ≤ c ∧ c ≤ 'f' then some (c.toNat - 87)
  else if 'A' ≤ c ∧ c ≤ 'F' then some (c.toNat - 55)
  else none

/-- The value of four hexadecimal digits. -/
def hex4? (a b c d : Char) : Option Nat := do
  return (((← hexValue? a) * 16 + (← hexValue? b)) * 16 + (← hexValue? c)) * 16 + (← hexValue? d)

/-- The character that two halves of a surrogate pair stand for. -/
def pair? (high low : Nat) : Option Char :=
  if 0xD800 ≤ high && high < 0xDC00 && 0xDC00 ≤ low && low < 0xE000 then
    some (Char.ofNat (0x10000 + (high - 0xD800) * 0x400 + (low - 0xDC00)))
  else none

/-- The character of a code unit; half of a pair on its own is replaced. -/
def unitChar (v : Nat) : Char :=
  if 0xD800 ≤ v && v < 0xE000 then '\uFFFD' else Char.ofNat v

/-- The character that a one-letter escape stands for. -/
def escape? : Char → Option Char
  | '"' => some '"'
  | '\\' => some '\\'
  | '/' => some '/'
  | 'b' => some '\x08'
  | 'f' => some '\x0c'
  | 'n' => some '\n'
  | 'r' => some '\r'
  | 't' => some '\t'
  | _ => none

/-- What stands for a part of a string: a character, or a code unit written as an escape. -/
inductive StringUnit where
  | char (c : Char)
  | code (v : Nat)

/-- The characters of string units; `held` is a code unit that may still find its other half. -/
def joinUnits : (held : Option Nat) → List StringUnit → List Char
  | none, [] => []
  | some u, [] => [unitChar u]
  | none, .char c :: rest => c :: joinUnits none rest
  | some u, .char c :: rest => unitChar u :: c :: joinUnits none rest
  | none, .code v :: rest => joinUnits (some v) rest
  | some u, .code v :: rest =>
    match pair? u v with
    | some c => c :: joinUnits none rest
    | none => unitChar u :: joinUnits (some v) rest

/-- The units of a string after its opening quotation mark. -/
def stringUnits : List Char → Option (List StringUnit × List Char)
  | [] => none
  | '"' :: rest => some ([], rest)
  | '\\' :: 'u' :: a :: b :: c :: d :: rest => do
    let v ← hex4? a b c d
    let (us, r) ← stringUnits rest
    return (.code v :: us, r)
  | '\\' :: e :: rest => do
    let c ← escape? e
    let (us, r) ← stringUnits rest
    return (.char c :: us, r)
  | c :: rest =>
    if c.toNat < 0x20 || c == '\\' then none
    else do
      let (us, r) ← stringUnits rest
      return (.char c :: us, r)

/-- The characters of a string after its opening quotation mark. -/
def stringRest (cs : List Char) : Option (List Char × List Char) := do
  let (us, r) ← stringUnits cs
  return (joinUnits none us, r)

/-- One or more digits. -/
def digits1 (cs : List Char) : Option (List Char × List Char) :=
  let ds := cs.takeWhile Char.isDigit
  if ds.isEmpty then none else some (ds, cs.dropWhile Char.isDigit)

/-- The fraction of a number, if there is one. -/
def fractionRest : List Char → Option (List Char)
  | '.' :: rest => (digits1 rest).map (·.2)
  | cs => some cs

/-- The exponent of a number, if there is one. -/
def exponentRest : List Char → Option (List Char)
  | 'e' :: rest | 'E' :: rest =>
    match rest with
    | '+' :: more | '-' :: more => (digits1 more).map (·.2)
    | more => (digits1 more).map (·.2)
  | cs => some cs

/-- The characters after a number without its sign: no zero in front of other digits. -/
def numberRest : List Char → Option (List Char)
  | '0' :: rest => do exponentRest (← fractionRest rest)
  | cs => do
    let (_, rest) ← digits1 cs
    exponentRest (← fractionRest rest)

/-- A number and the characters after it. -/
def number? (cs : List Char) : Option (Sourced × List Char) := do
  let unsigned := match cs with
    | '-' :: rest => rest
    | _ => cs
  let rest ← numberRest unsigned
  return (.number (String.ofList (consumed cs rest)), rest)

mutual

/-- A value and the characters after it. -/
def value? : (fuel : Nat) → List Char → Option (Sourced × List Char)
  | 0, _ => none
  | fuel + 1, cs =>
    match cs with
    | 'n' :: 'u' :: 'l' :: 'l' :: rest => some (.null, rest)
    | 't' :: 'r' :: 'u' :: 'e' :: rest => some (.bool true, rest)
    | 'f' :: 'a' :: 'l' :: 's' :: 'e' :: rest => some (.bool false, rest)
    | '"' :: rest => (stringRest rest).map fun (s, r) => (.string (String.ofList s), r)
    | '[' :: rest =>
      match skipSpace rest with
      | ']' :: r => some (.array ⟨cs, r⟩ [], r)
      | r => do
        let (es, r) ← elems? fuel r
        return (.array ⟨cs, r⟩ es, r)
    | '\x7b' :: rest =>
      match skipSpace rest with
      | '\x7d' :: r => some (.object ⟨cs, r⟩ [], r)
      | r => do
        let (fs, r) ← fields? fuel r
        return (.object ⟨cs, r⟩ fs, r)
    | _ => number? cs

/-- The elements of a list up to its closing bracket. -/
def elems? : (fuel : Nat) → List Char → Option (List Sourced × List Char)
  | 0, _ => none
  | fuel + 1, cs => do
    let (e, r) ← value? fuel cs
    match skipSpace r with
    | ',' :: r => do
      let (es, r) ← elems? fuel (skipSpace r)
      return (e :: es, r)
    | ']' :: r => return ([e], r)
    | _ => none

/-- The fields of an object up to its closing brace. -/
def fields? : (fuel : Nat) → List Char → Option (List (String × Sourced) × List Char)
  | 0, _ => none
  | fuel + 1, cs =>
    match cs with
    | '"' :: rest => do
      let (k, r) ← stringRest rest
      match skipSpace r with
      | ':' :: r => do
        let (v, r) ← value? fuel (skipSpace r)
        match skipSpace r with
        | ',' :: r => do
          let (fs, r) ← fields? fuel (skipSpace r)
          return ((String.ofList k, v) :: fs, r)
        | '\x7d' :: r => return ([(String.ofList k, v)], r)
        | _ => none
      | _ => none
    | _ => none

end

/-- Why a text is not read as JSON. -/
inductive ReadError where
  | blank
  | malformed
  /-- A bracket opens a level beyond the limit. -/
  | tooDeep (bracket : Char)
  /-- Something follows the value. -/
  | trailing
  deriving DecidableEq, Repr, Inhabited

/-- The first value of a text and the characters after it. -/
def readFirst (cs : List Char) : Except ReadError (Sourced × List Char) :=
  match skipSpace cs with
  | [] => .error .blank
  | cs =>
    match value? (cs.length + 1) cs with
    | some (v, rest) =>
      match v.value.beyond? maxDepth with
      | some bracket => .error (.tooDeep bracket)
      | none => .ok (v, rest)
    | none => .error .malformed

/-- The only value of a text. -/
def readAll (cs : List Char) : Except ReadError Sourced := do
  let (v, rest) ← readFirst cs
  if (skipSpace rest).isEmpty then return v else throw .trailing

end DeclGen.Json
