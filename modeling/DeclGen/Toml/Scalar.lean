import DeclGen.Json.Reader
import DeclGen.Toml.Table

/-!
# Strings, numbers and moments

How single values are written. Numbers, truth values and moments are first cut out of the text as
one word, which then has to follow the rules of one of them.
-/

namespace DeclGen.Toml

/-- Whether a character is a space or a tab. -/
def isSpace (c : Char) : Bool := c == ' ' || c == '\t'

/-- Whether a character may not stand in strings and comments. -/
def isControl (c : Char) : Bool := (c.toNat < 0x20 && c != '\t') || c.toNat == 0x7F

/-- The character that a one-letter escape stands for. -/
def escape? : Char → Option Char
  | 'b' => some '\x08'
  | 't' => some '\t'
  | 'n' => some '\n'
  | 'f' => some '\x0c'
  | 'r' => some '\r'
  | 'e' => some '\x1b'
  | '"' => some '"'
  | '\\' => some '\\'
  | _ => none

/-- The number of digits after an escape letter that names a code. -/
def codeLength? : Char → Option Nat
  | 'x' => some 2
  | 'u' => some 4
  | 'U' => some 8
  | _ => none

/-- Where the reading of a string stands. -/
inductive StringState where
  /-- Inside the text; white space may be due to be skipped. -/
  | text (skips : Bool)
  | escape
  | code (left value : Nat)
  deriving DecidableEq, Repr, Inhabited

/-- Whether only white space is left on the line. -/
def endsLine (cs : List Char) : Bool :=
  match cs.dropWhile isSpace with
  | '\n' :: _ | '\r' :: '\n' :: _ => true
  | _ => false

/-- A string after its opening marks, with what was read of it, and the characters after it. Escapes
are known between double marks only, and line ends between triple ones only. -/
def stringFrom (mark : Char) (isLong : Bool) (acc : List Char) :
    StringState → List Char → Option (List Char × List Char)
  | _, [] => none
  | .text skips, c :: rest =>
    if skips && (isSpace c || c == '\n' || c == '\r') then
      stringFrom mark isLong acc (.text true) rest
    else if c == mark then
      if !isLong then some (acc.reverse, rest)
      else if rest.take 2 == [mark, mark] then
        let extra := ((rest.drop 2).takeWhile (· == mark)).length
        if extra > 2 then none
        else some ((List.replicate extra mark ++ acc).reverse, rest.drop (2 + extra))
      else stringFrom mark isLong (c :: acc) (.text false) rest
    else if c == '\\' && mark == '"' then
      if isLong && endsLine rest then stringFrom mark isLong acc (.text true) rest
      else stringFrom mark isLong acc .escape rest
    else if c == '\n' || (c == '\r' && rest.head? == some '\n') then
      if isLong then stringFrom mark isLong (c :: acc) (.text false) rest else none
    else if isControl c then none
    else stringFrom mark isLong (c :: acc) (.text false) rest
  | .escape, c :: rest =>
    match codeLength? c with
    | some n => stringFrom mark isLong acc (.code n 0) rest
    | none =>
      match escape? c with
      | some e => stringFrom mark isLong (e :: acc) (.text false) rest
      | none => none
  | .code left value, c :: rest =>
    match Json.hexValue? c with
    | none => none
    | some h =>
      let v := value * 16 + h
      if left ≤ 1 then
        if h : v.isValidChar then
          stringFrom mark isLong (Char.ofNatAux v h :: acc) (.text false) rest
        else none
      else stringFrom mark isLong acc (.code (left - 1) v) rest

/-- The characters after a line end. -/
def afterNewline : List Char → List Char
  | '\n' :: rest => rest
  | '\r' :: '\n' :: rest => rest
  | cs => cs

/-- A string, and the characters after it. A line end right behind triple marks is left out. -/
def string? : List Char → Option (String × List Char)
  | '"' :: '"' :: '"' :: rest =>
    (stringFrom '"' true [] (.text false) (afterNewline rest)).map
      fun (s, r) => (String.ofList s, r)
  | '\'' :: '\'' :: '\'' :: rest =>
    (stringFrom '\'' true [] (.text false) (afterNewline rest)).map
      fun (s, r) => (String.ofList s, r)
  | '"' :: rest =>
    (stringFrom '"' false [] (.text false) rest).map fun (s, r) => (String.ofList s, r)
  | '\'' :: rest =>
    (stringFrom '\'' false [] (.text false) rest).map fun (s, r) => (String.ofList s, r)
  | _ => none

/-- Whether each underscore stands between two digits; `before` says that a digit came before. -/
def underscoresOk (before : Bool) : List Char → Bool
  | [] => before
  | '_' :: rest => before && underscoresOk false rest
  | _ :: rest => underscoresOk true rest

/-- The value of digits and underscores in a base. -/
def digitsIn? (base : Nat) (cs : List Char) : Option Nat :=
  if !underscoresOk false cs then none
  else (cs.filter (· != '_')).foldlM (fun n c => do
    let d ← Json.hexValue? c
    if d < base then some (n * base + d) else none) 0

/-- Whether digits start with a zero that is not the only one. -/
def hasLeadingZero : List Char → Bool
  | '0' :: _ :: _ => true
  | _ => false

/-- A whole number, which has to fit into 64 bits. -/
def int? (cs : List Char) : Option Int :=
  let inRange (n : Nat) : Option Int := if n < Nat.pow 2 63 then some n else none
  match cs with
  | '0' :: 'x' :: rest => do inRange (← digitsIn? 16 rest)
  | '0' :: 'o' :: rest => do inRange (← digitsIn? 8 rest)
  | '0' :: 'b' :: rest => do inRange (← digitsIn? 2 rest)
  | _ =>
    let (negative, ds) := Decimal.takeSign cs
    if hasLeadingZero ds then none
    else do
      let n ← digitsIn? 10 ds
      if negative then if n ≤ Nat.pow 2 63 then some (-(n : Int)) else none
      else inRange n

/-- Whether each point is followed by a digit. -/
def pointsOk : List Char → Bool
  | [] => true
  | '.' :: rest =>
    (match rest with
      | d :: _ => d.isDigit
      | [] => false) && pointsOk rest
  | _ :: rest => pointsOk rest

/-- A number with a point or an exponent, or one that is not finite. -/
def float? (cs : List Char) : Option Binary64 :=
  let (negative, ds) := Decimal.takeSign cs
  if ds == ['i', 'n', 'f'] then some (.infinite negative)
  else if ds == ['n', 'a', 'n'] then some .nan
  else
    let isDigitOrLine (c : Char) : Bool := c.isDigit || c == '_'
    let whole := ds.takeWhile isDigitOrLine
    let (fraction, rest) := match ds.dropWhile isDigitOrLine with
      | '.' :: more => (some (more.takeWhile isDigitOrLine), more.dropWhile isDigitOrLine)
      | more => (none, more)
    let exponent := match rest with
      | e :: more => if e == 'e' || e == 'E' then some (Decimal.takeSign more).2 else some []
      | [] => none
    let partsOk := underscoresOk false whole
      && (fraction.map (underscoresOk false)).getD true
      && (exponent.map (underscoresOk false)).getD true
    if (fraction.isNone && exponent.isNone) || hasLeadingZero whole || !pointsOk ds || !partsOk then
      none
    else do
      let l ← Decimal.literal? (cs.filter (· != '_'))
      Binary64.ofDecimal? l.value

/-- Two digits as a number, and the characters after them. -/
def twoDigits : List Char → Option (Nat × List Char)
  | a :: b :: rest => if a.isDigit && b.isDigit then some (Decimal.ofDigits [a, b], rest) else none
  | _ => none

/-- The characters after a given one. -/
def after (c : Char) : List Char → Option (List Char)
  | d :: rest => if c == d then some rest else none
  | [] => none

/-- A time of day, of which the seconds may be left out, and the characters after it. -/
def clock (m : Moment) (cs : List Char) : Option (Moment × List Char) := do
  let (hour, cs) ← twoDigits cs
  let (minute, cs) ← twoDigits (← after ':' cs)
  match cs with
  | ':' :: cs =>
    let (second, cs) ← twoDigits cs
    match cs with
    | '.' :: d :: more =>
      if d.isDigit then
        let digits := (d :: more).takeWhile Char.isDigit
        return ({ m with hour, minute, second, nanos := Moment.nanosOf digits },
          (d :: more).dropWhile Char.isDigit)
      else none
    | cs => return ({ m with hour, minute, second }, cs)
  | cs => return ({ m with hour, minute }, cs)

/-- The zone at the end of a moment; without one the moment is local. -/
def zone? : List Char → Option Zone
  | [] => some .localDateTime
  | ['Z'] | ['z'] => some .utc
  | [sign, a, b, ':', c, d] => do
    let (hours, _) ← twoDigits [a, b]
    let (minutes, _) ← twoDigits [c, d]
    if (sign == '+' || sign == '-') && hours ≤ 24 && minutes ≤ 60 then
      let total := hours * 60 + minutes
      some (Zone.ofOffset (sign == '-') (total / 60) (total % 60))
    else none
  | _ => none

/-- A date, and the characters after it. -/
def date? : List Char → Option (Moment × List Char)
  | a :: b :: c :: d :: rest =>
    if [a, b, c, d].all Char.isDigit then do
      let (month, cs) ← twoDigits (← after '-' rest)
      let (day, cs) ← twoDigits (← after '-' cs)
      return ({ year := Decimal.ofDigits [a, b, c, d], month, day }, cs)
    else none
  | _ => none

/-- A moment: a date, a time of day, or both. -/
def moment? (cs : List Char) : Option Moment := do
  let m ← match date? cs with
    | some (m, []) => some { m with zone := .localDate }
    | some (m, sep :: rest) =>
      if sep == 'T' || sep == 't' || sep == ' ' then do
        let (m, rest) ← clock m rest
        return { m with zone := ← zone? rest }
      else none
    | none => do
      let (m, rest) ← clock { zone := .localTime } cs
      if rest.isEmpty then some m else none
  if m.isValid then some m else none

/-- The value of a word that is not a string. -/
def word? (cs : List Char) : Option Value :=
  if cs == ['t', 'r', 'u', 'e'] then some (.bool true)
  else if cs == ['f', 'a', 'l', 's', 'e'] then some (.bool false)
  else match int? cs with
    | some n => some (.int n)
    | none =>
      match float? cs with
      | some x => some (.float x)
      | none => (moment? cs).map .moment

/-- Whether a character may be part of a word. -/
def isWordChar (c : Char) : Bool :=
  c.isAlphanum || c == '_' || c == '+' || c == '-' || c == ':' || c == '.'

/-- The word at the start of a text, and the characters after it. A date and a time of day may have
one space between them. -/
def takeWord (cs : List Char) : List Char × List Char :=
  let word := cs.takeWhile isWordChar
  match date? word, cs.dropWhile isWordChar with
  | some (_, []), ' ' :: d :: rest =>
    if d.isDigit then
      (word ++ ' ' :: (d :: rest).takeWhile isWordChar, (d :: rest).dropWhile isWordChar)
    else (word, ' ' :: d :: rest)
  | _, rest => (word, rest)

end DeclGen.Toml
