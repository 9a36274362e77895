/-!
# Decimal numbers

A decimal number is a sign, a natural number and a power of ten. It is what a number literal of a
document spells, without any rounding.
-/

namespace DeclGen

/-- The number `± digits · 10 ^ exponent`. -/
structure Decimal where
  negative : Bool
  digits : Nat
  exponent : Int
  deriving DecidableEq, Repr, Inhabited

namespace Decimal

/-- The value of a decimal digit. -/
def digit? (c : Char) : Option Nat :=
  if '0' ≤ c ∧ c ≤ '9' then some (c.toNat - '0'.toNat) else none

/-- The number that a list of digits spells; other characters count as zero. -/
def ofDigits (cs : List Char) : Nat := cs.foldl (fun n c => n * 10 + (digit? c).getD 0) 0

/-- The parts of a number literal: sign, digits before and after the point, and the exponent. -/
structure Literal where
  negative : Bool := false
  whole : List Char
  fraction : List Char := []
  exponentNegative : Bool := false
  exponent : List Char := []

/-- The number that a literal spells. -/
def Literal.value (l : Literal) : Decimal where
  negative := l.negative
  digits := ofDigits (l.whole ++ l.fraction)
  exponent :=
    (if l.exponentNegative then -(ofDigits l.exponent : Int) else (ofDigits l.exponent : Int))
      - (l.fraction.length : Int)

/-- A sign at the start of a list of characters. -/
def takeSign : List Char → Bool × List Char
  | '-' :: rest => (true, rest)
  | '+' :: rest => (false, rest)
  | cs => (false, cs)

/-- The parts of a number written with an optional sign, point and exponent. It needs a digit before
or after the point, and one in the exponent. -/
def literal? (cs : List Char) : Option Literal := do
  let (negative, cs) := takeSign cs
  let whole := cs.takeWhile Char.isDigit
  let cs := cs.dropWhile Char.isDigit
  let (fraction, cs) := match cs with
    | '.' :: rest => (rest.takeWhile Char.isDigit, rest.dropWhile Char.isDigit)
    | _ => ([], cs)
  if whole.isEmpty && fraction.isEmpty then none
  match cs with
  | [] => return { negative, whole, fraction }
  | e :: rest =>
    if e == 'e' || e == 'E' then
      let (exponentNegative, digits) := takeSign rest
      if digits.isEmpty || !digits.all Char.isDigit then none
      else return { negative, whole, fraction, exponentNegative, exponent := digits }
    else none

/-- The decimal number that a string spells. -/
def parse? (s : String) : Option Decimal := (literal? s.toList).map Literal.value

/-- A whole number. -/
def ofInt (n : Int) : Decimal := ⟨n < 0, n.natAbs, 0⟩

/-- The number with the trailing zeros of its digits moved into the exponent, at most `fuel` of
them. -/
def trimFrom : (fuel : Nat) → Nat → Int → Nat × Int
  | 0, d, e => (d, e)
  | fuel + 1, d, e => if d % 10 = 0 then trimFrom fuel (d / 10) (e + 1) else (d, e)

/-- The same number with no trailing zero among its digits. -/
def trim (d : Decimal) : Decimal :=
  if d.digits = 0 then ⟨d.negative, 0, 0⟩
  else
    let (m, e) := trimFrom (Nat.toDigits 10 d.digits).length d.digits d.exponent
    ⟨d.negative, m, e⟩

/-- Whether a number is whole. -/
def isInteger (d : Decimal) : Bool := 0 ≤ d.trim.exponent

/-- Whether a number is below zero. -/
def isNegative (d : Decimal) : Bool := d.negative && d.digits != 0

/-- The order of a number and a natural number. The number of places before the point settles most
cases without large powers of ten. -/
def compareNat (d : Decimal) (n : Nat) : Ordering :=
  if d.isNegative then .lt
  else if d.digits = 0 then compare 0 n
  else
    let t := d.trim
    let places := (Nat.toDigits 10 t.digits).length + t.exponent
    if places > (Nat.toDigits 10 n).length then .gt
    else if places ≤ 0 then if n = 0 then .gt else .lt
    else if 0 ≤ t.exponent then compare (t.digits * Nat.pow 10 t.exponent.toNat) n
    else compare t.digits (n * Nat.pow 10 (-t.exponent).toNat)

/-- Whether a number is greater than a natural number. -/
def exceeds (d : Decimal) (n : Nat) : Bool := d.compareNat n == .gt

/-- Whether a number is less than a natural number. -/
def isBelow (d : Decimal) (n : Nat) : Bool := d.compareNat n == .lt

end Decimal

end DeclGen
