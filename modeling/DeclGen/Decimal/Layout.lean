import DeclGen.Decimal.Binary64

/-!
# Number texts

The two ways in which numbers are written: plainly in option values, and in the English manner in
reports about limits.
-/

namespace DeclGen

/-- Decimal digits around a point: the value is `0.d₁d₂… · 10 ^ point`. -/
structure PointDigits where
  digits : List Char
  point : Int

namespace PointDigits

/-- The digits of `n · 10 ^ power`. -/
def ofScaled (n : Nat) (power : Int) : PointDigits :=
  let ds := Nat.toDigits 10 n
  ⟨ds, ds.length + power⟩

/-- The exponent in scientific form. -/
def exponent (p : PointDigits) : Int := p.point - 1

/-- Whether positional form is used: six places before the point, or four zeros after it. -/
def isPositional (p : PointDigits) : Bool := -4 ≤ p.exponent && p.exponent < 6

/-- The digits before the point in positional form. -/
def wholePart (p : PointDigits) : List Char :=
  if p.point ≤ 0 then ['0']
  else
    let n := p.point.toNat
    p.digits.take n ++ List.replicate (n - p.digits.length) '0'

/-- The digits after the point in positional form. -/
def fractionPart (p : PointDigits) : List Char :=
  if p.point ≤ 0 then List.replicate (-p.point).toNat '0' ++ p.digits
  else p.digits.drop p.point.toNat

/-- Digits with a point before the rest, where there is a rest. -/
def withFraction (whole fraction : List Char) : List Char :=
  if fraction.isEmpty then whole else whole ++ '.' :: fraction

/-- The mantissa of scientific form. -/
def mantissa (p : PointDigits) : List Char := withFraction (p.digits.take 1) (p.digits.drop 1)

/-- At least two digits of a number. -/
def twoDigits (n : Nat) : List Char :=
  let ds := Nat.toDigits 10 n
  if ds.length < 2 then '0' :: ds else ds

/-- Positional form for moderate numbers, and scientific form for the others. -/
def plain (p : PointDigits) : List Char :=
  if p.isPositional then withFraction p.wholePart p.fractionPart
  else p.mantissa ++ 'e' :: (if p.exponent < 0 then '-' else '+') :: twoDigits p.exponent.natAbs

/-- Digits in groups of three, from the right; the list stands in reverse. -/
def groupReversed : List Char → List Char
  | a :: b :: c :: d :: rest => a :: b :: c :: ',' :: groupReversed (d :: rest)
  | ds => ds

/-- A superscript digit. -/
def superscript : Char → Char
  | '0' => '⁰'
  | '1' => '¹'
  | '2' => '²'
  | '3' => '³'
  | '4' => '⁴'
  | '5' => '⁵'
  | '6' => '⁶'
  | '7' => '⁷'
  | '8' => '⁸'
  | '9' => '⁹'
  | c => c

/-- Grouped positional form for moderate numbers, and a power of ten for the others. -/
def english (p : PointDigits) : List Char :=
  if p.isPositional then
    withFraction (groupReversed p.wholePart.reverse).reverse p.fractionPart
  else
    p.mantissa ++ ['\u202f', '×', '\u202f', '1', '0']
      ++ (if p.exponent < 0 then ['⁻'] else [])
      ++ (twoDigits p.exponent.natAbs).map superscript

end PointDigits

namespace Binary64

/-- The sign of a number in front of its digits. -/
def withSign (negative : Bool) (cs : List Char) : String :=
  String.ofList (if negative then '-' :: cs else cs)

/-- A number as an option value. -/
def plain : Binary64 → String
  | nan => "NaN"
  | infinite negative => if negative then "-Inf" else "+Inf"
  | finite negative m e =>
    let (n, power) := shortest m e
    withSign negative (PointDigits.ofScaled n power).plain

/-- A number in a report. -/
def english : Binary64 → String
  | nan => "NaN"
  | infinite negative => if negative then "-∞" else "∞"
  | finite negative m e =>
    let (n, power) := shortest m e
    withSign negative (PointDigits.ofScaled n power).english

/-- The shortest decimal of a finite number. -/
def toDecimal? : Binary64 → Option Decimal
  | finite negative m e =>
    let (n, power) := shortest m e
    some ⟨negative, n, power⟩
  | _ => none

end Binary64

end DeclGen
