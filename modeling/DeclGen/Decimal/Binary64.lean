import DeclGen.Decimal.Basic

/-!
# 64-bit binary numbers

Numbers of documents are held to 64-bit binary precision where a value is asked for: a decimal is
rounded to the nearest representable number, a half to the even neighbour. Every such number has a
shortest decimal that rounds back to it.

## Implementation notes

A finite number is `± mantissa · 2 ^ exponent` with `mantissa < 2 ^ 53` and `-1074 ≤ exponent`.
All steps are exact arithmetic on natural numbers. To find the shortest decimal, the two neighbours
of the number on each decimal grid are tried, from one digit upwards; the first grid with a
neighbour that rounds back wins, and of two the nearer.
-/

namespace DeclGen

/-- A 64-bit binary floating-point number. -/
inductive Binary64 where
  | nan
  | infinite (negative : Bool)
  | finite (negative : Bool) (mantissa : Nat) (exponent : Int)
  deriving DecidableEq, Repr, Inhabited

namespace Binary64

/-- The quotient of two natural numbers, rounded to the nearest, a half to the even neighbour. -/
def roundDiv (num den : Nat) : Nat :=
  let q := num / den
  let r := num % den
  if 2 * r < den then q else if 2 * r > den then q + 1 else q + q % 2

/-- `num · 2 ^ shift / den` as a fraction. -/
def scale (num den : Nat) (shift : Int) : Nat × Nat :=
  if 0 ≤ shift then (num * Nat.pow 2 shift.toNat, den) else (num, den * Nat.pow 2 (-shift).toNat)

/-- The exponent with which the mantissa of a positive fraction has 53 bits. -/
def fullExponent (num den : Nat) : Int :=
  let guess : Int := (num.log2 : Int) - (den.log2 : Int) - 52
  let scaled := scale num den (-guess)
  if scaled.1 < scaled.2 * Nat.pow 2 52 then guess - 1 else guess

/-- A mantissa and an exponent; a mantissa that was rounded up to 54 bits is halved. -/
def carried (m : Nat) (exponent : Int) : Nat × Int :=
  if m = Nat.pow 2 53 then (Nat.pow 2 52, exponent + 1) else (m, exponent)

/-- The mantissa and the exponent nearest to a positive fraction; nothing above the greatest
number. -/
def roundFraction? (num den : Nat) : Option (Nat × Int) :=
  let exponent := max (fullExponent num den) (-1074)
  let scaled := scale num den (-exponent)
  let rounded := carried (roundDiv scaled.1 scaled.2) exponent
  if 971 < rounded.2 then none else some rounded

/-- The number nearest to a decimal; nothing where the decimal is beyond the greatest number. -/
def ofDecimal? (d : Decimal) : Option Binary64 :=
  let places : Int := (Nat.toDigits 10 d.digits).length + d.exponent
  if d.digits = 0 || places < -330 then some (.finite d.negative 0 (-1074))
  else if places > 310 then none
  else
    let rounded :=
      if 0 ≤ d.exponent then roundFraction? (d.digits * Nat.pow 10 d.exponent.toNat) 1
      else roundFraction? d.digits (Nat.pow 10 (-d.exponent).toNat)
    rounded.map fun (m, e) => .finite d.negative m e

/-- The number nearest to a decimal, infinite beyond the greatest number. -/
def ofDecimal (d : Decimal) : Binary64 := (ofDecimal? d).getD (.infinite d.negative)

/-- A range of fractions around a number with a common denominator. -/
structure Interval where
  low : Nat
  mid : Nat
  high : Nat
  den : Nat
  closed : Bool

/-- The fractions that round to `mantissa · 2 ^ exponent`. -/
def interval (mantissa : Nat) (exponent : Int) : Interval :=
  let below := if mantissa = Nat.pow 2 52 ∧ -1074 < exponent then 1 else 2
  let factor := fun n : Nat => (scale n 1 (exponent - 2)).1
  { low := factor (4 * mantissa - below), mid := factor (4 * mantissa)
    high := factor (4 * mantissa + 2), den := (scale 1 1 (exponent - 2)).2
    closed := mantissa % 2 = 0 }

/-- Whether `num / den` lies in an interval. -/
def Interval.holds (i : Interval) (num den : Nat) : Bool :=
  let a := i.low * den
  let b := num * i.den
  let c := i.high * den
  if i.closed then a ≤ b && b ≤ c else a < b && b < c

/-- The decimal on the grid of `10 ^ power` that rounds back, if one does. -/
def onGrid? (i : Interval) (power : Int) : Option Nat :=
  let (up, down) : Nat × Nat :=
    if 0 ≤ power then (Nat.pow 10 power.toNat, 1) else (1, Nat.pow 10 (-power).toNat)
  let lower := i.mid * down / (i.den * up)
  let holds := fun n : Nat => i.holds (n * up) down
  match holds lower && lower != 0, holds (lower + 1) with
  | true, true =>
    let toLower := i.mid * down - lower * up * i.den
    let toUpper := (lower + 1) * up * i.den - i.mid * down
    if toUpper < toLower then some (lower + 1) else some lower
  | true, false => some lower
  | false, true => some (lower + 1)
  | false, false => none

/-- The number of decimal places before the point of a positive fraction: the greatest `k` at most
`bound` with `10 ^ (k - 1)` not above it. -/
def places (num den : Nat) : (fuel : Nat) → Int → Int
  | 0, k => k
  | fuel + 1, k =>
    let atMost :=
      if 0 < k then den * Nat.pow 10 (k - 1).toNat ≤ num else den ≤ num * Nat.pow 10 (1 - k).toNat
    if atMost then k else places num den fuel (k - 1)

/-- The first grid, from that of `10 ^ power` to finer ones, with a decimal that rounds back. -/
def shortestFrom (i : Interval) : (fuel : Nat) → Int → Nat × Int
  | 0, power => (0, power)
  | fuel + 1, power =>
    match onGrid? i power with
    | some n => (n, power)
    | none => shortestFrom i fuel (power - 1)

/-- The shortest decimal that rounds to `mantissa · 2 ^ exponent`. -/
def shortest (mantissa : Nat) (exponent : Int) : Nat × Int :=
  if mantissa = 0 then (0, 0)
  else
    let i := interval mantissa exponent
    let bound : Int := ((i.mid.log2 : Int) - (i.den.log2 : Int)) * 30103 / 100000 + 3
    let k := places i.mid i.den 8 bound
    let (n, power) := shortestFrom i 19 (k - 1)
    let t := Decimal.trim ⟨false, n, power⟩
    (t.digits, t.exponent)

end Binary64

end DeclGen
