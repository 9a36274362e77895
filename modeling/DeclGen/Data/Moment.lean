import DeclGen.Decimal.Basic

/-!
# Calendar moments

A moment is a date and a time of day with the zone in which it was written. The zone is kept because
a moment is shown as it was written and never moved to another zone.
-/

namespace DeclGen

/-- The zone in which a moment was written. A moment without a zone is local, and is shown with the
parts that it had. -/
inductive Zone where
  | utc
  | offset (negative : Bool) (hours minutes : Nat)
  | localDateTime
  | localDate
  | localTime
  deriving DecidableEq, Repr, Inhabited

/-- A date and a time of day. -/
structure Moment where
  year : Nat := 0
  month : Nat := 1
  day : Nat := 1
  hour : Nat := 0
  minute : Nat := 0
  second : Nat := 0
  nanos : Nat := 0
  zone : Zone := .utc
  deriving DecidableEq, Repr, Inhabited

namespace Zone

/-- The zone at a distance from universal time. -/
def ofOffset (negative : Bool) (hours minutes : Nat) : Zone :=
  if hours = 0 && minutes = 0 then utc else offset negative hours minutes

end Zone

namespace Moment

/-- Whether a year has a leap day. -/
def isLeap (year : Nat) : Bool := year % 4 == 0 && (year % 100 != 0 || year % 400 == 0)

/-- The number of days of a month. -/
def daysIn (year month : Nat) : Nat :=
  if month == 2 then if isLeap year then 29 else 28
  else if month == 4 || month == 6 || month == 9 || month == 11 then 30
  else 31

/-- Whether the date and the time of day exist. -/
def isValid (m : Moment) : Bool :=
  1 ≤ m.month && m.month ≤ 12 && 1 ≤ m.day && m.day ≤ daysIn m.year m.month && m.hour < 24
    && m.minute < 60 && m.second < 60

/-- A number with zeros in front up to a width. -/
def padded (width n : Nat) : String :=
  let ds := Nat.toDigits 10 n
  String.ofList (List.replicate (width - ds.length) '0' ++ ds)

/-- The fraction of a second, without zeros at its end. -/
def fraction (nanos : Nat) : String :=
  if nanos = 0 then ""
  else
    let ds := (padded 9 nanos).toList.reverse.dropWhile (· == '0')
    String.ofList ('.' :: ds.reverse)

/-- The date. -/
def date (m : Moment) : String :=
  padded 4 m.year ++ "-" ++ padded 2 m.month ++ "-" ++ padded 2 m.day

/-- The time of day. -/
def clock (m : Moment) : String :=
  padded 2 m.hour ++ ":" ++ padded 2 m.minute ++ ":" ++ padded 2 m.second ++ fraction m.nanos

/-- The sign of an offset. -/
def sign (negative : Bool) : String := if negative then "-" else "+"

/-- A moment as an option value: date, time, offset and the name of its zone. -/
def display (m : Moment) : String :=
  m.date ++ " " ++ m.clock ++ " " ++
    match m.zone with
    | .utc => "+0000 UTC"
    | .offset n h mm =>
      let o := sign n ++ padded 2 h ++ padded 2 mm
      o ++ " " ++ o
    | .localDateTime => "+0000 datetime-local"
    | .localDate => "+0000 date-local"
    | .localTime => "+0000 time-local"

/-- A moment as interchange text; an offset of a day or more has none. -/
def interchange? (m : Moment) : Option String :=
  let start := m.date ++ "T" ++ m.clock
  match m.zone with
  | .offset n h mm =>
    if h < 24 then some (start ++ sign n ++ padded 2 h ++ ":" ++ padded 2 mm) else none
  | _ => some (start ++ "Z")

/-- The number of nanoseconds that the digits of a fraction of a second give. -/
def nanosOf (digits : List Char) : Nat :=
  let ds := digits.take 9
  Decimal.ofDigits (ds ++ List.replicate (9 - ds.length) '0')

end Moment

end DeclGen
