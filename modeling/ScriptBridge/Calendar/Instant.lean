/-
# Instants of the host calendar

An instant is a count of seconds from the first moment of 1970 and the
nanoseconds after that second.  The host calendar covers the years from -262143
to 262142 and no others.
-/
namespace ScriptBridge.Calendar

/-- A point in time: whole seconds since the start of 1970, rounded down, and the
nanoseconds past that second. -/
structure Instant where
  /-- Seconds since the start of 1970, negative before it. -/
  seconds : Int
  /-- Nanoseconds past the second, below `10 ^ 9`. -/
  nanos : Nat
  deriving DecidableEq, Repr, Inhabited

namespace Instant

/-- A day as year, month and day of the month. -/
structure Day where
  /-- The year; zero is the one before year one. -/
  year : Int
  /-- From 1 to 12. -/
  month : Nat
  /-- From 1 to 31. -/
  day : Nat
  deriving DecidableEq, Repr

/-- The day that lies `n` days after the first day of 1970, in the calendar of four
hundred year cycles of 146097 days, years being counted from March. -/
def dayOf (n : Int) : Day :=
  let sinceMarch := n + 719468
  let cycle := sinceMarch / 146097
  let dayOfCycle := (sinceMarch % 146097).toNat
  let yearOfCycle :=
    (dayOfCycle - dayOfCycle / 1460 + dayOfCycle / 36524 - dayOfCycle / 146096) / 365
  let dayOfYear := dayOfCycle - (365 * yearOfCycle + yearOfCycle / 4 - yearOfCycle / 100)
  let shifted := (5 * dayOfYear + 2) / 153
  let day := dayOfYear - (153 * shifted + 2) / 5 + 1
  let month := if shifted < 10 then shifted + 3 else shifted - 9
  let year := cycle * 400 + yearOfCycle + (if month ≤ 2 then 1 else 0)
  ⟨year, month, day⟩

/-- The number of seconds in a day. -/
def secondsPerDay : Int := 86400

/-- The first second of the year -262143. -/
def firstSecond : Int := -96465292 * secondsPerDay

/-- The first second after the year 262142. -/
def endSecond : Int := 95026237 * secondsPerDay

/-- Whether the host calendar has this instant. -/
def inCalendar (t : Instant) : Bool :=
  decide (firstSecond ≤ t.seconds) && decide (t.seconds < endSecond) &&
    decide (t.nanos < 1000000000)

/-- Whole microseconds since the start of 1970, rounded down. -/
def micros (t : Instant) : Int := t.seconds * 1000000 + (t.nanos / 1000 : Nat)

/-- The instant a number of microseconds from the start of 1970, if the calendar has it. -/
def ofMicros? (n : Int) : Option Instant :=
  let t : Instant := ⟨n / 1000000, (n % 1000000).toNat * 1000⟩
  if t.inCalendar then some t else none

/-- A natural number with zeros in front, up to a width. -/
def padded (width n : Nat) : String :=
  let digits := Nat.toDigits 10 n
  String.ofList (List.replicate (width - digits.length) '0' ++ digits)

/-- A year: four digits, with a sign unless it is between 0 and 9999. -/
def yearText (year : Int) : String :=
  if year < 0 then "-" ++ padded 4 year.natAbs
  else if 9999 < year then "+" ++ padded 4 year.natAbs
  else padded 4 year.natAbs

/-- The fraction of a second: none, or three, six or nine digits, as few as are exact. -/
def fractionText (nanos : Nat) : String :=
  if nanos = 0 then ""
  else if nanos % 1000000 = 0 then "." ++ padded 3 (nanos / 1000000)
  else if nanos % 1000 = 0 then "." ++ padded 6 (nanos / 1000)
  else "." ++ padded 9 nanos

/-- The instant as date, time and offset. -/
def text (t : Instant) : String :=
  let d := dayOf (t.seconds / secondsPerDay)
  let s := (t.seconds % secondsPerDay).toNat
  yearText d.year ++ "-" ++ padded 2 d.month ++ "-" ++ padded 2 d.day ++ "T" ++
    padded 2 (s / 3600) ++ ":" ++ padded 2 (s / 60 % 60) ++ ":" ++ padded 2 (s % 60) ++
    fractionText t.nanos ++ "+00:00"

end Instant

end ScriptBridge.Calendar
