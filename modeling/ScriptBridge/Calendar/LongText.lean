/-
# Instants in words

The long text of an instant names the day of the week and the month, and tells the time
of day to the second, always at the prime meridian.
-/
import ScriptBridge.Calendar.Instant

namespace ScriptBridge.Calendar.Instant

/-- The days of the week, from the first day of 1970 on. -/
def weekdays : List String := ["Thu", "Fri", "Sat", "Sun", "Mon", "Tue", "Wed"]

/-- The months. -/
def months : List String :=
  ["Jan", "Feb", "Mar", "Apr", "May", "Jun", "Jul", "Aug", "Sep", "Oct", "Nov", "Dec"]

/-- A year of at least four digits, with a sign if it is negative. -/
def longYear (year : Int) : String :=
  if year < 0 then "-" ++ padded 4 year.natAbs else padded 4 year.natAbs

/-- The long text of an instant. -/
def longText (t : Instant) : String :=
  let n := t.seconds / secondsPerDay
  let d := dayOf n
  let s := (t.seconds % secondsPerDay).toNat
  weekdays.getD (n % 7).toNat "" ++ " " ++ months.getD (d.month - 1) "" ++ " " ++
    padded 2 d.day ++ " " ++ longYear d.year ++ " " ++ padded 2 (s / 3600) ++ ":" ++
    padded 2 (s / 60 % 60) ++ ":" ++ padded 2 (s % 60) ++ " GMT+0000"

end ScriptBridge.Calendar.Instant
