/-
# Dates on the wire

A date crosses as a double: milliseconds since the start of 1970, with a
fraction.  On the host side it is an instant of the calendar, or a count of
ticks of 100 nanoseconds since the first moment of year one.
-/
import ScriptBridge.Calendar.Instant
import ScriptBridge.Number.Binary64

namespace ScriptBridge.Wire.Date

open ScriptBridge.Calendar ScriptBridge.Number

/-- The tick at which 1970 starts. -/
def epochTicks : Int := 621355968000000000

/-- Ticks in a millisecond. -/
def ticksPerMillisecond : Int := 10000

/-- The shift between the two clocks; there is none. -/
def compensationTicks : Int := 0

/-- The milliseconds of a tick count. -/
def ofTicks (ticks : Int) : Binary64 :=
  Binary64.div (.ofInt (ticks - epochTicks + compensationTicks)) (.ofInt ticksPerMillisecond)

/-- The nearest tick to a number of milliseconds, if a 64-bit count can hold it. -/
def toTicks? (millis : Binary64) : Option Int :=
  let scaled := millis.mul (.ofInt ticksPerMillisecond)
  if !scaled.isFinite then none
  else
    let sinceEpoch := scaled.roundHalfAway
    let ticks := sinceEpoch + epochTicks
    if (0x8000000000000000 : Int) ≤ sinceEpoch.natAbs then none
    else if ticks < 0x8000000000000000 then some (ticks - compensationTicks)
    else none

/-- The milliseconds of an instant: whole microseconds, divided. -/
def ofInstant (t : Instant) : Binary64 := Binary64.div (.ofInt t.micros) (.ofInt 1000)

/-- The instant nearest to a number of milliseconds, to the microsecond, if the host
calendar has it. -/
def toInstant? (millis : Binary64) : Option Instant :=
  let scaled := millis.mul (.ofInt 1000)
  if scaled.isFinite then Instant.ofMicros? scaled.roundHalfAway else none

end ScriptBridge.Wire.Date
