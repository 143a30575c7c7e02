/-
# Settings

The settings of a bridge: limits for its script engine, and the policy and the
size of its slot arena.  How much a heap or a stack of so many bytes holds is up to the
runtime that scripts run in, so a bridge is set up with a runtime besides its settings.
When memory is made ready or searched for what can go is the runtime's own affair too: a
size or a threshold for that changes nothing of what is described here, where arrays and
lists grow as they must and a heap is searched when it is told to be.
-/
import ScriptBridge.Table.Arena

namespace ScriptBridge

open ScriptBridge.Table (SlotPolicy)

/-- The limits of a script engine. -/
structure EngineLimits where
  /-- Heap bytes; zero leaves the heap unbounded. -/
  memoryLimit : UInt64 := 0
  /-- Stack bytes; zero leaves the stack unchecked. -/
  maxStackSize : UInt64 := 1048576
  /-- Bytes allocated between two automatic collections. -/
  gcThreshold : UInt64 := 262144
  /-- Script arrays nested deeper than this reach the host as an error. -/
  maxArrayDepth : UInt64 := 64
  /-- Script arrays longer than this reach the host as an error. -/
  maxArrayLength : UInt64 := 1048576
  deriving DecidableEq, Repr

/-- The settings of a slot arena. -/
structure ArenaSettings where
  /-- What becomes of slots that were given up. -/
  policy : SlotPolicy := .reuse
  /-- The number of slots reserved up front. -/
  initialCapacity : UInt64 := 64
  deriving DecidableEq, Repr

/-- The settings of a bridge. -/
structure Settings where
  /-- The limits of its engine. -/
  engine : EngineLimits := {}
  /-- The settings of its slot arena. -/
  arena : ArenaSettings := {}
  deriving DecidableEq, Repr

/-- What the runtime of an engine makes of limits in bytes.  A limit of zero is none. -/
structure Runtime where
  /-- Whether an engine can start in a heap of so many bytes. -/
  fits : UInt64 → Bool
  /-- How many calls may be nested on a stack of so many bytes, if there is a limit. -/
  nesting : UInt64 → Option Nat
  /-- An unbounded heap is large enough. -/
  fits_zero : fits 0 = true
  /-- On a stack that is not checked, calls may be nested to any depth. -/
  nesting_zero : nesting 0 = none

/-- A runtime in which an engine takes 64 KiB to start, and each call half a KiB. -/
def Runtime.usual : Runtime where
  fits bytes := decide (bytes = 0) || decide (65536 ≤ bytes.toNat)
  nesting bytes := if bytes = 0 then none else some (bytes.toNat / 512)
  fits_zero := rfl
  nesting_zero := rfl

/-- What a bridge is set up with. -/
structure Setup where
  /-- Its settings. -/
  settings : Settings := {}
  /-- The runtime of its engine. -/
  runtime : Runtime := .usual

end ScriptBridge
