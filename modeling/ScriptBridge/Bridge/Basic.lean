/-
# Bridges

A bridge joins a script engine to the arena of the entries that script refers to.  It
counts the crossings between the two sides, remembers which host types it has described,
and keeps the slots that script let go of during a call until the call has ended.
-/
import ScriptBridge.Bridge.Entry
import ScriptBridge.Crossing
import ScriptBridge.Engine.State
import ScriptBridge.Settings.Basic

namespace ScriptBridge

open ScriptBridge.Host ScriptBridge.Table ScriptBridge.Wire

/-- How far a bridge is from its end. -/
inductive Bridge.Stage where
  /-- The host has it. -/
  | kept
  /-- The host has given it up, but operations on it may still be running. -/
  | leaving
  /-- It has been disposed, as far as that was possible. -/
  | dropped
  /-- Nothing is left of it. -/
  | gone
  deriving DecidableEq, Repr

/-- A bridge between a host and a script engine. -/
structure Bridge where
  /-- The engine, until the bridge is disposed. -/
  engine : Option Engine
  /-- The entries that script refers to. -/
  arena : Arena Bridge.Entry
  /-- Slots that script let go of during the call that is running, the oldest first. -/
  deferred : List Slot := []
  /-- How often each crossing happened. -/
  tally : Tally := .zero
  /-- The host types that have been described. -/
  described : List Nat := []
  /-- How far the bridge is from its end. -/
  stage : Bridge.Stage := .kept

namespace Bridge

/-- A new bridge, unless its engine cannot start. -/
def create (setup : Setup) : Except BridgeError Bridge :=
  let limits := setup.settings.engine
  if setup.runtime.fits limits.memoryLimit then
    .ok {
      engine := some (.start limits.maxArrayDepth.toNat limits.maxArrayLength.toNat
        (setup.runtime.nesting limits.maxStackSize))
      arena := .empty setup.settings.arena.policy }
  else .error .engine

/-- The number of script objects that the host refers to. -/
def foreignHandles (b : Bridge) : Nat := b.engine.elim 0 Engine.liveHandles

/-- Counts a crossing. -/
def record (b : Bridge) (c : Crossing) : Bridge := { b with tally := b.tally.record c }

/-- Remembers that a host type has been described. -/
def describe (b : Bridge) (type : Nat) : Bridge :=
  if b.described.contains type then b else { b with described := b.described ++ [type] }

/-- Leaves a slot for the end of the call that is running. -/
def defer (b : Bridge) (slot : Slot) : Bridge := { b with deferred := b.deferred ++ [slot] }

/-- What is left when nobody refers to a bridge any more. -/
def vanish (b : Bridge) : Bridge :=
  { b with engine := none, arena := .empty b.arena.policy, deferred := [], stage := .gone }

end Bridge

end ScriptBridge
