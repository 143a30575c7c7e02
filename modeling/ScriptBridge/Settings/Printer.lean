/-
# Printing settings

The settings of a bridge as JSON, one setting a line, nested groups indented by
two blanks.
-/
import ScriptBridge.Settings.Basic

namespace ScriptBridge.Settings

open ScriptBridge.Table (SlotPolicy)

/-- The name of a slot policy. -/
def policyText : SlotPolicy → String
  | .reuse => "reuse"
  | .monotonic => "monotonic"

/-- One setting on a line of its own. -/
def line (indent : Nat) (key value : String) : String :=
  String.ofList (List.replicate indent ' ') ++ "\"" ++ key ++ "\": " ++ value

/-- A group of lines between braces, the closing one indented. -/
def block (indent : Nat) (lines : List String) : String :=
  "\x7b\n" ++ ",\n".intercalate lines ++ "\n" ++ String.ofList (List.replicate indent ' ') ++ "\x7d"

/-- The limits of an engine. -/
def printEngine (l : EngineLimits) : String :=
  block 2
    [line 4 "memory_limit" (toString l.memoryLimit.toNat),
     line 4 "max_stack_size" (toString l.maxStackSize.toNat),
     line 4 "gc_threshold" (toString l.gcThreshold.toNat),
     line 4 "max_array_depth" (toString l.maxArrayDepth.toNat),
     line 4 "max_array_length" (toString l.maxArrayLength.toNat)]

/-- The settings of an arena. -/
def printArena (a : ArenaSettings) : String :=
  block 2
    [line 4 "strategy" ("\"" ++ policyText a.policy ++ "\""),
     line 4 "initial_capacity" (toString a.initialCapacity.toNat)]

/-- The settings of a bridge. -/
def print (s : Settings) : String :=
  block 0 [line 2 "engine" (printEngine s.engine), line 2 "arena" (printArena s.arena)]

end ScriptBridge.Settings
