/-
# Entries

What a slot keeps alive for script: a host object, a method that was read off one and
waits to be called, or a failure that was thrown into script.
-/
import ScriptBridge.Host.Value

namespace ScriptBridge.Bridge

open ScriptBridge.Host

/-- What a slot keeps alive for script. -/
inductive Entry where
  /-- A host object. -/
  | object (o : HostObject)
  /-- A method of a host object. -/
  | method (target : HostObject) (name : String)
  /-- A failure thrown into script. -/
  | error (e : HostError)
  deriving DecidableEq, Repr

namespace Entry

/-- The name of the entry in messages. -/
def typeName : Entry → String
  | object o => o.typeName
  | method .. => "HostMethod"
  | error _ => "HostError"

/-- The host object that the entry refers to, if there is one. -/
def target? : Entry → Option HostObject
  | object o => some o
  | method o _ => some o
  | error _ => none

end Entry

end ScriptBridge.Bridge
