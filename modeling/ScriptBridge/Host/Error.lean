/-
# Errors

What can go wrong on the host side of a bridge, by cause.  A `HostError` arises
while script uses a host object; it is shown to script as an object with a name
and a message.  A `BridgeError` is what an operation of the bridge answers.  A host
error that ends an operation keeps its cause, and taking the cause of a bridge
error gives that host error back.
-/
import ScriptBridge.Settings.Scan
import ScriptBridge.Wire.Record

namespace ScriptBridge.Host

open ScriptBridge.Wire

/-- A failure while script was using a host object. -/
inductive HostError where
  /-- The type has no such member. -/
  | missingMember (typeName name : String)
  /-- The property cannot be written. -/
  | readOnly (typeName name : String)
  /-- Nothing is kept alive under the slot. -/
  | invalidSlot (slot : Slot)
  /-- The slot is not that of a method. -/
  | notCallable (slot : Slot)
  /-- No overload takes this number of arguments of these kinds. -/
  | noMatchingOverload (typeName name : String) (arity : Nat)
  /-- An argument has the wrong kind. -/
  | argumentType (position : Nat) (expected found : String)
  /-- Host code reported a failure. -/
  | thrown (text : String)
  /-- Host code broke off. -/
  | panicked (text : String)
  /-- The object is in use by an outer call. -/
  | reentrant (typeName : String)
  deriving DecidableEq, Repr

namespace HostError

/-- The text of the error. -/
def message : HostError → String
  | missingMember typeName name => typeName ++ " has no member `" ++ name ++ "`"
  | readOnly typeName name => "property `" ++ name ++ "` of " ++ typeName ++ " is read-only"
  | invalidSlot slot => slot.text ++ " is not pinned"
  | notCallable slot => slot.text ++ " does not refer to a host method"
  | noMatchingOverload typeName name arity =>
    "no overload of " ++ typeName ++ "." ++ name ++ " takes these " ++ toString arity ++
      " argument(s)"
  | argumentType position expected found =>
    "argument " ++ toString position ++ ": expected " ++ expected ++ ", found " ++ found
  | thrown text => text
  | panicked text => "host code panicked: " ++ text
  | reentrant typeName => typeName ++ " is already borrowed by an outer call"

/-- The name that script sees. -/
def name : HostError → String
  | missingMember .. => "MissingMemberError"
  | readOnly .. => "ReadOnlyError"
  | invalidSlot _ => "InvalidSlotError"
  | notCallable _ => "NotCallableError"
  | noMatchingOverload .. => "OverloadError"
  | argumentType .. => "ArgumentTypeError"
  | thrown _ => "HostError"
  | panicked _ => "HostPanic"
  | reentrant _ => "ReentrancyError"

/-- Whether the fault lies in how the object was used, not in host code. -/
def isInterop : HostError → Bool
  | missingMember .. | readOnly .. | invalidSlot _ | notCallable _ | noMatchingOverload ..
  | argumentType .. => true
  | thrown _ | panicked _ | reentrant _ => false

end HostError

/-- Misuse of the boundary between host and script. -/
inductive InteropError where
  /-- The bridge has no engine any more. -/
  | disposed
  /-- A handle was empty. -/
  | emptyHandle
  /-- A script object belongs to another bridge. -/
  | foreignBridge
  /-- The slots have run out. -/
  | arenaExhausted
  /-- An array is too long for the wire. -/
  | allocation (elements : Nat)
  /-- A script value that the host has no value for. -/
  | unrepresentable (what : String)
  /-- A host object was misused. -/
  | host (error : HostError)
  deriving DecidableEq, Repr

/-- The text of the error. -/
def InteropError.message : InteropError → String
  | disposed => "bridge has been disposed"
  | emptyHandle => "foreign object handle is empty"
  | foreignBridge => "foreign object belongs to a different bridge"
  | arenaExhausted => "keep-alive arena has no free slots"
  | allocation elements => "could not allocate a wire array of " ++ toString elements ++ " elements"
  | unrepresentable what => what ++ " cannot be represented as a host value"
  | host error => error.message

/-- An exception that script threw and did not catch. -/
structure ScriptError where
  /-- The name of the exception. -/
  name : String
  /-- Its text. -/
  text : String
  /-- Where it was thrown, if the exception says so. -/
  stack : Option String := none
  deriving DecidableEq, Repr

/-- Name and text. -/
def ScriptError.message (e : ScriptError) : String := e.name ++ ": " ++ e.text

/-- Why an operation of a bridge failed. -/
inductive BridgeError where
  /-- The two sides disagree about the wire format. -/
  | protocol (error : ProtocolError)
  /-- The boundary was misused. -/
  | interop (error : InteropError)
  /-- Script threw. -/
  | script (error : ScriptError)
  /-- Host code failed while script was calling it. -/
  | hostMethod (error : HostError)
  /-- An argument of the operation itself is not acceptable. -/
  | invalidArgument (name reason : String)
  /-- The engine could not be started. -/
  | engine
  /-- The settings could not be read. -/
  | settings (fault : Settings.Fault)
  /-- The settings file could not be opened. -/
  | io
  deriving DecidableEq, Repr

namespace BridgeError

/-- The text of the error; settings, engine and file errors have none of their own here. -/
def message : BridgeError → String
  | protocol error => error.message
  | interop error => error.message
  | script error => error.message
  | hostMethod error => "host method failed: " ++ error.message
  | invalidArgument name reason => "invalid argument `" ++ name ++ "`: " ++ reason
  | engine => "failed to create script runtime"
  | settings _ => "invalid settings"
  | io => "failed to read settings"

/-- The bridge error that a host error becomes when it ends an operation. -/
def ofHost (error : HostError) : BridgeError :=
  if error.isInterop then interop (.host error) else hostMethod error

/-- The host error that host code reports when an operation it started has failed. -/
def cause : BridgeError → HostError
  | hostMethod error => error
  | interop (.host error) => error
  | other => .thrown other.message

theorem cause_ofHost (error : HostError) : (ofHost error).cause = error := by
  cases error <;> rfl

end BridgeError

end ScriptBridge.Host
