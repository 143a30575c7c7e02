/-
# Host code

Host code in miniature: what the getters, setters, methods and dispose hooks of a host
type do is written as an action.  Actions read and write the fields of their receiver,
use the bridge that they were called through, and go on to call script objects, so that
host code and script can nest to any depth.
-/
import ScriptBridge.Host.Description
import ScriptBridge.Script.Expr

namespace ScriptBridge.Host

open ScriptBridge.Script

/-- A recipe for a host value. -/
inductive Template where
  /-- A value without objects. -/
  | plain (v : HostValue) (pure : v.references = [] := by rfl)
  /-- An array. -/
  | array (items : List Template)
  /-- A new object of a type, with an identifier and fields. -/
  | fresh (type : Nat) (ident : String) (fields : List (String × Template))
  /-- What a register holds. -/
  | register (name : String)
  deriving Inhabited

/-- What host code does. -/
inductive Action where
  /-- Gives a value. -/
  | const (t : Template)
  /-- Reports a failure. -/
  | throw (text : String)
  /-- Breaks off; the payload need not be a text. -/
  | panic (payload : Option String)
  /-- Runs a script. -/
  | eval (script : Expr)
  /-- Reads a global. -/
  | getVariable (name : String)
  /-- Assigns a global. -/
  | setVariable (name : String) (t : Template)
  /-- Makes the engine collect. -/
  | flush
  /-- Disposes the bridge. -/
  | dispose
  /-- Whether the bridge has been disposed. -/
  | isDisposed
  /-- The number of occupied slots. -/
  | used
  /-- Empties a register, and says whether it held something. -/
  | drop (register : String)
  /-- Gives up the bridge, and says whether there was one. -/
  | dropBridge
  /-- A field of the receiver, null when it is missing. -/
  | field (name : String)
  /-- The identifier of the receiver. -/
  | ident
  /-- Stores the value that is being assigned in a field. -/
  | storeValue (field : String) (kind : Param)
  /-- Ignores the value that is being assigned. -/
  | sink
  /-- The array of the arguments. -/
  | echo
  /-- Gives a text. -/
  | label (text : String)
  /-- How many arguments there are, and whether there are none. -/
  | arity
  /-- One argument as a value of a kind. -/
  | arg (kind : Param) (position : Nat)
  /-- Stores one argument in a field. -/
  | store (field : String) (kind : Param) (position : Nat)
  /-- Removes a field, and says whether it was there. -/
  | forget (field : String)
  /-- Stores one argument in a register, and says whether that held something. -/
  | save (register : String) (position : Nat)
  /-- Calls a member of a script object that is an argument. -/
  | invoke (position : Nat) (member : String) (args : List Template)
  /-- Reads a member of a script object that is an argument. -/
  | get (position : Nat) (member : String)
  /-- Assigns a member of a script object that is an argument. -/
  | set (position : Nat) (member : String) (t : Template)
  /-- Does one thing after the other, and gives what the last one gives. -/
  | seq (actions : List Action)
  /-- Does one thing after the other, and gives the array of the results. -/
  | list (actions : List Action)
  /-- Gives a text instead of a failure. -/
  | attempt (action : Action)
  deriving Inhabited

/-- How a property is read. -/
structure Getter where
  /-- What reading it does. -/
  action : Action
  /-- Whether it may report failures; host code that has none to report breaks off instead. -/
  fallible : Bool

/-- A type of host objects. -/
structure HostType where
  /-- Its name. -/
  name : String
  /-- What script can reach on its objects. -/
  description : Description Getter Action Action
  /-- Whether the disposal of an object is logged. -/
  logged : Bool := true
  /-- What an object does when it is disposed, apart from being logged. -/
  hook : Option Action := none

namespace HostType

/-- The number of types that can be described. -/
def describable : Nat := 3

/-- A type that is described by registrations. -/
def described (rs : List (Registration Getter Action Action)) (hook : Option Action) :
    HostType where
  name := "Dyn"
  description := .ofRegistrations "Dyn" rs
  hook := hook

/-- The type without members, whose objects go silently. -/
def plain : HostType where
  name := "Plain"
  description := .ofRegistrations "Plain" []
  logged := false

/-- The number that stands for a type: all that cannot be described are one type. -/
def number (type : Nat) : Nat := min type describable

/-- The type of a number, given those that are described. -/
def ofNumber (types : List HostType) (type : Nat) : HostType :=
  if type < describable then types[type]?.getD (described [] none) else plain

end HostType

end ScriptBridge.Host
