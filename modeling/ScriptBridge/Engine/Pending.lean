/-
# Work that waits for a value

What the engine does for a script without an expression of its own: turning objects into
plain values, joining elements, reading arguments from an object, making instances.  Each
of these may call script or the host on the way, and then waits for the value.
-/
import ScriptBridge.Script.Heap

namespace ScriptBridge.Engine

open ScriptBridge.Script ScriptBridge.Text ScriptBridge.Wire

/-- What waits for a value. -/
inductive Pending where
  /-- Calls the conversion member of an object that is wanted as a text or not; the second
  member is tried last. -/
  | conversion (object : Value) (asText last : Bool)
  /-- Accepts what a conversion gave, unless it is an object. -/
  | converted (object : Value) (asText last : Bool)
  /-- Turns the value into a text; undefined may have a text of its own. -/
  | text (missing : Option String)
  /-- Turns the value into a number. -/
  | number
  /-- Turns the value into a number, a large integer into the nearest one. -/
  | nearest
  /-- Adds an operand on the right to a value that is no object. -/
  | addRight (right : Value)
  /-- Adds an operand on the left to a value that is no object. -/
  | addLeft (left : Value)
  /-- Calls the member of an object that joins its elements. -/
  | joinMember (object : Value)
  /-- Takes the number of the elements that are to be joined. -/
  | joinLength (object separator : Value)
  /-- Takes the text between the elements. -/
  | joinSeparator (object : Value) (length : Nat)
  /-- Takes an element; the texts of those before it come last one first. -/
  | joinElement (object : Value) (separator : Units) (length index : Nat) (done : List Units)
  /-- Takes the text of an element. -/
  | joinText (object : Value) (separator : Units) (length index : Nat) (done : List Units)
  /-- Takes the name of an error as a text. -/
  | errorName (error : Value)
  /-- Takes the message of an error as a text. -/
  | errorMessage (name : Units)
  /-- Takes the number of arguments that an object holds. -/
  | argumentCount (f this object : Value)
  /-- Takes one argument from an object; those before it come last one first. -/
  | argument (f this object : Value) (count index : Nat) (done : List Value)
  /-- Takes the new length of an array, which is then read a second time. -/
  | length (array : Ref) (v : Value)
  /-- Takes the new length of an array again. -/
  | lengthAgain (array : Ref) (v : Value) (length : Nat)
  /-- Takes the class that an object may be an instance of before it goes to the host. -/
  | dateClass (object : Ref)
  /-- Takes what the instances of that class inherit from. -/
  | dateParent (object : Ref)
  /-- Takes the class of a new instance. -/
  | instanceClass (args : List Value)
  /-- Takes what a new instance of a class inherits from. -/
  | instanceParent (f : Value) (args : List Value)
  /-- Gives a new instance, unless its class gave an object instead. -/
  | instanceMade (object : Value)
  /-- Makes the value into an object. -/
  | boxed
  /-- Turns the value into a large integer. -/
  | bigint
  /-- Makes a symbol that is called like the value. -/
  | symbol
  /-- Makes an error of a class with the value as its message. -/
  | errorOf (className : String)
  /-- Shows a function by its name. -/
  | functionName
  /-- Takes the class of a stand-in. -/
  | standInClass (slot : Slot) (token : Ref)
  /-- Takes what stands for a host entry from now on. -/
  | entered (slot : Slot)

namespace Pending

/-- The places that the work refers to. -/
def refs : Pending → List Ref
  | conversion object _ _ => object.refs
  | converted object _ _ => object.refs
  | addRight right => right.refs
  | addLeft left => left.refs
  | joinMember object => object.refs
  | joinLength object separator => object.refs ++ separator.refs
  | joinSeparator object _ => object.refs
  | joinElement object _ _ _ _ => object.refs
  | joinText object _ _ _ _ => object.refs
  | errorName error => error.refs
  | argumentCount f this object => f.refs ++ this.refs ++ object.refs
  | argument f this object _ _ done =>
    f.refs ++ this.refs ++ object.refs ++ done.flatMap Value.refs
  | length array v => array :: v.refs
  | lengthAgain array v _ => array :: v.refs
  | dateClass object => [object]
  | dateParent object => [object]
  | instanceClass args => args.flatMap Value.refs
  | instanceParent f args => f.refs ++ args.flatMap Value.refs
  | instanceMade object => object.refs
  | standInClass _ token => [token]
  | _ => []

end Pending

end ScriptBridge.Engine
