/-
# Host values

The values that host code exchanges with script.  A host object is known by its
key; a foreign object is a lease on a script object, known by the number of the
lease, and copies of one lease are one foreign object.
-/
import ScriptBridge.Calendar.Instant
import ScriptBridge.Host.Error
import ScriptBridge.Number.Layout
import ScriptBridge.Text.Quoted

namespace ScriptBridge.Host

open ScriptBridge.Calendar ScriptBridge.Number ScriptBridge.Text ScriptBridge.Wire

/-- A reference to a host object. -/
structure HostObject where
  /-- Which object. -/
  key : Nat
  /-- Which host type it has. -/
  type : Nat
  /-- The name of that type. -/
  typeName : String
  deriving DecidableEq, Repr

/-- Whether two references are to one object. -/
def HostObject.same (a b : HostObject) : Bool := a.key == b.key

/-- A share in a lease on a script object. -/
structure ForeignObject where
  /-- Which lease; it ends when its last share is gone. -/
  lease : Nat
  /-- The handle under which the engine keeps the script object alive. -/
  handle : Handle
  /-- The bridge whose engine that is. -/
  bridge : Nat
  deriving DecidableEq, Repr

/-- Whether two shares name one handle of one bridge. -/
def ForeignObject.same (a b : ForeignObject) : Bool := a.handle == b.handle && a.bridge == b.bridge

/-- A value of the host side. -/
inductive HostValue where
  | null
  | bool (b : Bool)
  | int (n : Int32)
  | number (x : Binary64)
  | string (s : String)
  | date (t : Instant)
  | array (items : List HostValue)
  | object (o : HostObject)
  | foreign (f : ForeignObject)
  deriving Repr, Inhabited

namespace HostValue

/-- The kind of the value as it is named in messages. -/
def kind : HostValue → String
  | null => "null"
  | bool _ => "bool"
  | int _ => "int"
  | number _ => "number"
  | string _ => "string"
  | date _ => "date"
  | array _ => "array"
  | object _ => "host object"
  | foreign _ => "foreign object"

/-- Whether the value is null. -/
def isNull : HostValue → Bool
  | null => true
  | _ => false

/-- The boolean, if the value is one. -/
def asBool : HostValue → Option Bool
  | bool b => some b
  | _ => none

/-- The integer, also of a whole number that fits. -/
def asInt : HostValue → Option Int32
  | int n => some n
  | number x => x.toInt32?
  | _ => none

/-- The number, also of an integer. -/
def asNumber : HostValue → Option Binary64
  | int n => some (.ofInt n.toInt)
  | number x => some x
  | _ => none

/-- The string, if the value is one. -/
def asString : HostValue → Option String
  | string s => some s
  | _ => none

/-- The instant, if the value is a date. -/
def asDate : HostValue → Option Instant
  | date t => some t
  | _ => none

/-- The elements, if the value is an array. -/
def asArray : HostValue → Option (List HostValue)
  | array items => some items
  | _ => none

/-- The host object, if the value is one. -/
def asObject : HostValue → Option HostObject
  | object o => some o
  | _ => none

/-- The foreign object, if the value is one. -/
def asForeign : HostValue → Option ForeignObject
  | foreign f => some f
  | _ => none

/-- A value that a reader of one kind found, or the mismatch at a position. -/
def expect {α : Type} (position : Nat) (expected : String) (v : HostValue) :
    Option α → Except HostError α
  | some a => .ok a
  | none => .error (.argumentType position expected v.kind)

/-- The boolean, for a setter. -/
def toBool (v : HostValue) : Except HostError Bool := v.expect 0 "bool" v.asBool

/-- The integer, for a setter. -/
def toInt (v : HostValue) : Except HostError Int32 := v.expect 0 "int" v.asInt

/-- The number, for a setter. -/
def toNumber (v : HostValue) : Except HostError Binary64 := v.expect 0 "number" v.asNumber

/-- The string, for a setter. -/
def toStr (v : HostValue) : Except HostError String := v.expect 0 "string" v.asString

/-- The number of 32 bits, which wraps into an integer. -/
def ofUnsigned32 (n : UInt32) : HostValue := int n.toInt32

/-- An integer of more than 32 bits, which becomes a number. -/
def ofWide (n : Int) : HostValue := number (.ofInt n)

/-- One character, which becomes a string. -/
def ofChar (c : Char) : HostValue := string (String.singleton c)

mutual
/-- Equality: numbers by their value, dates by their instant, objects by identity. -/
def same : HostValue → HostValue → Bool
  | null, null => true
  | bool a, bool b => a == b
  | int a, int b => a == b
  | number a, number b => a.same b
  | string a, string b => a == b
  | date a, date b => a == b
  | array as, array bs => sameItems as bs
  | object a, object b => a.same b
  | foreign a, foreign b => a.same b
  | _, _ => false

/-- Equality of elements, one by one. -/
def sameItems : List HostValue → List HostValue → Bool
  | [], [] => true
  | a :: as, b :: bs => same a b && sameItems as bs
  | _, _ => false
end

mutual
/-- The text of a value for a reader. -/
def inspect : HostValue → String
  | null => "Null"
  | bool b => "Bool(" ++ toString b ++ ")"
  | int n => "Int(" ++ toString n.toInt ++ ")"
  | number x => "Number(" ++ Layout.allDigits.write x ++ ")"
  | string s => "String(" ++ Quoted.write s ++ ")"
  | date t => "Date(" ++ t.text ++ ")"
  | array items => "Array([" ++ ", ".intercalate (inspectItems items) ++ "])"
  | object o => "Object(" ++ o.typeName ++ ")"
  | foreign f => "ForeignObject(" ++ f.handle.text ++ ")"

/-- The texts of elements. -/
def inspectItems : List HostValue → List String
  | [] => []
  | v :: vs => inspect v :: inspectItems vs
end

mutual
/-- The host objects that occur in a value, once for each occurrence. -/
def objects : HostValue → List HostObject
  | object o => [o]
  | array items => objectsOf items
  | _ => []

/-- The host objects that occur in some values. -/
def objectsOf : List HostValue → List HostObject
  | [] => []
  | v :: vs => objects v ++ objectsOf vs
end

mutual
/-- The foreign objects that occur in a value, once for each occurrence. -/
def foreigns : HostValue → List ForeignObject
  | foreign f => [f]
  | array items => foreignsOf items
  | _ => []

/-- The foreign objects that occur in some values. -/
def foreignsOf : List HostValue → List ForeignObject
  | [] => []
  | v :: vs => foreigns v ++ foreignsOf vs
end

mutual
/-- The host objects and foreign objects that occur in a value, in their order. -/
def references : HostValue → List HostValue
  | object o => [object o]
  | foreign f => [foreign f]
  | array items => referencesOf items
  | _ => []

/-- The host objects and foreign objects that occur in some values. -/
def referencesOf : List HostValue → List HostValue
  | [] => []
  | v :: vs => references v ++ referencesOf vs
end

end HostValue

end ScriptBridge.Host
