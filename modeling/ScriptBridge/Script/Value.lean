/-
# Script values

The values of script.  A number has two representations, an integer of 32 bits
and a double; script cannot tell them apart, the host can.
-/
import ScriptBridge.Number.Layout
import ScriptBridge.Script.Numeral
import ScriptBridge.Text.Utf16

namespace ScriptBridge.Script

open ScriptBridge.Number ScriptBridge.Text

/-- A place in the script heap. -/
abbrev Ref := Nat

/-- A value of script. -/
inductive Value where
  | undefined
  | null
  | bool (b : Bool)
  | int (n : Int32)
  | number (x : Binary64)
  | string (units : Units)
  /-- A symbol, known by the order in which symbols were made, and what it was called. -/
  | symbol (id : Nat) (description : Option Units)
  | bigint (n : Int)
  | object (ref : Ref)
  deriving DecidableEq, Repr, Inhabited

namespace Value

/-- The place of an object. -/
def refs : Value → List Ref
  | object r => [r]
  | _ => []

/-- A string known when the value is written down. -/
def text (s : String) : Value := string (Units.ofString s)

/-- A numeric literal: an integer when it is whole and its magnitude fits 31 bits. -/
def ofLiteral (x : Binary64) : Value :=
  match x.toInt32? with
  | some n => if x.isNegativeZero || n.toInt == -0x80000000 then number x else int n
  | none => number x

/-- A number from the host or from a text: an integer when it is whole and fits, other than
minus zero. -/
def ofWhole (x : Binary64) : Value :=
  match x.toInt32? with
  | some n => if x.isNegativeZero then number x else int n
  | none => number x

/-- A count, which is an integer as long as it fits. -/
def ofCount (n : Nat) : Value :=
  if n < 0x80000000 then int (Int32.ofNat n) else number (.ofInt n)

/-- Whether a condition holds. -/
def isTruthy : Value → Bool
  | undefined | null => false
  | bool b => b
  | int n => decide (n ≠ 0)
  | number x => !x.isNaN && decide (x.units ≠ 0)
  | string units => !units.isEmpty
  | bigint n => decide (n ≠ 0)
  | symbol .. | object _ => true

/-- The units of a string, none of anything else. -/
def units : Value → Units
  | string units => units
  | _ => []

/-- The double that a number stands for. -/
def asNumber : Value → Option Binary64
  | int n => some (.ofInt n.toInt)
  | number x => some x
  | _ => none

/-- Strict equality. -/
def strictEqual (a b : Value) : Bool :=
  match a.asNumber, b.asNumber with
  | some x, some y => x.same y
  | _, _ => decide (a = b)

/-- The string conversion of a value that is no object; a symbol has none. -/
def toUnits? : Value → Option Units
  | undefined => some (Units.ofString "undefined")
  | null => some (Units.ofString "null")
  | bool b => some (Units.ofString (if b then "true" else "false"))
  | int n => some (Units.ofString (ToString.toString n.toInt))
  | number x => some (Units.ofString (Layout.script.write x))
  | string units => some units
  | bigint n => some (Units.ofString (ToString.toString n))
  | symbol .. | object _ => none

/-- The text that shows a symbol by what it was called. -/
def symbolText (description : Option Units) : Units :=
  Units.ofString "Symbol(" ++ description.getD [] ++ Units.ofString ")"

/-- The string that a value which is no object stands for, or the message of the type
error where it stands for none. -/
def toText (v : Value) : Except String Units :=
  match v.toUnits? with
  | some units => .ok units
  | none => .error "cannot convert symbol to string"

/-- The number or large integer that a value which is no object stands for, or the message
of the type error where it stands for none. -/
def toNumeric : Value → Except String Value
  | undefined => .ok (number .nan)
  | null => .ok (int 0)
  | bool b => .ok (int (if b then 1 else 0))
  | string units => .ok (ofWhole (Numeral.read units))
  | symbol .. => .error "cannot convert symbol to number"
  | object _ => .ok (number .nan)
  | v => .ok v

/-- The number that a value which is no object stands for, or the message of the type error
where it stands for none. -/
def toNumber (v : Value) : Except String Value := do
  match ← v.toNumeric with
  | bigint _ => throw "cannot convert bigint to number"
  | n => return n

/-- A number or large integer as a number; a large integer gives the nearest double. -/
def nearest : Value → Value
  | bigint n => number (.ofInt n)
  | v => v

/-- The integer that a value stands for which counts as one in a sum. -/
def asInteger? : Value → Option Int
  | null => some 0
  | bool b => some (if b then 1 else 0)
  | int n => some n.toInt
  | _ => none

/-- The sum of two integers, which is an integer as long as it fits. -/
def ofSum (sum : Int) : Value :=
  if -0x80000000 ≤ sum ∧ sum < 0x80000000 then int (Int32.ofInt sum) else number (.ofInt sum)

/-- The sum of two numbers or large integers, which do not mix. -/
def addNumeric (a b : Value) : Except String Value :=
  match a, b with
  | bigint m, bigint n => .ok (bigint (m + n))
  | bigint _, _ => .error "cannot convert to BigInt"
  | _, bigint _ => .error "cannot convert to BigInt"
  | a, b => .ok (number ((a.asNumber.getD .nan).add (b.asNumber.getD .nan)))

/-- The sum of two values that are neither strings nor objects.  A symbol fails before
anything else. -/
def addNumbers (a b : Value) : Except String Value :=
  match a.asInteger?, b.asInteger? with
  | some m, some n => .ok (ofSum (m + n))
  | _, _ => do addNumeric (← a.toNumeric) (← b.toNumeric)

/-- The sum of two values that are no objects. -/
def add (a b : Value) : Except String Value :=
  match a, b with
  | string s, b => do return string (s ++ (← b.toText))
  | a, string t => do return string ((← a.toText) ++ t)
  | a, b => addNumbers a b

end Value

end ScriptBridge.Script
