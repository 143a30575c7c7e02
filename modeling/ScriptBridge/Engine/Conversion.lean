/-
# Plain values

Operators and members want plain values.  An object becomes one by a member of its own:
first the one that gives its value, then the one that gives its text, or the other way
round where a text is wanted.  Where it does not matter which, dates are wanted as texts
and other objects are not.
-/
import ScriptBridge.Engine.State

namespace ScriptBridge.Engine

open ScriptBridge.Number ScriptBridge.Script ScriptBridge.Text

/-- Whether an object is wanted as a text where it does not matter. -/
def prefersText (e : Engine) : Value → Bool
  | .object r => e.heap.inherits Intrinsic.dateParent (e.heap.objects.length + 1) r
  | _ => false

/-- The member that the conversion of an object calls first or last. -/
def conversionKey (asText last : Bool) : Key :=
  if asText == last then .name "valueOf" else .name "toString"

/-- Starts to turn an object into a plain value. -/
def startConversion (e : Engine) (v : Value) (asText last : Bool) : Engine :=
  (e.await (.conversion v asText last)).goto (.read v (conversionKey asText last))

/-- Tries the other member of an object. -/
def nextConversion (e : Engine) (v : Value) (asText last : Bool) : Engine :=
  if last then e.throwType "toPrimitive" else e.startConversion v asText true

/-- Calls the conversion member of an object, if it is a function. -/
def callConversion (e : Engine) (object : Value) (asText last : Bool) (f : Value) : Engine :=
  if e.isCallable f then (e.await (.converted object asText last)).goto (.call f object [])
  else e.nextConversion object asText last

/-- Accepts what a conversion gave, unless it is an object. -/
def acceptConversion (e : Engine) (object : Value) (asText last : Bool) (v : Value) : Engine :=
  match v with
  | .object _ => e.nextConversion object asText last
  | v => e.give v

/-- Gives a value, or throws a type error. -/
def giveOr (e : Engine) {α : Type} (r : Except String α) (value : α → Value) : Engine :=
  match r with
  | .ok a => e.give (value a)
  | .error message => e.throwType message

/-- Gives the text of a value; undefined may have a text of its own. -/
def giveText (e : Engine) (v : Value) (missing : Option String) : Engine :=
  match v, missing with
  | .object _, _ => (e.await (.text none)).startConversion v true false
  | .undefined, some text => e.give (.text text)
  | v, _ => e.giveOr v.toText .string

/-- Gives the number of a value. -/
def giveNumber (e : Engine) (v : Value) : Engine :=
  match v with
  | .object _ => (e.await .number).startConversion v false false
  | v => e.giveOr v.toNumber id

/-- Gives the number of a value, for a large integer the nearest one. -/
def giveNearest (e : Engine) (v : Value) : Engine :=
  match v with
  | .object _ => (e.await .nearest).startConversion v false false
  | v => e.giveOr v.toNumeric Value.nearest

/-- Gives the large integer that a value which is no object stands for. -/
def giveBigint (e : Engine) (v : Value) : Engine :=
  match v with
  | .object _ => (e.await .bigint).startConversion v false false
  | .bool b => e.give (.bigint (if b then 1 else 0))
  | .int n => e.give (.bigint n.toInt)
  | .bigint n => e.give (.bigint n)
  | .number x =>
    if !x.isFinite then e.throwNew "RangeError" "cannot convert NaN or Infinity to BigInt"
    else if x.isIntegral then e.give (.bigint x.truncate)
    else e.throwNew "RangeError" "cannot convert to BigInt: not an integer"
  | .string units =>
    match Numeral.readWhole? units with
    | some n => e.give (.bigint n)
    | none => e.throwNew "SyntaxError" "invalid BigInt literal"
  | .undefined | .null | .symbol .. => e.throwType "cannot convert to BigInt"

/-- The whole number in the last 32 bits of a number. -/
def wordOf (v : Value) : Nat := ((v.asNumber.elim 0 Binary64.truncate) % 0x100000000).toNat

/-- Gives the sum of two values, objects being converted first, the left one first. -/
def giveSum (e : Engine) (a b : Value) : Engine :=
  match a, b with
  | .object _, _ => (e.await (.addRight b)).startConversion a (e.prefersText a) false
  | _, .object _ => (e.await (.addLeft a)).startConversion b (e.prefersText b) false
  | _, _ => e.giveOr (a.add b) id

end ScriptBridge.Engine
