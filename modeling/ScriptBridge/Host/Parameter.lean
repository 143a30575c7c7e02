/-
# Parameters and arguments

A host method declares the kinds of its parameters.  The kinds decide which
overload a call binds to, and each kind has a reader that takes the argument out.
-/
import ScriptBridge.Host.Value

namespace ScriptBridge.Host

open ScriptBridge.Calendar ScriptBridge.Number

/-- The kind of a parameter. -/
inductive Param where
  | any
  | bool
  | int
  | number
  | string
  | date
  | array
  | object
  | foreign
  deriving DecidableEq, Repr

namespace Param

/-- The kind as it is named in messages. -/
def name : Param → String
  | any => "value"
  | bool => "bool"
  | int => "int"
  | number => "number"
  | string => "string"
  | date => "date"
  | array => "array"
  | object => "host object"
  | foreign => "foreign object"

/-- How well an argument fits: three for the very kind, two for a conversion between
integers and numbers, one where anything fits, none where it does not. -/
def score : Param → HostValue → Option Nat
  | any, _ => some 1
  | bool, .bool _ => some 3
  | int, .int _ => some 3
  | int, .number x => if x.toInt32?.isSome then some 2 else none
  | number, .number _ => some 3
  | number, .int _ => some 2
  | string, .string _ => some 3
  | date, .date _ => some 3
  | array, .array _ => some 3
  | object, .object _ => some 3
  | foreign, .foreign _ => some 3
  | _, _ => none

/-- How well arguments fit, in sum; none where their number differs or one does not fit. -/
def scores : List Param → List HostValue → Option Nat
  | [], [] => some 0
  | p :: ps, v :: vs =>
    match p.score v with
    | none => none
    | some n => (scores ps vs).map (n + ·)
  | _, _ => none

end Param

/-- The arguments of a call. -/
structure Args where
  /-- The values in order. -/
  values : List HostValue

namespace Args

/-- The argument at a position. -/
def value (args : Args) (position : Nat) : Except HostError HostValue :=
  match args.values[position]? with
  | some v => .ok v
  | none => .error (.argumentType position "value" "nothing")

/-- The argument at a position, through the reader of a kind. -/
def read {α : Type} (args : Args) (position : Nat) (param : Param)
    (get : HostValue → Option α) : Except HostError α := do
  let v ← args.value position
  v.expect position param.name (get v)

/-- The boolean at a position. -/
def bool (args : Args) (position : Nat) : Except HostError Bool :=
  args.read position .bool HostValue.asBool

/-- The integer at a position. -/
def int (args : Args) (position : Nat) : Except HostError Int32 :=
  args.read position .int HostValue.asInt

/-- The number at a position. -/
def number (args : Args) (position : Nat) : Except HostError Binary64 :=
  args.read position .number HostValue.asNumber

/-- The string at a position. -/
def string (args : Args) (position : Nat) : Except HostError String :=
  args.read position .string HostValue.asString

/-- The instant at a position. -/
def date (args : Args) (position : Nat) : Except HostError Instant :=
  args.read position .date HostValue.asDate

/-- The elements of the array at a position. -/
def array (args : Args) (position : Nat) : Except HostError (List HostValue) :=
  args.read position .array HostValue.asArray

/-- The host object at a position. -/
def object (args : Args) (position : Nat) : Except HostError HostObject :=
  args.read position .object HostValue.asObject

/-- The foreign object at a position. -/
def foreign (args : Args) (position : Nat) : Except HostError ForeignObject :=
  args.read position .foreign HostValue.asForeign

/-- The argument at a position, as a value of a declared kind. -/
def get (args : Args) (position : Nat) : Param → Except HostError HostValue
  | .any => args.value position
  | .bool => .bool <$> args.bool position
  | .int => .int <$> args.int position
  | .number => .number <$> args.number position
  | .string => .string <$> args.string position
  | .date => .date <$> args.date position
  | .array => .array <$> args.array position
  | .object => .object <$> args.object position
  | .foreign => .foreign <$> args.foreign position

end Args

end ScriptBridge.Host
