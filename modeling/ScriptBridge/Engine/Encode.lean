/-
# Script values as records

A script value that goes to the host becomes a record.  Arrays are copied, as far as they
are neither too deep nor too long; a date gives the time that its own member reports; any
other object stays where it is and is kept alive under a new handle.  So is an object that
is thrown; if there is no handle left for it, its text goes to the host instead.
-/
import ScriptBridge.Engine.Conversion
import ScriptBridge.Engine.Convert

namespace ScriptBridge.Engine

open ScriptBridge.Number ScriptBridge.Script ScriptBridge.Table ScriptBridge.Text ScriptBridge.Wire

/-- Reads the element of an array that is to become a record. -/
def nextElement (e : Engine) (array : Ref) (depth length index : Nat) (done : List Record) :
    Engine :=
  if index < length then
    (e.push (.elements array depth length index done)).goto
      (.read (.object array) (.index index))
  else e.goto (.encoded (.array done.reverse))

/-- Turns an object into a record: a date by the time that its own member reports, and any
other object by a new handle. -/
def encodeInstance (e : Engine) (r : Ref) (isDate : Bool) : Engine :=
  if isDate then (e.push (.timeMember (.object r))).goto (.read (.object r) (.name "getTime"))
  else
    match e.pin r with
    | some (h, e) => e.goto (.encoded (.foreign h))
    | none => e.goto (.encoded (.unknownError (some "foreign handle table is full")))

/-- What an object counts as an heir of: a stand-in is an heir of all functions. -/
def lineage? (o : Object) : Option Ref :=
  match o.kind with
  | .proxy .. => some Intrinsic.functionParent
  | _ => o.parent

/-- Whether an object is an heir of another one, among so many objects at most. -/
def isHeirWithin (h : Heap) (ancestor : Ref) : Nat → Ref → Bool
  | 0, _ => false
  | fuel + 1, r =>
    match (h.get? r).bind lineage? with
    | none => false
    | some p => p == ancestor || isHeirWithin h ancestor fuel p

/-- Whether an object is an heir of another one, however far up. -/
def isHeir (e : Engine) (ancestor r : Ref) : Bool :=
  isHeirWithin e.heap ancestor (e.heap.objects.length + 1) r

/-- Takes the class that dates should be instances of, which must be a function. -/
def takeDateClass (e : Engine) (r : Ref) (v : Value) : Engine :=
  if e.isCallable v then (e.await (.dateParent r)).goto (.read v (.name "prototype"))
  else e.throwType "invalid 'instanceof' right operand"

/-- Takes what dates should inherit from, which must be an object. -/
def takeDateParent (e : Engine) (r : Ref) (v : Value) : Engine :=
  match v with
  | .object parent => e.encodeInstance r (e.isHeir parent r)
  | _ => e.throwType "operand 'prototype' property is not an object"

/-- Turns an object into a record: what stands for a host entry by its slot and an array by
its elements.  Whether any other object is a date is up to the class that stands under
that name. -/
def encodeObject (e : Engine) (r : Ref) (depth : Nat) : Engine :=
  match (e.heap.get? r).bind (·.entry), (e.heap.get? r).map Object.kind with
  | some slot, _ => e.goto (.encoded (.managed slot))
  | none, some (.array length) =>
    if e.maxDepth ≤ depth then
      e.goto (.encoded (.unknownError (some "array nesting is too deep to copy")))
    else if e.maxLength < length then
      e.goto (.encoded (.unknownError (some "array is too long to copy")))
    else if Record.maxLength < length then e.goto (.encoded (.nulls length))
    else e.nextElement r depth length 0 []
  | none, _ =>
    if e.isIntact .date then e.encodeInstance r (e.isHeir Intrinsic.dateParent r)
    else
      (e.await (.dateClass r)).goto
        (.read globalObject (.name (Intrinsic.className .date)))

/-- Turns a value into a record. -/
def encodeStep (e : Engine) (v : Value) (depth : Nat) : Engine :=
  match v with
  | .undefined | .null => e.goto (.encoded .null)
  | .bool b => e.goto (.encoded (.boolean b))
  | .int n => e.goto (.encoded (.integer n))
  | .number x => e.goto (.encoded (.number x))
  | .string units =>
    match units.toString with
    | .ok s => e.goto (.encoded (.string s))
    | .error offset => e.goto (.refuse (surrogateText offset))
  | .symbol .. | .bigint _ =>
    e.goto (.encoded (.unknownError (some
      ("cannot pass a script " ++ e.typeName v ++ " to the host"))))
  | .object r => e.encodeObject r depth

/-- Takes the time that the member of a date gave. -/
def takeTime (e : Engine) (v : Value) : Engine :=
  match v.asNumber with
  | some x => e.goto (.encoded (.date x))
  | none => e.goto (.refuse (mismatchText (e.typeName v) "f64"))

/-- Turns an exception into a record: what stands for a host entry by its slot, another object
by a new handle, and anything else by its text.  An object for which there is no handle is
turned into its text first. -/
def settleError (e : Engine) (v : Value) : Engine :=
  match v with
  | .object r =>
    match (e.heap.get? r).bind (·.entry) with
    | some s => e.goto (.encoded (.managedError s))
    | none =>
      match e.pin r with
      | some (h, e) => e.goto (.encoded (.foreignError h))
      | none => (e.push (.printing v)).giveText v none
  | v => e.goto (.encoded (.unknownError (some (thrownText v))))

end ScriptBridge.Engine
