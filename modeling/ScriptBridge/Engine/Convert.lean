/-
# Records and script values

Turning a record into a script value makes a stand-in for every slot in it.  It fails
as a whole: the stand-ins made before the failure are let go, and the slots after it,
which never had a stand-in, are released at once, so every slot in the record comes
back exactly once either way.  This is how it goes as long as no script can see it.
-/
import ScriptBridge.Engine.State

namespace ScriptBridge.Engine

open ScriptBridge.Number ScriptBridge.Script ScriptBridge.Table ScriptBridge.Wire

/-- The largest time that a date can have, in milliseconds. -/
def maxTime : Nat := 8640000000000000

/-- The time of a date made from a number: cut to whole milliseconds, none out of range. -/
def clipTime (time : Binary64) : Binary64 :=
  if time.isFinite ∧ time.truncate.natAbs ≤ maxTime then .ofInt time.truncate else .nan

/-- Enters an array with given elements. -/
def allocArray (e : Engine) (items : List Value) : Value × Engine :=
  e.alloc (.ofKind (.array items.length) (some Intrinsic.arrayParent)
    (items.zipIdx.map fun (v, i) => (.index i, .data v)))

/-- Enters a date. -/
def allocDate (e : Engine) (time : Binary64) : Value × Engine :=
  e.alloc (.ofKind (.date (clipTime time)) (some Intrinsic.dateParent))

/-- Enters a token that keeps a slot. -/
def allocToken (e : Engine) (slot : Slot) : Ref × Engine :=
  let (r, heap) := e.heap.alloc (Intrinsic.functionObject (.token slot) "" 0)
  (r, { e with heap := heap })

/-- Enters a stand-in for the host entry at a slot that a token keeps. -/
def allocStandIn (e : Engine) (slot : Slot) (token : Ref) : Value × Engine :=
  e.alloc { kind := .proxy slot token, parent := none, entry := some slot }

/-- Enters a stand-in for the host entry at a slot, with a token of its own. -/
def allocProxy (e : Engine) (slot : Slot) : Value × Engine :=
  let (token, e) := e.allocToken slot
  e.allocStandIn slot token

/-- A script value, or the exception thrown instead. -/
abbrev Outcome := Except Value Value

/-- Goes on with a value, or throws. -/
def withValue (made : Outcome × Engine) (next : Engine → Value → Engine) : Engine :=
  match made with
  | (.ok v, e) => next e v
  | (.error v, e) => e.goto (.throw v)

/-- The script object at a handle. -/
def restore (e : Engine) (handle : Handle) : Outcome × Engine :=
  match e.handles.get? handle with
  | some r => (.ok (.object r), e)
  | none =>
    let (v, e) := e.newError "ReferenceError" (handle.text ++ " is not pinned by this engine")
    (.error v, e)

/-- The outcome of making a value. -/
def success (made : Value × Engine) : Outcome × Engine := (.ok made.1, made.2)

/-- The text of an error from the host that has none. -/
def hostErrorText : String := "host call failed"

/-- The script value of a view without elements. -/
def convertLeaf (e : Engine) : View → Outcome × Engine
  | .null => (.ok .null, e)
  | .boolean b => (.ok (.bool b), e)
  | .integer n => (.ok (.int n), e)
  | .number x => (.ok (.ofWhole x), e)
  | .string s => (.ok (.text s), e)
  | .date x => success (e.allocDate x)
  | .array _ => success (e.allocArray [])
  | .managedRef s => success (e.allocProxy s)
  | .managedError s => success (e.allocProxy s)
  | .foreignRef none => (.ok .null, e)
  | .foreignError none => (.ok .null, e)
  | .foreignRef (some h) => e.restore h
  | .foreignError (some h) => e.restore h
  | .unknownError m => success (e.newHostError (some (m.getD hostErrorText)))

/-- The script value of a record that owns no array. -/
def convertShallow (e : Engine) (r : Record) : Outcome × Engine :=
  match r.view with
  | .ok v => e.convertLeaf v
  | .error err =>
    let (v, e) := e.newError "InternalError" err.message
    (.error v, e)

mutual
/-- The script value of a record. -/
def convert (e : Engine) : Record → Outcome × Engine
  | .plain tag bits length => e.convertShallow (.plain tag bits length)
  | .text kind bytes => e.convertShallow (.text kind bytes)
  | .array items =>
    match convertItems e items with
    | (.error v, e) => (.error v, e)
    | (.ok vs, e) => success (e.allocArray vs)

/-- The script values of elements.  Where one fails, the slots of those after it are released. -/
def convertItems (e : Engine) : List Record → Except Value (List Value) × Engine
  | [] => (.ok [], e)
  | r :: rs =>
    match convert e r with
    | (.error v, e) => (.error v, { e with released := e.released ++ Record.slotsOfItems rs })
    | (.ok v, e) =>
      match convertItems e rs with
      | (.error v, e) => (.error v, e)
      | (.ok vs, e) => (.ok (v :: vs), e)
end

/-- Keeps an object alive for the host. -/
def pin (e : Engine) (r : Ref) : Option (Handle × Engine) :=
  (e.handles.insert r).map fun (h, handles) => (h, { e with handles := handles })

/-- The text of an exception that has none. -/
def unprintable : String := "script threw a value that cannot be printed"

/-- The text of an exception that is no object. -/
def thrownText (v : Value) : String :=
  match v.toUnits? with
  | none => unprintable
  | some units =>
    match Text.Units.toString units with
    | .ok s => s
    | .error _ => unprintable

/-- The message for a string with half a pair of surrogates at a byte offset. -/
def surrogateText (offset : Nat) : String :=
  "Conversion from string failed: invalid utf-8 sequence of 1 bytes from index " ++
    toString offset

/-- The message for a value of one kind where one of another kind is wanted. -/
def mismatchText (kind wanted : String) : String :=
  "Error converting from js '" ++ kind ++ "' into type '" ++ wanted ++ "'"

/-- The kind of a value as it is named in messages. -/
def typeName (e : Engine) (v : Value) : String :=
  match v with
  | .undefined => "undefined"
  | .null => "null"
  | .bool _ => "bool"
  | .int _ => "int"
  | .number _ => "float"
  | .string _ => "string"
  | .symbol .. => "symbol"
  | .bigint _ => "big_int"
  | .object r =>
    match (e.heap.get? r).map Object.kind with
    | some (.array _) => "array"
    | some (.function ..) => "constructor"
    | some (.proxy ..) => "constructor"
    | some (.builtin (.ofClass _)) => "constructor"
    | some (.builtin _) => "function"
    | some .error => "exception"
    | _ => "object"

/-- The type of a value as script names it. -/
def typeOf (e : Engine) (v : Value) : String :=
  match v with
  | .undefined => "undefined"
  | .null => "object"
  | .bool _ => "boolean"
  | .int _ | .number _ => "number"
  | .string _ => "string"
  | .symbol .. => "symbol"
  | .bigint _ => "bigint"
  | .object _ => if e.isCallable v then "function" else "object"

end ScriptBridge.Engine
