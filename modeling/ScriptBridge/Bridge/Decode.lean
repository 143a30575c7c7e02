/-
# Records as host values

A record becomes a host value by looking up its slots and by taking a lease on each of
its handles.  Every element of an array is looked at even after one has failed, because
whoever decodes a record answers for all handles in it: each ends up in the value or
among the tasks that are left to the engine.  A thrown script object leaves tasks too,
since its name, its message and its stack have to be read from the engine.
-/
import ScriptBridge.Bridge.Entry
import ScriptBridge.Table.Arena
import ScriptBridge.Wire.Date

namespace ScriptBridge.Bridge

open ScriptBridge.Host ScriptBridge.Table ScriptBridge.Wire

/-- What an engine is to do for a record that was decoded. -/
inductive Task where
  /-- Read a member of a thrown object. -/
  | read (thrown : Handle) (member : String)
  /-- Give up a handle. -/
  | release (handle : Handle)
  deriving DecidableEq, Repr

/-- Why a record stands for no value. -/
inductive Fault where
  /-- The error is known. -/
  | known (e : BridgeError)
  /-- The error is what the members of a thrown object say. -/
  | thrown (handle : Handle)
  deriving DecidableEq, Repr

/-- What came of decoding. -/
structure Decoded (α : Type) where
  /-- The outcome. -/
  result : α
  /-- What is left to the engine, in order. -/
  tasks : List Task
  /-- The number of the next lease. -/
  next : Nat

/-- The members of a thrown object that are read, in order. -/
def errorMembers : List String := ["name", "message", "stack"]

/-- The tasks that a thrown object leaves. -/
def thrownTasks (h : Handle) : List Task := errorMembers.map (.read h) ++ [.release h]

/-- A fault that is a script error without a stack. -/
def scriptFault (text : String) : Fault := .known (.script { name := "Error", text := text })

/-- The host value of an entry that script handed back. -/
def entryValue : Entry → Except Fault HostValue
  | .object o => .ok (.object o)
  | .method .. => .error (.known (.interop (.unrepresentable "a host method reference")))
  | .error e => .error (.known (.ofHost e))

/-- The error of an entry that script threw. -/
def entryFault : Entry → Fault
  | .error e => .known (.ofHost e)
  | entry => scriptFault ("script threw a host " ++ entry.typeName)

/-- The host value of a date. -/
def dateValue (millis : Number.Binary64) : Except Fault HostValue :=
  if millis.isNaN then .ok .null
  else
    match Date.toInstant? millis with
    | some t => .ok (.date t)
    | none => .error (.known (.interop (.unrepresentable "a date outside the host calendar")))

/-- The outcome of a view that names no script object; elements are left out. -/
def plainValue (a : Arena Entry) : View → Except Fault HostValue
  | .null => .ok .null
  | .boolean b => .ok (.bool b)
  | .integer n => .ok (.int n)
  | .number x => .ok (.number x)
  | .string s => .ok (.string s)
  | .date millis => dateValue millis
  | .array _ => .ok (.array [])
  | .managedRef slot =>
    match a.get? slot with
    | some entry => entryValue entry
    | none => .error (.known (.ofHost (.invalidSlot slot)))
  | .managedError slot =>
    match a.get? slot with
    | some entry => .error (entryFault entry)
    | none => .error (.known (.ofHost (.invalidSlot slot)))
  | .foreignRef _ => .error (.known (.interop .emptyHandle))
  | .foreignError _ => .error (.known (.interop .emptyHandle))
  | .unknownError m => .error (scriptFault (m.getD "script raised an unknown error"))

/-- What comes of a record without elements. -/
def decodeLeaf (bridge : Nat) (a : Arena Entry) (next : Nat) (r : Record) :
    Decoded (Except Fault HostValue) :=
  match r.view with
  | .error e => ⟨.error (.known (.protocol e)), [], next⟩
  | .ok (.foreignRef (some h)) => ⟨.ok (.foreign ⟨next, h, bridge⟩), [], next + 1⟩
  | .ok (.foreignError (some h)) => ⟨.error (.thrown h), thrownTasks h, next⟩
  | .ok v => ⟨plainValue a v, [], next⟩

/-- The values, or the first fault with the values before it and those after it. -/
def gather : List (Except Fault HostValue) →
    Except (Fault × List HostValue × List HostValue) (List HostValue)
  | [] => .ok []
  | .error f :: rest => .error (f, [], rest.filterMap Except.toOption)
  | .ok v :: rest =>
    match gather rest with
    | .ok vs => .ok (v :: vs)
    | .error (f, before, after) => .error (f, v :: before, after)

/-- The tasks that give up the handles of values. -/
def dropTasks (values : List HostValue) : List Task :=
  (HostValue.foreignsOf values).map fun f => .release f.handle

/-- The array of elements.  Where one failed, the others are dropped: first those after it,
then those before it. -/
def decodedArray (d : Decoded (List (Except Fault HostValue))) :
    Decoded (Except Fault HostValue) :=
  match gather d.result with
  | .ok vs => ⟨.ok (.array vs), d.tasks, d.next⟩
  | .error (f, before, after) => ⟨.error f, d.tasks ++ dropTasks (after ++ before), d.next⟩

mutual
/-- What comes of a record, given the number of the next lease. -/
def decode (bridge : Nat) (a : Arena Entry) (next : Nat) :
    Record → Decoded (Except Fault HostValue)
  | .plain tag bits length => decodeLeaf bridge a next (.plain tag bits length)
  | .text kind bytes => decodeLeaf bridge a next (.text kind bytes)
  | .array items => decodedArray (decodeItems bridge a next items)

/-- What comes of elements. -/
def decodeItems (bridge : Nat) (a : Arena Entry) (next : Nat) :
    List Record → Decoded (List (Except Fault HostValue))
  | [] => ⟨[], [], next⟩
  | r :: rs =>
    let first := decode bridge a next r
    let others := decodeItems bridge a first.next rs
    ⟨first.result :: others.result, first.tasks ++ others.tasks, others.next⟩
end

/-- A member of a thrown object that was read, and its text, if it was one. -/
structure Heard where
  /-- The thrown object. -/
  thrown : Handle
  /-- The name of the member. -/
  member : String
  /-- Its text. -/
  text : Option String

/-- The text of a record that is a string. -/
def textOf? (r : Record) : Option String :=
  match r.view with
  | .ok (.string s) => some s
  | _ => none

/-- What a member of a thrown object says, unless that is nothing. -/
def heardText? (heard : List Heard) (thrown : Handle) (member : String) : Option String :=
  ((heard.find? fun h => h.thrown = thrown ∧ h.member = member).bind (·.text)).filter (· ≠ "")

/-- The error that a thrown object stands for. -/
def thrownError (heard : List Heard) (thrown : Handle) : ScriptError where
  name := (heardText? heard thrown "name").getD "Error"
  text := (heardText? heard thrown "message").getD "script threw an object without a message"
  stack := heardText? heard thrown "stack"

/-- The error of a fault, once the members of thrown objects have been read. -/
def Fault.error (heard : List Heard) : Fault → BridgeError
  | known e => e
  | thrown h => .script (thrownError heard h)

end ScriptBridge.Bridge
