/-
# Host values as records

A host value becomes a record by entering every host object in it into the slot arena.
It fails as a whole: the slots handed out before the failure are given up again, and no
object is disposed, since the value still refers to all of them.
-/
import ScriptBridge.Bridge.Entry
import ScriptBridge.Table.Arena
import ScriptBridge.Wire.Build
import ScriptBridge.Wire.Date
import ScriptBridge.Wire.Leaves

namespace ScriptBridge.Bridge

open ScriptBridge.Host ScriptBridge.Table ScriptBridge.Wire

/-- Gives up slots without looking at their entries. -/
def takeAll (a : Arena Entry) (slots : List Slot) : Arena Entry :=
  slots.foldl (fun a s => (a.take s).elim a Prod.snd) a

/-- Enters something and gives its slot. -/
def pin (a : Arena Entry) (entry : Entry) : Except BridgeError Slot × Arena Entry :=
  match a.add entry with
  | some (slot, a) => (.ok slot, a)
  | none => (.error (.interop .arenaExhausted), a)

/-- The handle of a script object, which has to be one of the same bridge. -/
def handleOf (bridge : Nat) (f : ForeignObject) : Except BridgeError Handle :=
  if f.bridge = bridge then .ok f.handle else .error (.interop .foreignBridge)

mutual
/-- The record of a value. -/
def encode (bridge : Nat) (a : Arena Entry) : HostValue → Except BridgeError Record × Arena Entry
  | .null => (.ok .null, a)
  | .bool b => (.ok (.boolean b), a)
  | .int n => (.ok (.integer n), a)
  | .number x => (.ok (.number x), a)
  | .string s => (.ok (.string s), a)
  | .date t => (.ok (.date (Date.ofInstant t)), a)
  | .array items =>
    if Record.maxLength < items.length then
      (.error (.interop (.allocation items.length)), a)
    else
      match encodeItems bridge a [] items with
      | (.ok rs, a) => (.ok (.array rs), a)
      | (.error e, a) => (.error e, a)
  | .object o =>
    match pin a (.object o) with
    | (.ok slot, a) => (.ok (.managed slot), a)
    | (.error e, a) => (.error e, a)
  | .foreign f => ((handleOf bridge f).map .foreign, a)

/-- The records of elements, those done coming last one first.  Where one fails, the slots
of those before it are given up. -/
def encodeItems (bridge : Nat) (a : Arena Entry) (done : List Record) :
    List HostValue → Except BridgeError (List Record) × Arena Entry
  | [] => (.ok done.reverse, a)
  | v :: vs =>
    match encode bridge a v with
    | (.error e, a) => (.error e, takeAll a (Record.slotsOfItems done.reverse))
    | (.ok r, a) => encodeItems bridge a (r :: done) vs
end

end ScriptBridge.Bridge
