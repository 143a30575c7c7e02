/-
# Slots that script let go of

Slots that script lets go of are given up at once outside an operation, and when the
outermost operation has ended otherwise, since a reply may still name them.  Giving up a
slot lets go of its entry; an object that only its entry still refers to is disposed.
Disposing a bridge gives up all of its slots.
-/
import ScriptBridge.Session.State

namespace ScriptBridge.Session

open ScriptBridge.Bridge ScriptBridge.Host ScriptBridge.Wire

/-! ### Removal -/

/-- Gives up a slot and its entry, and then goes on. -/
def unpin (s : Session) (b : Nat) (slot : Slot) (next : Control) : Session :=
  match (s.bridge? b).bind fun br => br.arena.take slot with
  | none => s.goto next
  | some (entry, arena) =>
    ((s.updateBridge b ({ · with arena := arena })).push (.interrupted next)).goto
      (.release [entry])

/-- Script let go of a slot. -/
def removeSlot (s : Session) (b : Nat) (slot : Slot) (next : Control) : Session :=
  let s := s.record b .removeSlot
  if s.inCall b then (s.updateBridge b (·.defer slot)).goto next else s.unpin b slot next

/-- Gives up slots, and then those that were deferred meanwhile. -/
def drainStep (s : Session) (b : Nat) (slots : List Slot) : Session :=
  match slots with
  | slot :: rest => s.unpin b slot (.drain b rest)
  | [] =>
    match (s.bridge? b).elim [] (·.deferred) with
    | [] => s.finish
    | pending => (s.updateBridge b ({ · with deferred := [] })).goto (.drain b pending)

/-- Leaves an operation; leaving the outermost one gives up the slots that were deferred. -/
def leaveScope (s : Session) (b : Nat) (r : Outcome) : Session :=
  if s.inCall b then s.goto (.done r)
  else (s.push (.interrupted (.done r))).goto (.drain b [])

/-- Lets go of entries.  An object that only its entry still refers to is disposed. -/
def releaseStep (s : Session) (entries : List Entry) : Session :=
  match entries with
  | [] => s.finish
  | entry :: rest =>
    let s := s.goto (.release rest)
    match entry.target? with
    | none => s
    | some o =>
      if s.refersTo o then s
      else
        let s := if (s.typeOf o).logged then s.log (s.identOf o) else s
        match (s.typeOf o).hook with
        | none => s
        | some a =>
          ((s.push (.interrupted s.control)).push (.hook o)).goto (.act a ⟨o, [], .null⟩)

/-! ### Disposal -/

/-- Disposes a bridge, unless its engine is at work or has gone. -/
def disposeStep (s : Session) (b : Nat) : Session :=
  if s.isBusy b then s.finish
  else
    match s.engine? b with
    | none => s.finish
    | some e => (s.updateBridge b ({ · with engine := none })).goto (.teardown b e.heldSlots)

/-- Gives up the slots of an engine that was torn down, and then all others. -/
def teardownStep (s : Session) (b : Nat) (slots : List Slot) : Session :=
  match slots with
  | slot :: rest => s.removeSlot b slot (.teardown b rest)
  | [] =>
    match s.bridge? b with
    | none => s.finish
    | some br =>
      let (entries, arena) := br.arena.drain
      ((s.updateBridge b ({ · with arena := arena, deferred := [] })).push
        (.interrupted (.forget b))).goto (.release entries)

end ScriptBridge.Session
