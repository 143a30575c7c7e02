/-
# Callbacks

While an engine works, script may call the host: the callback finds the entry at a slot,
runs host code on it, and answers with a record.  A failure of host code is kept alive as
an entry of its own, for script to catch.
-/
import ScriptBridge.Engine.Step
import ScriptBridge.Session.Operate
import ScriptBridge.Session.Slots

namespace ScriptBridge.Session

open ScriptBridge.Bridge ScriptBridge.Host ScriptBridge.Wire

/-- Answers a callback with a failure. -/
def refuse (s : Session) (b : Nat) (e : HostError) : Session := s.goto (.respond b (.error e))

/-- Reads a property of an object. -/
def readObject (s : Session) (b : Nat) (o : HostObject) (name : String) : Session :=
  let s := s.updateBridge b (·.describe o.type)
  let d := (s.typeOf o).description
  match d.getter name with
  | some g =>
    if s.isWriting o then s.refuse b (.reentrant o.typeName)
    else (s.push (.getting b o g.fallible)).goto (.act g.action ⟨o, [], .null⟩)
  | none =>
    if d.hasMethod name then
      match s.bridge? b with
      | none => s.finish
      | some br =>
        let (slot, arena) := pin br.arena (.method o name)
        (s.updateBridge b ({ · with arena := arena })).goto
          (.answer b ((slot.map .managed).mapError BridgeError.cause))
    else s.refuse b (.missingMember d.name name)

/-- Reads a property of an entry. -/
def readProperty (s : Session) (b : Nat) (slot : Slot) (name : String) : Session :=
  match s.entryOf? b slot with
  | none => s.refuse b (.invalidSlot slot)
  | some (.object o) => s.readObject b o name
  | some (.method o method) =>
    if name = "name" then s.goto (.respond b (.ok (.string method)))
    else s.refuse b (.missingMember (Entry.method o method).typeName name)
  | some (.error e) =>
    if name = "name" then s.goto (.respond b (.ok (.string e.name)))
    else if name = "message" then s.goto (.respond b (.ok (.string e.message)))
    else s.refuse b (.missingMember (Entry.error e).typeName name)

/-- Assigns a property of an entry.  The value is decoded once there is a setter for it. -/
def writeProperty (s : Session) (b : Nat) (slot : Slot) (name : String) (r : Record) : Session :=
  match s.entryOf? b slot with
  | none => s.refuse b (.invalidSlot slot)
  | some (.object o) =>
    let s := s.updateBridge b (·.describe o.type)
    let d := (s.typeOf o).description
    match d.setter name with
    | some setter => (s.push (.assignee b o setter)).goto (.decode b r)
    | none =>
      s.refuse b (if (d.property name).isSome then .readOnly d.name name
        else .missingMember d.name name)
  | some entry => s.refuse b (.readOnly entry.typeName name)

/-- Calls an entry. -/
def callEntry (s : Session) (b : Nat) (slot : Slot) (r : Record) : Session :=
  match s.entryOf? b slot with
  | none => s.refuse b (.invalidSlot slot)
  | some (.method o name) => (s.push (.callee b o name)).goto (.decode b r)
  | some _ => s.refuse b (.notCallable slot)

/-- Serves a callback. -/
def serve (s : Session) (b : Nat) : Engine.Request → Session
  | .get slot name => (s.record b .getProperty).readProperty b slot name
  | .set slot name r => (s.record b .setProperty).writeProperty b slot name r
  | .invoke slot r => (s.record b .invoke).callEntry b slot r

/-- Runs host code that may change an object, unless the object is in use. -/
def change (s : Session) (b : Nat) (o : HostObject) (frame : Frame) (a : Action) (scene : Scene) :
    Session :=
  if s.isBorrowed o then s.refuse b (.reentrant o.typeName)
  else (s.push frame).goto (.act a scene)

/-- Calls the overload that arguments bind to. -/
def callMethod (s : Session) (b : Nat) (o : HostObject) (name : String) (v : HostValue) : Session :=
  let args := v.asArray.getD [v]
  let s := s.updateBridge b (·.describe o.type)
  match (s.typeOf o).description.resolve name args with
  | .error e => s.refuse b e
  | .ok overload => s.change b o (.calling b o args) overload.body ⟨o, args, .null⟩

/-- Turns the outcome of a callback into a record. -/
def respondStep (s : Session) (b : Nat) (r : Except HostError HostValue) : Session :=
  match r with
  | .error e => s.goto (.answer b (.error e))
  | .ok v =>
    match s.bridge? b with
    | none => s.finish
    | some br =>
      let (r, arena) := encode b br.arena v
      (s.updateBridge b ({ · with arena := arena })).goto
        (.answer b (r.mapError BridgeError.cause))

/-- The record of a failure: the failure itself is kept alive for script, except where a
slot was not valid or none is left. -/
def failureRecord (a : Table.Arena Entry) (e : HostError) : Record × Table.Arena Entry :=
  match e with
  | .invalidSlot _ => (.unknownError (some e.message), a)
  | _ =>
    match pin a (.error e) with
    | (.ok slot, a) => (.managedError slot, a)
    | (.error _, a) => (.unknownError (some e.message), a)

/-- Answers a callback. -/
def answerStep (s : Session) (b : Nat) (r : Except HostError Record) : Session :=
  match s.bridge? b with
  | none => s.finish
  | some br =>
    let (r, arena) := match r with
      | .ok r => (r, br.arena)
      | .error e => failureRecord br.arena e
    (s.updateBridge b fun br =>
      { br with arena := arena, engine := br.engine.map (·.answer r) }).goto (.engine b)

/-! ### The engine -/

/-- Takes the reply of an engine for the frame on top. -/
def takeFinished (s : Session) (b : Nat) (r : Record) : Session :=
  match s.frames with
  | .running _ purpose :: rest => { s with frames := rest }.takeReply b purpose r
  | _ => s.finish

/-- Lets an engine do one step. -/
def engineStep (s : Session) (b : Nat) : Session :=
  match s.engine? b with
  | none => s.finish
  | some e =>
    let (e, event) := e.step
    let s := s.updateBridge b ({ · with engine := some e })
    match event with
    | .silent => s
    | .removed slot => s.removeSlot b slot (.engine b)
    | .request r => s.serve b r
    | .finished r => s.takeFinished b r

end ScriptBridge.Session
