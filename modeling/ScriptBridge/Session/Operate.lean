/-
# Operations

An operation of a bridge encodes the values it is given, lets the engine work, and decodes
the reply.  What a record leaves to the engine is done in order before its value is given.
-/
import ScriptBridge.Bridge.Encode
import ScriptBridge.Session.State

namespace ScriptBridge.Session

open ScriptBridge.Bridge ScriptBridge.Host ScriptBridge.Wire

/-! ### Starting -/

/-- The error of an empty name. -/
def emptyName : BridgeError := .invalidArgument "name" "must not be empty"

/-- Lets an engine start an operation. -/
def startEngine (s : Session) (b : Nat) (purpose : Purpose) (e : Engine) (op : Engine.Operation) :
    Session :=
  ((s.updateBridge b ({ · with engine := some (e.enter op) })).push (.running b purpose)).goto
    (.engine b)

/-- Starts an operation that sends no value. -/
def call (s : Session) (b : Nat) (c : Crossing) (op : Engine.Operation) : Session :=
  let s := (s.record b c).push (.scope b)
  match s.engine? b with
  | none => s.fail (.interop .disposed)
  | some e => s.startEngine b .value e op

/-- Starts an operation that sends a value. -/
def exchange (s : Session) (b : Nat) (c : Crossing) (v : HostValue)
    (op : Record → Engine.Operation) : Session :=
  let s := (s.record b c).push (.scope b)
  match s.bridge? b with
  | none => s.fail (.interop .disposed)
  | some br =>
    match br.engine with
    | none => s.fail (.interop .disposed)
    | some e =>
      match encode b br.arena v with
      | (.error err, arena) => (s.updateBridge b ({ · with arena := arena })).fail err
      | (.ok r, arena) =>
        (s.updateBridge b ({ · with arena := arena })).startEngine b .value e (op r)

/-- Uses a member of a script object. -/
def useHandle (s : Session) (b : Nat) (h : Handle) (name : String) : Access HostValue → Session
  | .get => s.call b .getMember (.getMember h name)
  | .set v => s.exchange b .setMember v (.setMember h name)
  | .invoke args => s.exchange b .invokeMember (.array args) (.invokeMember h name)

/-- Starts an operation.  The values it is given live until it has ended. -/
def operateStep (s : Session) (b : Nat) (op : Operation) : Session :=
  match op with
  | .evaluate script => s.call b .evaluate (.run script)
  | .getVariable name =>
    if name = "" then s.fail emptyName else s.call b .getGlobal (.getGlobal name)
  | .setVariable name v =>
    if name = "" then s.fail emptyName
    else (s.push (.held [v])).exchange b .setGlobal v (.setGlobal name)
  | .member target name access =>
    if name = "" then s.fail emptyName
    else
      match handleOf b target with
      | .error e => s.fail e
      | .ok h => (s.push (.held (access.values ++ [.foreign target]))).useHandle b h name access
  | .flush =>
    let s := s.push (.scope b)
    match s.engine? b with
    | none => s.fail (.interop .disposed)
    | some e => s.startEngine b .nothing e .collect

/-! ### Replies -/

/-- Decodes a record of an engine. -/
def decodeStep (s : Session) (b : Nat) (r : Record) : Session :=
  match s.bridge? b with
  | none => s.finish
  | some br =>
    let d := decode b br.arena s.nextLease r
    { s with nextLease := d.next, control := .perform b d.tasks [] d.result }

/-- Does what is left to do for a record, and then gives its value. -/
def performStep (s : Session) (b : Nat) (tasks : List Task) (heard : List Heard)
    (result : Except Fault HostValue) : Session :=
  match tasks with
  | [] =>
    match result with
    | .ok v => { s with leases := s.leases ++ v.foreigns, control := .done (.ok v) }
    | .error f => s.fail (f.error heard)
  | .release h :: rest =>
    match s.engine? b with
    | none => s.goto (.perform b rest heard result)
    | some e =>
      (s.push (.interrupted (.perform b rest heard result))).startEngine b .nothing e (.release h)
  | .read h name :: rest =>
    match s.engine? b with
    | none => s.goto (.perform b rest (heard ++ [⟨h, name, none⟩]) result)
    | some e => s.startEngine b (.member h name rest heard result) e (.getMember h name)

/-- Takes the reply of an engine.  The handles in what a member of a thrown object gave are
given up. -/
def takeReply (s : Session) (b : Nat) (purpose : Purpose) (r : Record) : Session :=
  match purpose with
  | .value => s.goto (.decode b r)
  | .nothing => s.finish
  | .member h name tasks heard result =>
    s.goto (.perform b (r.handles.map .release ++ tasks) (heard ++ [⟨h, name, textOf? r⟩])
      result)

end ScriptBridge.Session
