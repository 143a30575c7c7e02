/-
# Host code at work

What one action does to a session.  An action that uses a bridge uses the one of the
current step, which it keeps while the operation lasts; the error of an operation
becomes a failure of the host code with the same cause.
-/
import ScriptBridge.Session.State

namespace ScriptBridge.Session

open ScriptBridge.Bridge ScriptBridge.Host ScriptBridge.Number ScriptBridge.Script

/-- Enters an object. -/
def allocate (s : Session) (type : Nat) (ident : String) (fields : List (String × HostValue)) :
    HostValue × Session :=
  let o : HostObject :=
    ⟨s.nextObject, HostType.number type, (HostType.ofNumber s.types type).name⟩
  (.object o, { s with
    objects := s.objects ++ [⟨o, ident, fields⟩]
    nextObject := s.nextObject + 1 })

mutual
/-- Makes a value after a recipe. -/
def build (s : Session) : Template → HostValue × Session
  | .plain v _ => (v, s)
  | .array ts =>
    let (vs, s) := buildItems s ts
    (.array vs, s)
  | .fresh type ident fields =>
    let (fs, s) := buildFields s fields
    s.allocate type ident fs
  | .register name => ((s.registers.lookup name).getD .null, s)

/-- Makes elements. -/
def buildItems (s : Session) : List Template → List HostValue × Session
  | [] => ([], s)
  | t :: ts =>
    let (v, s) := build s t
    let (vs, s) := buildItems s ts
    (v :: vs, s)

/-- Makes fields. -/
def buildFields (s : Session) : List (String × Template) → List (String × HostValue) × Session
  | [] => ([], s)
  | (name, t) :: rest =>
    let (v, s) := build s t
    let (fs, s) := buildFields s rest
    ((name, v) :: fs, s)
end

/-- Makes the values of an access. -/
def buildAccess (s : Session) : Access Template → Access HostValue × Session
  | .get => (.get, s)
  | .set t =>
    let (v, s) := s.build t
    (.set v, s)
  | .invoke ts =>
    let (vs, s) := s.buildItems ts
    (.invoke vs, s)

/-- Gives a value that was just made. -/
def giveMade (made : HostValue × Session) : Session := made.2.give made.1

/-- Whether something is entered under a name. -/
def isSet {α : Type} (entries : List (String × α)) (name : String) : Bool :=
  (entries.lookup name).isSome

/-- Enters a value under a name. -/
def put {α : Type} (entries : List (String × α)) (name : String) (a : α) :
    List (String × α) :=
  alter name a (fun _ => a) entries

/-- Removes what is entered under a name. -/
def erase {α : Type} (entries : List (String × α)) (name : String) : List (String × α) :=
  entries.filter fun e => e.1 ≠ name

/-- Keeps a value under a name. -/
def setRegister (s : Session) (name : String) (v : HostValue) : Session :=
  { s with registers := put s.registers name v }

/-- Empties a register, and gives whether it held something. -/
def dropRegister (s : Session) (name : String) : Session :=
  { s with
    registers := erase s.registers name
    control := .done (.ok (.bool (isSet s.registers name))) }

/-- Whether the host has a bridge. -/
def hasBridge (s : Session) (b : Nat) : Bool := s.isAt b .kept

/-- Gives up a bridge. -/
def leaveBridge (s : Session) (b : Nat) : Session :=
  if s.hasBridge b then s.updateBridge b fun br => { br with stage := .leaving } else s

/-- Does something with the bridge of the current step, which host code may have given up. -/
def withBridge (s : Session) (next : Session → Nat → Session) : Session :=
  if s.hasBridge s.current then next s s.current else s.throw (.thrown "driver: no bridge")

/-- Starts an operation for host code. -/
def operateHere (s : Session) (op : Operation) : Session :=
  s.withBridge fun s b => ((s.push .reporting).push (.keeping b)).goto (.operate b op)

/-- Goes on with a value, or ends host code. -/
def withResult {α : Type} (s : Session) (r : Except HostError α) (next : α → Session) :
    Session :=
  match r with
  | .ok a => next a
  | .error e => s.throw e

/-- Uses a member of a script object for host code. -/
def useMember (s : Session) (scene : Scene) (position : Nat) (name : String)
    (access : Access Template) : Session :=
  s.withResult ((Args.mk scene.args).foreign position) fun f =>
    let (access, s) := s.buildAccess access
    (s.push .reporting).gotoMember f (.member f name access)

/-- The value for a field of a kind. -/
def storedValue (v : HostValue) : Param → Except HostError HostValue
  | .bool => .bool <$> v.toBool
  | .int => .int <$> v.toInt
  | .number => .number <$> v.toNumber
  | .string => .string <$> v.toStr
  | _ => .ok v

/-- Enters a value in a field of an object. -/
def storeField (s : Session) (o : HostObject) (name : String) (v : HostValue) : Session :=
  s.updateFields o fun fields => put fields name v

/-- The fields of an object. -/
def fieldsOf (s : Session) (o : HostObject) : List (String × HostValue) :=
  (s.state? o).elim [] (·.fields)

/-- A payload that is no text as host code shows it. -/
def panicText (payload : Option String) : String := payload.getD "non-string panic payload"

/-- Does the first of some actions, or ends when there is none. -/
def actFirst (s : Session) (actions : List Action) (scene : Scene) (none : Session)
    (frame : List Action → Frame) : Session :=
  match actions with
  | [] => none
  | a :: rest => (s.push (frame rest)).goto (.act a scene)

/-- Does one action. -/
def actStep (s : Session) (a : Action) (scene : Scene) : Session :=
  match a with
  | .const t => giveMade (s.build t)
  | .throw text => s.throw (.thrown text)
  | .panic payload => s.goto (.done (.error (.panic (panicText payload))))
  | .eval script => s.operateHere (.evaluate script)
  | .getVariable name => s.operateHere (.getVariable name)
  | .setVariable name t =>
    let (v, s) := s.build t
    s.operateHere (.setVariable name v)
  | .flush => s.operateHere .flush
  | .dispose => s.withBridge fun s b => (s.push (.keeping b)).goto (.dispose b)
  | .isDisposed => s.withBridge fun s b => s.give (.bool (s.engine? b).isNone)
  | .used => s.withBridge fun s b =>
      s.give (.ofWide ((s.bridge? b).elim 0 fun br => br.arena.occupancy.used))
  | .drop register => s.dropRegister register
  | .dropBridge => (s.leaveBridge s.current).give (.bool (s.hasBridge s.current))
  | .field name => s.give (((s.fieldsOf scene.this).lookup name).getD .null)
  | .ident => s.give (.string (s.identOf scene.this))
  | .storeValue field kind =>
    s.withResult (storedValue scene.value kind) fun v => (s.storeField scene.this field v).finish
  | .sink => s.finish
  | .echo => s.give (.array scene.args)
  | .label text => s.give (.string text)
  | .arity => s.give (.array [.ofWide scene.args.length, .bool scene.args.isEmpty])
  | .arg kind position => s.withResult ((Args.mk scene.args).get position kind) s.give
  | .store field kind position =>
    s.withResult ((Args.mk scene.args).get position kind) fun v =>
      (s.storeField scene.this field v).finish
  | .forget field =>
    (s.updateFields scene.this fun fields => erase fields field).give
      (.bool (isSet (s.fieldsOf scene.this) field))
  | .save register position =>
    s.withResult ((Args.mk scene.args).value position) fun v =>
      (s.setRegister register v).give (.bool (isSet s.registers register))
  | .invoke position name args => s.useMember scene position name (.invoke args)
  | .get position name => s.useMember scene position name .get
  | .set position name t => s.useMember scene position name (.set t)
  | .seq actions => s.actFirst actions scene s.finish fun rest => .sequence rest .null scene
  | .list actions =>
    s.actFirst actions scene (s.give (.array [])) fun rest => .listing rest [] scene
  | .attempt action => (s.push .attempting).goto (.act action scene)

end ScriptBridge.Session
