/-
# Commands

What a host program can be told to do, one command after the other, and what it answers.
The result of a command is looked at while the command still keeps its bridge and its
objects; then it is stored in a register or let go.
-/
import ScriptBridge.Session.Step

namespace ScriptBridge.Session

open ScriptBridge.Bridge ScriptBridge.Host ScriptBridge.Script ScriptBridge.Table

/-- What a host program can be told to do. -/
inductive Command where
  /-- Run a script. -/
  | evaluate (script : Expr)
  /-- Read a global. -/
  | getVariable (name : String)
  /-- Assign a global. -/
  | setVariable (name : String) (t : Template)
  /-- Use a member of a script object, through the bridge of the command or through the
  object itself. -/
  | member (direct : Bool) (on : Template) (name : String) (access : Access Template)
  /-- Make the engine collect. -/
  | flush
  /-- Dispose the bridge. -/
  | dispose
  /-- Ask whether the bridge has been disposed. -/
  | isDisposed
  /-- Forget the crossings so far. -/
  | resetCrossings
  /-- Give up the bridge. -/
  | dropBridge
  /-- Make a value. -/
  | make (t : Template)
  /-- Empty a register. -/
  | drop (register : String)
  /-- Look at a value. -/
  | inspect (t : Template)
  /-- Compare two values. -/
  | same (a b : Template)
  /-- Run a script while the host itself uses an object. -/
  | evaluateHolding (script : Expr) (on : Template) (exclusive : Bool)

/-- Whether a command is one for a bridge that the host still has. -/
def Command.needsBridge : Command → Bool
  | member direct .. => direct
  | dropBridge | make _ | drop _ | inspect _ | same .. => false
  | _ => true

/-- What is told about a bridge after a command. -/
structure Stats where
  /-- How full its arena is. -/
  occupancy : Occupancy
  /-- The number of script objects that the host refers to. -/
  handles : Nat
  /-- The number of host types that it has described. -/
  types : Nat
  /-- How often each crossing happened. -/
  tally : Tally

/-- What is told about a bridge. -/
def statsOf (b : Bridge) : Stats :=
  ⟨b.arena.occupancy, b.foreignHandles, b.described.length, b.tally⟩

/-- The answer to a command. -/
inductive Answer where
  /-- The host no longer has the bridge. -/
  | noBridge
  /-- The command is for a kind of value that it was not given. -/
  | noTarget
  /-- The result. -/
  | result (r : Except BridgeError HostValue)
  /-- A value that is to be looked at closely. -/
  | inspection (v : HostValue)
  /-- The result, and whether the host could use the object meanwhile. -/
  | holding (success : Bool) (r : Except BridgeError HostValue)

/-- All that a command gives. -/
structure Report where
  /-- The answer. -/
  answer : Answer
  /-- The identifiers of the objects that were not in exclusive use at that time. -/
  idents : List (HostObject × String)
  /-- What dispose hooks logged, the first entry first. -/
  disposed : List String
  /-- What is told about the bridge, as long as the host has it. -/
  stats : Option Stats

/-- How the outcome of a command becomes its answer. -/
abbrev Form := Except BridgeError HostValue → Answer

/-- The answer that shows a value closely. -/
def inspected : Form
  | .ok v => .inspection v
  | .error e => .result (.error e)

/-- Uses a member of a script object. -/
def startMember (s : Session) (b : Nat) (direct : Bool) (on : Template) (name : String)
    (access : Access Template) : Option (Session × Form) :=
  let (v, s) := s.build on
  match v with
  | .foreign f =>
    let (access, s) := s.buildAccess access
    let s := s.push (.held (access.values ++ [v]))
    let op := Operation.member f name access
    some (if direct then s.goto (.operate b op) else s.gotoMember f op, .result)
  | _ => none

/-- Runs a script while the host itself uses an object, if it can: it knows one type only. -/
def startHolding (s : Session) (b : Nat) (script : Expr) (on : Template) (exclusive : Bool) :
    Option (Session × Form) :=
  let (v, s) := s.build on
  match v with
  | .object o =>
    let op := Control.operate b (.evaluate script)
    if o.type = 0 then some ((s.push (.borrowed o exclusive)).goto op, .holding true)
    else some ((s.push (.held [v])).goto op, .holding false)
  | _ => none

/-- Starts a command. -/
def start (s : Session) (b : Nat) : Command → Option (Session × Form)
  | .evaluate script => some (s.goto (.operate b (.evaluate script)), .result)
  | .getVariable name => some (s.goto (.operate b (.getVariable name)), .result)
  | .setVariable name t =>
    let (v, s) := s.build t
    some (s.goto (.operate b (.setVariable name v)), .result)
  | .member direct on name access => s.startMember b direct on name access
  | .flush => some (s.goto (.operate b .flush), .result)
  | .dispose => some (s.goto (.dispose b), .result)
  | .isDisposed => some (s.give (.bool (s.engine? b).isNone), .result)
  | .resetCrossings => some ((s.updateBridge b ({ · with tally := .zero })).finish, .result)
  | .dropBridge => some ((s.leaveBridge b).finish, .result)
  | .make t => some (giveMade (s.build t), .result)
  | .drop register => some (s.dropRegister register, .result)
  | .inspect t => some (giveMade (s.build t), inspected)
  | .same a b =>
    let (v, s) := s.build a
    let (w, s) := s.build b
    some (s.give (.bool (v.same w)), .result)
  | .evaluateHolding script on exclusive => s.startHolding b script on exclusive

/-- The outcome of what was done last. -/
def outcome (s : Session) : Except BridgeError HostValue :=
  match s.control with
  | .done r => r.mapError Failure.error
  | _ => .ok .null

/-- The identifiers of the objects that are not in exclusive use. -/
def idents (s : Session) : List (HostObject × String) :=
  (s.objects.filter fun st => !s.isWriting st.object).map fun st => (st.object, st.ident)

/-- Ends the wait for a look at the outcome. -/
def resume (s : Session) : Session :=
  match s.frames with
  | .pausing :: rest => { s with frames := rest }
  | _ => s

/-- Keeps a result in a register, if there is one for it, and lets go of it otherwise. -/
def settle (s : Session) (save : Option String) : Session :=
  match save, s.outcome with
  | some name, .ok v => (s.resume.setRegister name v).finish
  | _, _ => s.resume.finish

/-- What is told about a bridge, as long as the host has it. -/
def stats? (s : Session) (b : Nat) : Option Stats :=
  if s.hasBridge b then (s.bridge? b).map statsOf else none

/-- The report without an outcome. -/
def reportOnly (s : Session) (b : Nat) (answer : Answer) : Report × Session :=
  (⟨answer, [], [], s.stats? b⟩, s)

/-- Begins a command with a bridge, unless it is for another kind of value. -/
def begin? (s : Session) (b : Nat) (c : Command) : Option (Session × Form) :=
  let fresh := { s with disposed := [], current := b }
  let kept := if c.needsBridge then fresh.push (.keeping b) else fresh
  (kept.start b c).map fun (started, form) => (fresh.lettingGo (started.push .pausing), form)

/-- Goes on after the look at the outcome of a command. -/
def conclude (s : Session) (save : Option String) : Session := s.lettingGo (s.settle save)

/-- Does a command with a bridge, in so many steps at most. -/
def perform (fuel : Nat) (s : Session) (b : Nat) (c : Command) (save : Option String) :
    Report × Session :=
  if c.needsBridge && !s.hasBridge b then s.reportOnly b .noBridge
  else
    match s.begin? b c with
    | none => s.reportOnly b .noTarget
    | some (begun, form) =>
      let ended := run fuel begun
      let rested := run fuel (ended.conclude save)
      (⟨form ended.outcome, ended.idents, rested.disposed.reverse, rested.stats? b⟩, rested)

/-- A session without objects. -/
def create (types : List HostType) (setups : List Setup) : Except BridgeError Session := do
  let bridges ← setups.mapM Bridge.create
  return { types := types, bridges := bridges }

end ScriptBridge.Session
