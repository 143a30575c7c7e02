/-
# Sessions

A session is a host program at work: its objects, its registers and its bridges.  Host
code and script call each other to any depth, so all that is still to be done is kept in
one stack of frames.  What a frame or a register holds is referred to; a lease that
nothing refers to any more is given back to its engine, and an object that nothing
refers to any more is forgotten.
-/
import ScriptBridge.Bridge.Basic
import ScriptBridge.Bridge.Decode
import ScriptBridge.Host.Action

namespace ScriptBridge.Session

open ScriptBridge.Bridge ScriptBridge.Host ScriptBridge.Script ScriptBridge.Wire

/-- What is done with a member of a script object. -/
inductive Access (α : Type) where
  /-- It is read. -/
  | get
  /-- It is assigned. -/
  | set (v : α)
  /-- It is called. -/
  | invoke (args : List α)

/-- The values that an access carries. -/
def Access.values {α : Type} : Access α → List α
  | get => []
  | set v => [v]
  | invoke args => args

/-- What a host asks of a bridge. -/
inductive Operation where
  /-- Runs a script. -/
  | evaluate (script : Expr)
  /-- Reads a global. -/
  | getVariable (name : String)
  /-- Assigns a global. -/
  | setVariable (name : String) (v : HostValue)
  /-- Uses a member of a script object. -/
  | member (target : ForeignObject) (name : String) (access : Access HostValue)
  /-- Makes the engine collect. -/
  | flush

/-- The values that an operation carries. -/
def Operation.values : Operation → List HostValue
  | setVariable _ v => [v]
  | member target _ access => .foreign target :: access.values
  | _ => []

/-- How something failed. -/
inductive Failure where
  /-- An operation of a bridge failed. -/
  | operation (e : BridgeError)
  /-- Host code reported a failure. -/
  | host (e : HostError)
  /-- Host code broke off. -/
  | panic (text : String)

/-- The failure as script gets to see it. -/
def Failure.cause : Failure → HostError
  | operation e => e.cause
  | host e => e
  | panic text => .panicked text

/-- The failure as the host gets to see it. -/
def Failure.error : Failure → BridgeError
  | operation e => e
  | host e => .ofHost e
  | panic text => .hostMethod (.panicked text)

/-- A value or a failure. -/
abbrev Outcome := Except Failure HostValue

/-- The values in an outcome. -/
def outcomeValues {ε : Type} : Except ε HostValue → List HostValue
  | .ok v => [v]
  | .error _ => []

/-- What host code works on. -/
structure Scene where
  /-- The receiver. -/
  this : HostObject
  /-- The arguments. -/
  args : List HostValue := []
  /-- The value that is being assigned. -/
  value : HostValue := .null

/-- The values of a scene. -/
def Scene.values (scene : Scene) : List HostValue :=
  .object scene.this :: scene.value :: scene.args

/-- What the reply of an engine is for. -/
inductive Purpose where
  /-- It is the result of an operation. -/
  | value
  /-- It says nothing. -/
  | nothing
  /-- It is a member of a thrown object; what is left to do for the record comes along. -/
  | member (thrown : Handle) (name : String) (tasks : List Task) (heard : List Heard)
      (result : Except Fault HostValue)

/-- The values that a purpose keeps. -/
def Purpose.values : Purpose → List HostValue
  | member _ _ _ _ result => outcomeValues result
  | _ => []

/-- What a session is about to do. -/
inductive Control where
  /-- Give an outcome to the frame on top. -/
  | done (r : Outcome)
  /-- Run host code. -/
  | act (a : Action) (scene : Scene)
  /-- Start an operation of a bridge. -/
  | operate (bridge : Nat) (op : Operation)
  /-- Let an engine go on. -/
  | engine (bridge : Nat)
  /-- Decode a record of an engine. -/
  | decode (bridge : Nat) (r : Record)
  /-- Do what is left to do for a record. -/
  | perform (bridge : Nat) (tasks : List Task) (heard : List Heard)
      (result : Except Fault HostValue)
  /-- Turn the outcome of a callback into a record. -/
  | respond (bridge : Nat) (r : Except HostError HostValue)
  /-- Answer a callback. -/
  | answer (bridge : Nat) (r : Except HostError Record)
  /-- Give up slots, and then those that were deferred meanwhile. -/
  | drain (bridge : Nat) (slots : List Slot)
  /-- Let go of entries. -/
  | release (entries : List Entry)
  /-- Dispose a bridge. -/
  | dispose (bridge : Nat)
  /-- Give up the slots that an engine held when it was torn down. -/
  | teardown (bridge : Nat) (slots : List Slot)
  /-- Forget the host types that a bridge has described. -/
  | forget (bridge : Nat)
  /-- Let go of values, one after the other. -/
  | drop (values : List HostValue)

namespace Control

/-- The end of something that has no result. -/
def finished : Control := .done (.ok .null)

/-- The values that are about to be used. -/
def values : Control → List HostValue
  | done r => outcomeValues r
  | act _ scene => scene.values
  | operate _ op => op.values
  | perform _ _ _ result => outcomeValues result
  | respond _ r => outcomeValues r
  | release entries => (entries.filterMap Entry.target?).map .object
  | drop vs => vs
  | _ => []

/-- The bridge that is about to be used. -/
def bridge? : Control → Option Nat
  | operate b _ => some b
  | engine b => some b
  | decode b _ => some b
  | perform b _ _ _ => some b
  | respond b _ => some b
  | answer b _ => some b
  | drain b _ => some b
  | dispose b => some b
  | teardown b _ => some b
  | forget b => some b
  | _ => none

end Control

/-- What is still to be done. -/
inductive Frame where
  /-- Go on with something else, whatever the outcome. -/
  | interrupted (c : Control)
  /-- Keep values alive. -/
  | held (values : List HostValue)
  /-- Wait until the outcome of a command has been looked at. -/
  | pausing
  /-- Keep a bridge. -/
  | keeping (bridge : Nat)
  /-- Leave an operation of a bridge. -/
  | scope (bridge : Nat)
  /-- Take the reply of an engine. -/
  | running (bridge : Nat) (purpose : Purpose)
  /-- Report a failed operation as a failure of host code. -/
  | reporting
  /-- Take what a getter gave. -/
  | getting (bridge : Nat) (o : HostObject) (fallible : Bool)
  /-- Assign the value that is being decoded. -/
  | assignee (bridge : Nat) (o : HostObject) (setter : Action)
  /-- Take what a setter gave. -/
  | setting (bridge : Nat) (o : HostObject) (v : HostValue)
  /-- Call a method with the arguments that are being decoded. -/
  | callee (bridge : Nat) (o : HostObject) (name : String)
  /-- Take what a method gave. -/
  | calling (bridge : Nat) (o : HostObject) (args : List HostValue)
  /-- Take what a dispose hook gave. -/
  | hook (o : HostObject)
  /-- End the host's own use of an object. -/
  | borrowed (o : HostObject) (exclusive : Bool)
  /-- Do the other actions; what the last one gave is kept until the next one has ended. -/
  | sequence (rest : List Action) (last : HostValue) (scene : Scene)
  /-- Do the other actions and gather the results; those so far come last one first. -/
  | listing (rest : List Action) (results : List HostValue) (scene : Scene)
  /-- Give a text instead of a failure. -/
  | attempting

namespace Frame

/-- The values that a frame refers to, in the order in which it lets go of them. -/
def values : Frame → List HostValue
  | interrupted c => c.values
  | held vs => vs
  | running _ purpose => purpose.values
  | getting _ o _ => [.object o]
  | assignee _ o _ => [.object o]
  | setting _ o v => [v, .object o]
  | callee _ o _ => [.object o]
  | calling _ o args => args ++ [.object o]
  | hook o => [.object o]
  | borrowed o _ => [.object o]
  | sequence _ last scene => last :: scene.values
  | listing _ results scene => results.reverse ++ scene.values
  | _ => []

/-- The bridge that a frame uses. -/
def bridge? : Frame → Option Nat
  | interrupted c => c.bridge?
  | keeping b => some b
  | scope b => some b
  | running b _ => some b
  | getting b _ _ => some b
  | assignee b _ _ => some b
  | setting b _ _ => some b
  | callee b _ _ => some b
  | calling b _ _ => some b
  | _ => none

/-- Whether a frame is inside an operation of a bridge. -/
def isScope (b : Nat) : Frame → Bool
  | scope c => c == b
  | _ => false

/-- Whether a frame waits for the engine of a bridge. -/
def isRunning (b : Nat) : Frame → Bool
  | running c _ => c == b
  | _ => false

/-- Whether a frame keeps a bridge. -/
def isKeeping (b : Nat) : Frame → Bool
  | keeping c => c == b
  | _ => false

/-- Whether host code that a frame waits for may change an object. -/
def isWriting (o : HostObject) : Frame → Bool
  | setting _ p _ => p.same o
  | calling _ p _ => p.same o
  | hook p => p.same o
  | borrowed p exclusive => exclusive && p.same o
  | _ => false

/-- Whether host code that a frame waits for may look at an object. -/
def isReading (o : HostObject) : Frame → Bool
  | getting _ p _ => p.same o
  | borrowed p exclusive => !exclusive && p.same o
  | _ => false

end Frame

/-- The state of a host object. -/
structure HostState where
  /-- Which object. -/
  object : HostObject
  /-- Its identifier. -/
  ident : String
  /-- Its fields. -/
  fields : List (String × HostValue)

end ScriptBridge.Session

namespace ScriptBridge

open ScriptBridge.Bridge ScriptBridge.Host ScriptBridge.Session ScriptBridge.Wire

/-- A host program with its bridges. -/
structure Session where
  /-- The host types that are described. -/
  types : List HostType
  /-- The bridges. -/
  bridges : List Bridge
  /-- The bridge that host code uses. -/
  current : Nat := 0
  /-- The host objects that something refers to. -/
  objects : List HostState := []
  /-- The number of the next host object. -/
  nextObject : Nat := 0
  /-- The leases that something refers to. -/
  leases : List ForeignObject := []
  /-- The number of the next lease. -/
  nextLease : Nat := 0
  /-- The values that the program keeps, by name. -/
  registers : List (String × HostValue) := []
  /-- What dispose hooks have logged, the last entry first. -/
  disposed : List String := []
  /-- What is still to be done. -/
  frames : List Frame := []
  /-- What is about to be done. -/
  control : Control := .finished

namespace Session

/-- Goes on with something else. -/
def goto (s : Session) (c : Control) : Session := { s with control := c }

/-- Puts a frame on the stack. -/
def push (s : Session) (f : Frame) : Session := { s with frames := f :: s.frames }

/-- Gives a value to the frame on top. -/
def give (s : Session) (v : HostValue) : Session := s.goto (.done (.ok v))

/-- Ends something that has no result. -/
def finish (s : Session) : Session := s.goto .finished

/-- Ends an operation with an error. -/
def fail (s : Session) (e : BridgeError) : Session := s.goto (.done (.error (.operation e)))

/-- Ends host code with a failure. -/
def throw (s : Session) (e : HostError) : Session := s.goto (.done (.error (.host e)))

/-- Goes on with something else before what was about to be done. -/
def interrupt (s : Session) (c : Control) : Session := (s.push (.interrupted s.control)).goto c

/-- A bridge by its number. -/
def bridge? (s : Session) (b : Nat) : Option Bridge := s.bridges[b]?

/-- Changes a bridge. -/
def updateBridge (s : Session) (b : Nat) (f : Bridge → Bridge) : Session :=
  { s with bridges := s.bridges.modify b f }

/-- Counts a crossing. -/
def record (s : Session) (b : Nat) (c : Crossing) : Session := s.updateBridge b (·.record c)

/-- The engine of a bridge that has not been disposed. -/
def engine? (s : Session) (b : Nat) : Option Engine := (s.bridge? b).bind (·.engine)

/-- The entry at a slot of a bridge. -/
def entryOf? (s : Session) (b : Nat) (slot : Slot) : Option Entry :=
  (s.bridge? b).bind (·.arena.get? slot)

/-- Whether a bridge is inside an operation. -/
def inCall (s : Session) (b : Nat) : Bool := s.frames.any (Frame.isScope b)

/-- Whether the engine of a bridge is at work. -/
def isBusy (s : Session) (b : Nat) : Bool := s.frames.any (Frame.isRunning b)

/-- Whether a bridge is at a stage. -/
def isAt (s : Session) (b : Nat) (stage : Bridge.Stage) : Bool :=
  (s.bridge? b).any fun br => decide (br.stage = stage)

/-- Goes on with an operation through a script object itself, which fails when its bridge
has gone. -/
def gotoMember (s : Session) (f : ForeignObject) (op : Operation) : Session :=
  if s.isAt f.bridge .gone then s.fail (.interop .disposed) else s.goto (.operate f.bridge op)

/-- Whether host code that is running may change an object. -/
def isWriting (s : Session) (o : HostObject) : Bool := s.frames.any (Frame.isWriting o)

/-- Whether host code that is running may look at an object or change it. -/
def isBorrowed (s : Session) (o : HostObject) : Bool :=
  s.isWriting o || s.frames.any (Frame.isReading o)

/-- The type of an object. -/
def typeOf (s : Session) (o : HostObject) : HostType := .ofNumber s.types o.type

/-- The state of an object. -/
def state? (s : Session) (o : HostObject) : Option HostState :=
  s.objects.find? fun st => st.object.same o

/-- The identifier of an object. -/
def identOf (s : Session) (o : HostObject) : String := (s.state? o).elim "" (·.ident)

/-- Changes the fields of an object. -/
def updateFields (s : Session) (o : HostObject)
    (f : List (String × HostValue) → List (String × HostValue)) : Session :=
  { s with objects := s.objects.map fun st =>
      if st.object.same o then { st with fields := f st.fields } else st }

/-- Logs that something was disposed. -/
def log (s : Session) (text : String) : Session := { s with disposed := text :: s.disposed }

/-- The host objects that the arena of a bridge refers to. -/
def arenaValues (b : Bridge) : List HostValue :=
  (b.arena.values.filterMap Entry.target?).map .object

/-- All values that something refers to, once for each reference. -/
def values (s : Session) : List HostValue :=
  s.control.values ++ s.frames.flatMap Frame.values ++ s.registers.map Prod.snd ++
    s.objects.flatMap (fun st => st.fields.map Prod.snd) ++ s.bridges.flatMap arenaValues

/-- Whether something refers to an object. -/
def refersTo (s : Session) (o : HostObject) : Bool :=
  (HostValue.objectsOf s.values).any fun p => p.same o

/-- A lease that nothing refers to any more. -/
def deadLease? (s : Session) : Option ForeignObject :=
  let shares := HostValue.foreignsOf s.values
  s.leases.find? fun f => !shares.any fun g => g.lease == f.lease

/-- An object that nothing refers to any more. -/
def deadObject? (s : Session) : Option HostState :=
  let references := HostValue.objectsOf s.values
  s.objects.find? fun st => !references.any fun p => p.same st.object

/-- Whether a reference is to the same object or lease as one of some others. -/
def isAmong (references : List HostValue) : HostValue → Bool
  | .object o => references.any fun v => v.asObject.any o.same
  | .foreign f => references.any fun v => v.asForeign.any fun g => f.lease == g.lease
  | _ => true

/-- Lets go of what was referred to before a change and is not any more, one reference
after the other, unless an engine is to go on. -/
def lettingGo (before s : Session) : Session :=
  let kept := HostValue.referencesOf s.values
  match s.control, (HostValue.referencesOf before.values).filter fun v => !isAmong kept v with
  | .engine _, _ => s
  | _, [] => s
  | _, [_] => s
  | _, lost => s.interrupt (.drop lost)

/-- Whether something that is still to be done uses a bridge. -/
def uses (s : Session) (b : Nat) : Bool :=
  decide (s.control.bridge? = some b) || s.frames.any fun f => decide (f.bridge? = some b)

end Session

end ScriptBridge
