/-
# The state of an engine

An engine runs one script at a time, but that script may call the host, which may
enter the engine again.  Everything that is still to be done is therefore kept in one
stack of frames.  What a frame holds stays alive: an object goes away when no frame,
no other object and no handle refers to it.  A stand-in for a host entry keeps a token,
and a token that goes away gives the slot back.
-/
import ScriptBridge.Engine.Pending
import ScriptBridge.Script.Intrinsic
import ScriptBridge.Table.Handles
import ScriptBridge.Wire.Build
import ScriptBridge.Wire.Leaves

namespace ScriptBridge.Engine

open ScriptBridge.Number ScriptBridge.Script ScriptBridge.Table ScriptBridge.Wire

/-- What the names of a script stand for while a function runs. -/
structure Env where
  /-- The receiver. -/
  this : Value
  /-- The arguments. -/
  args : List Value
  /-- The exception of the handler that runs, if any. -/
  caught : Option Value := none

/-- The places that an environment refers to. -/
def Env.refs (env : Env) : List Ref :=
  env.this.refs ++ env.args.flatMap Value.refs ++ (env.caught.toList.flatMap Value.refs)

/-- What the host asks of an engine. -/
inductive Operation where
  /-- Runs a script. -/
  | run (script : Expr)
  /-- Reads a global. -/
  | getGlobal (name : String)
  /-- Assigns a global. -/
  | setGlobal (name : String) (value : Record)
  /-- Reads a member of a script object. -/
  | getMember (target : Handle) (name : String)
  /-- Assigns a member of a script object. -/
  | setMember (target : Handle) (name : String) (value : Record)
  /-- Calls a member of a script object. -/
  | invokeMember (target : Handle) (name : String) (args : Record)
  /-- Gives up a handle. -/
  | release (handle : Handle)
  /-- Finds and forgets all that cannot be reached. -/
  | collect

/-- A call that script makes into the host, before its value is known. -/
inductive Call where
  /-- Assigns a property of a host entry. -/
  | set (slot : Slot) (name : String)
  /-- Calls a host entry. -/
  | invoke (slot : Slot)
  deriving DecidableEq, Repr

/-- What an engine asks of the host. -/
inductive Request where
  /-- Reads a property of a host entry. -/
  | get (slot : Slot) (name : String)
  /-- Assigns a property of a host entry. -/
  | set (slot : Slot) (name : String) (value : Record)
  /-- Calls a host entry. -/
  | invoke (slot : Slot) (args : Record)

/-- The request of a call once its value is known. -/
def Call.request (call : Call) (value : Record) : Request :=
  match call with
  | .set slot name => .set slot name value
  | .invoke slot => .invoke slot value

/-- What an engine is about to do. -/
inductive Control where
  /-- Nothing: no operation is running, or the host is to answer. -/
  | idle
  /-- Start an operation. -/
  | begin (op : Operation)
  /-- Evaluate a script. -/
  | eval (e : Expr) (env : Env)
  /-- Give a value to the frame on top. -/
  | ret (v : Value)
  /-- Look for a handler. -/
  | throw (v : Value)
  /-- Read a property. -/
  | read (target : Value) (key : Key)
  /-- Write a property. -/
  | write (target : Value) (key : Key) (v : Value)
  /-- Call a function. -/
  | call (f this : Value) (args : List Value)
  /-- Turn a value into a record, so many arrays deep. -/
  | encode (v : Value) (depth : Nat)
  /-- Give a record to the frame on top. -/
  | encoded (r : Record)
  /-- Give up turning a value into a record. -/
  | refuse (text : String)
  /-- Send a request to the host. -/
  | ask (request : Request)
  /-- Take the host's answer. -/
  | reply (r : Record)
  /-- Turn a record into a value. -/
  | convert (r : Record)

namespace Control

/-- The places that what is to be done refers to. -/
def refs : Control → List Ref
  | eval _ env => env.refs
  | ret v => v.refs
  | throw v => v.refs
  | read target _ => target.refs
  | write target _ v => target.refs ++ v.refs
  | call f this args => f.refs ++ this.refs ++ args.flatMap Value.refs
  | encode v _ => v.refs
  | _ => []

end Control

/-- What is still to be done with a value or a record. -/
inductive Frame where
  /-- Evaluate the other operands; those evaluated come last one first. -/
  | operands (op : Op) (done : List Value) (rest : List Expr) (env : Env)
  /-- Evaluate the other parts. -/
  | parts (rest : List Expr) (env : Env)
  /-- Choose a branch. -/
  | branch (yes no : Expr) (env : Env)
  /-- Pass a value on; an exception goes to the handler. -/
  | guard (handler : Expr) (env : Env)
  /-- Read a member of a value in order to call it. -/
  | member (name : String) (args : List Expr) (env : Env)
  /-- Evaluate the arguments for a member of a receiver. -/
  | method (this : Value) (args : List Expr) (env : Env)
  /-- Give the object that a value is an accessor pair for. -/
  | define (key : Key) (body : Expr) (isSetter : Bool) (env : Env)
  /-- Keep values alive, and pass on what comes. -/
  | hold (values : List Value)
  /-- Leave a function, whose call keeps it alive, its receiver and its arguments. -/
  | call (values : List Value)
  /-- Give an assigned value instead of what comes. -/
  | assigned (v : Value)
  /-- Do what waits for a value. -/
  | pending (work : Pending)
  /-- Turn the other elements of a record into values of an array. -/
  | items (array : Ref) (index : Nat) (rest : List Record)
  /-- Go on with the other elements once one has been entered in the array. -/
  | placed (array : Ref) (index : Nat) (rest : List Record)
  /-- Assign a global for the host. -/
  | assignGlobal (name : String)
  /-- Assign a member of a script object for the host. -/
  | assignMember (target : Handle) (name : String)
  /-- Take the arguments for a member of a script object. -/
  | spread (target : Handle) (name : String)
  /-- Read the other arguments for a member of a script object; those read come last one
  first. -/
  | arguments (target : Handle) (name : String) (array : Ref) (count : Nat) (done : List Value)
  /-- Call a member of a script object for the host. -/
  | invocation (target : Value) (name : String) (args : List Value)
  /-- Turn the other elements of an array into records. -/
  | elements (array : Ref) (depth length index : Nat) (done : List Record)
  /-- Call the member of a date that gives its time. -/
  | timeMember (date : Value)
  /-- Take the time of a date. -/
  | time (date : Value)
  /-- Send a call to the host once its value is a record; the result, if known, is for later. -/
  | sending (call : Call) (result : Option Value) (held : List Value)
  /-- Turn the host's answer into a value. -/
  | awaiting (result : Option Value) (held : List Value)
  /-- Pass the host's answer on, or the result that is known already; an error is thrown. -/
  | accepting (isError : Bool) (result : Option Value) (held : List Value)
  /-- Give the text of an exception that the host cannot get hold of, which is kept alive. -/
  | printing (thrown : Value)
  /-- Turn the outcome of an operation into a record. -/
  | settle
  /-- Turn success of an operation into a null record. -/
  | settleUnit
  /-- End an operation and go on with what it interrupted. -/
  | entry (interrupted : Control)

namespace Frame

/-- The places that a frame refers to. -/
def refs : Frame → List Ref
  | operands _ done _ env => done.flatMap Value.refs ++ env.refs
  | parts _ env => env.refs
  | branch _ _ env => env.refs
  | guard _ env => env.refs
  | member _ _ env => env.refs
  | method this _ env => this.refs ++ env.refs
  | define _ _ _ env => env.refs
  | hold values => values.flatMap Value.refs
  | call values => values.flatMap Value.refs
  | assigned v => v.refs
  | pending work => work.refs
  | items array _ _ => [array]
  | placed array _ _ => [array]
  | assignGlobal _ => []
  | assignMember _ _ => []
  | spread _ _ => []
  | arguments _ _ array _ done => array :: done.flatMap Value.refs
  | invocation target _ args => target.refs ++ args.flatMap Value.refs
  | elements array _ _ _ _ => [array]
  | timeMember date => date.refs
  | time date => date.refs
  | sending _ result held => result.toList.flatMap Value.refs ++ held.flatMap Value.refs
  | awaiting result held => result.toList.flatMap Value.refs ++ held.flatMap Value.refs
  | accepting _ result held => result.toList.flatMap Value.refs ++ held.flatMap Value.refs
  | printing thrown => thrown.refs
  | settle => []
  | settleUnit => []
  | entry interrupted => interrupted.refs

/-- Whether a frame is one of a call, of a function or into the host. -/
def isCall : Frame → Bool
  | call _ | awaiting .. | entry _ => true
  | _ => false

end Frame

/-- What happened in a step of an engine. -/
inductive Event where
  /-- Nothing that concerns the host. -/
  | silent
  /-- Script let go of a slot. -/
  | removed (slot : Slot)
  /-- Script calls the host. -/
  | request (r : Request)
  /-- An operation has ended. -/
  | finished (reply : Record)

end ScriptBridge.Engine

namespace ScriptBridge

open ScriptBridge.Engine ScriptBridge.Script ScriptBridge.Table ScriptBridge.Wire

/-- A script engine. -/
structure Engine where
  /-- The objects of script. -/
  heap : Heap
  /-- The objects that the host refers to. -/
  handles : Handles Ref
  /-- What is still to be done. -/
  stack : List Frame
  /-- What is about to be done. -/
  control : Control
  /-- Slots that script has let go of and that are still to be reported. -/
  released : List Slot
  /-- Whether the host still listens. -/
  connected : Bool
  /-- Arrays nested deeper than this reach the host as an error. -/
  maxDepth : Nat
  /-- Arrays longer than this reach the host as an error. -/
  maxLength : Nat
  /-- How many calls may be nested, if there is a limit. -/
  maxCalls : Option Nat

namespace Engine

/-- An engine that has run nothing yet. -/
def start (maxDepth maxLength : Nat) (maxCalls : Option Nat) : Engine where
  heap := .initial
  handles := .empty
  stack := []
  control := .idle
  released := []
  connected := true
  maxDepth := maxDepth
  maxLength := maxLength
  maxCalls := maxCalls

/-- The places that frames, handles and what is about to be done refer to. -/
def roots (e : Engine) : List Ref :=
  e.control.refs ++ e.stack.flatMap Frame.refs ++ e.handles.values

/-- The object of the global names. -/
def globalObject : Value := .object Intrinsic.global

/-- Whether an object is one of those that are always there. -/
def isIntrinsic (r : Ref) : Bool := decide (r < Intrinsic.count)

/-- Whether something refers to an object, given what the objects refer to. -/
def isReferenced (e : Engine) (heapRefs : List Ref) (r : Ref) : Bool :=
  e.control.refs.contains r || heapRefs.contains r || e.handles.values.contains r ||
    e.stack.any fun f => f.refs.contains r

/-- An object that nothing refers to any more. -/
def unreferenced? (e : Engine) : Option (Ref × Object) :=
  let heapRefs := e.heap.refs
  e.heap.objects.find? fun (r, _) => !isIntrinsic r && !e.isReferenced heapRefs r

/-- The objects that cannot be reached. -/
def unreachable (e : Engine) : List (Ref × Object) :=
  let reached := e.heap.reachable (List.range Intrinsic.count ++ e.roots)
  e.heap.objects.filter fun (r, _) => !reached.contains r

/-- The slots of the tokens among some objects. -/
def slotsOf (objects : List (Ref × Object)) : List Slot :=
  objects.filterMap fun (_, o) => o.slot?

/-- The slots of all tokens. -/
def heldSlots (e : Engine) : List Slot := slotsOf e.heap.objects

/-- Puts a frame on the stack. -/
def push (e : Engine) (f : Frame) : Engine := { e with stack := f :: e.stack }

/-- Does some work once there is a value for it. -/
def await (e : Engine) (work : Pending) : Engine := e.push (.pending work)

/-- Goes on with something else. -/
def goto (e : Engine) (c : Control) : Engine := { e with control := c }

/-- Gives a value to the frame on top. -/
def give (e : Engine) (v : Value) : Engine := e.goto (.ret v)

/-- Enters an object and gives its value. -/
def alloc (e : Engine) (o : Object) : Value × Engine :=
  let (r, heap) := e.heap.alloc o
  (.object r, { e with heap := heap })

/-- The property of an error that tells where it was made, which is left blank. -/
def blankStack : Key × Property := (.name "stack", .data (.text ""))

/-- The properties of an error with a message. -/
def messageProperties (message : Option Value) : List (Key × Property) :=
  message.toList.map fun v => (.name "message", .data v)

/-- A new error object, whose message may be missing. -/
def newErrorOf (e : Engine) (className : String) (message : Option Value) : Value × Engine :=
  e.alloc (.ofKind .error (Intrinsic.errorParentOf className)
    (messageProperties message ++ [blankStack]))

/-- A new error object. -/
def newError (e : Engine) (className message : String) : Value × Engine :=
  e.newErrorOf className (some (.text message))

/-- A new error object from the host, which script has not thrown yet. -/
def newHostError (e : Engine) (message : Option String) : Value × Engine :=
  e.alloc (.ofKind .error (some Intrinsic.errorParent)
    (messageProperties (message.map .text)))

/-- An error that script throws tells from then on where that was. -/
def markThrown (e : Engine) (v : Value) : Engine :=
  match v with
  | .object r =>
    { e with heap := e.heap.update r fun o =>
        match o.kind, o.properties.lookup blankStack.1 with
        | .error, none => { o with properties := o.properties ++ [blankStack] }
        | _, _ => o }
  | _ => e

/-- Throws a new error. -/
def throwNew (e : Engine) (className message : String) : Engine :=
  let (v, e) := e.newError className message
  e.goto (.throw v)

/-- Throws a new type error. -/
def throwType (e : Engine) (message : String) : Engine := e.throwNew "TypeError" message

/-- Throws where the host has gone. -/
def throwDisconnected (e : Engine) : Engine :=
  e.throwNew "InternalError" "host bridge has been dropped"

/-- The object that a value refers to. -/
def object? (e : Engine) : Value → Option Object
  | .object r => e.heap.get? r
  | _ => none

/-- Whether a value can be called. -/
def isCallable (e : Engine) (v : Value) : Bool := (e.object? v).any Object.isCallable

/-- Whether what stands under the name of a class is that class. -/
def isIntact (e : Engine) (c : ObjectClass) : Bool :=
  match (e.heap.get? Intrinsic.global).bind (·.own? (.name (Intrinsic.className c))) with
  | some (.data v) => decide (v = .object (Intrinsic.classRef c))
  | _ => false

/-- Whether no more calls can be nested. -/
def isFull (e : Engine) : Bool := e.maxCalls.any fun n => decide (n < e.stack.countP Frame.isCall)

/-- Throws where calls are nested too deep. -/
def throwFull (e : Engine) : Engine :=
  e.throwNew "RangeError" "Maximum call stack size exceeded"

/-- Enters the engine: an operation is to be started, and what was about to be done waits. -/
def enter (e : Engine) (op : Operation) : Engine :=
  { e with stack := .entry e.control :: e.stack, control := .begin op }

/-- Takes the host's answer to a request. -/
def answer (e : Engine) (r : Record) : Engine := e.goto (.reply r)

/-- Gives a new symbol to the frame on top. -/
def giveSymbol (e : Engine) (description : Option Text.Units) : Engine :=
  { e with
    heap := { e.heap with next := e.heap.next + 1 }
    control := .ret (.symbol e.heap.next description) }

/-- Gives a new object to the frame on top. -/
def giveNew (made : Value × Engine) : Engine := made.2.give made.1

/-- The number of script objects kept alive for the host. -/
def liveHandles (e : Engine) : Nat := e.handles.size

end Engine

end ScriptBridge
