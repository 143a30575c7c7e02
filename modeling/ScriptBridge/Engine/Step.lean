/-
# Steps of an engine

`Engine.step` does one small thing: it reports a slot that was released, or lets one
object go that nothing refers to any more, or goes on with the script.  Objects
therefore go away at once, before anything else happens; only those in a cycle wait
for a collection.
-/
import ScriptBridge.Engine.Arrival
import ScriptBridge.Engine.Encode
import ScriptBridge.Engine.Evaluate

namespace ScriptBridge.Engine

open ScriptBridge.Number ScriptBridge.Script ScriptBridge.Table ScriptBridge.Text ScriptBridge.Wire

/-! ### Outcomes -/

/-- Gives a value to the work that waits for it. -/
def pendingStep (e : Engine) (work : Pending) (v : Value) : Engine :=
  match work with
  | .conversion object asText last => e.callConversion object asText last v
  | .converted object asText last => e.acceptConversion object asText last v
  | .text missing => e.giveText v missing
  | .number => e.giveNumber v
  | .nearest => e.giveNearest v
  | .addRight right => e.giveSum v right
  | .addLeft left => e.giveSum left v
  | .joinMember object => e.arrayText object v
  | .joinLength object separator => e.startJoin object separator (lengthOf v)
  | .joinSeparator object length => e.nextJoined object v.units length 0 []
  | .joinElement object separator length index done =>
    e.takeJoined object separator length index done v
  | .joinText object separator length index done =>
    e.nextJoined object separator length (index + 1) (v.units :: done)
  | .errorName error => e.describeMessage error v.units
  | .errorMessage name => e.give (.string (errorText name v.units))
  | .argumentCount f this object => e.takeArgumentCount f this object v
  | .argument f this object count index done =>
    e.nextArgument f this object count (index + 1) (v :: done)
  | .length array w => e.takeLength array w v
  | .lengthAgain array w length => e.takeLengthAgain array w v length
  | .dateClass object => e.takeDateClass object v
  | .dateParent object => e.takeDateParent object v
  | .instanceClass args => e.construct v args
  | .instanceParent f args => e.constructFrom f args v
  | .instanceMade object =>
    match v with
    | .object _ => e.give v
    | _ => e.give object
  | .boxed => e.giveObject v
  | .bigint => e.giveBigint v
  | .symbol => e.giveSymbol (some v.units)
  | .errorOf className => giveNew (e.newErrorOf className (some v))
  | .functionName => e.give (.string (functionText v.units))
  | .standInClass slot token => e.takeStandInClass slot token v
  | .entered slot => e.enterStandIn slot v

/-- Gives a value to the frame that was on top. -/
def retStep (e : Engine) (f : Frame) (v : Value) : Engine :=
  match f with
  | .operands op done rest env => e.nextOperand op (v :: done) rest env
  | .parts rest env => e.nextPart rest env
  | .branch yes no env => e.goto (.eval (if v.isTruthy then yes else no) env)
  | .guard _ _ => e.give v
  | .member name args env => (e.push (.method v args env)).goto (.read v (.ofName name))
  | .method this args env => e.nextOperand .callOn [v, this] args env
  | .define key body isSetter env => e.defineAccessor v key body isSetter env
  | .hold _ | .call _ => e.give v
  | .assigned w => e.give w
  | .pending work => e.pendingStep work v
  | .items array index rest =>
    (e.push (.placed array index rest)).goto (.write (.object array) (.index index) v)
  | .placed array index rest => e.nextItem array (index + 1) rest
  | .assignGlobal name => (e.push .settleUnit).goto (.write globalObject (.ofName name) v)
  | .assignMember target name =>
    withValue (e.restore target) fun e t =>
      ((e.push .settleUnit).push (.hold [t])).goto (.write t (.ofName name) v)
  | .spread target name => e.startSpread target name v
  | .arguments target name array count done => e.nextSpread target name array count (v :: done)
  | .invocation target name args =>
    if e.isCallable v then e.goto (.call v target args)
    else e.throwType (name ++ " is not a function")
  | .elements array depth length index done =>
    (e.push (.elements array depth length index done)).goto (.encode v (depth + 1))
  | .timeMember date =>
    if e.isCallable v then (e.push (.time date)).goto (.call v date [])
    else e.throwType "not a function"
  | .time _ => e.takeTime v
  | .sending .. => e.push f
  | .awaiting .. => e.push f
  | .accepting isError result _ =>
    if isError then (e.markThrown v).goto (.throw v) else e.give (result.getD v)
  | .printing _ => e.goto (.throw v)
  | .settle => e.goto (.encode v 0)
  | .settleUnit => e.goto (.encoded .null)
  | .entry _ => (e.push f).goto (.encode v 0)

/-- Gives a record to the frame that was on top. -/
def encodedStep (e : Engine) (f : Frame) (r : Record) : Engine × Event :=
  match f with
  | .elements array depth length index done =>
    (e.nextElement array depth length (index + 1) (r :: done), .silent)
  | .sending call result held =>
    ((e.push (.awaiting result held)).goto .idle, .request (call.request r))
  | .entry interrupted => (e.goto interrupted, .finished r)
  | _ => (e, .silent)

/-- Hands an exception to the frame that was on top.  The slots of elements that did not
become values come back.  One that cannot be printed gives way to a text that says so. -/
def throwStep (e : Engine) (f : Frame) (v : Value) : Engine :=
  match f with
  | .guard handler env => (e.push (.hold [v])).goto (.eval handler { env with caught := some v })
  | .sending .. | .entry _ => (e.push f).settleError v
  | .printing _ => e.goto (.throw (.text unprintable))
  | .items _ _ rest | .placed _ _ rest =>
    { e with released := e.released ++ Record.slotsOfItems rest }
  | _ => e

/-- Hands a failed conversion to the frame that was on top. -/
def refuseStep (e : Engine) (f : Frame) (text : String) : Engine :=
  match f with
  | .sending .. | .entry _ => (e.push f).goto (.encoded (.unknownError (some text)))
  | _ => e

/-- Takes the host's answer for the frame that was on top. -/
def replyStep (e : Engine) (f : Frame) (r : Record) : Engine :=
  match f with
  | .awaiting result held => (e.push (.accepting r.isError result held)).goto (.convert r)
  | _ => e

/-! ### Operations -/

/-- Forgets all objects that cannot be reached. -/
def sweep (e : Engine) : Engine :=
  let dead := e.unreachable
  { e with
    heap := { e.heap with
      objects := e.heap.objects.filter fun (r, _) => !(dead.map Prod.fst).contains r }
    released := e.released ++ slotsOf dead }

/-- Starts an operation.  A value is turned into a script value before the target is looked
up, so that the slots in it come back whatever happens. -/
def beginStep (e : Engine) (op : Operation) : Engine :=
  match op with
  | .run script => (e.push .settle).goto (.eval script ⟨globalObject, [], none⟩)
  | .getGlobal name => (e.push .settle).goto (.read globalObject (.ofName name))
  | .setGlobal name value => (e.push (.assignGlobal name)).goto (.convert value)
  | .getMember target name =>
    withValue (e.restore target) fun e t => (e.push .settle).goto (.read t (.ofName name))
  | .setMember target name value => (e.push (.assignMember target name)).goto (.convert value)
  | .invokeMember target name args => (e.push (.spread target name)).goto (.convert args)
  | .release handle =>
    match e.handles.remove handle with
    | some (_, handles) => { e with handles := handles, control := .encoded .null }
    | none => e.goto (.encoded .null)
  | .collect => e.sweep.goto (.encoded .null)

/-- Takes the frame on top off the stack. -/
def popWith (e : Engine) (next : Engine → Frame → Engine × Event) : Engine × Event :=
  match e.stack with
  | [] => (e.goto .idle, .silent)
  | f :: rest => next { e with stack := rest } f

/-- Goes on with what is about to be done. -/
def proceed (e : Engine) : Engine × Event :=
  match e.control with
  | .idle => (e, .silent)
  | .begin op => (e.beginStep op, .silent)
  | .eval script env => (e.evalStep script env, .silent)
  | .read target key => (e.readStep target key, .silent)
  | .write target key v => (e.writeStep target key v, .silent)
  | .call f this args => (e.callStep f this args, .silent)
  | .encode v depth => (e.encodeStep v depth, .silent)
  | .ret v => e.popWith fun e f => (e.retStep f v, .silent)
  | .throw v => e.popWith fun e f => (e.throwStep f v, .silent)
  | .encoded r => e.popWith fun e f => e.encodedStep f r
  | .refuse text => e.popWith fun e f => (e.refuseStep f text, .silent)
  | .ask r => (e.goto .idle, .request r)
  | .reply r => e.popWith fun e f => (e.replyStep f r, .silent)
  | .convert r => (e.arriveStep r, .silent)

/-- Reports that script let go of a slot, as long as the host listens. -/
def reportSlot (e : Engine) (slot : Slot) : Event :=
  if e.connected then .removed slot else .silent

/-- One step. -/
def step (e : Engine) : Engine × Event :=
  match e.released with
  | slot :: rest => ({ e with released := rest }, e.reportSlot slot)
  | [] =>
    match e.unreferenced? with
    | some (r, o) =>
      ({ e with heap := e.heap.erase r }, o.slot?.elim .silent e.reportSlot)
    | none => e.proceed

/-- The slots that an engine reports when it is destroyed: those that its tokens keep. -/
def destroy (e : Engine) : List Slot := if e.connected then e.heldSlots else []

end ScriptBridge.Engine
