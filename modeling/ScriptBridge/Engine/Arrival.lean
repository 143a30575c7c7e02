/-
# Records on their way into script

A script may put something else in the place of the classes of dates and stand-ins, and may
give arrays and errors accessors to inherit.  From then on it can see how a record becomes
a value, so that is done in small steps: elements are entered in their array one after the
other, and dates and stand-ins are instances of whatever stands under the name of their
class.  A stand-in is made of a token that keeps its slot and a handler that reads, writes
and calls the host entry; whatever comes of it stands for that entry from then on.  As
long as no script can see it, a record becomes a value at once.

Only the classes are looked up where scripts may have put something else.  What stands for an
entry is noted at the object itself, out of the reach of scripts, and a stand-in has no traps
but those of its handler: it is taken for granted that scripts neither replace what reads and
writes such notes nor let handlers inherit traps.
-/
import ScriptBridge.Engine.Call
import ScriptBridge.Wire.Leaves

namespace ScriptBridge.Engine

open ScriptBridge.Number ScriptBridge.Script ScriptBridge.Table ScriptBridge.Wire

/-! ### What script can see -/

/-- Whether an object takes new elements of the arrays that inherit from it. -/
def takesElements (o : Object) : Bool :=
  match o.kind with
  | .proxy .. => true
  | _ => o.properties.any fun (k, p) =>
    match k, p with
    | .index _, .accessor .. => true
    | _, _ => false

/-- Whether an object or one that it inherits from takes new elements of arrays, among so
many objects at most. -/
def takesElementsWithin (h : Heap) : Nat → Option Ref → Bool
  | 0, _ => true
  | _, none => false
  | fuel + 1, some r =>
    match h.get? r with
    | none => false
    | some o => takesElements o || takesElementsWithin h fuel o.parent

/-- Whether a new error has a message of its own once that is assigned. -/
def keepsMessage (e : Engine) : Bool :=
  match e.heap.find Intrinsic.errorParent (.name "message") with
  | .property _ (.data _) => true
  | _ => false

/-- Whether a record becomes a value without any script seeing it. -/
def isUnwatched (e : Engine) : Bool :=
  e.isIntact .date && e.isIntact .proxy && e.keepsMessage &&
    !takesElementsWithin e.heap (e.heap.objects.length + 1) (some Intrinsic.arrayParent)

/-! ### Stand-ins -/

/-- Starts to make a stand-in for the host entry at a slot. -/
def startStandIn (e : Engine) (slot : Slot) : Engine :=
  let (token, e) := e.allocToken slot
  (e.await (.standInClass slot token)).goto
    (.read globalObject (.name (Intrinsic.className .proxy)))

/-- Enters what reads, writes and calls the host entry at a slot. -/
def allocHandler (e : Engine) (slot : Slot) (token : Ref) : Value × Engine :=
  let method (b : Builtin) (name : String) (parameters : Nat) (e : Engine) :=
    e.alloc (Intrinsic.functionObject b name parameters)
  let (reader, e) := method (.readEntry slot) "get" 2 e
  let (writer, e) := method (.writeEntry slot) "set" 3 e
  let (caller, e) := method (.callEntry slot) "apply" 3 e
  e.alloc (.ofKind .ordinary (some Intrinsic.objectParent)
    [(.name "token", .data (.object token)), (.name "get", .data reader),
     (.name "set", .data writer), (.name "apply", .data caller)])

/-- Makes a stand-in of the class that was found under that name. -/
def takeStandInClass (e : Engine) (slot : Slot) (token : Ref) (f : Value) : Engine :=
  if f = .object (Intrinsic.classRef .proxy) then giveNew (e.allocStandIn slot token)
  else
    let (handler, e) := e.allocHandler slot token
    let (target, e) := e.alloc (.ofKind (.function .undefined none none)
      (some Intrinsic.functionParent))
    (e.await (.entered slot)).construct f [target, handler]

/-- From now on an object stands for the host entry at a slot. -/
def enterStandIn (e : Engine) (slot : Slot) (v : Value) : Engine :=
  match v with
  | .object r =>
    { e with heap := e.heap.update r ({ · with entry := some slot }), control := .ret v }
  | v => e.give v

/-! ### Records -/

/-- Turns the next element into a value of an array. -/
def nextItem (e : Engine) (array : Ref) (index : Nat) : List Record → Engine
  | [] => e.give (.object array)
  | r :: rest => (e.push (.items array index rest)).goto (.convert r)

/-- Turns a record that owns no array into a value, in small steps. -/
def arriveShallow (e : Engine) (r : Record) : Engine :=
  match r.view with
  | .ok (.date x) => e.instantiate .date [.ofWhole x]
  | .ok (.managedRef slot) => e.startStandIn slot
  | .ok (.managedError slot) => e.startStandIn slot
  | .ok (.unknownError m) =>
    let (v, e) := e.newHostError none
    (e.push (.assigned v)).goto (.write v (.name "message") (.text (m.getD hostErrorText)))
  | _ => withValue (e.convertShallow r) give

/-- Turns a record into a value. -/
def arriveStep (e : Engine) (r : Record) : Engine :=
  if e.isUnwatched then withValue (e.convert r) give
  else
    match r with
    | .array items =>
      let array := e.heap.next
      (e.allocArray []).2.nextItem array 0 items
    | r => e.arriveShallow r

/-! ### Arguments from the host -/

/-- Reads the other arguments for a member of a script object, and then the member. -/
def nextSpread (e : Engine) (target : Handle) (name : String) (array : Ref) (count : Nat)
    (done : List Value) : Engine :=
  if done.length < count then
    (e.push (.arguments target name array count done)).goto
      (.read (.object array) (.index done.length))
  else
    withValue (e.restore target) fun e t =>
      (((e.push .settle).push (.hold [.object array])).push
        (.invocation t name done.reverse)).goto (.read t (.ofName name))

/-- Takes the arguments for a member of a script object, which have to be an array. -/
def startSpread (e : Engine) (target : Handle) (name : String) (v : Value) : Engine :=
  match v, (e.object? v).map Object.kind with
  | .object r, some (.array length) => e.nextSpread target name r length []
  | _, _ => e.throwType "member arguments must be an array"

end ScriptBridge.Engine
