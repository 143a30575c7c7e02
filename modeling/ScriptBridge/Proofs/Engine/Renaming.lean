/-
# Other slots in an engine

An engine in which slots are exchanged for others.  Scripts see no slots, so converting values,
describing them, and reading and writing properties is the same in such an engine.
-/
import ScriptBridge.Engine.Step
import ScriptBridge.Proofs.Script.Renaming
import ScriptBridge.Proofs.Wire.Renaming

namespace ScriptBridge

open ScriptBridge.Number ScriptBridge.Script ScriptBridge.Table ScriptBridge.Text ScriptBridge.Wire

namespace Engine

/-! ### What is still to be done -/

/-- Work that waits for a value, with other slots. -/
def Pending.rename (f : Slot → Slot) : Pending → Pending
  | .standInClass s token => .standInClass (f s) token
  | .entered s => .entered (f s)
  | work => work

/-- An operation with other slots. -/
def Operation.rename (f : Slot → Slot) : Operation → Operation
  | .setGlobal name value => .setGlobal name (value.rename f)
  | .setMember target name value => .setMember target name (value.rename f)
  | .invokeMember target name args => .invokeMember target name (args.rename f)
  | op => op

/-- A call with another slot. -/
def Call.rename (f : Slot → Slot) : Engine.Call → Engine.Call
  | .set s name => .set (f s) name
  | .invoke s => .invoke (f s)

/-- A request with other slots. -/
def Request.rename (f : Slot → Slot) : Request → Request
  | .get s name => .get (f s) name
  | .set s name value => .set (f s) name (value.rename f)
  | .invoke s args => .invoke (f s) (args.rename f)

/-- What is about to be done, with other slots. -/
def Control.rename (f : Slot → Slot) : Control → Control
  | .begin op => .begin (op.rename f)
  | .encoded r => .encoded (r.rename f)
  | .ask request => .ask (request.rename f)
  | .reply r => .reply (r.rename f)
  | .convert r => .convert (r.rename f)
  | c => c

/-- What is still to be done, with other slots. -/
def Frame.rename (f : Slot → Slot) : Frame → Frame
  | .pending work => .pending (work.rename f)
  | .items array index rest => .items array index (rest.map (Record.rename f))
  | .placed array index rest => .placed array index (rest.map (Record.rename f))
  | .elements array depth length index done =>
    .elements array depth length index (done.map (Record.rename f))
  | .sending c result held => .sending (c.rename f) result held
  | .entry c => .entry (c.rename f)
  | frame => frame

/-- What happened in a step, with other slots. -/
def Event.rename (f : Slot → Slot) : Event → Event
  | .removed s => .removed (f s)
  | .request r => .request (r.rename f)
  | .finished r => .finished (r.rename f)
  | .silent => .silent

/-- An engine with other slots. -/
def rename (f : Slot → Slot) (e : Engine) : Engine :=
  { e with
    heap := e.heap.rename f
    stack := e.stack.map (Frame.rename f)
    control := e.control.rename f
    released := e.released.map f }

variable {f : Slot → Slot} {e : Engine}

@[simp] lemma Pending.refs_rename (f : Slot → Slot) (work : Pending) :
    (work.rename f).refs = work.refs := by
  cases work <;> rfl

@[simp] lemma Call.request_rename (f : Slot → Slot) (call : Engine.Call) (r : Record) :
    (call.rename f).request (r.rename f) = (call.request r).rename f := by
  cases call <;> rfl

@[simp] lemma Control.refs_rename (f : Slot → Slot) (c : Control) :
    (c.rename f).refs = c.refs := by
  cases c <;> rfl

@[simp] lemma Frame.refs_rename (f : Slot → Slot) (frame : Frame) :
    (frame.rename f).refs = frame.refs := by
  cases frame with
  | pending work => exact Pending.refs_rename f work
  | entry c => exact Control.refs_rename f c
  | _ => rfl

@[simp] lemma Frame.isCall_rename (f : Slot → Slot) (frame : Frame) :
    (frame.rename f).isCall = frame.isCall := by
  cases frame <;> rfl

/-! ### Parts of an engine -/

@[simp] lemma heap_rename (f : Slot → Slot) (e : Engine) :
    (e.rename f).heap = e.heap.rename f := rfl

@[simp] lemma handles_rename (f : Slot → Slot) (e : Engine) :
    (e.rename f).handles = e.handles := rfl

@[simp] lemma stack_rename (f : Slot → Slot) (e : Engine) :
    (e.rename f).stack = e.stack.map (Frame.rename f) := rfl

@[simp] lemma control_rename (f : Slot → Slot) (e : Engine) :
    (e.rename f).control = e.control.rename f := rfl

@[simp] lemma released_rename (f : Slot → Slot) (e : Engine) :
    (e.rename f).released = e.released.map f := rfl

@[simp] lemma connected_rename (f : Slot → Slot) (e : Engine) :
    (e.rename f).connected = e.connected := rfl

@[simp] lemma maxDepth_rename (f : Slot → Slot) (e : Engine) :
    (e.rename f).maxDepth = e.maxDepth := rfl

@[simp] lemma maxLength_rename (f : Slot → Slot) (e : Engine) :
    (e.rename f).maxLength = e.maxLength := rfl

@[simp] lemma maxCalls_rename (f : Slot → Slot) (e : Engine) :
    (e.rename f).maxCalls = e.maxCalls := rfl

@[simp] lemma rename_start (f : Slot → Slot) (maxDepth maxLength : Nat) (maxCalls : Option Nat) :
    (start maxDepth maxLength maxCalls).rename f = start maxDepth maxLength maxCalls := rfl

/-! ### What an engine knows of objects -/

@[simp] lemma object?_rename (f : Slot → Slot) (e : Engine) (v : Value) :
    (e.rename f).object? v = (e.object? v).map (Object.rename f) := by
  cases v with
  | object r => exact Heap.get?_rename f e.heap r
  | _ => rfl

@[simp] lemma isCallable_rename (f : Slot → Slot) (e : Engine) (v : Value) :
    (e.rename f).isCallable v = e.isCallable v := by
  rw [isCallable, isCallable, object?_rename]
  cases e.object? v with
  | none => rfl
  | some o => exact Object.isCallable_rename f o

@[simp] lemma isIntact_rename (f : Slot → Slot) (e : Engine) (c : ObjectClass) :
    (e.rename f).isIntact c = e.isIntact c := by
  rw [isIntact, isIntact, heap_rename, Heap.get?_rename]
  cases e.heap.get? Intrinsic.global with
  | none => rfl
  | some o => simp only [Option.map_some, Option.bind_some, Object.own?_rename]

@[simp] lemma isFull_rename (f : Slot → Slot) (e : Engine) : (e.rename f).isFull = e.isFull := by
  have hcount : (e.rename f).stack.countP Frame.isCall = e.stack.countP Frame.isCall := by
    rw [stack_rename, List.countP_map]
    exact congrArg (e.stack.countP ·) (funext (Frame.isCall_rename f))
  simp only [isFull, maxCalls_rename, hcount]

@[simp] lemma roots_rename (f : Slot → Slot) (e : Engine) : (e.rename f).roots = e.roots := by
  simp only [roots, control_rename, Control.refs_rename, stack_rename, List.flatMap_map,
    Frame.refs_rename, handles_rename]

@[simp] lemma isReferenced_rename (f : Slot → Slot) (e : Engine) (heapRefs : List Ref) (r : Ref) :
    (e.rename f).isReferenced heapRefs r = e.isReferenced heapRefs r := by
  simp only [isReferenced, control_rename, Control.refs_rename, stack_rename, List.any_map,
    Function.comp_def, Frame.refs_rename, handles_rename]

/-- Objects with other slots. -/
def renameAll (f : Slot → Slot) (objects : List (Ref × Object)) : List (Ref × Object) :=
  objects.map fun (r, o) => (r, o.rename f)

@[simp] lemma unreferenced?_rename (f : Slot → Slot) (e : Engine) :
    (e.rename f).unreferenced? = e.unreferenced?.map fun (r, o) => (r, o.rename f) := by
  simp only [unreferenced?, heap_rename, Heap.refs_rename, isReferenced_rename,
    Heap.objects_rename, List.find?_map]
  rfl

@[simp] lemma unreachable_rename (f : Slot → Slot) (e : Engine) :
    (e.rename f).unreachable = renameAll f e.unreachable := by
  simp only [unreachable, heap_rename, Heap.reachable_rename, roots_rename, Heap.objects_rename,
    List.filter_map]
  rfl

@[simp] lemma slotsOf_rename (f : Slot → Slot) (objects : List (Ref × Object)) :
    slotsOf (renameAll f objects) = (slotsOf objects).map f := by
  simp only [slotsOf, renameAll, List.filterMap_map, List.map_filterMap]
  congr 1
  funext x
  exact Object.slot?_rename f x.2

@[simp] lemma heldSlots_rename (f : Slot → Slot) (e : Engine) :
    (e.rename f).heldSlots = e.heldSlots.map f := slotsOf_rename f e.heap.objects

/-! ### Changing an engine -/

@[simp] lemma rename_goto (f : Slot → Slot) (e : Engine) (c : Control) :
    (e.goto c).rename f = (e.rename f).goto (c.rename f) := rfl

@[simp] lemma rename_push (f : Slot → Slot) (e : Engine) (frame : Frame) :
    (e.push frame).rename f = (e.rename f).push (frame.rename f) := rfl

@[simp] lemma rename_await (f : Slot → Slot) (e : Engine) (work : Pending) :
    (e.await work).rename f = (e.rename f).await (work.rename f) := rfl

@[simp] lemma rename_give (f : Slot → Slot) (e : Engine) (v : Value) :
    (e.give v).rename f = (e.rename f).give v := rfl

end Engine

end ScriptBridge
