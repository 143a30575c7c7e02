/-
# What a step of a session can do

Each step of a session lets host code go on, or it moves a record, a slot or a handle
between the host and one of the engines.  The steps are listed here once, with the frames
that they take off and put on the stack and with what becomes of the bridge that they are
about.
-/
import ScriptBridge.Proofs.Bridge.Leases
import ScriptBridge.Proofs.Bridge.Mints
import ScriptBridge.Proofs.Engine.Holding
import ScriptBridge.Proofs.Engine.Rest
import ScriptBridge.Proofs.Session.Host

namespace ScriptBridge

open ScriptBridge.Bridge ScriptBridge.Host ScriptBridge.Table ScriptBridge.Wire

namespace Session

variable {s s' : Session} {b c : Nat}

/-! ### What things to do mean for a bridge -/

/-- What a thing that is still to be done means for the slots and handles of a bridge. -/
inductive Mark where
  /-- Nothing. -/
  | other
  /-- The engine goes on. -/
  | engine
  /-- A record of the engine is decoded. -/
  | decode (r : Record)
  /-- The engine is still to do something for a record. -/
  | perform (tasks : List Task) (heard : List Heard) (result : Except Fault HostValue)
  /-- The outcome of a callback becomes a record. -/
  | respond (r : Except HostError HostValue)
  /-- A callback is answered. -/
  | answer (r : Except HostError Record)
  /-- Slots are given up. -/
  | drain (slots : List Slot)
  /-- The bridge has been torn down. -/
  | teardown
  /-- An operation is left. -/
  | scope
  /-- The reply of the engine is taken. -/
  | running (purpose : Purpose)
  /-- Host code works for a callback. -/
  | serving

/-- Whether something leaves the engine of its bridge at rest. -/
def Mark.isIdle : Mark → Bool
  | .engine | .respond _ | .answer _ | .running _ | .serving => false
  | _ => true

/-- What a control means for a bridge. -/
def Control.mark (b : Nat) : Control → Mark
  | .engine c => if c = b then .engine else .other
  | .decode c r => if c = b then .decode r else .other
  | .perform c tasks heard result => if c = b then .perform tasks heard result else .other
  | .respond c r => if c = b then .respond r else .other
  | .answer c r => if c = b then .answer r else .other
  | .drain c slots => if c = b then .drain slots else .other
  | .teardown c _ => if c = b then .teardown else .other
  | _ => .other

/-- Whether a frame waits until something else is done before. -/
def Frame.isInterrupted : Frame → Bool
  | .interrupted _ => true
  | _ => false

/-- Whether a frame waits for host code that works for a callback of a bridge. -/
def Frame.isCallback (b : Nat) : Frame → Bool
  | .getting c _ _ | .assignee c _ _ | .setting c _ _ | .callee c _ _ | .calling c _ _ => c == b
  | _ => false

/-- What a frame means for a bridge. -/
def Frame.mark (b : Nat) (f : Frame) : Mark :=
  match f with
  | .interrupted c => c.mark b
  | .scope c => if c = b then .scope else .other
  | .running c purpose => if c = b then .running purpose else .other
  | f => if f.isCallback b then .serving else .other

/-- The foreign objects in the value of a record that waits for the member of a thrown object. -/
def Purpose.flying : Purpose → List ForeignObject
  | .member _ _ _ _ result => foreignsOfResult result
  | _ => []

/-- The foreign objects in the value of a record for which something is still to be done. -/
def Control.flying : Control → List ForeignObject
  | .perform _ _ _ result => foreignsOfResult result
  | _ => []

/-- The foreign objects that a frame keeps until all has been done for a record. -/
def Frame.flying : Frame → List ForeignObject
  | .interrupted ctl => ctl.flying
  | .running _ purpose => purpose.flying
  | _ => []

/-- The entries that are about to be let go of. -/
def Control.entries : Control → List Entry
  | .release entries => entries
  | _ => []

/-- The entries that are let go of when what waits goes on. -/
def Frame.entries : Frame → List Entry
  | .interrupted ctl => ctl.entries
  | _ => []

/-- Some things are there no more often than among others. -/
def Within (few many : List ForeignObject) : Prop := ∀ f, few.count f ≤ many.count f

/-- What is still to be done means nothing for any bridge but one. -/
def Control.IsOf (b : Nat) (ctl : Control) : Prop := ∀ c, c ≠ b → ctl.mark c = .other

/-- A frame means nothing for any bridge but one. -/
def Frame.IsOf (b : Nat) (f : Frame) : Prop := ∀ c, c ≠ b → f.mark c = .other

/-- What becomes of the reply of an engine. -/
def replyControl (b : Nat) (r : Record) : Purpose → Control
  | .value => .decode b r
  | .nothing => .finished
  | .member h name tasks heard result =>
    .perform b (r.handles.map .release ++ tasks) (heard ++ [⟨h, name, textOf? r⟩]) result

/-- What matters of one bridge has changed. -/
structure Recores (s s' : Session) (b : Nat) (k : Core) : Prop where
  core : ∀ c, s'.core? c = if b = c then some k else s.core? c
  leases : s'.leases = s.leases
  nextLease : s'.nextLease = s.nextLease

/-- What a step of a session can do. -/
inductive Stride (s : Session) : Session → Prop
  /-- Host code goes on, or what it waited for has ended. -/
  | inner {s' : Session} {os fs rest : List Frame} (hc : s.control.isInner = true)
    (hs : s.frames = os ++ rest) (hos : ∀ f ∈ os, f.isInner = true)
    (hs' : s'.frames = fs ++ rest) (hfs : ∀ f ∈ fs, f.isInner = true)
    (hc' : s'.control.isInner = true) (h : Same s s')
    (ho : os = [] ∨ ∃ f, os = [f] ∧ f.isInterrupted = false)
    (hq : s.control.isQuiet = true → s'.control.entries ++ fs.flatMap Frame.entries = []) :
    Stride s s'
  /-- Something is done before what was about to be done. -/
  | interrupts {s' : Session} (hc : ∀ b, s.control ≠ .engine b)
    (hs' : s'.frames = .interrupted s.control :: s.frames) (hc' : s'.control.isInner = true)
    (h : Same s s') (hq : s'.control.entries = []) : Stride s s'
  /-- What was about to be done is done now. -/
  | resumes {s' : Session} {ctl : Control} {rest : List Frame} (hc : s.control.isInner = true)
    (hs : s.frames = .interrupted ctl :: rest) (hs' : s'.frames = rest) (hc' : s'.control = ctl)
    (h : Same s s') : Stride s s'
  /-- A lease ends, or an object is forgotten, without a sign. -/
  | forgets {s' : Session} (hc : ∀ b, s.control ≠ .engine b) (hs' : s'.frames = s.frames)
    (hc' : s'.control = s.control) (h : ∀ b, s'.core? b = s.core? b)
    (hl : s'.leases = s.leases ∨ ∃ f, s.deadLease? = some f ∧ s.engine? f.bridge = none ∧
      s'.leases = s.leases.filter fun g => g.lease ≠ f.lease)
    (hn : s'.nextLease = s.nextLease) : Stride s s'
  /-- Nothing is left of a bridge. -/
  | vanishes {s' : Session} {b : Nat} (hc : ∀ b, s.control ≠ .engine b)
    (hs' : s'.frames = s.frames) (hc' : s'.control = s.control)
    (h : ∀ c, c ≠ b → s'.core? c = s.core? c) (hb : s'.engine? b = none)
    (hl : s'.leases = s.leases) (hn : s'.nextLease = s.nextLease)
    (hk : s'.core? b = (s.core? b).map fun k => ⟨none, .empty k.arena.policy, []⟩)
    (hu : s.uses b = false) : Stride s s'
  /-- A bridge is disposed. -/
  | disposes {s' : Session} {b : Nat} {slots : List Slot} (hc : s.control = .dispose b)
    (hs' : s'.frames = s.frames) (hc' : s'.control = .teardown b slots)
    (h : ∀ c, c ≠ b → s'.core? c = s.core? c) (hb : s'.engine? b = none)
    (hl : s'.leases = s.leases) (hn : s'.nextLease = s.nextLease)
    (hk : s'.core? b = (s.core? b).map ({ · with engine := none })) : Stride s s'
  /-- A bridge that has been disposed is torn down. -/
  | tears {s' : Session} {b : Nat} {slots : List Slot} {fs : List Frame}
    (hc : s.control = .teardown b slots) (hs' : s'.frames = fs ++ s.frames)
    (hfs : ∀ f ∈ fs, f.IsOf b) (hc' : s'.control.IsOf b)
    (hfly : s'.control.flying ++ fs.flatMap Frame.flying = [])
    (h : ∀ c, c ≠ b → s'.core? c = s.core? c) (hb : s'.engine? b = s.engine? b)
    (hl : s'.leases = s.leases) (hn : s'.nextLease = s.nextLease)
    (hi : ∀ m ∈ s'.control.mark b :: fs.map (Frame.mark b), m.isIdle = true)
    (hk : (s'.core? b).isSome = (s.core? b).isSome) : Stride s s'
  /-- Something is done with a bridge that has been disposed. -/
  | gone {s' : Session} {b : Nat} {fs : List Frame} (hb : s.engine? b = none)
    (hc : s.control.IsOf b) (hfly : s.control.flying = []) (hs' : s'.frames = fs ++ s.frames)
    (hfs : ∀ f ∈ fs, f.IsOf b) (hc' : s'.control.IsOf b)
    (hfly' : s'.control.flying ++ fs.flatMap Frame.flying = [])
    (h : ∀ c, c ≠ b → s'.core? c = s.core? c)
    (hb' : s'.engine? b = none) (hl : s'.leases = s.leases) (hn : s'.nextLease = s.nextLease)
    (hi : (s.control.mark b).isIdle = true → Same s s' ∧
      ∀ m ∈ s'.control.mark b :: fs.map (Frame.mark b), m.isIdle = true)
    (hq : s.control.entries ++ s'.control.entries ++ fs.flatMap Frame.entries = [])
    (hk : (s'.core? b).isSome = (s.core? b).isSome) : Stride s s'
  /-- Something that was to be done for a record is not, since its bridge has been disposed. -/
  | skips {s' : Session} {b : Nat} {task : Task} {tasks : List Task} {heard heard' : List Heard}
    {result : Except Fault HostValue} (hb : s.engine? b = none)
    (hc : s.control = .perform b (task :: tasks) heard result) (hs' : s'.frames = s.frames)
    (hc' : s'.control = .perform b tasks heard' result) (h : Same s s') : Stride s s'
  /-- An operation starts. -/
  | opens {s' : Session} {b : Nat} {e : Engine} {a a' : Arena Entry} {q : List Slot}
    {op : Operation} {w : Engine.Operation} {p : Purpose} {fs : List Frame}
    (hc : s.control = .operate b op) (hb : s.core? b = some ⟨some e, a, q⟩)
    (hm : a.Mints a' (Engine.Control.begin w).inbound) (hw : (Engine.Control.begin w).holding = [])
    (hg : ∀ h ∈ w.given, ∃ f ∈ HostValue.foreignsOf (fs.flatMap Frame.values),
      f.bridge = b ∧ f.handle = h) (hp : p = .value ∨ p = .nothing)
    (hs' : s'.frames = .running b p :: .scope b :: (fs ++ s.frames))
    (hfs : ∀ f ∈ fs, f.isInner = true) (hc' : s'.control = .engine b)
    (h : Recores s s' b ⟨some (e.enter w), a', q⟩) (hq : fs.flatMap Frame.entries = []) :
    Stride s s'
  /-- An operation fails since a value cannot be sent. -/
  | balks {s' : Session} {b : Nat} {e : Engine} {a a' : Arena Entry} {q : List Slot}
    {op : Operation} {fs : List Frame} (hc : s.control = .operate b op)
    (hb : s.core? b = some ⟨some e, a, q⟩) (hm : a.Mints a' [])
    (hs' : s'.frames = .scope b :: (fs ++ s.frames)) (hfs : ∀ f ∈ fs, f.isInner = true)
    (hc' : s'.control.isInner = true) (h : Recores s s' b ⟨some e, a', q⟩)
    (hq : s'.control.entries ++ fs.flatMap Frame.entries = []) : Stride s s'
  /-- A lease is given back to its engine. -/
  | releases {s' : Session} {f : ForeignObject} {e : Engine} {a : Arena Entry} {q : List Slot}
    (hc : ∀ b, s.control ≠ .engine b) (hf : s.deadLease? = some f)
    (hb : s.core? f.bridge = some ⟨some e, a, q⟩)
    (hs' : s'.frames = .running f.bridge .nothing :: .interrupted s.control :: s.frames)
    (hc' : s'.control = .engine f.bridge)
    (h : ∀ c, s'.core? c =
      if f.bridge = c then some ⟨some (e.enter (.release f.handle)), a, q⟩ else s.core? c)
    (hl : s'.leases = s.leases.filter fun g => g.lease ≠ f.lease)
    (hn : s'.nextLease = s.nextLease) : Stride s s'
  /-- A handle in a record is given up. -/
  | gives {s' : Session} {b : Nat} {e : Engine} {a : Arena Entry} {q : List Slot}
    {handle : Handle} {tasks : List Task} {heard : List Heard} {result : Except Fault HostValue}
    (hc : s.control = .perform b (.release handle :: tasks) heard result)
    (hb : s.core? b = some ⟨some e, a, q⟩)
    (hs' : s'.frames =
      .running b .nothing :: .interrupted (.perform b tasks heard result) :: s.frames)
    (hc' : s'.control = .engine b)
    (h : Recores s s' b ⟨some (e.enter (.release handle)), a, q⟩) : Stride s s'
  /-- A member of a thrown object is read. -/
  | reads {s' : Session} {b : Nat} {e : Engine} {a : Arena Entry} {q : List Slot}
    {handle : Handle} {name : String} {tasks : List Task} {heard : List Heard}
    {result : Except Fault HostValue}
    (hc : s.control = .perform b (.read handle name :: tasks) heard result)
    (hb : s.core? b = some ⟨some e, a, q⟩)
    (hs' : s'.frames = .running b (.member handle name tasks heard result) :: s.frames)
    (hc' : s'.control = .engine b)
    (h : Recores s s' b ⟨some (e.enter (.getMember handle name)), a, q⟩) : Stride s s'
  /-- All has been done for a record. -/
  | performed {s' : Session} {b : Nat} {heard : List Heard} {result : Except Fault HostValue}
    (hc : s.control = .perform b [] heard result) (hs' : s'.frames = s.frames)
    (hc' : s'.control =
      .done (result.mapError fun f => .operation (f.error heard)))
    (h : ∀ c, s'.core? c = s.core? c)
    (hl : s'.leases = s.leases ++ (outcomeValues result).flatMap HostValue.foreigns)
    (hn : s'.nextLease = s.nextLease) : Stride s s'
  /-- A record is decoded. -/
  | decodes {s' : Session} {b : Nat} {k : Core} {r : Record}
    (hc : s.control = .decode b r) (hb : s.core? b = some k) (hs' : s'.frames = s.frames)
    (hc' : s'.control = .perform b (decode b k.arena s.nextLease r).tasks []
      (decode b k.arena s.nextLease r).result)
    (h : ∀ c, s'.core? c = s.core? c) (hl : s'.leases = s.leases)
    (hn : s'.nextLease = (decode b k.arena s.nextLease r).next) : Stride s s'
  /-- An engine works on. -/
  | works {s' : Session} {b : Nat} {e : Engine} {a : Arena Entry} {q : List Slot}
    (hc : s.control = .engine b) (hb : s.core? b = some ⟨some e, a, q⟩)
    (he : e.step.2 = .silent) (hs' : s'.frames = s.frames) (hc' : s'.control = .engine b)
    (h : Recores s s' b ⟨some e.step.1, a, q⟩) : Stride s s'
  /-- A slot that script let go of is kept until the operation has ended. -/
  | defers {s' : Session} {b : Nat} {e : Engine} {a : Arena Entry} {q : List Slot} {slot : Slot}
    (hc : s.control = .engine b) (hb : s.core? b = some ⟨some e, a, q⟩)
    (he : e.step.2 = .removed slot) (hi : s.inCall b = true) (hs' : s'.frames = s.frames)
    (hc' : s'.control = .engine b) (h : Recores s s' b ⟨some e.step.1, a, q ++ [slot]⟩) :
    Stride s s'
  /-- A slot that script let go of is given up. -/
  | unpins {s' : Session} {b : Nat} {e : Engine} {a a' : Arena Entry} {q : List Slot}
    {slot : Slot} {entry : Entry} (hc : s.control = .engine b)
    (hb : s.core? b = some ⟨some e, a, q⟩) (he : e.step.2 = .removed slot)
    (hi : s.inCall b = false) (ht : a.take slot = some (entry, a'))
    (hs' : s'.frames = .interrupted (.engine b) :: s.frames) (hc' : s'.control = .release [entry])
    (h : Recores s s' b ⟨some e.step.1, a', q⟩) : Stride s s'
  /-- A slot that script let go of was vacant. -/
  | misses {s' : Session} {b : Nat} {e : Engine} {a : Arena Entry} {q : List Slot} {slot : Slot}
    (hc : s.control = .engine b) (hb : s.core? b = some ⟨some e, a, q⟩)
    (he : e.step.2 = .removed slot) (hi : s.inCall b = false) (ht : a.take slot = none)
    (hs' : s'.frames = s.frames) (hc' : s'.control = .engine b)
    (h : Recores s s' b ⟨some e.step.1, a, q⟩) : Stride s s'
  /-- A request is answered without host code. -/
  | refuses {s' : Session} {b : Nat} {e : Engine} {a : Arena Entry} {q : List Slot}
    {req : Engine.Request} {r : Except HostError HostValue} (hc : s.control = .engine b)
    (hb : s.core? b = some ⟨some e, a, q⟩) (he : e.step.2 = .request req)
    (hs' : s'.frames = s.frames) (hc' : s'.control = .respond b r)
    (h : Recores s s' b ⟨some e.step.1, a, q⟩) : Stride s s'
  /-- A getter is called for a request. -/
  | calls {s' : Session} {b : Nat} {e : Engine} {a : Arena Entry} {q : List Slot}
    {req : Engine.Request} {f : Frame} (hc : s.control = .engine b)
    (hb : s.core? b = some ⟨some e, a, q⟩) (he : e.step.2 = .request req)
    (hf : f.isCallback b = true) (hs' : s'.frames = f :: s.frames)
    (hc' : s'.control.isInner = true) (h : Recores s s' b ⟨some e.step.1, a, q⟩)
    (hq : s'.control.entries = []) : Stride s s'
  /-- The value of a request is decoded. -/
  | takes {s' : Session} {b : Nat} {e : Engine} {a : Arena Entry} {q : List Slot}
    {req : Engine.Request} {f : Frame} {r : Record} (hc : s.control = .engine b)
    (hb : s.core? b = some ⟨some e, a, q⟩) (he : e.step.2 = .request req)
    (hr : (∃ slot name, req = .set slot name r) ∨ ∃ slot, req = .invoke slot r)
    (hf : f.isCallback b = true) (hs' : s'.frames = f :: s.frames)
    (hc' : s'.control = .decode b r) (h : Recores s s' b ⟨some e.step.1, a, q⟩) : Stride s s'
  /-- A request is answered with a new slot for a method. -/
  | pins {s' : Session} {b : Nat} {e : Engine} {a : Arena Entry} {q : List Slot}
    {req : Engine.Request} {entry : Entry} (hc : s.control = .engine b)
    (hb : s.core? b = some ⟨some e, a, q⟩) (he : e.step.2 = .request req)
    (hs' : s'.frames = s.frames)
    (hc' : s'.control = .answer b (((pin a entry).1.map .managed).mapError BridgeError.cause))
    (h : Recores s s' b ⟨some e.step.1, (pin a entry).2, q⟩) : Stride s s'
  /-- The reply of an engine is taken. -/
  | finishes {s' : Session} {b c : Nat} {e : Engine} {a : Arena Entry} {q : List Slot}
    {r : Record} {p : Purpose} {rest : List Frame} (hc : s.control = .engine b)
    (hb : s.core? b = some ⟨some e, a, q⟩) (he : e.step.2 = .finished r)
    (hs : s.frames = .running c p :: rest) (hs' : s'.frames = rest)
    (hc' : s'.control = replyControl b r p) (h : Recores s s' b ⟨some e.step.1, a, q⟩) :
    Stride s s'
  /-- A reply of an engine that nothing waits for. -/
  | misplaced {s' : Session} {b : Nat} {e : Engine} {a : Arena Entry} {q : List Slot}
    (hc : s.control = .engine b) (hb : s.core? b = some ⟨some e, a, q⟩)
    (hs : ∀ p rest, s.frames ≠ .running b p :: rest) (hs' : s'.frames = s.frames)
    (hc' : s'.control.isInner = true) (h : Recores s s' b ⟨some e.step.1, a, q⟩)
    (hq : s'.control.entries = []) (he : ∃ r, e.step.2 = .finished r) : Stride s s'
  /-- A frame that waits for an engine is dropped. -/
  | drops {s' : Session} {b : Nat} {p : Purpose} {rest : List Frame}
    (hc : s.control.isInner = true) (hs : s.frames = .running b p :: rest)
    (hs' : s'.frames = rest) (hc' : s'.control.isInner = true) (h : Same s s')
    (hq : s'.control.entries = []) : Stride s s'
  /-- Host code has ended a callback. -/
  | replies {s' : Session} {b : Nat} {f : Frame} {rest : List Frame}
    {r : Except HostError HostValue} (hc : s.control.isInner = true) (hs : s.frames = f :: rest)
    (hf : f.isCallback b = true) (hs' : s'.frames = rest) (hc' : s'.control = .respond b r)
    (h : Same s s') : Stride s s'
  /-- Host code goes on with a callback. -/
  | continues {s' : Session} {b : Nat} {f f' : Frame} {rest : List Frame}
    (hc : s.control.isInner = true) (hs : s.frames = f :: rest) (hf : f.isCallback b = true)
    (hs' : s'.frames = f' :: rest) (hf' : f'.isCallback b = true)
    (hc' : s'.control.isInner = true) (h : Same s s') (hq : s'.control.entries = []) : Stride s s'
  /-- An operation within another one of its bridge is left. -/
  | leaves {s' : Session} {b : Nat} {rest : List Frame} (hc : s.control.isInner = true)
    (hs : s.frames = .scope b :: rest) (hi : rest.any (Frame.isScope b) = true)
    (hs' : s'.frames = rest) (hc' : s'.control.isInner = true) (h : Same s s')
    (hq : s'.control.entries = []) : Stride s s'
  /-- The outermost operation of a bridge is left. -/
  | leavesLast {s' : Session} {b : Nat} {r : Outcome} {rest : List Frame}
    (hc : s.control = .done r) (hs : s.frames = .scope b :: rest)
    (hi : rest.any (Frame.isScope b) = false) (hs' : s'.frames = .interrupted (.done r) :: rest)
    (hc' : s'.control = .drain b []) (h : Same s s') : Stride s s'
  /-- The outcome of a callback becomes a record. -/
  | responds {s' : Session} {b : Nat} {k : Core} {v : HostValue}
    (hc : s.control = .respond b (.ok v)) (hb : s.core? b = some k) (hs' : s'.frames = s.frames)
    (hc' : s'.control = .answer b ((encode b k.arena v).1.mapError BridgeError.cause))
    (h : Recores s s' b { k with arena := (encode b k.arena v).2 }) : Stride s s'
  /-- The failure of a callback is passed on. -/
  | fails {s' : Session} {b : Nat} {e : HostError} (hc : s.control = .respond b (.error e))
    (hs' : s'.frames = s.frames) (hc' : s'.control = .answer b (.error e)) (h : Same s s') :
    Stride s s'
  /-- A callback is answered. -/
  | answers {s' : Session} {b : Nat} {e : Engine} {a a' : Arena Entry} {q : List Slot}
    {res : Except HostError Record} {r : Record} (hc : s.control = .answer b res)
    (hb : s.core? b = some ⟨some e, a, q⟩)
    (hr : res = .ok r ∧ a' = a ∨ ∃ err, res = .error err ∧ failureRecord a err = (r, a'))
    (hs' : s'.frames = s.frames) (hc' : s'.control = .engine b)
    (h : Recores s s' b ⟨some (e.answer r), a', q⟩) : Stride s s'
  /-- A slot is given up. -/
  | drains {s' : Session} {b : Nat} {k : Core} {a' : Arena Entry} {slot : Slot}
    {slots : List Slot} {entry : Entry} (hc : s.control = .drain b (slot :: slots))
    (hb : s.core? b = some k) (ht : k.arena.take slot = some (entry, a'))
    (hs' : s'.frames = .interrupted (.drain b slots) :: s.frames)
    (hc' : s'.control = .release [entry]) (h : Recores s s' b { k with arena := a' }) :
    Stride s s'
  /-- A slot that is to be given up was vacant. -/
  | passes {s' : Session} {b : Nat} {k : Core} {slot : Slot} {slots : List Slot}
    (hc : s.control = .drain b (slot :: slots)) (hb : s.core? b = some k)
    (ht : k.arena.take slot = none) (hs' : s'.frames = s.frames)
    (hc' : s'.control = .drain b slots) (h : Same s s') : Stride s s'
  /-- The slots that were deferred meanwhile are to be given up. -/
  | refills {s' : Session} {b : Nat} {k : Core} (hc : s.control = .drain b [])
    (hb : s.core? b = some k) (hs' : s'.frames = s.frames)
    (hc' : s'.control = .drain b k.deferred) (h : Recores s s' b { k with deferred := [] }) :
    Stride s s'
  /-- All slots have been given up. -/
  | dries {s' : Session} {b : Nat} {k : Core} (hc : s.control = .drain b [])
    (hb : s.core? b = some k) (hq : k.deferred = []) (hs' : s'.frames = s.frames)
    (hc' : s'.control = .finished) (h : Same s s') : Stride s s'

/-! ### Leaving things as they are -/

lemma Recores.of_updateBridge {k k' : Core} {f : Bridge → Bridge} {g : Core → Core}
    (hb : s.core? b = some k) (hf : ∀ br, (f br).core = g br.core) (hk : g k = k')
    (h : Same (s.updateBridge b f) s') : Recores s s' b k' where
  core := fun c => by
    rw [h.core, core?_updateBridge hf]
    split
    · next heq => rw [← heq, hb, Option.map_some, hk]
    · rfl
  leases := h.leases
  nextLease := h.nextLease

/-- Changing what matters of a bridge after a change that does not. -/
lemma Recores.of_same {k : Core} {t : Session} (h : Same s t) (h' : Recores t s' b k) :
    Recores s s' b k where
  core := fun c => by rw [h'.core, h.core]
  leases := h'.leases.trans h.leases
  nextLease := h'.nextLease.trans h.nextLease

lemma Recores.trans_same {k : Core} {t : Session} (h : Recores s t b k) (h' : Same t s') :
    Recores s s' b k where
  core := fun c => by rw [h'.core, h.core]
  leases := h'.leases.trans h.leases
  nextLease := h'.nextLease.trans h.nextLease

lemma Recores.trans {k k' : Core} {t : Session} (h : Recores s t b k) (h' : Recores t s' b k') :
    Recores s s' b k' where
  core := fun c => by
    rw [h'.core, h.core]
    split <;> rfl
  leases := h'.leases.trans h.leases
  nextLease := h'.nextLease.trans h.nextLease

lemma Recores.self {k : Core} (h : Recores s s' b k) : s'.core? b = some k := by
  rw [h.core, if_pos rfl]

lemma bridge?_of_core? {k : Core} (hb : s.core? b = some k) :
    ∃ br, s.bridge? b = some br ∧ br.core = k := Option.map_eq_some_iff.1 hb

lemma entryOf?_of_core? {k : Core} (hb : s.core? b = some k) (slot : Slot) :
    s.entryOf? b slot = k.arena.get? slot := by
  obtain ⟨br, hbr, rfl⟩ := bridge?_of_core? hb
  rw [entryOf?, hbr]
  rfl

lemma core?_of_bridge? {br : Bridge} (hb : s.bridge? b = some br) : s.core? b = some br.core := by
  rw [core?, hb]
  rfl

lemma core?_of_engine? {e : Engine} (he : s.engine? b = some e) :
    ∃ a q, s.core? b = some ⟨some e, a, q⟩ := by
  unfold engine? at he
  obtain ⟨br, hb, hbe⟩ := Option.bind_eq_some_iff.1 he
  exact ⟨br.arena, br.deferred, by rw [core?, hb, Option.map_some, Bridge.core, hbe]⟩

lemma engine?_of_core? {e : Engine} {a : Arena Entry} {q : List Slot}
    (hb : s.core? b = some ⟨some e, a, q⟩) : s.engine? b = some e := by
  rw [engine?_eq, hb]
  rfl

lemma Same.engine? (h : Same s s') (b : Nat) : s'.engine? b = s.engine? b := by
  rw [engine?_eq, engine?_eq, h.core]

lemma engine?_eq_none_of_bridge? (hb : s.bridge? b = none) : s.engine? b = none := by
  rw [Session.engine?, hb]
  rfl

/-- Nothing matters of a bridge that has been disposed. -/
lemma Stride.gone_same {fs : List Frame} (hb : s.engine? b = none) (hc : s.control.IsOf b)
    (hfly : s.control.flying = []) (hs' : s'.frames = fs ++ s.frames) (hfs : ∀ f ∈ fs, f.IsOf b)
    (hc' : s'.control.IsOf b) (hfly' : s'.control.flying ++ fs.flatMap Frame.flying = [])
    (h : Same s s')
    (hi : ∀ m ∈ s'.control.mark b :: fs.map (Frame.mark b), m.isIdle = true)
    (hq : s.control.entries ++ s'.control.entries ++ fs.flatMap Frame.entries = []) : Stride s s' :=
  .gone hb hc hfly hs' hfs hc' hfly' (fun c _ => h.core c) ((h.engine? b).trans hb) h.leases
    h.nextLease (fun _ => ⟨h, hi⟩) hq (congrArg Option.isSome (h.core b))

end Session

end ScriptBridge
