/-
# What host code does to a session

Host code that runs makes values, keeps them, and starts operations; the engines, the
arenas and the leases of the session are left alone until an operation goes on.
-/
import Mathlib.Tactic.Common
import ScriptBridge.Session.Command

namespace ScriptBridge

open ScriptBridge.Bridge ScriptBridge.Host ScriptBridge.Table ScriptBridge.Wire

/-- What of a bridge matters to the slots and handles of its engine. -/
structure Bridge.Core where
  /-- The engine, until the bridge is disposed. -/
  engine : Option Engine
  /-- The entries that script refers to. -/
  arena : Arena Entry
  /-- Slots that are given up when the call that is running has ended. -/
  deferred : List Slot

/-- The part of a bridge that matters to its slots and handles. -/
def Bridge.core (br : Bridge) : Core := ⟨br.engine, br.arena, br.deferred⟩

namespace Session

variable {s s' s'' : Session} {b c : Nat}

/-! ### Bridges -/

/-- What of a bridge matters to its slots and handles, if there is such a bridge. -/
def core? (s : Session) (b : Nat) : Option Core := (s.bridge? b).map Bridge.core

/-- Two sessions have the same engines, arenas, deferred slots and leases. -/
structure Same (s s' : Session) : Prop where
  core : ∀ b, s'.core? b = s.core? b
  leases : s'.leases = s.leases
  nextLease : s'.nextLease = s.nextLease

lemma Same.refl (s : Session) : Same s s := ⟨fun _ => rfl, rfl, rfl⟩

lemma Same.trans (h : Same s s') (h' : Same s' s'') : Same s s'' :=
  ⟨fun b => (h'.core b).trans (h.core b), h'.leases.trans h.leases,
    h'.nextLease.trans h.nextLease⟩

lemma core?_of_bridges (h : s'.bridges = s.bridges) (b : Nat) : s'.core? b = s.core? b := by
  rw [core?, core?, bridge?, bridge?, h]

lemma bridge?_updateBridge (s : Session) (b : Nat) (f : Bridge → Bridge) (c : Nat) :
    (s.updateBridge b f).bridge? c = if b = c then (s.bridge? c).map f else s.bridge? c := by
  simp only [bridge?, updateBridge, List.getElem?_modify]
  split
  · rfl
  · exact congrFun Option.map_id _

/-- Changing a bridge changes what matters of it, and leaves all others alone. -/
lemma core?_updateBridge {f : Bridge → Bridge} {g : Core → Core}
    (hf : ∀ br, (f br).core = g br.core) (s : Session) (b c : Nat) :
    (s.updateBridge b f).core? c = if b = c then (s.core? c).map g else s.core? c := by
  simp only [core?, bridge?_updateBridge]
  split
  · rw [Option.map_map, Option.map_map]
    exact congrArg (Option.map · _) (funext hf)
  · rfl

lemma same_updateBridge {f : Bridge → Bridge} (hf : ∀ br, (f br).core = br.core) (s : Session)
    (b : Nat) : Same s (s.updateBridge b f) where
  core := fun c => by
    rw [core?_updateBridge (g := id) hf]
    split
    · exact congrFun Option.map_id _
    · rfl
  leases := rfl
  nextLease := rfl

lemma same_record (s : Session) (b : Nat) (crossing : Crossing) :
    Same s (s.record b crossing) :=
  same_updateBridge (f := (·.record crossing)) (fun _ => rfl) s b

lemma same_describe (s : Session) (b : Nat) (type : Nat) :
    Same s (s.updateBridge b (·.describe type)) := by
  refine same_updateBridge (fun br => ?_) s b
  unfold Bridge.describe
  split <;> rfl

lemma engine?_eq (s : Session) (b : Nat) : s.engine? b = (s.core? b).bind (·.engine) := by
  rw [engine?, core?]
  cases s.bridge? b <;> rfl

/-! ### Frames that have nothing to do with a bridge's work -/

/-- Whether what is about to be done keeps nothing of a bridge. -/
def Control.isInner : Control → Bool
  | .done _ | .act .. | .operate .. | .release _ | .dispose _ | .forget _ | .drop _ => true
  | _ => false

/-- Whether a frame waits for host code and keeps nothing of a bridge. -/
def Frame.isInner : Frame → Bool
  | .interrupted ctl => ctl.isInner
  | .held _ | .pausing | .keeping _ | .reporting | .hook _ | .borrowed .. | .sequence ..
  | .listing .. | .attempting => true
  | _ => false

/-- Whether what is about to be done keeps nothing of a bridge, and lets go of no entries. -/
def Control.isQuiet : Control → Bool
  | .release _ => false
  | ctl => ctl.isInner

/-- Whether a frame waits for host code, and keeps nothing of a bridge and no entries. -/
def Frame.isQuiet : Frame → Bool
  | .interrupted ctl => ctl.isQuiet
  | f => f.isInner

lemma Control.isInner_of_isQuiet {ctl : Control} (h : ctl.isQuiet = true) : ctl.isInner = true := by
  cases ctl <;> first | rfl | cases h

lemma Frame.isInner_of_isQuiet {f : Frame} (h : f.isQuiet = true) : f.isInner = true := by
  cases f <;> first | rfl | cases h | exact Control.isInner_of_isQuiet h

/-- Only values have been made and kept. -/
structure Untouched (s s' : Session) : Prop where
  bridges : s'.bridges = s.bridges
  frames : s'.frames = s.frames
  control : s'.control = s.control
  leases : s'.leases = s.leases
  nextLease : s'.nextLease = s.nextLease

lemma Untouched.refl (s : Session) : Untouched s s := ⟨rfl, rfl, rfl, rfl, rfl⟩

lemma Untouched.same (h : Untouched s s') : Same s s' :=
  ⟨core?_of_bridges h.bridges, h.leases, h.nextLease⟩

lemma Untouched.trans (h : Untouched s s') (h' : Untouched s' s'') : Untouched s s'' :=
  ⟨h'.bridges.trans h.bridges, h'.frames.trans h.frames, h'.control.trans h.control,
    h'.leases.trans h.leases, h'.nextLease.trans h.nextLease⟩

/-- Host code has put frames of its own on the stack. -/
structure Leads (s s' : Session) : Prop where
  same : Same s s'
  frames : ∃ fs, s'.frames = fs ++ s.frames ∧ ∀ f ∈ fs, f.isQuiet = true

namespace Leads

lemma refl (s : Session) : Leads s s := ⟨.refl s, [], rfl, by simp⟩

lemma trans (h : Leads s s') (h' : Leads s' s'') : Leads s s'' := by
  obtain ⟨fs, hs, hfs⟩ := h.frames
  obtain ⟨fs', hs', hfs'⟩ := h'.frames
  refine ⟨h.same.trans h'.same, fs' ++ fs, by rw [hs', hs, List.append_assoc], fun f hf => ?_⟩
  exact (List.mem_append.1 hf).elim (hfs' f) (hfs f)

lemma push (h : Leads s s') {f : Frame} (hf : f.isQuiet = true) : Leads s (s'.push f) := by
  obtain ⟨fs, hs, hfs⟩ := h.frames
  exact ⟨⟨h.same.core, h.same.leases, h.same.nextLease⟩, f :: fs,
    by rw [Session.push, hs]; rfl, List.forall_mem_cons.2 ⟨hf, hfs⟩⟩

lemma goto (h : Leads s s') (ctl : Control) : Leads s (s'.goto ctl) :=
  ⟨⟨h.same.core, h.same.leases, h.same.nextLease⟩, h.frames⟩

lemma updateBridge (h : Leads s s') {f : Bridge → Bridge} (hf : ∀ br, (f br).core = br.core)
    (b : Nat) : Leads s (s'.updateBridge b f) :=
  { h with same := h.same.trans (same_updateBridge hf s' b) }

lemma untouched (h : Leads s s') (hu : Untouched s' s'') : Leads s s'' := by
  obtain ⟨fs, hs, hfs⟩ := h.frames
  exact ⟨h.same.trans hu.same, fs, hu.frames.trans hs, hfs⟩

end Leads

/-- Host code goes on with more of its own work. -/
structure Inner (s s' : Session) : Prop extends Leads s s' where
  control : s'.control.isQuiet = true

lemma Leads.inner (h : Leads s s') (ctl : Control) (hc : ctl.isQuiet = true) :
    Inner s (s'.goto ctl) := { h.goto ctl with control := hc }

/-! ### Making values -/

lemma untouched_allocate (s : Session) (type : Nat) (ident : String)
    (fields : List (String × HostValue)) : Untouched s (s.allocate type ident fields).2 :=
  ⟨rfl, rfl, rfl, rfl, rfl⟩

mutual
lemma untouched_build (s : Session) : ∀ t : Template, Untouched s (s.build t).2
  | .plain .. => .refl s
  | .array ts => untouched_buildItems s ts
  | .fresh type ident fields =>
    (untouched_buildFields s fields).trans (untouched_allocate _ type ident _)
  | .register _ => .refl s

lemma untouched_buildItems (s : Session) : ∀ ts : List Template, Untouched s (s.buildItems ts).2
  | [] => .refl s
  | t :: ts => (untouched_build s t).trans (untouched_buildItems _ ts)

lemma untouched_buildFields (s : Session) :
    ∀ fields : List (String × Template), Untouched s (s.buildFields fields).2
  | [] => .refl s
  | (_, t) :: rest => (untouched_build s t).trans (untouched_buildFields _ rest)
end

lemma untouched_buildAccess (s : Session) (access : Access Template) :
    Untouched s (s.buildAccess access).2 := by
  cases access with
  | get => exact .refl s
  | set t => exact untouched_build s t
  | invoke ts => exact untouched_buildItems s ts

/-! ### Doing one action -/

lemma Leads.withBridge (h : Leads s s') {n : Session → Nat → Session}
    (hn : ∀ b, Inner s (n s' b)) : Inner s (s'.withBridge n) := by
  unfold Session.withBridge
  split
  · exact hn _
  · exact h.inner _ rfl

lemma Leads.operateHere (h : Leads s s') (op : Operation) : Inner s (s'.operateHere op) :=
  h.withBridge fun _ => ((h.push rfl).push rfl).inner _ rfl

lemma Leads.withResult (h : Leads s s') {α : Type} (r : Except HostError α) {next : α → Session}
    (hn : ∀ a, Inner s (next a)) : Inner s (s'.withResult r next) := by
  cases r with
  | ok a => exact hn a
  | error e => exact h.inner _ rfl

lemma Leads.gotoMember (h : Leads s s') (f : ForeignObject) (op : Operation) :
    Inner s (s'.gotoMember f op) := by
  unfold Session.gotoMember
  split <;> exact h.inner _ rfl

lemma Leads.useMember (h : Leads s s') (scene : Scene) (position : Nat) (name : String)
    (access : Access Template) : Inner s (s'.useMember scene position name access) :=
  h.withResult _ fun f => ((h.untouched (untouched_buildAccess _ access)).push rfl).gotoMember f _

lemma Leads.actFirst (h : Leads s s') (actions : List Action) (scene : Scene) {none : Session}
    (hnone : Inner s none) {frame : List Action → Frame}
    (hf : ∀ rest, (frame rest).isQuiet = true) :
    Inner s (s'.actFirst actions scene none frame) := by
  cases actions with
  | nil => exact hnone
  | cons a rest => exact (h.push (hf rest)).inner _ rfl

lemma Leads.leaveBridge (h : Leads s s') (b : Nat) : Leads s (s'.leaveBridge b) := by
  unfold Session.leaveBridge
  split
  · exact h.updateBridge (f := fun br => { br with stage := .leaving }) (fun _ => rfl) b
  · exact h

/-- **Host code leaves engines, arenas and leases alone.** -/
theorem inner_actStep (s : Session) (a : Action) (scene : Scene) : Inner s (s.actStep a scene) := by
  have h : Leads s s := .refl s
  have hfields : ∀ o g, Leads s (s.updateFields o g) := fun o g =>
    h.untouched ⟨rfl, rfl, rfl, rfl, rfl⟩
  have hregister : ∀ name v, Leads s (s.setRegister name v) := fun name v =>
    h.untouched ⟨rfl, rfl, rfl, rfl, rfl⟩
  cases a with
  | const t => exact (h.untouched (untouched_build s t)).inner _ rfl
  | throw text => exact h.inner _ rfl
  | panic payload => exact h.inner _ rfl
  | eval script => exact h.operateHere _
  | getVariable name => exact h.operateHere _
  | setVariable name t => exact (h.untouched (untouched_build s t)).operateHere _
  | flush => exact h.operateHere _
  | dispose =>
    exact h.withBridge (n := fun s b => (s.push (.keeping b)).goto (.dispose b)) fun b =>
      (h.push rfl).inner _ rfl
  | isDisposed =>
    exact h.withBridge (n := fun s b => s.give (.bool (s.engine? b).isNone)) fun b => h.inner _ rfl
  | used =>
    exact h.withBridge
      (n := fun s b => s.give (.ofWide ((s.bridge? b).elim 0 fun br => br.arena.occupancy.used)))
      fun b => h.inner _ rfl
  | drop register =>
    have herased : Untouched s { s with registers := erase s.registers register } :=
      ⟨rfl, rfl, rfl, rfl, rfl⟩
    exact (h.untouched herased).inner (.done _) rfl
  | dropBridge => exact (h.leaveBridge _).inner _ rfl
  | field name => exact h.inner _ rfl
  | ident => exact h.inner _ rfl
  | storeValue field kind => exact h.withResult _ fun v => (hfields _ _).inner _ rfl
  | sink => exact h.inner _ rfl
  | echo => exact h.inner _ rfl
  | label text => exact h.inner _ rfl
  | arity => exact h.inner _ rfl
  | arg kind position => exact h.withResult _ fun v => h.inner _ rfl
  | store field kind position => exact h.withResult _ fun v => (hfields _ _).inner _ rfl
  | forget field => exact (hfields _ _).inner _ rfl
  | save register position => exact h.withResult _ fun v => (hregister _ _).inner _ rfl
  | invoke position name args => exact h.useMember scene position name (.invoke args)
  | get position name => exact h.useMember scene position name .get
  | set position name t => exact h.useMember scene position name (.set t)
  | seq actions => exact h.actFirst _ _ (h.inner _ rfl) fun _ => rfl
  | list actions => exact h.actFirst _ _ (h.inner _ rfl) fun _ => rfl
  | attempt action => exact (h.push rfl).inner _ rfl

end Session

end ScriptBridge
