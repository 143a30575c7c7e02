/-
# What the work of a script does to an engine

A step that evaluates, reads, writes or calls only lets the heap grow and puts frames of
script on the stack; then it goes on with work of the same sort, or it hands something to
the host on behalf of a stand-in that the frame on top keeps.  This is said once here, in
a form that the parts of a step can be put together from.
-/
import ScriptBridge.Engine.Step
import ScriptBridge.Proofs.Script.Growth
import ScriptBridge.Proofs.Wire.Proper
import ScriptBridge.Proofs.Wire.Speaking

namespace ScriptBridge

open ScriptBridge.Script ScriptBridge.Wire

/-! ### Heaps that guard their tokens -/

/-- Whether a function gives access to a host entry without its stand-in. -/
def Script.ObjectKind.isTrap : ObjectKind → Bool
  | .builtin (.readEntry _) | .builtin (.writeEntry _) | .builtin (.callEntry _) => true
  | _ => false

namespace Script.Heap

variable {P : Prop} {h : Heap} {r : Ref} {o : Object}

/-- Where tokens are hidden, objects refer to none, and no function gives access to a host
entry without its stand-in. -/
structure Guarded (P : Prop) (h : Heap) : Prop where
  intrinsic : ∀ r < Intrinsic.count, h.Shows P r
  solid : P → ∀ r < Intrinsic.count, ∀ o, h.get? r = some o → ∀ s t, o.kind ≠ .proxy s t
  linked : h.Linked P
  traps : P → ∀ r o, h.get? r = some o → o.kind.isTrap = false

lemma isTrap_shape (kind : ObjectKind) : kind.shape.isTrap = kind.isTrap := by
  cases kind <;> rfl

lemma isTrap_of_isPlain (ho : o.IsPlain) : o.kind.isTrap = false := by
  have hplain := ho.1
  unfold ObjectKind.isPlain at hplain
  unfold ObjectKind.isTrap
  split at hplain <;> simp_all

lemma Guarded.alloc (hg : h.Guarded P) (ho : P → o.kind.isTrap = false)
    (hlinks : ∀ l ∈ o.links, (h.alloc o).2.Shows P l) : (h.alloc o).2.Guarded P := by
  refine ⟨fun r hr => (hg.intrinsic r hr).keeps (.alloc h o), fun hP r hr p hp => ?_,
    hg.linked.alloc hlinks, fun hP r p hp => ?_⟩
  · rw [get?_alloc, if_neg (Nat.ne_of_lt (hg.intrinsic r hr hP).1)] at hp
    exact hg.solid hP r hr p hp
  · rw [get?_alloc] at hp
    split at hp
    · cases hp
      exact ho hP
    · exact hg.traps hP r p hp

lemma Guarded.update (hg : h.Guarded P) {f : Object → Object} (hf : ∀ o, (f o).sort = o.sort)
    (hlinks : ∀ o, h.get? r = some o → ∀ l ∈ (f o).links, h.Shows P l) :
    (h.update r f).Guarded P := by
  refine ⟨fun s hs => (hg.intrinsic s hs).grows (.update h r hf), fun hP s hs p hp slot t hk => ?_,
    hg.linked.update hf hlinks, fun hP s p hp => ?_⟩
  · obtain ⟨q, hq, hsort⟩ := (Grows.update h r hf).get?_of_lt (hg.intrinsic s hs hP).1 hp
    exact hg.solid hP s hs q hq slot t ((Object.kind_proxy_congr hsort).2 hk)
  rw [get?_update] at hp
  split at hp
  · rw [Option.map_eq_some_iff] at hp
    obtain ⟨q, hq, rfl⟩ := hp
    rw [← isTrap_shape, show (f q).kind.shape = q.kind.shape from congrArg Prod.fst (hf q),
      isTrap_shape]
    exact hg.traps hP s q hq
  · exact hg.traps hP s p hp

lemma Guarded.symbol (hg : h.Guarded P) : Guarded P { h with next := h.next + 1 } :=
  ⟨fun r hr => (hg.intrinsic r hr).grows (.symbol h), hg.solid, hg.linked.symbol, hg.traps⟩

end Script.Heap

namespace Engine

variable {P : Prop} {e₀ e : Engine} {v w t f this : Value} {r : Ref} {key : Key}

/-! ### What sits where -/

/-- Whether a stack waits for a record: one of an element, of a value that goes to the host
with a call, or of the reply of an operation. -/
def AwaitsRecord : List Frame → Prop
  | .elements .. :: rest => AwaitsRecord rest
  | .sending .. :: _ => True
  | .entry _ :: _ => True
  | _ => False

/-- What is about to be done goes with the frames there are. -/
def Control.Fits (stack : List Frame) : Control → Prop
  | .idle => stack = [] ∨ ∃ result held rest, stack = .awaiting result held :: rest
  | .begin _ => ∃ c rest, stack = .entry c :: rest
  | .encode .. | .encoded _ | .refuse _ => AwaitsRecord stack
  | .ask _ | .reply _ => ∃ result held rest, stack = .awaiting result held :: rest
  | _ => True

/-- A frame goes with the frames below it. -/
def Frame.Sits (rest : List Frame) : Frame → Prop
  | .elements .. | .timeMember _ | .time _ | .pending (.dateClass _) | .pending (.dateParent _)
  | .assignGlobal _ | .assignMember .. | .spread .. | .arguments .. | .printing _ | .settle
  | .settleUnit => AwaitsRecord rest
  | .entry c => c.Fits rest
  | _ => True

/-- Each frame goes with the frames below it. -/
def Settled : List Frame → Prop
  | [] => True
  | f :: rest => f.Sits rest ∧ Settled rest

/-! ### Frames of script -/

/-- Whether some work needs nothing but a value of script. -/
def Pending.isPlain : Pending → Bool
  | .dateClass _ | .dateParent _ | .standInClass .. | .entered _ => false
  | _ => true

/-- Whether a frame needs nothing but a value of script. -/
def Frame.isPlain : Frame → Bool
  | .operands .. | .parts .. | .branch .. | .guard .. | .member .. | .method .. | .define ..
  | .hold _ | .call _ | .assigned _ | .invocation .. | .accepting .. => true
  | .pending work => work.isPlain
  | _ => false

/-- Whether a frame keeps nothing but values of script. -/
def Frame.isQuiet : Frame → Bool
  | .items .. | .placed .. | .elements .. | .sending .. | .awaiting .. | .entry _
  | .pending (.standInClass ..) | .pending (.entered _) => false
  | _ => true

/-- Whether a control is work of script. -/
def Control.isInner : Control → Bool
  | .eval .. | .ret _ | .throw _ | .read .. | .write .. | .call .. => true
  | _ => false

/-- A control that keeps nothing but values of script. -/
def Control.Quiet : Control → Prop
  | .eval .. | .ret _ | .throw _ | .read .. | .write .. | .call .. | .encode .. | .refuse _ =>
    True
  | .encoded r => r.IsBare
  | _ => False

lemma Frame.sits_of_isPlain {f : Frame} (hf : f.isPlain = true) (rest : List Frame) :
    f.Sits rest := by
  unfold Frame.Sits
  split <;> trivial

lemma Frame.isQuiet_of_isPlain {f : Frame} (hf : f.isPlain = true) : f.isQuiet = true := by
  cases f with
  | pending work => cases work <;> first | rfl | cases hf
  | _ => first | rfl | cases hf

lemma Control.quiet_of_isInner {c : Control} (hc : c.isInner = true) : c.Quiet := by
  cases c <;> trivial

lemma Control.fits_of_isInner {c : Control} (hc : c.isInner = true) (stack : List Frame) :
    c.Fits stack := by
  cases c <;> trivial

/-- The slot of the entry that a call goes to. -/
def Call.slot : Engine.Call → Slot
  | .set slot _ => slot
  | .invoke slot => slot

/-- A text that is about to be told to the host: that of a conversion that failed, or of an
exception that script does not catch. -/
def AboutToTell (e : Engine) (text : String) : Prop :=
  AwaitsRecord e.stack ∧
    (e.control = .refuse text ∨ ∃ v, e.control = .throw v ∧ thrownText v = text)

/-- The errors that are on their way to the host say something, unless there is a reason. -/
def Control.Speaks (m : Prop) : Control → Prop
  | .encoded r | .ask (.set _ _ r) | .ask (.invoke _ r) => r.Speaks m
  | .refuse text => text = "" → m
  | _ => True

lemma Control.speaks_of_isInner {m : Prop} {c : Control} (hc : c.isInner = true) :
    c.Speaks m := by
  cases c <;> trivial

/-- The errors that an engine is led to say something, or one of them was about to be told. -/
def Voices (e : Engine) (c : Control) : Prop :=
  c.Speaks False ∨ c = e.control ∨ ∃ text, e.AboutToTell text ∧
    c = .encoded (.unknownError (some text))

/-! ### What is shown -/

/-- Script may refer to some places. -/
def Shown (P : Prop) (e : Engine) (refs : List Ref) : Prop := ∀ r ∈ refs, e.heap.Shows P r

@[simp] lemma shown_nil (P : Prop) (e : Engine) : e.Shown P [] := by simp [Shown]

@[simp] lemma shown_append {a b : List Ref} :
    e.Shown P (a ++ b) ↔ e.Shown P a ∧ e.Shown P b := by
  simp only [Shown, List.mem_append, or_imp, forall_and]

@[simp] lemma shown_cons {a : List Ref} :
    e.Shown P (r :: a) ↔ e.heap.Shows P r ∧ e.Shown P a := by
  simp [Shown]

@[simp] lemma shown_flatMap {α : Type} {g : α → List Ref} {l : List α} :
    e.Shown P (l.flatMap g) ↔ ∀ x ∈ l, e.Shown P (g x) := by
  simp only [Shown, List.mem_flatMap]
  exact ⟨fun h x hx r hr => h r ⟨x, hx, hr⟩, fun h r ⟨x, hx, hr⟩ => h x hx r hr⟩

lemma Shown.of_refs_nil {a : List Ref} (h : a = []) : e.Shown P a := h ▸ shown_nil P e

/-- The host entry at a slot has a stand-in among some places, where tokens are hidden. -/
def Backed (P : Prop) (h : Heap) (slot : Slot) (refs : List Ref) : Prop :=
  P → ∃ r ∈ refs, ∃ o t, h.get? r = some o ∧ o.kind = .proxy slot t

/-! ### Growing -/

/-- One engine comes from another one by the work of script. -/
structure Grown (P : Prop) (e₀ e : Engine) : Prop where
  heap : e₀.heap.Grows e.heap
  guarded : e.heap.Guarded P
  stack : ∃ fs, e.stack = fs ++ e₀.stack ∧ ∀ f ∈ fs, f.isQuiet = true ∧ e.Shown P f.refs
  settled : Settled e₀.stack → Settled e.stack
  handles : e.handles = e₀.handles
  released : e.released = e₀.released
  connected : e.connected = e₀.connected
  maxDepth : e.maxDepth = e₀.maxDepth
  maxLength : e.maxLength = e₀.maxLength

namespace Grown

lemma refl (h : e.heap.Guarded P) : Grown P e e where
  heap := .refl _
  guarded := h
  stack := ⟨[], rfl, by simp⟩
  settled := id
  handles := rfl
  released := rfl
  connected := rfl
  maxDepth := rfl
  maxLength := rfl

lemma goto (h : Grown P e₀ e) (c : Control) : Grown P e₀ (e.goto c) := { h with }

lemma pushOn (h : Grown P e₀ e) {f : Frame} (hf : f.isQuiet = true) (hr : e.Shown P f.refs)
    (hs : f.Sits e.stack) : Grown P e₀ (e.push f) := by
  obtain ⟨fs, hstack, hfs⟩ := h.stack
  refine { h with
    stack := ⟨f :: fs, by rw [Engine.push, hstack]; rfl, fun g hg => ?_⟩
    settled := fun hsettled => ⟨hs, h.settled hsettled⟩ }
  rcases List.mem_cons.1 hg with rfl | hg
  · exact ⟨hf, hr⟩
  · exact hfs g hg

lemma push (h : Grown P e₀ e) {f : Frame} (hf : f.isPlain = true) (hr : e.Shown P f.refs) :
    Grown P e₀ (e.push f) :=
  h.pushOn (Frame.isQuiet_of_isPlain hf) hr (Frame.sits_of_isPlain hf _)

lemma await (h : Grown P e₀ e) {p : Pending} (hf : p.isPlain = true)
    (hr : e.Shown P p.refs) : Grown P e₀ (e.await p) :=
  h.push (f := .pending p) hf hr

/-- The heap may grow on. -/
lemma withHeap (h : Grown P e₀ e) {heap : Heap} (hg : e.heap.Grows heap)
    (hguarded : heap.Guarded P) (c : Control) :
    Grown P e₀ { e with heap := heap, control := c } := by
  obtain ⟨fs, hstack, hfs⟩ := h.stack
  exact { h with
    heap := h.heap.trans hg
    guarded := hguarded
    stack := ⟨fs, hstack, fun f hf => ⟨(hfs f hf).1, fun r hr => ((hfs f hf).2 r hr).grows hg⟩⟩ }

lemma alloc (h : Grown P e₀ e) {o : Object} (ho : o.IsPlain)
    (hlinks : (e.alloc o).2.Shown P o.links) : Grown P e₀ (e.alloc o).2 :=
  h.withHeap (.alloc _ ho.isInert) (h.guarded.alloc (fun _ => Heap.isTrap_of_isPlain ho) hlinks) _

lemma update (h : Grown P e₀ e) {g : Object → Object} (hg : ∀ o, (g o).sort = o.sort)
    (hlinks : ∀ o, e.heap.get? r = some o → e.Shown P (g o).links) (c : Control) :
    Grown P e₀ { e with heap := e.heap.update r g, control := c } :=
  h.withHeap (.update _ r hg) (h.guarded.update hg hlinks) c

lemma define (h : Grown P e₀ e) {p : Property} (hp : e.Shown P p.refs) (c : Control) :
    Grown P e₀ { e with heap := e.heap.update r (·.define key p), control := c } := by
  refine h.update (fun o => o.sort_define key p) (fun o ho l hl => ?_) c
  rcases Object.links_define hl with hl | hl
  · exact h.guarded.linked r o ho l hl
  · exact hp l hl

end Grown

lemma Shown.withHeap {a : List Ref} {heap : Heap} (h : e.Shown P a) (hg : e.heap.Grows heap)
    (c : Control) : Shown P { e with heap := heap, control := c } a :=
  fun r hr => (h r hr).grows hg

lemma Shown.alloc {a : List Ref} (h : e.Shown P a) {o : Object} (ho : o.IsPlain) :
    (e.alloc o).2.Shown P a :=
  h.withHeap (.alloc _ ho.isInert) _

lemma shown_alloc {o : Object} (ho : o.IsPlain) :
    (e.alloc o).2.Shown P (e.alloc o).1.refs :=
  shown_cons.2 ⟨Heap.shows_alloc e.heap ho.isInert.slot, shown_nil P _⟩

/-- A value from the heap may be referred to. -/
lemma Grown.shown_own? (h : Grown P e₀ e) {o : Object} {p : Property}
    (hg : e.heap.get? r = some o) (hp : o.own? key = some p) : e.Shown P p.refs :=
  h.guarded.linked.own? hg hp

lemma Grown.shown_intrinsic (h : Grown P e₀ e) (hr : r < Intrinsic.count) :
    e.heap.Shows P r := h.guarded.intrinsic r hr

/-! ### Working -/

/-- What the work of script leads to. -/
inductive ScriptWork (P : Prop) (e₀ : Engine) : Engine → Prop
  /-- More of it. -/
  | inner {e : Engine} (h : Grown P e₀ e) (hc : e.control.Quiet) (hf : e.control.Fits e.stack)
      (hr : e.Shown P e.control.refs) (hu : e₀.Voices e.control) : ScriptWork P e₀ e
  /-- A read of an entry. -/
  | asks {e : Engine} (h : Grown P e₀ e) {slot : Slot} (name : String) {held : List Value}
      (hr : e.Shown P (held.flatMap Value.refs))
      (hb : Backed P e.heap slot (held.flatMap Value.refs)) :
      ScriptWork P e₀ ((e.push (.awaiting none held)).goto (.ask (.get slot name)))
  /-- A write or a call, whose value is to become a record first. -/
  | sends {e : Engine} (h : Grown P e₀ e) {call : Engine.Call} {result : Option Value}
      {held : List Value} {v : Value}
      (hr : e.Shown P (Frame.sending call result held).refs) (hv : e.Shown P v.refs)
      (hb : Backed P e.heap call.slot (held.flatMap Value.refs)) :
      ScriptWork P e₀ ((e.push (.sending call result held)).goto (.encode v 0))

lemma ScriptWork.voices (h : ScriptWork P e₀ e) : e₀.Voices e.control := by
  cases h with
  | inner _ _ _ _ hu => exact hu
  | asks | sends => exact .inl trivial

lemma Grown.works (h : Grown P e₀ e) {c : Control} (hc : c.isInner = true)
    (hr : e.Shown P c.refs) : ScriptWork P e₀ (e.goto c) :=
  .inner (h.goto c) (Control.quiet_of_isInner hc) (Control.fits_of_isInner hc _) hr
    (.inl (Control.speaks_of_isInner hc))

lemma Grown.give (h : Grown P e₀ e) (hv : e.Shown P v.refs) : ScriptWork P e₀ (e.give v) :=
  h.works rfl hv

lemma Grown.giveNew (h : Grown P e₀ e) {o : Object} (ho : o.IsPlain)
    (hlinks : (e.alloc o).2.Shown P o.links) : ScriptWork P e₀ (giveNew (e.alloc o)) :=
  (h.alloc ho hlinks).give (shown_alloc ho)

end Engine

end ScriptBridge
