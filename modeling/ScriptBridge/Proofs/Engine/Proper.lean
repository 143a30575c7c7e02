/-
# An engine and its records

All records that an engine works on are proper: those that the host hands to it, the elements
that still have to become values, those that have become records already, and what it hands
to the host.  Each step keeps it that way.
-/
import ScriptBridge.Proofs.Engine.Shape

namespace ScriptBridge.Engine

open ScriptBridge.Script ScriptBridge.Table ScriptBridge.Wire

variable {P : Prop} {e₀ e e' : Engine}

/-! ### The records of an engine -/

/-- The record that an operation brings. -/
def Operation.records : Operation → List Record
  | .setGlobal _ r | .setMember _ _ r | .invokeMember _ _ r => [r]
  | _ => []

/-- The record that a request brings. -/
def Request.records : Request → List Record
  | .get .. => []
  | .set _ _ r | .invoke _ r => [r]

/-- The record in what is about to be done. -/
def Control.records : Control → List Record
  | .begin op => op.records
  | .encoded r | .reply r | .convert r => [r]
  | .ask req => req.records
  | _ => []

/-- The records that a frame keeps. -/
def Frame.records : Frame → List Record
  | .items _ _ rest | .placed _ _ rest => rest
  | .elements _ _ _ _ done => done
  | .entry c => c.records
  | _ => []

/-- The record that an event hands to the host. -/
def Event.records : Event → List Record
  | .request req => req.records
  | .finished r => [r]
  | _ => []

/-- All records of an engine are proper. -/
structure Proper (e : Engine) : Prop where
  control : ∀ r ∈ e.control.records, r.IsProper
  frames : ∀ f ∈ e.stack, ∀ r ∈ f.records, r.IsProper

/-! ### What keeps them proper -/

lemma Control.records_of_isInner {c : Control} (hc : c.isInner = true) : c.records = [] := by
  cases c <;> first | rfl | cases hc

lemma Control.isProper_of_quiet {c : Control} (hc : c.Quiet) : ∀ r ∈ c.records, r.IsProper := by
  cases c with
  | encoded r => simpa [Control.records] using hc.proper
  | idle | begin | ask | reply | convert => exact hc.elim
  | _ => exact nofun

lemma Frame.records_of_isQuiet {f : Frame} (hf : f.isQuiet = true) : f.records = [] := by
  cases f <;> first | rfl | cases hf

lemma Call.records_request (c : Engine.Call) (r : Record) : (c.request r).records = [r] := by
  cases c <;> rfl

lemma Brings.records {op : Operation} {f : Frame} {r : Record} (h : Brings op f r) :
    op.records = [r] ∧ f.records = [] := by
  cases h <;> exact ⟨rfl, rfl⟩

lemma Proper.pop (h : e.Proper) {f : Frame} {rest : List Frame} (hs : e.stack = f :: rest) :
    (∀ r ∈ f.records, r.IsProper) ∧ ∀ f ∈ rest, ∀ r ∈ f.records, r.IsProper := by
  have hframes := h.frames
  rw [hs] at hframes
  exact List.forall_mem_cons.1 hframes

/-- Without the frame on top, and with something else about to be done, all records are still
proper. -/
lemma Proper.tail (h : e.Proper) {f : Frame} {rest : List Frame} (hs : e.stack = f :: rest) :
    ({ e with stack := rest } : Engine).Proper :=
  ⟨h.control, (h.pop hs).2⟩

/-- Work of script makes proper records only. -/
lemma ScriptWork.proper (h : ScriptWork P e₀ e) (h₀ : e₀.Proper) : e.Proper := by
  have hgrown : ∀ {e : Engine}, Grown P e₀ e → ∀ f ∈ e.stack, ∀ r ∈ f.records, r.IsProper := by
    intro e hg
    obtain ⟨fs, hstack, hfs⟩ := hg.stack
    rw [hstack]
    intro f hf
    rcases List.mem_append.1 hf with hf | hf
    · rw [Frame.records_of_isQuiet (hfs f hf).1]
      exact nofun
    · exact h₀.frames f hf
  cases h with
  | inner h hc hf hr => exact ⟨Control.isProper_of_quiet hc, hgrown h⟩
  | asks h name hr hb => exact ⟨nofun, List.forall_mem_cons.2 ⟨nofun, hgrown h⟩⟩
  | sends h hr hv hb => exact ⟨nofun, List.forall_mem_cons.2 ⟨nofun, hgrown h⟩⟩

lemma Proper.nextElement (h : e.Proper) {array : Ref} {depth length index : Nat}
    {done : List Record} (hd : ∀ r ∈ done, r.IsProper) :
    (e.nextElement array depth length index done).Proper := by
  unfold Engine.nextElement
  split
  · exact ⟨nofun, List.forall_mem_cons.2 ⟨hd, h.frames⟩⟩
  · refine ⟨fun r hr => ?_, h.frames⟩
    obtain rfl := List.mem_singleton.1 hr
    exact Record.isProper_array.2 fun r hr => hd r (List.mem_reverse.1 hr)

lemma proper_nextItem {array : Ref} {index : Nat} {items : List Record}
    (h : ∀ f ∈ e.stack, ∀ r ∈ f.records, r.IsProper) (hi : ∀ r ∈ items, r.IsProper) :
    (e.nextItem array index items).Proper := by
  cases items with
  | nil => exact ⟨nofun, h⟩
  | cons r rest =>
    obtain ⟨hr, hrest⟩ := List.forall_mem_cons.1 hi
    exact ⟨fun q hq => List.mem_singleton.1 hq ▸ hr, List.forall_mem_cons.2 ⟨hrest, h⟩⟩

/-! ### Steps -/

/-- A step that goes on with an operation keeps all records proper, and what it hands to the host
is proper. -/
lemma Advance.proper {ev : Event} (h : Advance P e e' ev) (hp : e.Proper) :
    e'.Proper ∧ ∀ r ∈ ev.records, r.IsProper := by
  cases h with
  | idle hc => exact ⟨hp, nofun⟩
  | stops hs hc => exact ⟨⟨nofun, hp.frames⟩, nofun⟩
  | works hc h => exact ⟨h.proper hp, nofun⟩
  | pops hs hf hentry hc h => exact ⟨h.proper (hp.tail hs), nofun⟩
  | element hs hc hv => exact ⟨⟨nofun, hp.frames⟩, nofun⟩
  | startsArray hc hr => exact ⟨hp.nextElement nofun, nofun⟩
  | nextElement hs hc ha =>
    have hr := hp.control
    rw [hc] at hr
    exact ⟨(hp.tail hs).nextElement (List.forall_mem_cons.2
      ⟨hr _ (List.mem_singleton_self _), (hp.pop hs).1⟩), nofun⟩
  | @names r slot record hc ha ho =>
    refine ⟨⟨fun q hq => ?_, hp.frames⟩, nofun⟩
    obtain rfl := List.mem_singleton.1 hq
    rcases hc with ⟨-, rfl⟩ | ⟨-, rfl⟩
    · exact Record.isProper_managed slot
    · exact Record.isProper_managedError slot
  | @pins base r handle handles record hbase hin ha hr hi hrecord ho =>
    have hframes : ∀ f ∈ base.stack, ∀ r ∈ f.records, r.IsProper := by
      rcases hbase with rfl | ⟨f, rest, hs, -, -, rfl⟩
      · exact hp.frames
      · exact (hp.pop hs).2
    refine ⟨⟨fun q hq => ?_, hframes⟩, nofun⟩
    obtain rfl := List.mem_singleton.1 hq
    rcases hrecord with rfl | rfl
    · exact Record.isProper_foreign handle
    · exact Record.isProper_foreignError handle
  | @sends c result held rest r hs hc =>
    have hr := hp.control
    rw [hc] at hr
    refine ⟨⟨nofun, List.forall_mem_cons.2 ⟨nofun, (hp.pop hs).2⟩⟩, ?_⟩
    rw [Event.records, Call.records_request]
    exact hr
  | asks hc =>
    have hr := hp.control
    rw [hc] at hr
    exact ⟨⟨nofun, hp.frames⟩, hr⟩
  | finishes hs hc =>
    have hr := hp.control
    rw [hc] at hr
    exact ⟨⟨(hp.pop hs).1, (hp.pop hs).2⟩, hr⟩
  | replies hs hc =>
    have hr := hp.control
    rw [hc] at hr
    exact ⟨⟨hr, List.forall_mem_cons.2 ⟨nofun, (hp.pop hs).2⟩⟩, nofun⟩
  | fails hs hf hc =>
    refine ⟨⟨?_, (hp.pop hs).2⟩, nofun⟩
    dsimp only
    rw [hc]
    exact nofun
  | takes hc =>
    refine ⟨⟨?_, ?_⟩, nofun⟩
    · rw [Control.records_of_isInner (control_withValue _)]
      exact nofun
    · rw [stack_withValue, stack_convert]
      exact hp.frames
  | @startsItems items hc =>
    have hr := hp.control
    rw [hc] at hr
    exact ⟨proper_nextItem (e := (e.allocArray []).2) hp.frames
      (Record.isProper_array.1 (hr _ (List.mem_singleton_self _))), nofun⟩
  | startsStandIn hc hr => exact ⟨⟨nofun, List.forall_mem_cons.2 ⟨nofun, hp.frames⟩⟩, nofun⟩
  | places hs hc hv =>
    exact ⟨⟨nofun, List.forall_mem_cons.2 ⟨(hp.pop hs).1, (hp.pop hs).2⟩⟩, nofun⟩
  | nextItem hs hc => exact ⟨proper_nextItem (hp.pop hs).2 (hp.pop hs).1, nofun⟩
  | takesClass hs hc =>
    have hrest := (hp.pop hs).2
    rcases takeStandInClass_works with heq | ⟨heap, -, -, h⟩
    · rw [heq]
      exact ⟨⟨nofun, hrest⟩, nofun⟩
    · refine ⟨h.proper ⟨hp.control, ?_⟩, nofun⟩
      exact List.forall_mem_cons.2 ⟨nofun, hrest⟩
  | @enters slot rest v hs hc => cases v <;> exact ⟨⟨nofun, (hp.pop hs).2⟩, nofun⟩
  | begins hc hb =>
    have hr := hp.control
    rw [hc, Control.records, hb.records.1] at hr
    refine ⟨⟨hr, List.forall_mem_cons.2 ⟨?_, hp.frames⟩⟩, nofun⟩
    rw [hb.records.2]
    exact nofun
  | releases hc hr =>
    exact ⟨⟨fun q hq => List.mem_singleton.1 hq ▸ Record.isProper_null, hp.frames⟩, nofun⟩
  | collects hc =>
    exact ⟨⟨fun q hq => List.mem_singleton.1 hq ▸ Record.isProper_null, hp.frames⟩, nofun⟩

/-- **Each step keeps all records of an engine proper, and what it hands to the host is proper.** -/
theorem Proper.step (hp : e.Proper) (hs : e.Shaped) :
    e.step.1.Proper ∧ ∀ r ∈ e.step.2.records, r.IsProper := by
  have hreport : ∀ slot, (e.reportSlot slot).records = [] := by
    intro slot
    unfold reportSlot
    split <;> rfl
  unfold Engine.step
  split
  · exact ⟨⟨hp.control, hp.frames⟩, by rw [hreport]; exact nofun⟩
  · split
    · next r o hfound =>
      refine ⟨⟨hp.control, hp.frames⟩, ?_⟩
      cases o.slot? with
      | none => exact nofun
      | some slot =>
        rw [Option.elim_some, hreport]
        exact nofun
    · exact (proceed_advance_false hs).proper hp

lemma proper_start (maxDepth maxLength : Nat) (maxCalls : Option Nat) :
    (start maxDepth maxLength maxCalls).Proper where
  control := List.forall_mem_nil _
  frames := List.forall_mem_nil _

lemma Proper.enter (hp : e.Proper) {op : Operation} (ho : ∀ r ∈ op.records, r.IsProper) :
    (e.enter op).Proper :=
  ⟨ho, List.forall_mem_cons.2 ⟨hp.control, hp.frames⟩⟩

lemma Proper.answer (hp : e.Proper) {r : Record} (hr : r.IsProper) : (e.answer r).Proper :=
  ⟨fun _ hq => List.mem_singleton.1 hq ▸ hr, hp.frames⟩

end ScriptBridge.Engine
