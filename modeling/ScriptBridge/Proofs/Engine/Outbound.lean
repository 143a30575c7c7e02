/-
# Slots on their way to the host

A record that script hands to the host names a slot only where there is a stand-in for it
at that moment.  From then on the record may outlive the stand-in, but no step adds a slot
to it.
-/
import ScriptBridge.Proofs.Engine.Honest

namespace ScriptBridge.Engine

open ScriptBridge.Script ScriptBridge.Table ScriptBridge.Wire

variable {P : Prop} {e₀ e e' : Engine}

/-- The slots that a request hands to the host. -/
def Request.outbound : Request → List Slot
  | .get .. => []
  | .set _ _ r => r.slots
  | .invoke _ r => r.slots

/-- The slots in what is about to be done, on their way to the host. -/
def Control.outbound : Control → List Slot
  | .encoded r => r.slots
  | .ask req => req.outbound
  | _ => []

/-- The slots that a frame keeps on their way to the host. -/
def Frame.outbound : Frame → List Slot
  | .elements _ _ _ _ done => Record.slotsOfItems done
  | .entry c => c.outbound
  | _ => []

/-- The slots that an event hands to the host. -/
def Event.outbound : Event → List Slot
  | .request req => req.outbound
  | .finished r => r.slots
  | _ => []

/-- The slots that are on their way to the host. -/
def outbound (e : Engine) : List Slot := e.control.outbound ++ e.stack.flatMap Frame.outbound

lemma Control.outbound_of_quiet {c : Control} (hc : c.Quiet) : c.outbound = [] := by
  cases c <;> first | rfl | exact hc.slots | exact hc.elim

lemma Control.IsResting.outbound {c : Control} (hc : c.IsResting) : c.outbound = [] := by
  cases c with
  | encoded r =>
    rw [show r = .null from hc]
    rfl
  | ask req => exact hc.elim
  | _ => rfl

lemma Frame.outbound_of_isQuiet {f : Frame} (hf : f.isQuiet = true) : f.outbound = [] := by
  cases f <;> first | rfl | cases hf

lemma Grown.outbound (h : Grown P e₀ e) :
    e.stack.flatMap Frame.outbound = e₀.stack.flatMap Frame.outbound := by
  obtain ⟨fs, hstack, hfs⟩ := h.stack
  have hnone : fs.flatMap Frame.outbound = [] :=
    List.flatMap_eq_nil_iff.2 fun f hf => Frame.outbound_of_isQuiet (hfs f hf).1
  rw [hstack, List.flatMap_append, hnone, List.nil_append]

/-- Work of script hands nothing on. -/
lemma ScriptWork.outbound (h : ScriptWork P e₀ e) :
    e.outbound = e₀.stack.flatMap Frame.outbound := by
  cases h with
  | inner h hc hf hr =>
    rw [Engine.outbound, Control.outbound_of_quiet hc, h.outbound, List.nil_append]
  | asks h name hr hb => exact h.outbound
  | sends h hr hv hb => exact h.outbound

lemma mem_slotsOfItems_reverse {rs : List Record} {s : Slot} :
    s ∈ Record.slotsOfItems rs.reverse ↔ s ∈ Record.slotsOfItems rs := by
  simp only [Record.mem_slotsOfItems, List.mem_reverse]

lemma mem_outbound_nextElement {array : Ref} {depth length index : Nat} {done : List Record}
    {s : Slot} (hs : s ∈ (e.nextElement array depth length index done).outbound) :
    s ∈ Record.slotsOfItems done ∨ s ∈ e.stack.flatMap Frame.outbound := by
  unfold Engine.nextElement at hs
  split at hs
  · exact List.mem_append.1 hs
  · rcases List.mem_append.1 hs with hs | hs
    · exact .inl (mem_slotsOfItems_reverse.1 hs)
    · exact .inr hs

lemma outbound_nextItem {array : Ref} {index : Nat} {items : List Record} :
    (e.nextItem array index items).outbound = e.stack.flatMap Frame.outbound := by
  cases items <;> rfl

lemma outbound_withValue (made : Outcome × Engine) :
    (withValue made give).outbound = made.2.stack.flatMap Frame.outbound := by
  obtain ⟨v | v, e⟩ := made <;> rfl

/-- What an object with an entry stands for has a stand-in. -/
lemma hasStandIn_of_entry (hi : e.heap.StandIns P) (hP : P) {r : Ref} {s : Slot}
    (ho : (e.heap.get? r).bind (·.entry) = some s) : e.HasStandIn s := by
  obtain ⟨o, hg, he⟩ := Option.bind_eq_some_iff.1 ho
  obtain ⟨t, ht⟩ := hi.entry hP r o s hg he
  exact ⟨r, o, t, hg, ht⟩

lemma Advance.eq_silent {ev : Event} (h : Advance P e e' ev) (he : ev.isTurn = false) :
    ev = .silent := by
  cases h <;> first | rfl | cases he

/-- A step that goes on with an operation and does not turn to the host names a slot on its way
out only where there is a stand-in for it. -/
lemma Advance.outbound_of_silent (h : Advance P e e' .silent) (hi : e.heap.StandIns P) (hP : P)
    {s : Slot} (hs : s ∈ e'.outbound) : s ∈ e.outbound ∨ e.HasStandIn s := by
  have hall : s ∈ e.stack.flatMap Frame.outbound → s ∈ e.outbound := List.mem_append_right _
  have hbelow : ∀ {f : Frame} {rest : List Frame}, e.stack = f :: rest →
      s ∈ rest.flatMap Frame.outbound → s ∈ e.outbound := fun hs hm =>
    hall (by rw [hs]; exact List.mem_append_right _ hm)
  cases h with
  | idle hc => exact .inl hs
  | stops hstack hc => exact .inl (hall hs)
  | works hc h =>
    rw [h.outbound] at hs
    exact .inl (hall hs)
  | pops hstack hf hentry hc h =>
    rw [h.outbound] at hs
    exact .inl (hbelow hstack hs)
  | element hstack hc hv => exact .inl (hall hs)
  | startsArray hc hr =>
    rcases mem_outbound_nextElement hs with hs | hs
    · cases hs
    · exact .inl (hall hs)
  | nextElement hstack hc ha =>
    rcases mem_outbound_nextElement hs with hs | hs
    · rcases List.mem_append.1 hs with hs | hs
      · exact .inl (List.mem_append_left _ (by rw [hc]; exact hs))
      · exact .inl (hall (by rw [hstack]; exact List.mem_append_left _ hs))
    · exact .inl (hbelow hstack hs)
  -- Nothing else puts a slot on its way, and here it is that of a stand-in.
  | @names r slot record hc ha ho =>
    have hslots : record.slots = [slot] := by
      rcases hc with ⟨-, rfl⟩ | ⟨-, rfl⟩
      · exact Record.slots_managed slot
      · exact Record.slots_managedError slot
    rcases List.mem_append.1 hs with hs | hs
    · rw [show Control.outbound _ = record.slots from rfl, hslots, List.mem_singleton] at hs
      exact .inr (hs ▸ hasStandIn_of_entry hi hP ho)
    · exact .inl (hall hs)
  | @pins base r handle handles record hbase hin ha hr hinsert hrecord ho =>
    have hslots : record.slots = [] := by
      rcases hrecord with rfl | rfl
      · exact Record.slots_foreign handle
      · exact Record.slots_foreignError handle
    rcases List.mem_append.1 hs with hs | hs
    · rw [show Control.outbound _ = record.slots from rfl, hslots] at hs
      cases hs
    · rcases hbase with rfl | ⟨f, rest, hstack, -, -, rfl⟩
      · exact .inl (hall hs)
      · exact .inl (hbelow hstack hs)
  | replies hstack hc => exact .inl (hbelow hstack hs)
  | fails hstack hf hc =>
    rw [Engine.outbound, hc] at hs
    exact .inl (hbelow hstack hs)
  | takes hc =>
    rw [outbound_withValue, stack_convert] at hs
    exact .inl (hall hs)
  | startsItems hc =>
    rw [outbound_nextItem] at hs
    exact .inl (hall hs)
  | startsStandIn hc hr => exact .inl (hall hs)
  | places hstack hc hv => exact .inl (hbelow hstack hs)
  | nextItem hstack hc =>
    rw [outbound_nextItem] at hs
    exact .inl (hbelow hstack hs)
  | takesClass hstack hc =>
    rcases takeStandInClass_works with heq | ⟨heap, -, -, h⟩
    · rw [heq] at hs
      exact .inl (hbelow hstack hs)
    · rw [h.outbound] at hs
      exact .inl (hbelow hstack hs)
  | @enters slot rest v hstack hc =>
    cases v <;> exact .inl (hbelow hstack hs)
  | begins hc hb => cases hb <;> exact .inl (hall hs)
  | releases hc hr =>
    rw [Engine.outbound, show Control.outbound (.encoded .null) = [] from Record.slots_null] at hs
    exact .inl (hall hs)
  | collects hc =>
    rw [Engine.outbound, show Control.outbound (e.sweep.goto (.encoded .null)).control = [] from
      Record.slots_null] at hs
    exact .inl (hall hs)

/-- **A slot on its way to the host was on its way before, or has a stand-in.** -/
theorem step_outbound (hs : e.Shaped) (hh : e.Honest) {s : Slot}
    (hm : s ∈ e.step.1.outbound ++ e.step.2.outbound) : s ∈ e.outbound ∨ e.HasStandIn s := by
  cases hturn : e.step.2.isTurn with
  | true =>
    have hadvance := proceed_advance hs hh.sighted
    rw [(step_eq_proceed hturn).2] at hm hturn
    generalize e.proceed.1 = e', e.proceed.2 = ev at hadvance hm hturn
    have hall : s ∈ e.stack.flatMap Frame.outbound → s ∈ e.outbound := List.mem_append_right _
    cases hadvance with
    | @sends c result held rest r hstack hc =>
      rcases List.mem_append.1 hm with hm | hm
      · exact .inl (hall (by rw [hstack]; exact List.mem_append_right _ hm))
      · have hr : s ∈ r.slots := by cases c <;> exact hm
        exact .inl (List.mem_append_left _ (by rw [hc]; exact hr))
    | asks hc =>
      rcases List.mem_append.1 hm with hm | hm
      · exact .inl (hall hm)
      · exact .inl (List.mem_append_left _ (by rw [hc]; exact hm))
    | finishes hstack hc =>
      rcases List.mem_append.1 hm with hm | hm
      · refine .inl (hall ?_)
        rw [hstack]
        exact hm
      · exact .inl (List.mem_append_left _ (by rw [hc]; exact hm))
    | _ => cases hturn
  | false =>
    have hsilent : e.step.2.outbound = [] := by
      cases he : e.step.2 with
      | request req => rw [he] at hturn; cases hturn
      | finished r => rw [he] at hturn; cases hturn
      | _ => rfl
    rw [hsilent, List.append_nil] at hm
    cases hr : e.released with
    | cons slot rest =>
      rw [Engine.step, hr] at hm
      exact .inl hm
    | nil =>
      cases hu : e.unreferenced? with
      | some x =>
        rw [Engine.step, hr, hu] at hm
        exact .inl hm
      | none =>
        have hstep : e.step = e.proceed := by rw [Engine.step, hr, hu]
        rw [hstep] at hm hturn
        have hadvance := proceed_advance hs hh.sighted
        rw [hadvance.eq_silent hturn] at hadvance
        exact hadvance.outbound_of_silent hh.standIns trivial hm

end ScriptBridge.Engine
