/-
# The custody of slots

An engine answers for the slots that tokens keep, for those it has released and not yet
reported, and for those in records that are still on their way into script.  No step loses
one or answers for one twice: what an engine answered for before a step, it answers for
afterwards or has just reported.
-/
import Mathlib.Data.List.Perm.Basic
import ScriptBridge.Proofs.Engine.Shape

namespace ScriptBridge.Engine

open ScriptBridge.Script ScriptBridge.Table ScriptBridge.Wire

variable {P : Prop} {e₀ e e' : Engine}

/-- The slots that an engine answers for. -/
def custody (e : Engine) : List Slot :=
  e.heldSlots ++ e.released ++ e.control.inbound ++ e.stack.flatMap Frame.inbound

/-- The slot that an event reports. -/
def Event.removedSlots : Event → List Slot
  | .removed slot => [slot]
  | _ => []

/-! ### Collections -/

/-- Letting an object go gives its slot back. -/
lemma slotsOf_erase {h : Heap} (hs : h.Sound) {r : Ref} {o : Object} (hm : (r, o) ∈ h.objects) :
    (slotsOf h.objects).Perm (o.slot?.toList ++ slotsOf (h.erase r).objects) := by
  have hnodup := hs.nodup
  simp only [Heap.erase]
  generalize h.objects = objects at hm hnodup
  induction objects with
  | nil => cases hm
  | cons p objects ih =>
    obtain ⟨s, q⟩ := p
    rw [List.map_cons, List.nodup_cons] at hnodup
    rcases List.mem_cons.1 hm with heq | hm
    · cases heq
      have hkeep : objects.filter (fun x => decide (x.1 ≠ r)) = objects := by
        refine List.filter_eq_self.2 fun x hx => ?_
        have hne : x.1 ≠ r := fun h => hnodup.1 (h ▸ List.mem_map.2 ⟨x, hx, rfl⟩)
        simpa using hne
      rw [List.filter_cons_of_neg (by simp)]
      simp only [slotsOf, List.filterMap_cons, hkeep]
      cases o.slot? <;> exact .refl _
    · have hne : s ≠ r := fun h => hnodup.1 (h ▸ List.mem_map.2 ⟨(r, o), hm, rfl⟩)
      rw [List.filter_cons_of_pos (by simpa using hne)]
      have hperm := ih hm hnodup.2
      simp only [slotsOf, List.filterMap_cons] at hperm ⊢
      cases q.slot? with
      | none => exact hperm
      | some slot =>
        exact (hperm.cons slot).trans List.perm_middle.symm

/-- The places that a collection keeps. -/
def reached (e : Engine) : List Ref :=
  e.heap.reachable (List.range Intrinsic.count ++ e.roots)

/-- A collection keeps the objects that can be reached and releases the other slots. -/
lemma sweep_eq (e : Engine) : e.sweep =
    { e with
      heap := e.heap.restrict e.reached.contains
      released := e.released ++ slotsOf e.unreachable } := by
  have hobjects : (e.heap.objects.filter fun x => !(e.unreachable.map Prod.fst).contains x.1) =
      e.heap.objects.filter fun x => e.reached.contains x.1 := by
    refine List.filter_congr fun x hx => ?_
    rw [Bool.eq_iff_iff]
    simp only [unreachable, Bool.not_eq_true', List.contains_eq_mem, decide_eq_false_iff_not,
      decide_eq_true_eq, List.mem_map, List.mem_filter, reached]
    constructor
    · intro h
      by_contra hr
      exact h ⟨x, ⟨hx, hr⟩, rfl⟩
    · rintro hr ⟨y, ⟨-, hy⟩, he⟩
      exact hy (he ▸ hr)
  simp only [Engine.sweep, Heap.restrict, hobjects]

lemma slotsOf_sweep (e : Engine) :
    (slotsOf e.heap.objects).Perm
      (slotsOf (e.heap.restrict e.reached.contains).objects ++ slotsOf e.unreachable) := by
  have hperm := List.filter_append_perm (fun x : Ref × Object => e.reached.contains x.1)
    e.heap.objects
  exact (hperm.symm.filterMap _).trans (by rw [List.filterMap_append]; exact .refl _)

/-! ### Steps -/

lemma Control.inbound_of_quiet {c : Control} (hc : c.Quiet) : c.inbound = [] := by
  cases c <;> first | rfl | cases hc

lemma Frame.inbound_of_isQuiet {f : Frame} (hf : f.isQuiet = true) : f.inbound = [] := by
  cases f <;> first | rfl | cases hf

lemma Grown.inbound (h : Grown P e₀ e) :
    e.stack.flatMap Frame.inbound = e₀.stack.flatMap Frame.inbound := by
  obtain ⟨fs, hstack, hfs⟩ := h.stack
  have hnone : fs.flatMap Frame.inbound = [] :=
    List.flatMap_eq_nil_iff.2 fun f hf => Frame.inbound_of_isQuiet (hfs f hf).1
  rw [hstack, List.flatMap_append, hnone, List.nil_append]

lemma Grown.heldSlots (h : Grown P e₀ e) : e.heldSlots = e₀.heldSlots := h.heap.slots

/-- Work of script leaves the custody of slots alone. -/
lemma ScriptWork.custody (h : ScriptWork P e₀ e) :
    e.custody = e₀.heldSlots ++ e₀.released ++ e₀.stack.flatMap Frame.inbound := by
  cases h with
  | inner h hc hf hr =>
    rw [Engine.custody, Control.inbound_of_quiet hc, List.append_nil, h.heldSlots, h.released,
      h.inbound]
  | @asks e h slot name held hr hb =>
    have hslots : ((e.push (.awaiting none held)).goto (.ask (.get slot name))).custody =
        e.heldSlots ++ e.released ++ [] ++ ([] ++ e.stack.flatMap Frame.inbound) := rfl
    rw [hslots, List.append_nil, List.nil_append, h.heldSlots, h.released, h.inbound]
  | @sends e h call result held v hr hv hb =>
    have hslots : ((e.push (.sending call result held)).goto (.encode v 0)).custody =
        e.heldSlots ++ e.released ++ [] ++ ([] ++ e.stack.flatMap Frame.inbound) := rfl
    rw [hslots, List.append_nil, List.nil_append, h.heldSlots, h.released, h.inbound]

lemma custody_nextElement {array : Ref} {depth length index : Nat} {done : List Record} :
    (e.nextElement array depth length index done).custody =
      e.heldSlots ++ e.released ++ e.stack.flatMap Frame.inbound := by
  unfold Engine.nextElement
  split <;> simp [custody, push, goto, Control.inbound, Frame.inbound, heldSlots]

lemma custody_nextItem {array : Ref} {index : Nat} {items : List Record} :
    (e.nextItem array index items).custody =
      e.heldSlots ++ e.released ++ (Record.slotsOfItems items ++
        e.stack.flatMap Frame.inbound) := by
  cases items <;>
    simp [Engine.nextItem, custody, push, goto, give, Control.inbound, Frame.inbound, heldSlots,
      Record.slotsOfItems]

lemma custody_withValue (made : Outcome × Engine) :
    (withValue made give).custody =
      made.2.heldSlots ++ made.2.released ++ made.2.stack.flatMap Frame.inbound := by
  obtain ⟨v | v, e⟩ := made <;>
    simp [withValue, custody, give, goto, Control.inbound, heldSlots]

lemma Brings.inbound {op : Operation} {f : Frame} {r : Record} (h : Brings op f r) :
    (Control.begin op).inbound = r.slots ∧ f.inbound = [] := by
  cases h <;> exact ⟨rfl, rfl⟩

/-- Only reports take a slot out of the custody of an engine. -/
lemma Advance.removedSlots {ev : Event} (h : Advance P e e' ev) : ev.removedSlots = [] := by
  cases h <;> rfl

lemma Advance.custody {ev : Event} (h : Advance P e e' ev) (hs : e.Shaped) :
    e.custody.Perm e'.custody := by
  cases h with
  | idle hc => exact .refl _
  | stops hstack hc =>
    rw [Engine.custody, Control.inbound_of_quiet (Control.quiet_of_isInner hc)]
    exact .refl _
  | works hc h =>
    rw [h.custody, Engine.custody, hc, List.append_nil]
  | pops hstack hf hentry hc h =>
    rw [h.custody, Engine.custody, hc, hstack, List.append_nil, List.flatMap_cons, hf,
      List.nil_append]
    exact .refl _
  | element hstack hc hv =>
    rw [Engine.custody, hc]
    exact .refl _
  | startsArray hc hr =>
    rw [custody_nextElement, Engine.custody, hc]
    simp [Control.inbound]
  | nextElement hstack hc ha =>
    rw [custody_nextElement, Engine.custody, hc, hstack]
    simp [Control.inbound, Frame.inbound, Engine.heldSlots]
  | names hc ha ho =>
    have hin : e.control.inbound = [] := by
      rcases hc with ⟨⟨depth, hc⟩, -⟩ | ⟨hc, -⟩ <;> rw [hc] <;> rfl
    rw [Engine.custody, hin]
    exact .refl _
  | @pins base _ _ _ _ hbase hc ha hr hi hrecord ho =>
    rcases hbase with rfl | ⟨f, rest, hstack, hf, -, rfl⟩
    · rw [Engine.custody, hc]
      exact .refl _
    · rw [Engine.custody, hc, hstack, List.flatMap_cons, hf]
      exact .refl _
  | sends hstack hc =>
    rw [Engine.custody, hc, hstack]
    exact .refl _
  | asks hc =>
    rw [Engine.custody, hc]
    exact .refl _
  | finishes hstack hc =>
    rw [Engine.custody, hc, hstack]
    simp [Control.inbound, Frame.inbound, Engine.custody, Engine.heldSlots]
  | replies hstack hc =>
    rw [Engine.custody, hc, hstack]
    exact .refl _
  | @fails f array index items rest v hstack hf hc =>
    have hin : f.inbound = Record.slotsOfItems items := by
      rcases hf with rfl | rfl <;> rfl
    rw [Engine.custody, hc, hstack, List.flatMap_cons, hin]
    simp [Control.inbound, Engine.custody, Engine.heldSlots]
  -- The slots of the record go over to the stand-ins that are made of it.
  | @takes r hc =>
    have htakes := (takes_convert (P := False) e (shown_false e _) r).1
    rw [custody_withValue, htakes.stack, Engine.custody, hc]
    refine List.Perm.append_right _ ((List.perm_append_comm).trans ?_)
    exact htakes.custody.symm
  | startsItems hc =>
    rw [custody_nextItem, Engine.custody, hc, ← List.append_assoc]
    refine List.Perm.append_right _ (List.Perm.append_right _ ?_)
    exact .refl _
  | @startsStandIn r slot hc hr =>
    have hin : e.control.inbound = [slot] := by rw [hc]; exact hr
    have hout : (e.startStandIn slot).custody =
        slot :: e.heldSlots ++ e.released ++ [] ++ ([] ++ e.stack.flatMap Frame.inbound) := rfl
    rw [hout, Engine.custody, hin, List.append_nil, List.nil_append]
    refine List.Perm.append_right _ ?_
    exact List.perm_append_comm
  | places hstack hc hv =>
    rw [Engine.custody, hc, hstack]
    exact .refl _
  | nextItem hstack hc =>
    rw [custody_nextItem, Engine.custody, hc, hstack]
    simp [Control.inbound, Frame.inbound, Engine.heldSlots]
  | takesClass hstack hc =>
    rw [Engine.custody, hc, hstack]
    rcases takeStandInClass_works with heq | ⟨heap, -, hslots, h⟩
    · rw [heq]
      exact .refl _
    · rw [h.custody]
      simp [Control.inbound, Frame.inbound, Engine.heldSlots, hslots]
  | @enters slot rest v hstack hc =>
    rw [Engine.custody, hc, hstack]
    cases v with
    | object r =>
      have hheld : slotsOf (e.heap.update r ({ · with entry := some slot })).objects =
          e.heldSlots := Heap.slotsOf_update _ _ fun _ => rfl
      rw [← hheld]
      exact .refl _
    | _ => exact .refl _
  | @begins op f r hc hb =>
    obtain ⟨hin, hf⟩ := hb.inbound
    rw [Engine.custody, hc, hin]
    simp [Engine.custody, Engine.push, Engine.goto, Control.inbound, hf, Engine.heldSlots]
  | releases hc hr =>
    rw [Engine.custody, hc]
    exact .refl _
  -- What is swept lets go of its slots, and these are still to be reported.
  | collects hc =>
    rw [sweep_eq, Engine.custody, hc]
    have hperm := (slotsOf_sweep e).append_right e.released
    refine (List.Perm.append_right [] (hperm.trans ?_)).append_right _
    simp only [goto, Engine.heldSlots, List.append_assoc]
    exact List.Perm.append_left _ List.perm_append_comm

/-- **No step loses a slot or answers for one twice.** -/
theorem step_custody (hs : e.Shaped) (hsound : e.heap.Sound) (hc : e.connected = true) :
    e.custody.Perm (e.step.2.removedSlots ++ e.step.1.custody) := by
  unfold Engine.step
  split
  · next slot rest hr =>
    rw [reportSlot, if_pos hc, custody, hr]
    simp only [Event.removedSlots, custody, heldSlots, List.append_assoc, List.cons_append,
      List.nil_append]
    exact List.perm_middle
  · next hr =>
    split
    · next r o hfound =>
      have hm : (r, o) ∈ e.heap.objects := List.mem_of_find?_eq_some hfound
      have hperm := slotsOf_erase hsound hm
      have hremoved : Event.removedSlots (o.slot?.elim .silent e.reportSlot) =
          o.slot?.toList := by
        cases o.slot? with
        | none => rfl
        | some slot => simp [reportSlot, hc, Event.removedSlots]
      rw [hremoved, custody, custody]
      simp only [heldSlots, List.append_assoc]
      refine (hperm.append_right _).trans ?_
      rw [List.append_assoc]
    · rw [(proceed_advance_false hs).removedSlots]
      exact (proceed_advance_false hs).custody hs

/-- An engine that is entered answers for the slots that the operation brings as well. -/
lemma custody_enter (e : Engine) (op : Operation) :
    (e.enter op).custody.Perm ((Control.begin op).inbound ++ e.custody) := by
  refine List.perm_iff_count.2 fun s => ?_
  simp only [custody, enter, heldSlots, List.flatMap_cons, Frame.inbound, List.count_append]
  omega

/-- An engine that gets an answer answers for the slots in it as well. -/
lemma custody_answer (hc : e.control.inbound = []) (r : Record) :
    (e.answer r).custody.Perm (r.slots ++ e.custody) := by
  have hanswer : (e.answer r).custody =
      e.heldSlots ++ e.released ++ r.slots ++ e.stack.flatMap Frame.inbound := rfl
  rw [hanswer]
  refine List.perm_iff_count.2 fun s => ?_
  simp only [custody, hc, List.count_append, List.count_nil]
  omega

/-! ### Reports reach the host -/

lemma ScriptWork.connected (h : ScriptWork P e₀ e) : e.connected = e₀.connected := by
  cases h with
  | inner h hc hf hr => exact h.connected
  | asks h name hr hb => exact h.connected
  | sends h hr hv hb => exact h.connected

lemma Advance.connected {ev : Event} (h : Advance P e e' ev) :
    e'.connected = e.connected := by
  cases h with
  | works hc h => exact h.connected
  | pops hstack hf hentry hc h => exact h.connected
  | startsArray hc hr => unfold Engine.nextElement; split <;> rfl
  | nextElement hstack hc ha => unfold Engine.nextElement; split <;> rfl
  | @pins base _ _ _ _ hbase hc ha hr hi hrecord ho =>
    rcases hbase with rfl | ⟨f, rest, -, -, -, rfl⟩ <;> rfl
  | @takes r hc =>
    have hconnected := (takes_convert (P := False) e (shown_false e _) r).1.connected
    generalize e.convert r = made at hconnected ⊢
    obtain ⟨v | v, e'⟩ := made <;> exact hconnected
  | startsItems hc => unfold Engine.nextItem; split <;> rfl
  | nextItem hstack hc => unfold Engine.nextItem; split <;> rfl
  | takesClass hstack hc =>
    rcases takeStandInClass_works with heq | ⟨heap, -, -, h⟩
    · rw [heq]
      rfl
    · exact h.connected
  | @enters slot rest v hstack hc => cases v <;> rfl
  | collects hc => rw [sweep_eq]; rfl
  | _ => rfl

/-- An engine at work never stops reporting to the host. -/
lemma connected_step (hs : e.Shaped) : e.step.1.connected = e.connected := by
  unfold Engine.step
  split
  · rfl
  · split
    · rfl
    · exact (proceed_advance_false hs).connected

/-! ### Soundness of the heap -/

lemma ScriptWork.sound (h : ScriptWork P e₀ e) (hs : e₀.heap.Sound) : e.heap.Sound := by
  cases h with
  | inner h hc hf hr => exact h.heap.sound hs
  | asks h name hr hb => exact h.heap.sound hs
  | sends h hr hv hb => exact h.heap.sound hs

lemma Advance.sound {ev : Event} (h : Advance P e e' ev) (hs : e.heap.Sound) :
    e'.heap.Sound := by
  cases h with
  | works hc h => exact h.sound hs
  | pops hstack hf hentry hc h => exact h.sound hs
  | startsArray hc hr => unfold Engine.nextElement; split <;> exact hs
  | nextElement hstack hc ha => unfold Engine.nextElement; split <;> exact hs
  | @pins base _ _ _ _ hbase hc ha hr hi hrecord ho =>
    rcases hbase with rfl | ⟨f, rest, -, -, -, rfl⟩ <;> exact hs
  | @takes r hc =>
    have hsound := (takes_convert (P := False) e (shown_false e _) r).1.sound hs
    generalize e.convert r = made at hsound ⊢
    obtain ⟨v | v, e'⟩ := made <;> exact hsound
  | startsItems hc => unfold Engine.nextItem; split <;> exact hs.alloc _
  | startsStandIn hc hr => exact hs.alloc _
  | nextItem hstack hc => unfold Engine.nextItem; split <;> exact hs
  | takesClass hstack hc =>
    rcases takeStandInClass_works with heq | ⟨heap, hsound, -, h⟩
    · rw [heq]
      exact hs.alloc _
    · exact h.sound (hsound hs)
  | @enters slot rest v hstack hc =>
    cases v with
    | object r =>
      exact Heap.Sound.update (h := e.heap) hs r fun o => { o with entry := some slot }
    | _ => exact hs
  | collects hc =>
    rw [sweep_eq]
    exact hs.restrict _
  | _ => exact hs

/-- The heap stays sound. -/
lemma sound_step (hs : e.Shaped) (hsound : e.heap.Sound) : e.step.1.heap.Sound := by
  unfold Engine.step
  split
  · exact hsound
  · split
    · next r o hfound => exact Heap.Sound.restrict (h := e.heap) hsound fun s => decide (s ≠ r)
    · exact (proceed_advance_false hs).sound hsound

end ScriptBridge.Engine
