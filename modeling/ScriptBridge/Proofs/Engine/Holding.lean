/-
# The handles that an engine holds

A handle that an engine has handed out stays with it until the record that names it reaches
the host, and so does a handle that the engine has been told to give up.  A step enters one
object under a vacant handle, or it gives up one handle, or it leaves the table of handles
alone; none of them loses or doubles a handle on its way.
-/
import ScriptBridge.Proofs.Engine.Shape
import ScriptBridge.Proofs.Table.Handles

namespace ScriptBridge.Engine

open ScriptBridge.Script ScriptBridge.Table ScriptBridge.Wire

variable {P : Prop} {e₀ e e' : Engine}

/-- The handles that a request brings to the host. -/
def Request.holding : Request → List Handle
  | .get .. => []
  | .set _ _ r => r.handles
  | .invoke _ r => r.handles

/-- The handles in what is about to be done, on their way to the host or to be given up. -/
def Control.holding : Control → List Handle
  | .encoded r => r.handles
  | .ask req => req.holding
  | .begin (.release h) => [h]
  | _ => []

/-- The handles that a frame keeps on their way to the host, or to be given up. -/
def Frame.holding : Frame → List Handle
  | .elements _ _ _ _ done => Record.handlesOfItems done
  | .entry c => c.holding
  | _ => []

/-- The handles that an event brings to the host. -/
def Event.holding : Event → List Handle
  | .request req => req.holding
  | .finished r => r.handles
  | _ => []

/-- The handles that an operation brings along, on their way into script. -/
def Operation.given : Operation → List Handle
  | .setGlobal _ r | .setMember _ _ r | .invokeMember _ _ r => r.handles
  | _ => []

/-- The handles that an engine has handed out and not sent yet, or is to give up. -/
def holding (e : Engine) : List Handle := e.control.holding ++ e.stack.flatMap Frame.holding

/-- What becomes of the handles of an engine. -/
inductive Turns (e e' : Engine) (sent : List Handle) : Prop
  /-- The table stays as it is. -/
  | keeps (ht : e'.handles = e.handles)
    (hp : ∀ h, (e'.holding ++ sent).count h ≤ e.holding.count h)
  /-- An object is entered. -/
  | pins {h : Handle} {r : Ref} (ho : e.Exports r)
    (hi : e.handles.insert r = some (h, e'.handles))
    (hp : ∀ g, (e'.holding ++ sent).count g ≤ (h :: e.holding).count g)
  /-- A handle is given up. -/
  | drops {h : Handle} {r : Ref} (hr : e.handles.remove h = some (r, e'.handles))
    (hp : ∀ g, (h :: (e'.holding ++ sent)).count g ≤ e.holding.count g)

/-! ### What the parts of a step hold -/

@[simp] lemma Event.holding_silent : Event.silent.holding = [] := rfl

lemma Control.holding_of_quiet {c : Control} (hc : c.Quiet) : c.holding = [] := by
  cases c <;> first | rfl | exact hc.handles | exact hc.elim

lemma Frame.holding_of_isQuiet {f : Frame} (hf : f.isQuiet = true) : f.holding = [] := by
  cases f <;> first | rfl | cases hf

lemma Grown.holding (h : Grown P e₀ e) :
    e.stack.flatMap Frame.holding = e₀.stack.flatMap Frame.holding := by
  obtain ⟨fs, hstack, hfs⟩ := h.stack
  have hnone : fs.flatMap Frame.holding = [] :=
    List.flatMap_eq_nil_iff.2 fun f hf => Frame.holding_of_isQuiet (hfs f hf).1
  rw [hstack, List.flatMap_append, hnone, List.nil_append]

/-- Work of script leaves all handles alone. -/
lemma ScriptWork.holding (h : ScriptWork P e₀ e) :
    e.handles = e₀.handles ∧ e.holding = e₀.stack.flatMap Frame.holding := by
  cases h with
  | inner h hc hf hr =>
    refine ⟨h.handles, ?_⟩
    rw [Engine.holding, Control.holding_of_quiet hc, h.holding, List.nil_append]
  | asks h name hr hb => exact ⟨h.handles, h.holding⟩
  | sends h hr hv hb => exact ⟨h.handles, h.holding⟩

lemma Brings.given {op : Operation} {f : Frame} {r : Record} (h : Brings op f r) :
    op.given = r.handles := by
  cases h <;> rfl

lemma Brings.holding {op : Operation} {f : Frame} {r : Record} (h : Brings op f r) :
    (Control.begin op).holding = [] ∧ f.holding = [] := by
  cases h <;> exact ⟨rfl, rfl⟩

lemma count_handlesOfItems_reverse (rs : List Record) (h : Handle) :
    (Record.handlesOfItems rs.reverse).count h = (Record.handlesOfItems rs).count h := by
  induction rs with
  | nil => rfl
  | cons r rs ih =>
    simp only [List.reverse_cons, Record.handlesOfItems_append, Record.handlesOfItems,
      List.append_nil, List.count_append, ih]
    omega

lemma count_holding_nextElement {array : Ref} {depth length index : Nat} {done : List Record}
    (h : Handle) : (e.nextElement array depth length index done).holding.count h =
      (Record.handlesOfItems done).count h + (e.stack.flatMap Frame.holding).count h := by
  unfold Engine.nextElement
  split <;> simp [holding, push, goto, Control.holding, Frame.holding,
    count_handlesOfItems_reverse]

lemma handles_nextElement {array : Ref} {depth length index : Nat} {done : List Record} :
    (e.nextElement array depth length index done).handles = e.handles := by
  unfold Engine.nextElement
  split <;> rfl

lemma holding_nextItem {array : Ref} {index : Nat} {items : List Record} :
    (e.nextItem array index items).holding = e.stack.flatMap Frame.holding := by
  cases items <;> rfl

lemma handles_nextItem {array : Ref} {index : Nat} {items : List Record} :
    (e.nextItem array index items).handles = e.handles := by
  cases items <;> rfl

lemma holding_withValue (made : Outcome × Engine) :
    (withValue made give).holding = made.2.stack.flatMap Frame.holding := by
  obtain ⟨v | v, e⟩ := made <;> rfl

lemma handles_withValue (made : Outcome × Engine) :
    (withValue made give).handles = made.2.handles := by
  obtain ⟨v | v, e⟩ := made <;> rfl

/-! ### Steps -/

/-- The table stays as it is, and nothing is held that was not held by the frames before. -/
lemma Turns.of_frames {sent : List Handle} (ht : e'.handles = e.handles)
    (hp : e'.holding ++ sent = e.stack.flatMap Frame.holding) : Turns e e' sent := by
  refine .keeps ht fun h => ?_
  rw [hp, holding, List.count_append]
  omega

/-- The same where the frame on top has gone. -/
lemma Turns.of_frames_cons {sent : List Handle} {f : Frame} {rest : List Frame}
    (hs : e.stack = f :: rest) (ht : e'.handles = e.handles)
    (hp : e'.holding ++ sent = rest.flatMap Frame.holding) : Turns e e' sent := by
  refine .keeps ht fun h => ?_
  rw [hp, holding, hs, List.flatMap_cons, List.count_append, List.count_append]
  omega

lemma Advance.turns {ev : Event} (h : Advance P e e' ev) : Turns e e' ev.holding := by
  cases h with
  | idle hc => exact .keeps rfl fun h => by simp
  | stops hstack hc => exact .of_frames rfl (List.append_nil _)
  | works hc h =>
    exact .of_frames h.holding.1 (by rw [h.holding.2]; exact List.append_nil _)
  | pops hstack hf hentry hc h =>
    exact .of_frames_cons hstack h.holding.1 (by rw [h.holding.2]; exact List.append_nil _)
  | element hstack hc hv => exact .of_frames rfl (List.append_nil _)
  | startsArray hc hr =>
    refine .keeps handles_nextElement fun h => ?_
    rw [Event.holding_silent, List.append_nil, count_holding_nextElement, holding,
      List.count_append]
    simp [Record.handlesOfItems]
  | nextElement hstack hc ha =>
    refine .keeps handles_nextElement fun h => ?_
    rw [Event.holding_silent, List.append_nil, count_holding_nextElement, holding, hc, hstack]
    simp only [Control.holding, Frame.holding, Record.handlesOfItems, List.flatMap_cons,
      List.count_append]
    omega
  | @names r slot record hc ha ho =>
    refine .of_frames rfl ?_
    have hnone : record.handles = [] := by
      rcases hc with ⟨-, rfl⟩ | ⟨-, rfl⟩ <;> simp
    rw [Event.holding_silent, List.append_nil, holding, goto, Control.holding, hnone,
      List.nil_append]
  | @pins base r handle handles record hbase hin ha hr hi hrecord ho =>
    refine .pins ho hi fun g => ?_
    have hone : record.handles = [handle] := by
      rcases hrecord with rfl | rfl <;> simp
    have hstack : (base.stack.flatMap Frame.holding).count g ≤
        (e.stack.flatMap Frame.holding).count g := by
      rcases hbase with rfl | ⟨f, rest, hs, -, -, rfl⟩
      · exact Nat.le_refl _
      · rw [hs, List.flatMap_cons, List.count_append]
        exact Nat.le_add_left ..
    simp only [Event.holding_silent, holding, Control.holding, hone, List.append_nil,
      List.count_append,
      List.count_cons, List.count_nil]
    omega
  | @sends c result held rest r hstack hc =>
    refine .keeps rfl fun h => ?_
    have hr : (c.request r).holding = r.handles := by cases c <;> rfl
    simp only [Event.holding, hr, holding, hc, hstack, Control.holding, Frame.holding,
      List.flatMap_cons, List.nil_append, List.count_append]
    omega
  | asks hc =>
    refine .keeps rfl fun h => ?_
    simp only [Event.holding, holding, hc, goto, Control.holding, List.nil_append,
      List.count_append]
    omega
  | finishes hstack hc =>
    refine .keeps rfl fun h => ?_
    simp only [Event.holding, holding, hc, hstack, Control.holding, Frame.holding,
      List.flatMap_cons, List.count_append]
    omega
  | replies hstack hc => exact .of_frames_cons hstack rfl (List.append_nil _)
  | fails hstack hf hc =>
    refine .of_frames_cons hstack rfl ?_
    rw [Event.holding_silent, List.append_nil, holding, hc]
    rfl
  | takes hc =>
    refine .of_frames ?_ ?_
    · rw [handles_withValue]
      exact (takes_convert (P := False) e (shown_false e _) _).1.handles
    · rw [holding_withValue, stack_convert]
      exact List.append_nil _
  | startsItems hc =>
    exact .of_frames handles_nextItem (by rw [holding_nextItem]; exact List.append_nil _)
  | startsStandIn hc hr => exact .of_frames rfl (List.append_nil _)
  | places hstack hc hv => exact .of_frames_cons hstack rfl (List.append_nil _)
  | nextItem hstack hc =>
    exact .of_frames_cons hstack handles_nextItem
      (by rw [holding_nextItem]; exact List.append_nil _)
  | takesClass hstack hc =>
    rcases takeStandInClass_works with heq | ⟨heap, -, -, h⟩
    · rw [heq]
      exact .of_frames_cons hstack rfl (List.append_nil _)
    · refine .of_frames_cons hstack h.holding.1 ?_
      rw [h.holding.2]
      exact List.append_nil _
  | @enters slot rest v hstack hc =>
    cases v <;> exact .of_frames_cons hstack rfl (List.append_nil _)
  | begins hc hb => cases hb <;> exact .of_frames rfl (List.append_nil _)
  | releases hc hr =>
    refine .drops hr fun g => ?_
    simp only [Event.holding_silent, holding, hc, Control.holding, Record.handles_null,
      List.nil_append,
      List.append_nil, List.count_append, List.count_cons, List.count_nil]
    omega
  | collects hc =>
    refine .of_frames rfl ?_
    rw [Event.holding_silent, List.append_nil, holding, goto, Control.holding,
      Record.handles_null, List.nil_append]
    rfl

/-- **A step enters one object under a vacant handle, or it gives up one handle, or it leaves
the table of handles alone.** -/
theorem step_turns (hs : e.Shaped) : Turns e e.step.1 e.step.2.holding := by
  -- What is let go of before an operation goes on has no handle.
  have hreport : ∀ slot, (e.reportSlot slot).holding = [] := by
    intro slot
    unfold reportSlot
    split <;> rfl
  unfold Engine.step
  split
  · refine .keeps rfl fun h => ?_
    rw [hreport, List.append_nil]
    exact Nat.le_refl _
  · split
    · next r o hfound =>
      refine .keeps rfl fun h => ?_
      have hsent : Event.holding (o.slot?.elim .silent e.reportSlot) = [] := by
        cases o.slot? with
        | none => rfl
        | some slot => exact hreport slot
      rw [hsent, List.append_nil]
      exact Nat.le_refl _
    · exact (proceed_advance_false hs).turns

end ScriptBridge.Engine
