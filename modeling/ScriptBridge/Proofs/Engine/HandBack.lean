/-
# Every slot comes back once

Whatever host an engine works for, that host enters it, answers its requests and hears which
slots script let go of, in any order and nested to any depth.  The slots that an engine
accepted are those it has reported and those it answers for; once it is at rest, it answers
for nothing but what its tokens keep, and that it reports when it is destroyed.
-/
import ScriptBridge.Proofs.Engine.Rest

namespace ScriptBridge.Engine

open ScriptBridge.Table ScriptBridge.Wire

variable {maxDepth maxLength : Nat} {maxCalls : Option Nat} {e : Engine}
  {accepted reported : List Slot}

/-- The slots in the value that an operation brings along. -/
def Operation.slots : Operation → List Slot
  | .setGlobal _ r | .setMember _ _ r | .invokeMember _ _ r => r.slots
  | _ => []

lemma Operation.inbound_begin (op : Operation) : (Control.begin op).inbound = op.slots := by
  cases op <;> rfl

/-- The states of an engine whose host keeps listening, with the slots it has accepted and
those it has reported so far.  The host may enter it at any time, and while a request waits
for its answer it may answer with any record. -/
inductive Served (maxDepth maxLength : Nat) (maxCalls : Option Nat) : Engine → List Slot →
    List Slot → Prop
  | start : Served maxDepth maxLength maxCalls (start maxDepth maxLength maxCalls) [] []
  | step {e : Engine} {accepted reported : List Slot}
    (h : Served maxDepth maxLength maxCalls e accepted reported) :
    Served maxDepth maxLength maxCalls e.step.1 accepted (e.step.2.removedSlots ++ reported)
  | enter {e : Engine} {accepted reported : List Slot}
    (h : Served maxDepth maxLength maxCalls e accepted reported) (op : Operation) :
    Served maxDepth maxLength maxCalls (e.enter op) (op.slots ++ accepted) reported
  | answer {e : Engine} {accepted reported : List Slot}
    (h : Served maxDepth maxLength maxCalls e accepted reported) (hc : e.control = .idle)
    (hs : ∃ result held rest, e.stack = .awaiting result held :: rest) (r : Record) :
    Served maxDepth maxLength maxCalls (e.answer r) (r.slots ++ accepted) reported

/-! ### Where all operations have ended -/

/-- Beneath the outermost operation an engine does nothing. -/
inductive Grounded : Control → List Frame → Prop
  | idle {c : Control} {stack : List Frame} (hc : c = .idle) (hs : stack = []) :
    Grounded c stack
  | within {c c' : Control} {stack rest : List Frame} (hb : below stack = some (c', rest))
    (h : Grounded c' rest) : Grounded c stack

namespace Grounded

variable {c c' : Control} {stack stack' : List Frame}

lemma exists_of_ne_nil (h : Grounded c stack) (hs : stack ≠ []) :
    ∃ c' rest, Engine.below stack = some (c', rest) ∧ Grounded c' rest := by
  cases h with
  | idle _ hnil => exact absurd hnil hs
  | within hb h => exact ⟨_, _, hb, h⟩

lemma eq_idle (h : Grounded c stack) (hs : stack = []) : c = .idle := by
  cases h with
  | idle hc => exact hc
  | within hb h =>
    rw [hs] at hb
    cases hb

end Grounded

/-- What an engine keeps whatever its host does. -/
structure Regular (e : Engine) : Prop where
  shaped : e.Shaped
  sound : e.heap.Sound
  connected : e.connected = true
  grounded : Grounded e.control e.stack
  clean : e.stack = [] → e.Clean

lemma regular_start (maxDepth maxLength : Nat) (maxCalls : Option Nat) :
    (start maxDepth maxLength maxCalls).Regular where
  shaped := shaped_start maxDepth maxLength maxCalls
  sound := sound_initial
  connected := rfl
  grounded := .idle rfl rfl
  clean _ := clean_start maxDepth maxLength maxCalls

/-- An engine at rest has nothing to do. -/
lemma Regular.step_eq (hr : e.Regular) (hs : e.stack = []) : e.step = (e, .silent) := by
  obtain ⟨hreleased, hunreferenced⟩ := hr.clean hs
  simp only [Engine.step, hreleased, hunreferenced, Engine.proceed, hr.grounded.eq_idle hs]

lemma Regular.step (hr : e.Regular) : e.step.1.Regular := by
  by_cases hs : e.stack = []
  · rw [hr.step_eq hs]
    exact hr
  have hshaped := hr.shaped.step
  have hsound := sound_step hr.shaped hr.sound
  have hconnected := (connected_step hr.shaped).trans hr.connected
  obtain ⟨c, rest, hb, hground⟩ := hr.grounded.exists_of_ne_nil hs
  by_cases he : ∃ r, e.step.2 = .finished r
  · obtain ⟨r, he⟩ := he
    obtain ⟨hclean, -, c', rest', hstack, hstep⟩ := step_finished hr.shaped he
    refine ⟨hshaped, hsound, hconnected, ?_, fun _ => hclean⟩
    rw [hstack] at hb
    cases hb
    rw [hstep]
    exact hground
  · have hbelow := (step_below hr.shaped fun r h => he ⟨r, h⟩).trans hb
    refine ⟨hshaped, hsound, hconnected, .within hbelow hground, fun hempty => ?_⟩
    rw [hempty] at hbelow
    cases hbelow

lemma Regular.enter (hr : e.Regular) (op : Operation) : (e.enter op).Regular where
  shaped := hr.shaped.enter op
  sound := hr.sound
  connected := hr.connected
  grounded := .within rfl hr.grounded
  clean h := by cases h

lemma Regular.answer (hr : e.Regular)
    (hs : ∃ result held rest, e.stack = .awaiting result held :: rest) (r : Record) :
    (e.answer r).Regular := by
  obtain ⟨result, held, rest, hstack⟩ := hs
  have hne : e.stack ≠ [] := by simp [hstack]
  obtain ⟨c, below, hb, hground⟩ := hr.grounded.exists_of_ne_nil hne
  exact ⟨hr.shaped.answer hstack r, hr.sound, hr.connected, .within hb hground,
    fun h => absurd h hne⟩

lemma custody_start (maxDepth maxLength : Nat) (maxCalls : Option Nat) :
    (start maxDepth maxLength maxCalls).custody = [] := by
  have hheld : slotsOf Script.Heap.initial.objects = [] := by decide +kernel
  simp [custody, start, heldSlots, hheld, Control.inbound]

namespace Served

theorem regular (h : Served maxDepth maxLength maxCalls e accepted reported) : e.Regular := by
  induction h with
  | start => exact regular_start maxDepth maxLength maxCalls
  | step _ ih => exact ih.step
  | enter _ op ih => exact ih.enter op
  | answer _ _ hs r ih => exact ih.answer hs r

/-! ### The books balance -/

/-- **What was accepted has been reported or is answered for.** -/
theorem accepted_perm (h : Served maxDepth maxLength maxCalls e accepted reported) :
    accepted.Perm (e.custody ++ reported) := by
  induction h with
  | start =>
    rw [custody_start]
    exact .refl _
  | @step e accepted reported h ih =>
    have hr := h.regular
    have hstep := step_custody hr.shaped hr.sound hr.connected
    refine (ih.trans (hstep.append_right _)).trans ?_
    rw [← List.append_assoc e.step.1.custody]
    exact List.perm_append_comm.append_right _
  | enter h op ih =>
    refine (ih.append_left op.slots).trans ?_
    rw [← List.append_assoc, ← op.inbound_begin]
    exact ((custody_enter _ op).append_right _).symm
  | answer h hc hs r ih =>
    refine (ih.append_left r.slots).trans ?_
    rw [← List.append_assoc]
    exact ((custody_answer (by rw [hc]; rfl) r).append_right _).symm

end Served

/-- **Every slot comes back once.**  Once an engine is at rest and destroyed, it has reported
each slot as often as it occurred in the values that the engine accepted. -/
theorem count_reported (h : Served maxDepth maxLength maxCalls e accepted reported)
    (hs : e.stack = []) (slot : Slot) :
    (e.destroy ++ reported).count slot = accepted.count slot := by
  have hr := h.regular
  have hcustody : e.custody = e.destroy := by
    rw [custody, destroy, if_pos hr.connected, (hr.clean hs).released,
      hr.grounded.eq_idle hs, hs]
    simp [Control.inbound]
  rw [h.accepted_perm.count_eq, hcustody]

/-! ### A run -/

/-- So many steps, with the slots they report. -/
def steps : Nat → Engine → Engine × List Slot
  | 0, e => (e, [])
  | n + 1, e => ((steps n e.step.1).1, (steps n e.step.1).2 ++ e.step.2.removedSlots)

lemma Served.steps (h : Served maxDepth maxLength maxCalls e accepted reported) (n : Nat) :
    Served maxDepth maxLength maxCalls (e.steps n).1 accepted ((e.steps n).2 ++ reported) := by
  induction n generalizing e reported with
  | zero => exact h
  | succ n ih =>
    rw [Engine.steps, List.append_assoc]
    exact ih h.step

/-- The slot that two records name. -/
def zeroSlot : Slot := ⟨0, by decide⟩

/-- An array with two slots, a handle that nothing was entered under, and another slot. -/
def brokenArray : Record :=
  .array [.managed zeroSlot, .managedError ⟨1, by decide⟩,
    .foreign ⟨9, by decide, by decide⟩, .array [.managed zeroSlot]]

/-- An engine that has taken a host entry for a global, and what it has reported. -/
def servedOnce : Engine × List Slot :=
  steps 60 ((start 8 8 none).enter (.setGlobal "x" (.managed zeroSlot)))

/-- The same engine after it could not take an array. -/
def servedTwice : Engine × List Slot := steps 60 (servedOnce.1.enter (.setGlobal "y" brokenArray))

lemma served_servedOnce : Served 8 8 none servedOnce.1 [zeroSlot] (servedOnce.2 ++ []) := by
  have h := ((Served.start : Served 8 8 none _ [] []).enter
    (.setGlobal "x" (.managed zeroSlot))).steps 60
  rwa [Operation.slots, Record.slots_managed] at h

lemma served_servedTwice :
    Served 8 8 none servedTwice.1 (brokenArray.slots ++ [zeroSlot]) servedTwice.2 := by
  have hnone : servedOnce.2 = [] := by decide +kernel
  have h := (served_servedOnce.enter (.setGlobal "y" brokenArray)).steps 60
  rwa [hnone, List.append_nil, List.append_nil] at h

/-- The slots of an array come back although it could not be taken as a whole; a slot that
was taken as a global comes back when the engine is destroyed. -/
theorem count_reported_broken :
    Served 8 8 none servedTwice.1 (brokenArray.slots ++ [zeroSlot]) servedTwice.2 ∧
      servedTwice.1.stack = [] ∧ servedTwice.1.destroy = [zeroSlot] ∧
      servedTwice.2.length = 3 ∧ ∀ slot, (servedTwice.1.destroy ++ servedTwice.2).count slot =
        (brokenArray.slots ++ [zeroSlot]).count slot := by
  have hs : servedTwice.1.stack = [] := by
    have hempty : servedTwice.1.stack.isEmpty = true := by decide +kernel
    exact List.isEmpty_iff.1 hempty
  exact ⟨served_servedTwice, hs, by decide +kernel, by decide +kernel,
    count_reported served_servedTwice hs⟩

end ScriptBridge.Engine
