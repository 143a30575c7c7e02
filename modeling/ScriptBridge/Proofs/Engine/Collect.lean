/-
# What a collection leaves

A collection leaves only objects that can be reached from what is always there, from what
the host refers to and from what is still to be done.  Until the operation has ended, the
engine does nothing but report the slots that it has released.
-/
import ScriptBridge.Proofs.Engine.Rest
import ScriptBridge.Proofs.Script.Reach

namespace ScriptBridge

open ScriptBridge.Script ScriptBridge.Table ScriptBridge.Wire

namespace Script.Heap

variable {h : Heap} {roots : List Ref} {r : Ref} {o : Object}

/-- **A search finds every object that can be reached.** -/
theorem mem_reachable_of_reaches (hr : h.Reaches roots r) (ho : (h.get? r).isSome) :
    r ∈ h.reachable roots := by
  induction hr with
  | root hr => exact subset_reach _ hr
  | @step r l o hr hg hl ih =>
    exact closed_reachable h roots r o l hg (ih (by rw [hg]; rfl)) hl ho

/-- What can be reached can still be reached once all other objects are gone. -/
lemma Reaches.restrict (hr : h.Reaches roots r) :
    (h.restrict (h.reachable roots).contains).Reaches roots r := by
  induction hr with
  | root hr => exact .root hr
  | @step r l o hr hg hl ih =>
    refine .step ih ?_ hl
    have hm := mem_reachable_of_reaches hr (by rw [hg]; rfl)
    rw [get?_restrict, if_pos (by simpa using hm)]
    exact hg

end Script.Heap

namespace Engine

variable {e : Engine} {c : Control} {rest : List Frame}

/-- Every object can be reached. -/
def AllReached (e : Engine) : Prop :=
  ∀ r o, e.heap.get? r = some o → e.heap.Reaches (List.range Intrinsic.count ++ e.roots) r

/-- An engine collects, or has collected and says so next. -/
inductive Collects (e : Engine) : Prop
  /-- It is about to collect. -/
  | starts (hc : e.control = .begin .collect)
  /-- It has collected. -/
  | ends (hc : e.control = .encoded .null) (hr : e.AllReached)

lemma allReached_sweep (hs : e.heap.Sound) : e.sweep.AllReached := by
  intro r o hr
  rw [sweep_eq] at hr ⊢
  have hget : (e.heap.restrict e.reached.contains).get? r = some o := hr
  rw [Heap.get?_restrict] at hget
  split at hget
  · next hm =>
    have hm' : r ∈ e.reached := by simpa using hm
    exact (Heap.reaches_of_mem_reach hs _ (fun _ => .root) hm').restrict
  · cases hget

/-- What can be reached is referred to. -/
lemma AllReached.unreferenced (hr : e.AllReached) (hs : e.heap.Sound) :
    e.unreferenced? = none := by
  refine List.find?_eq_none.2 fun x hx => ?_
  obtain ⟨r, o⟩ := x
  have hreaches := hr r o (hs.get?_of_mem hx)
  simp only [isReferenced, Bool.and_eq_true, Bool.not_eq_true', not_and, Bool.not_eq_false,
    Bool.or_eq_true, List.contains_eq_mem, decide_eq_true_eq, List.any_eq_true, isIntrinsic,
    decide_eq_false_iff_not]
  intro hlt
  cases hreaches with
  | root hm =>
    rcases List.mem_append.1 hm with hm | hm
    · exact absurd (List.mem_range.1 hm) hlt
    · rcases List.mem_append.1 hm with hm | hm
      · rcases List.mem_append.1 hm with hm | hm
        · exact .inl (.inl (.inl hm))
        · obtain ⟨f, hf, hm⟩ := List.mem_flatMap.1 hm
          exact .inr ⟨f, hf, hm⟩
      · exact .inl (.inr hm)
  | @step r' l o' hr' hg hl =>
    exact .inl (.inl (.inr (List.mem_flatMap.2 ⟨(r', o'), Heap.mem_of_get? hg, hl⟩)))

/-- **A collection goes on until it ends, and leaves only what can be reached.** -/
theorem Collects.step (hc : e.Collects) (hs : e.heap.Sound) (hstack : e.stack = .entry c :: rest) :
    e.step.2.isTurn = false ∧ e.step.1.Collects ∧ e.step.1.stack = e.stack ∨
      e.step.2 = .finished .null ∧ e.step.1.AllReached := by
  have hreport : ∀ slot, (e.reportSlot slot).isTurn = false := fun slot => by
    unfold reportSlot
    split <;> rfl
  unfold Engine.step
  split
  · refine .inl ⟨hreport _, ?_, rfl⟩
    cases hc with
    | starts hc => exact .starts hc
    | ends hc hr => exact .ends hc hr
  · cases hc with
    | starts hc =>
      split
      · next r o hu =>
        refine .inl ⟨?_, .starts hc, rfl⟩
        cases o.slot? with
        | none => rfl
        | some slot => exact hreport slot
      · unfold Engine.proceed
        rw [hc]
        refine .inl ⟨rfl, .ends rfl ?_, rfl⟩
        -- What has been swept is reached by what is left, which the end of the operation does not
        -- change.
        have hsweep := allReached_sweep hs
        have hroots : (e.sweep.goto (.encoded .null)).roots = e.sweep.roots := by
          simp only [roots, goto]
          rw [show e.sweep.control = e.control from rfl, hc]
          rfl
        intro r o hr
        change (e.sweep.goto (.encoded .null)).heap.Reaches
          (List.range Intrinsic.count ++ (e.sweep.goto (.encoded .null)).roots) r
        rw [hroots]
        exact hsweep r o hr
    | ends hc hr =>
      rw [hr.unreferenced hs]
      unfold Engine.proceed
      rw [hc]
      dsimp only [Engine.popWith]
      rw [hstack]
      refine .inr ⟨rfl, fun r o hg => ?_⟩
      have hreaches := hr r o hg
      have hroots : e.roots = ({ e with stack := rest, control := c } : Engine).roots := by
        simp only [roots, hc, hstack]
        rfl
      rw [hroots] at hreaches
      exact hreaches

end Engine

end ScriptBridge
