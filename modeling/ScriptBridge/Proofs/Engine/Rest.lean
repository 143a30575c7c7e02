/-
# Entering, resting and leaving

An engine that is entered keeps what it was about to do beneath the frames of the new
operation.  No step but the last one of an operation touches what lies beneath, and where
the engine turns to the host it has nothing to let go of.  Then each token it holds belongs
to a stand-in.
-/
import ScriptBridge.Proofs.Engine.Outbound

namespace ScriptBridge.Engine

open ScriptBridge.Script ScriptBridge.Table ScriptBridge.Wire

variable {P : Prop} {e₀ e e' : Engine} {c : Control} {rest : List Frame}

/-! ### Beneath an operation -/

/-- What an engine was about to do when it was last entered, and the frames it had then. -/
def below : List Frame → Option (Control × List Frame)
  | [] => none
  | .entry c :: rest => some (c, rest)
  | _ :: rest => below rest

lemma below_cons {f : Frame} (hf : f.isEntry = false) (rest : List Frame) :
    below (f :: rest) = below rest := by
  cases f <;> first | rfl | cases hf

lemma below_append {fs : List Frame} (hfs : ∀ f ∈ fs, f.isEntry = false) (rest : List Frame) :
    below (fs ++ rest) = below rest := by
  induction fs with
  | nil => rfl
  | cons f fs ih =>
    obtain ⟨hf, hfs⟩ := List.forall_mem_cons.1 hfs
    rw [List.cons_append, below_cons hf, ih hfs]

lemma Frame.isEntry_of_isQuiet {f : Frame} (hf : f.isQuiet = true) : f.isEntry = false := by
  cases f <;> first | rfl | cases hf

lemma Grown.below (h : Grown P e₀ e) : below e.stack = below e₀.stack := by
  obtain ⟨fs, hstack, hfs⟩ := h.stack
  rw [hstack, below_append fun f hf => Frame.isEntry_of_isQuiet (hfs f hf).1]

lemma ScriptWork.below (h : ScriptWork P e₀ e) : below e.stack = below e₀.stack := by
  cases h with
  | inner h hc hf hr => exact h.below
  | asks h name hr hb => exact h.below
  | sends h hr hv hb => exact h.below

lemma below_nextElement {array : Ref} {depth length index : Nat} {done : List Record} :
    below (e.nextElement array depth length index done).stack = below e.stack := by
  unfold Engine.nextElement
  split <;> rfl

lemma below_nextItem {array : Ref} {index : Nat} {items : List Record} :
    below (e.nextItem array index items).stack = below e.stack := by
  cases items <;> rfl

lemma Advance.below {ev : Event} (h : Advance P e e' ev) (he : ∀ r, ev ≠ .finished r) :
    below e'.stack = below e.stack := by
  cases h with
  | idle hc => rfl
  | stops hs hc => rfl
  | works hc h => exact h.below
  | pops hs hf hentry hc h => rw [h.below, hs, below_cons hentry]
  | startsArray hc hr => exact below_nextElement
  | nextElement hs hc ha =>
    rw [below_nextElement, hs]
    rfl
  | pins hb hc hs hr hi hrecord ho =>
    rcases hb with rfl | ⟨f, rest, hs', -, hentry, rfl⟩
    · rfl
    · rw [hs', below_cons hentry]
  | @fails f array index items rest v hs hf hc =>
    rw [hs]
    rcases hf with rfl | rfl <;> rfl
  | takes hc => rw [stack_withValue, stack_convert]
  | startsItems hc => exact below_nextItem
  | nextItem hs hc =>
    rw [below_nextItem, hs]
    rfl
  | takesClass hs hc =>
    rw [hs]
    rcases takeStandInClass_works with heq | ⟨heap, -, -, h⟩
    · rw [heq]
      rfl
    · exact h.below
  | @enters slot rest v hs hc =>
    rw [hs]
    cases v <;> rfl
  | begins hc hb => cases hb <;> rfl
  | finishes hs hc => exact absurd rfl (he _)
  | sends hs hc => rw [hs]; rfl
  | replies hs hc => rw [hs]; rfl
  | places hs hc hv => rw [hs]; rfl
  | _ => rfl

/-- **Only the end of an operation touches what lies beneath it.** -/
theorem step_below (hs : e.Shaped) (he : ∀ r, e.step.2 ≠ .finished r) :
    below e.step.1.stack = below e.stack := by
  unfold Engine.step at he ⊢
  split at he
  · rfl
  · split at he
    · rfl
    · exact (proceed_advance_false hs).below he

/-! ### Turning to the host -/

lemma unreferenced_eq_none_of (hc : e.Clean) (hheap : e'.heap = e.heap)
    (hhandles : e'.handles = e.handles)
    (hrefs : ∀ r, r ∈ e.control.refs ∨ (∃ f ∈ e.stack, r ∈ f.refs) →
      r ∈ e'.control.refs ∨ ∃ f ∈ e'.stack, r ∈ f.refs) : e'.unreferenced? = none := by
  have hnone := List.find?_eq_none.1 hc.unreferenced
  refine List.find?_eq_none.2 fun x hx => ?_
  rw [hheap] at hx
  have hx' := hnone x hx
  simp only [isReferenced, Bool.and_eq_true, Bool.not_eq_true', not_and,
    Bool.not_eq_false, Bool.or_eq_true, List.contains_eq_mem, decide_eq_true_eq,
    List.any_eq_true] at hx' ⊢
  intro hintrinsic
  rw [hheap, hhandles]
  rcases hx' hintrinsic with ((h | h) | h) | h
  · rcases hrefs _ (.inl h) with h | h
    · exact .inl (.inl (.inl h))
    · exact .inr h
  · exact .inl (.inl (.inr h))
  · exact .inl (.inr h)
  · rcases hrefs _ (.inr h) with h | h
    · exact .inl (.inl (.inl h))
    · exact .inr h

/-- Where an engine asks something of the host, it waits for the answer. -/
lemma step_request (hs : e.Shaped) {req : Request} (he : e.step.2 = .request req) :
    e.step.1.Clean ∧ e.step.1.control = .idle := by
  obtain ⟨hclean, hstep⟩ := step_eq_proceed (e := e) (by rw [he]; rfl)
  have hadvance := proceed_advance_false hs
  rw [hstep] at he ⊢
  rw [he] at hadvance
  generalize e.proceed.1 = e' at hadvance ⊢
  cases hadvance with
  | sends hstack hc =>
    refine ⟨⟨hclean.released, unreferenced_eq_none_of hclean rfl rfl fun r hr => .inr ?_⟩, rfl⟩
    rw [hc, hstack] at hr
    rcases hr with hr | ⟨f, hf, hr⟩
    · cases hr
    · rcases List.mem_cons.1 hf with rfl | hf
      · exact ⟨_, List.mem_cons_self .., hr⟩
      · exact ⟨f, List.mem_cons_of_mem _ hf, hr⟩
  | asks hc =>
    refine ⟨⟨hclean.released, unreferenced_eq_none_of hclean rfl rfl fun r hr => ?_⟩, rfl⟩
    rw [hc] at hr
    rcases hr with hr | hr
    · cases hr
    · exact .inr hr

/-- Where an operation ends, the engine goes on with what lay beneath it. -/
lemma step_finished (hs : e.Shaped) {r : Record} (he : e.step.2 = .finished r) :
    e.step.1.Clean ∧ e.control = .encoded r ∧
      ∃ c rest, e.stack = .entry c :: rest ∧ e.step.1 = { e with stack := rest, control := c } := by
  obtain ⟨hclean, hstep⟩ := step_eq_proceed (e := e) (by rw [he]; rfl)
  have hadvance := proceed_advance_false hs
  rw [hstep] at he ⊢
  rw [he] at hadvance
  generalize e.proceed.1 = e' at hadvance ⊢
  cases hadvance with
  | @finishes c rest r hstack hc =>
    refine ⟨⟨hclean.released, unreferenced_eq_none_of hclean rfl rfl fun s hr => ?_⟩, hc, c, rest,
      hstack, rfl⟩
    rw [hc, hstack] at hr
    rcases hr with hr | ⟨f, hf, hr⟩
    · cases hr
    · rcases List.mem_cons.1 hf with rfl | hf
      · exact .inl hr
      · exact .inr ⟨f, hf, hr⟩

/-! ### Giving up a handle -/

/-- What an engine is about to do while it gives up a handle. -/
def Control.IsRelease : Control → Prop
  | .begin (.release _) => True
  | .encoded r => r = .null
  | _ => False

lemma Control.IsRelease.isResting (hc : c.IsRelease) : c.IsResting := by
  cases c with
  | begin op => cases op <;> first | exact hc.elim | trivial
  | encoded r => exact hc
  | _ => exact hc.elim

/-- Giving up a handle never turns to the host but to say that it is done. -/
lemma step_release (hc : e.control.IsRelease) (hs : e.stack = .entry c :: rest) :
    e.step.2 = .finished .null ∨
      e.step.2.isTurn = false ∧ e.step.1.control.IsRelease ∧ e.step.1.stack = e.stack := by
  have hreport : ∀ slot, (e.reportSlot slot).isTurn = false := fun slot => by
    unfold reportSlot
    split <;> rfl
  unfold Engine.step
  split
  · exact .inr ⟨hreport _, hc, rfl⟩
  · split
    · next r o hu =>
      refine .inr ⟨?_, hc, rfl⟩
      cases o.slot? with
      | none => rfl
      | some slot => exact hreport slot
    · unfold Engine.proceed
      cases hcon : e.control with
      | begin op =>
        rw [hcon] at hc
        cases op with
        | release handle =>
          refine .inr ⟨rfl, ?_, ?_⟩ <;> dsimp only [Engine.beginStep] <;> split <;> rfl
        | _ => exact hc.elim
      | encoded r =>
        rw [hcon] at hc
        obtain rfl : r = .null := hc
        dsimp only [Engine.popWith]
        rw [hs]
        exact .inl rfl
      | _ =>
        rw [hcon] at hc
        exact hc.elim

/-! ### Tokens -/

lemma mem_heldSlots {s : Slot} (hs : e.heap.Sound) :
    s ∈ e.heldSlots ↔ ∃ t o, e.heap.get? t = some o ∧ o.slot? = some s := by
  simp only [heldSlots, slotsOf, List.mem_filterMap, Prod.exists, hs.mem_iff]

/-- The token of a stand-in is held. -/
lemma Honest.mem_heldSlots_of_hasStandIn (hh : e.Honest) {s : Slot} (hs : e.HasStandIn s) :
    s ∈ e.heldSlots := by
  obtain ⟨r, o, t, hg, hk⟩ := hs
  obtain ⟨p, hp, hslot⟩ := hh.standIns.token trivial r o s t hg hk
  exact (mem_heldSlots hh.sound).2 ⟨t, p, hp, hslot⟩

/-- **A token belongs to a stand-in**, where an engine rests and has nothing to let go of. -/
theorem Honest.hasStandIn_of_mem_heldSlots (hh : e.Honest) (hc : e.Clean)
    (hrest : e.control.IsResting) {s : Slot} (hs : s ∈ e.heldSlots) : e.HasStandIn s := by
  obtain ⟨t, p, hp, hslot⟩ := (mem_heldSlots hh.sound).1 hs
  have htoken : ¬ e.heap.Shows True t := fun hshow => by
    have hnone := (hshow trivial).2
    rw [hp, Option.bind_some, hslot] at hnone
    cases hnone
  have hm : ∀ f ∈ e.stack, f.isMaking = false := by
    rcases hh.making with hm | ⟨slot, token, rest, -, -, hlookup⟩
    · exact hm
    · exact absurd hlookup hrest.not_lookup
  have hfound := List.find?_eq_none.1 hc.unreferenced (t, p) (Heap.mem_of_get? hp)
  simp only [isReferenced, Bool.and_eq_true, Bool.not_eq_true', not_and,
    Bool.not_eq_false, Bool.or_eq_true, List.contains_eq_mem, decide_eq_true_eq,
    List.any_eq_true, isIntrinsic, decide_eq_false_iff_not] at hfound
  rcases hfound fun hlt => htoken (hh.guarded.intrinsic t hlt) with ((h | h) | h) | h
  · exact absurd (hh.control t h) htoken
  · obtain ⟨⟨r, o⟩, hm, ht⟩ := List.mem_flatMap.1 h
    have hg := hh.sound.get?_of_mem hm
    have hlinks : t ∉ o.links := fun hl => htoken (hh.guarded.linked r o hg t hl)
    -- Only the token of a stand-in is referred to without being linked.
    rcases Object.mem_refs.1 ht with ht | ht | ht
    · exact absurd (Object.mem_links.2 (.inl ht)) hlinks
    · cases hk : o.kind with
      | proxy slot token =>
        rw [hk] at ht
        obtain rfl : t = token := List.mem_singleton.1 ht
        obtain ⟨q, hq, hslot'⟩ := hh.standIns.token trivial r o slot t hg hk
        rw [hp] at hq
        cases hq
        rw [hslot] at hslot'
        cases hslot'
        exact ⟨r, o, t, hg, hk⟩
      | _ =>
        rw [hk] at ht
        refine absurd (Object.mem_links.2 (.inr (.inl ?_))) hlinks
        rw [hk]
        exact ht
    · exact absurd (Object.mem_links.2 (.inr (.inr ht))) hlinks
  · exact absurd (hh.handles t h) htoken
  · obtain ⟨f, hf, ht⟩ := h
    exact absurd ((hh.frames f hf).shown (hm f hf) t ht) htoken

end ScriptBridge.Engine
