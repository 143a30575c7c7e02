/-
# Slots that a session mentions

Besides its arenas and engines, a session mentions slots where they are to be given up, and in
records that are on their way.  As long as a bridge has its engine all of these are occupied, and
they still are when the engine has just gone.  So only the slots that are occupied matter then.
-/
import ScriptBridge.Proofs.Session.AlikeSteps
import ScriptBridge.Proofs.Session.Attended

namespace ScriptBridge.Session

open ScriptBridge.Bridge ScriptBridge.Host ScriptBridge.Table ScriptBridge.Wire

variable {s s' t u : Session} {b : Nat} {slot : Slot} {x : Side} {f g : Nat → Slot → Slot}
  {types : List HostType} {setups : List Setup} {older : List Session} {c : Control}

/-! ### Slots on their way -/

/-- The slots of a bridge in what is about to be done. -/
def Control.slotsOf (b : Nat) : Control → List Slot
  | .decode c r => if c = b then r.slots else []
  | .answer c r => if c = b then slotsOfResult r else []
  | .drain c slots | .teardown c slots => if c = b then slots else []
  | _ => []

/-- The slots of a bridge in what waits. -/
def Frame.slotsOf (b : Nat) : Frame → List Slot
  | .interrupted c => c.slotsOf b
  | _ => []

/-- The slots of a bridge that are mentioned outside its arena and its engine. -/
def slotsOf (s : Session) (b : Nat) : List Slot :=
  s.control.slotsOf b ++ s.frames.flatMap (Frame.slotsOf b) ++ s.waiting b

lemma Control.slotsOf_eq_nil (h : c.bridge? ≠ some b) : c.slotsOf b = [] := by
  unfold Control.slotsOf
  split <;> first | rfl | exact if_neg fun heq => h (congrArg some heq)

lemma Frame.slotsOf_eq_nil {fr : Frame} (h : fr.bridge? ≠ some b) : fr.slotsOf b = [] := by
  cases fr with
  | interrupted c => exact Control.slotsOf_eq_nil h
  | _ => rfl

/-- What is mentioned is kept for the host or on its way to it, unless the bridge is torn down. -/
lemma Control.mem_slotsOf (h : slot ∈ c.slotsOf b) : c.mark b = .teardown ∨
    slot ∈ (c.mark b).slots ∨ slot ∈ (c.mark b).outgoing := by
  cases c with
  | decode d r | answer d r | drain d slots | teardown d slots =>
    by_cases heq : d = b
    · subst heq
      simp only [Control.slotsOf, if_pos] at h
      simp [Control.mark, Mark.slots, Mark.outgoing, h]
    · simp [Control.slotsOf, heq] at h
  | _ => cases h

lemma Frame.mem_slotsOf {fr : Frame} (h : slot ∈ fr.slotsOf b) : fr.mark b = .teardown ∨
    slot ∈ (fr.mark b).slots ∨ slot ∈ (fr.mark b).outgoing := by
  cases fr with
  | interrupted c => exact Control.mem_slotsOf h
  | _ => cases h

lemma slotsOf_interrupt_drop (s : Session) (vs : List HostValue) :
    (s.interrupt (.drop vs)).slotsOf b = s.slotsOf b := rfl

/-! ### While there is an engine -/

lemma AtRest.teardown_not_mem {T : List Mark} {c : Engine.Control} {st : List Engine.Frame}
    (h : AtRest T c st) : .teardown ∉ T := by
  induction h with
  | nil => exact List.not_mem_nil
  | awaits hm hs hb h ih =>
    refine fun hmem => (List.mem_cons.1 hmem).elim (fun heq => ?_) fun hmem =>
      (List.mem_cons.1 hmem).elim nofun ih
    rw [← heq] at hm
    cases hm
  | gives hs hc h ih =>
    exact fun hmem => (List.mem_cons.1 hmem).elim nofun fun hmem =>
      (List.mem_cons.1 hmem).elim nofun ih
  | other h ih | scope h ih | decode hs h ih | perform hs h ih | drain hs h ih =>
    exact fun hmem => (List.mem_cons.1 hmem).elim nofun ih

lemma Nested.teardown_not_mem {e : Engine} {T : List Mark} (h : Nested e T) : .teardown ∉ T := by
  cases h with
  | rests h => exact h.teardown_not_mem
  | works hb h hr =>
    exact fun hmem => (List.mem_cons.1 hmem).elim nofun fun hmem =>
      (List.mem_cons.1 hmem).elim nofun h.teardown_not_mem

/-- **What is mentioned is occupied**, as long as there is an engine. -/
theorem Side.Faithful.isSome_entryOf? (h : x.Faithful) (hx : s.side? b = some x)
    (hslot : slot ∈ s.slotsOf b) : (s.entryOf? b slot).isSome := by
  obtain ⟨hcore, htrail⟩ := side?_eq_some.1 hx
  have hmark : ∀ m ∈ s.trail b, m = .teardown ∨ slot ∈ m.slots ∨ slot ∈ m.outgoing →
      slot ∈ x.holders := by
    rintro m hm (rfl | hslots | hout)
    · exact absurd (htrail ▸ hm) h.nested.teardown_not_mem
    · exact List.mem_append_right _ (List.mem_flatMap.2 ⟨m, htrail ▸ hm, hslots⟩)
    · exact h.held slot (List.mem_append_right _ (List.mem_flatMap.2 ⟨m, htrail ▸ hm, hout⟩))
  have hholds : slot ∈ x.holders := by
    rcases List.mem_append.1 hslot with hslot | hwaits
    · rcases List.mem_append.1 hslot with hcontrol | hframes
      · exact hmark _ (List.mem_cons_self ..) (Control.mem_slotsOf hcontrol)
      · obtain ⟨fr, hfr, hmem⟩ := List.mem_flatMap.1 hframes
        exact hmark _ (List.mem_cons_of_mem _ (List.mem_map_of_mem hfr)) (Frame.mem_slotsOf hmem)
    · rw [waiting_of_core? hcore] at hwaits
      exact List.mem_append_left _ (List.mem_append_right _ hwaits)
  rw [entryOf?_of_side? hx]
  exact (h.occupied slot).1 hholds

/-! ### When the engine goes -/

lemma Side.mem_holders_of_heldSlots (h : slot ∈ x.engine.heldSlots) : slot ∈ x.holders := by
  simp only [Side.holders, Engine.custody, List.mem_append]
  tauto

lemma Vanishes.slotsOf (h : Vanishes b s t) : t.slotsOf b = [] := by
  have hunused := h.uses
  rw [Session.uses, Bool.or_eq_false_iff, decide_eq_false_iff_not, List.any_eq_false] at hunused
  have hframes : s.frames.flatMap (Frame.slotsOf b) = [] := List.flatMap_eq_nil_iff.2 fun fr hfr =>
    Frame.slotsOf_eq_nil (by simpa using hunused.2 fr hfr)
  have hwaiting : t.waiting b = [] := by
    rw [waiting_eq, h.core]
    cases s.core? b <;> rfl
  rw [Session.slotsOf, h.control, h.frames, Control.slotsOf_eq_nil hunused.1, hframes, hwaiting]
  rfl

/-- A bridge whose engine has just gone still mentions only slots that are occupied. -/
lemma Goes.isSome_entryOf? (h : Goes s s') (hx : s.side? b = some x) (hf : x.Faithful)
    (hnone : s'.engine? b = none) (hslot : slot ∈ s'.slotsOf b) : (s'.entryOf? b slot).isSome := by
  rcases h.of_engine_gone (engine?_of_side? hx) hnone with ⟨hc, -, rfl⟩ | ⟨t, hv, rfl | ⟨vs, rfl⟩⟩
  · have harena : (s.updateBridge b ({ · with engine := none })).arena? b = s.arena? b :=
      arena?_updateBridge_of_same (f := ({ · with engine := none })) (fun _ => rfl) s b b
    have hwaiting : (s.updateBridge b ({ · with engine := none })).waiting b = s.waiting b := by
      rw [waiting, waiting, bridge?_updateBridge, if_pos rfl]
      cases s.bridge? b <;> rfl
    rw [entryOf?_eq]
    change (((s.updateBridge b _).arena? b).bind _).isSome
    rw [harena, ← entryOf?_eq]
    rcases List.mem_append.1 hslot with hslot | hwaits
    · rcases List.mem_append.1 hslot with hcontrol | hframes
      · change slot ∈ if b = b then x.engine.heldSlots else [] at hcontrol
        rw [if_pos rfl] at hcontrol
        rw [entryOf?_of_side? hx]
        exact (hf.occupied slot).1 (Side.mem_holders_of_heldSlots hcontrol)
      · exact hf.isSome_entryOf? hx (List.mem_append_left _ (List.mem_append_right _ hframes))
    · exact hf.isSome_entryOf? hx (List.mem_append_right _ (hwaiting ▸ hwaits))
  · rw [hv.slotsOf] at hslot
    cases hslot
  · rw [slotsOf_interrupt_drop, hv.slotsOf] at hslot
    cases hslot

/-- What becomes of the arena of a bridge without an engine: it gets no longer, and no slot in it
is handed out. -/
structure Wanes (b : Nat) (s t : Session) : Prop where
  finish_le : t.finishOf b ≤ s.finishOf b
  occupied : ∀ slot, (t.entryOf? b slot).isSome → (s.entryOf? b slot).isSome

lemma Wanes.of_arena? (h : t.arena? b = s.arena? b) : Wanes b s t where
  finish_le := Nat.le_of_eq (by rw [finishOf, finishOf, h])
  occupied slot hslot := by rwa [entryOf?_eq, h, ← entryOf?_eq] at hslot

lemma Wanes.of_empty (policy : Arena Entry → SlotPolicy)
    (h : t.arena? b = (s.arena? b).map fun a => .empty (policy a)) : Wanes b s t where
  finish_le := by
    rw [finishOf, finishOf, h]
    cases s.arena? b <;> exact Nat.zero_le _
  occupied slot hslot := by
    rw [entryOf?_eq, h] at hslot
    cases ha : s.arena? b with
    | none => simp [ha] at hslot
    | some a => simp [ha] at hslot

lemma Shrinks.wanes (h : Shrinks b s t) : Wanes b s t := by
  cases h with
  | stays _ h => exact .of_arena? h
  | takes _ ha h ha' =>
    refine ⟨?_, fun slot hslot => ?_⟩
    · rw [finishOf, finishOf, ha, ha']
      exact Arena.finish_take_le h
    · rw [entryOf?_eq, ha', Option.bind_some, Arena.get?_take h] at hslot
      rw [entryOf?_eq, ha]
      split at hslot
      · cases hslot
      · exact hslot
  | @drains a _ ha ha' =>
    refine ⟨?_, fun slot hslot => ?_⟩
    · rw [finishOf, finishOf, ha, ha']
      exact Arena.finish_drain_le a
    · rw [entryOf?_eq, ha', Option.bind_some, Arena.get?_drain] at hslot
      cases hslot
  | @vanishes a _ _ ha ha' => exact .of_empty (·.policy) (by rw [ha, ha']; rfl)

/-- **The arena of a bridge whose engine has gone only loses entries.** -/
theorem History.wanes (h : History types setups (s :: older)) (hgo : Goes s s')
    (hnone : s'.engine? b = none) : Wanes b s s' := by
  cases he : s.engine? b with
  | none => exact (hgo.shrinks (h.retired (List.mem_cons_self ..) he)).wanes
  | some e =>
    have hempty : ∀ {t}, Vanishes b s t → t.arena? b = (s.arena? b).map fun a => .empty a.policy :=
      fun hv => by
        rw [arena?_eq, arena?_eq, hv.core, Option.map_map, Option.map_map]
        rfl
    rcases hgo.of_engine_gone he hnone with ⟨-, -, rfl⟩ | ⟨t, hv, rfl | ⟨vs, rfl⟩⟩
    · exact .of_arena? (arena?_updateBridge_of_same (f := ({ · with engine := none }))
        (fun _ => rfl) s b b)
    · exact .of_empty _ (hempty hv)
    · exact .of_empty _ (show t.arena? b = _ from hempty hv)

/-! ### Only what is mentioned matters -/

lemma Control.rename_congr (h : ∀ b, ∀ slot ∈ c.slotsOf b, f b slot = g b slot) :
    c.rename f = c.rename g := by
  have hself : ∀ {b : Nat} {l : List Slot}, c.slotsOf b = l → ∀ slot ∈ l, f b slot = g b slot :=
    fun heq slot hslot => h _ slot (heq ▸ hslot)
  cases c with
  | decode b r => exact congrArg _ (Record.rename_congr r (hself (if_pos rfl)))
  | answer b r =>
    cases r with
    | error e => rfl
    | ok r => exact congrArg _ (congrArg Except.ok (Record.rename_congr r (hself (if_pos rfl))))
  | drain b slots | teardown b slots =>
    exact congrArg _ (List.map_congr_left (hself (if_pos rfl)))
  | _ => rfl

lemma Frame.rename_congr {fr : Frame} (h : ∀ b, ∀ slot ∈ fr.slotsOf b, f b slot = g b slot) :
    fr.rename f = fr.rename g := by
  cases fr with
  | interrupted c => exact congrArg _ (Control.rename_congr h)
  | _ => rfl

/-- **Of a bridge without an engine, only the slots that are mentioned or occupied matter.** -/
theorem Alike.congr (h : Alike g s t) (hfg : ∀ b, f b = g b ∨ t.engine? b = none ∧
    (∀ slot ∈ t.slotsOf b, f b slot = g b slot) ∧
      ∀ slot, (t.entryOf? b slot).isSome → f b slot = g b slot) : Alike f s t := by
  have hmentioned : ∀ b, ∀ slot ∈ t.slotsOf b, f b slot = g b slot := fun b slot hslot =>
    (hfg b).elim (fun heq => by rw [heq]) fun hgone => hgone.2.1 slot hslot
  exact { h with
    bridges := fun b x y hx hy => by
      have hxy := h.bridges b x y hx hy
      rcases hfg b with heq | ⟨hnone, -, hoccupied⟩
      · rwa [heq]
      · have hengine : y.engine = none := by rwa [Session.engine?, hy] at hnone
        exact { hxy with
          engine := by rw [hxy.engine, hengine]; rfl
          arena := hxy.arena.congr fun slot hslot => hoccupied slot (by rwa [Session.entryOf?, hy])
          deferred := by
            rw [hxy.deferred]
            refine List.map_congr_left fun slot hslot => (hmentioned b slot ?_).symm
            exact List.mem_append_right _ (by rwa [waiting, hy]) }
    frames := by
      rw [h.frames]
      refine List.map_congr_left fun fr hfr => Frame.rename_congr fun b slot hslot => ?_
      exact (hmentioned b slot (List.mem_append_left _ (List.mem_append_right _
        (List.mem_flatMap.2 ⟨fr, hfr, hslot⟩)))).symm
    control := by
      rw [h.control]
      exact Control.rename_congr fun b slot hslot => (hmentioned b slot
        (List.mem_append_left _ (List.mem_append_left _ hslot))).symm }

end ScriptBridge.Session
