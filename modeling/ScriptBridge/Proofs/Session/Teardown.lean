/-
# The call that disposes a bridge

Disposing a bridge is refused while its engine is at work.  Otherwise the engine goes first, and
then the call gives up the slots that the engine held and all others, while anything may be done
in between.  It stays at work until it returns, and the bridge stays without an engine.
-/
import ScriptBridge.Proofs.Session.Hooks
import ScriptBridge.Proofs.Session.Refusal

namespace ScriptBridge.Session

open ScriptBridge.Bridge ScriptBridge.Host ScriptBridge.Table ScriptBridge.Wire

variable {s s' t u : Session} {b : Nat} {types : List HostType} {setups : List Setup}
  {older : List Session} {ctl : Control} {below : List Frame}

/-! ### The call -/

lemma lettingGo_of_widens (hw : Widens s t) (ho : t.objects = s.objects)
    (hr : t.registers = s.registers) (hs : t.frames = s.frames) (hv : s.control.values = []) :
    s.lettingGo t = t := by
  refine lettingGo_of_subset fun v => HostValue.mem_referencesOf_of_subset ?_
  refine hw.values_subset (g := []) (l := []) ho hr rfl hs ?_
  rw [hv]
  exact List.nil_subset _

/-- A bridge is disposed at once: nothing else is let go of with it. -/
lemma Goes.eq_disposeStep (h : Goes s s') (ht : s.tidy? = none) (hc : s.control = .dispose b) :
    s' = s.disposeStep b := by
  rw [h.eq_lettingGo ht (by rw [hc]; nofun) (show s.proceed? = some (s.disposeStep b) by
    rw [proceed?, hc])]
  have hnone : s.control.values = [] := by rw [hc]; rfl
  have hfinish : s.lettingGo s.finish = s.finish :=
    lettingGo_of_widens (.of_bridges rfl) rfl rfl rfl hnone
  unfold disposeStep
  split
  · exact hfinish
  · split
    · exact hfinish
    · have hengine : Drives s (s.updateBridge b ({ · with engine := none })) :=
        drives_updateBridge (fun _ => rfl) fun _ => rfl
      exact lettingGo_of_widens (hengine.widens.trans (.of_bridges rfl)) rfl rfl rfl hnone

/-- A bridge whose engine is at work or has gone is not disposed. -/
lemma disposeStep_refused (h : s.isBusy b = true ∨ s.engine? b = none) :
    s.disposeStep b = s.finish := by
  unfold disposeStep
  rcases h with hbusy | hnone
  · rw [if_pos hbusy]
  · rw [hnone]
    dsimp only
    rw [ite_self]

lemma AtRest.isIdle {T : List Mark} {c : Engine.Control} {st : List Engine.Frame}
    (h : AtRest T c st) (hrunning : ∀ p, .running p ∉ T) : ∀ m ∈ T, m.isIdle = true := by
  have hcons : ∀ {m : Mark} {T : List Mark}, (∀ p, Mark.running p ∉ m :: T) →
      ∀ p, Mark.running p ∉ T := fun hm p hp => hm p (List.mem_cons_of_mem _ hp)
  induction h with
  | nil => exact List.forall_mem_nil _
  | other h ih => exact List.forall_mem_cons.2 ⟨rfl, ih (hcons hrunning)⟩
  | scope h ih => exact List.forall_mem_cons.2 ⟨rfl, ih (hcons hrunning)⟩
  | decode hs h ih => exact List.forall_mem_cons.2 ⟨rfl, ih (hcons hrunning)⟩
  | perform hs h ih => exact List.forall_mem_cons.2 ⟨rfl, ih (hcons hrunning)⟩
  | drain hs h ih => exact List.forall_mem_cons.2 ⟨rfl, ih (hcons hrunning)⟩
  | awaits hm hs hb h =>
    exact absurd (List.mem_cons_of_mem _ (List.mem_cons_self ..)) (hrunning _)
  | gives hs hc h => exact absurd (List.mem_cons_of_mem _ (List.mem_cons_self ..)) (hrunning _)

/-- Where the engine of a bridge is not at work, nothing needs it. -/
lemma isIdle_of_accounted {x : Side} (hx : s.side? b = some x) (ha : x.Accounted)
    (hc : s.control = .dispose b) (hbusy : s.isBusy b = false) :
    ∀ f ∈ s.frames, (f.mark b).isIdle = true := by
  have htrail : x.trail = .other :: s.frames.map (Frame.mark b) := by
    rw [← (side?_eq_some.1 hx).2, trail, hc]
    rfl
  have hnested := ha.nested
  rw [htrail] at hnested
  cases hnested with
  | rests h =>
    refine List.forall_mem_map.1 (h.of_other.isIdle fun p hp => ?_)
    obtain ⟨f, hf, hmark⟩ := List.mem_map.1 hp
    rw [isBusy, List.any_eq_false] at hbusy
    refine hbusy f hf ?_
    rw [Frame.eq_running_of_mark hmark]
    exact beq_self_eq_true b

/-! ### What waits for the end of the call -/

/-- Something is about to be done on what lies beneath, or waits there until something else is done
before. -/
def IsOn (ctl : Control) (below : List Frame) (s : Session) : Prop :=
  s.frames = below ∧ s.control = ctl ∨ ∃ l, s.frames = l ++ .interrupted ctl :: below

lemma isOn_goto : IsOn ctl s.frames (s.goto ctl) := .inl ⟨rfl, rfl⟩

lemma isOn_push {next : Control} : IsOn ctl s.frames ((s.push (.interrupted ctl)).goto next) :=
  .inr ⟨[], rfl⟩

lemma IsOn.interrupt (h : IsOn ctl below s) (next : Control) :
    IsOn ctl below (s.interrupt next) := by
  rcases h with ⟨rfl, rfl⟩ | ⟨l, hl⟩
  · exact isOn_push
  · exact .inr ⟨_ :: l, congrArg (List.cons _) hl⟩

lemma IsOn.lettingGo (h : IsOn ctl below t) (before : Session) :
    IsOn ctl below (before.lettingGo t) := by
  rcases lettingGo_cases before t with heq | ⟨vs, heq⟩ <;> rw [heq]
  · exact h
  · exact h.interrupt _

lemma isOn_unpin {slot : Slot} : IsOn ctl s.frames (s.unpin b slot ctl) := by
  unfold unpin
  split
  · exact isOn_goto
  · exact isOn_push

lemma isOn_removeSlot {slot : Slot} : IsOn ctl s.frames (s.removeSlot b slot ctl) := by
  unfold removeSlot
  dsimp only
  split
  · exact isOn_goto
  · exact isOn_unpin (s := s.record b .removeSlot)

lemma IsOn.any_frames (h : IsOn ctl below s) (hb : ctl.bridge? = some b)
    (hc : s.control ≠ ctl) : s.frames.any (fun f => decide (f.bridge? = some b)) = true := by
  obtain ⟨l, hl⟩ := h.resolve_left fun h => hc h.2
  rw [hl, List.any_append, List.any_cons, show (Frame.interrupted ctl).bridge? = some b from hb,
    decide_eq_true rfl, Bool.true_or, Bool.or_true]

lemma IsOn.uses (h : IsOn ctl below s) (hb : ctl.bridge? = some b) : s.uses b = true := by
  rw [Session.uses, Bool.or_eq_true]
  by_cases hc : s.control = ctl
  · exact .inl (decide_eq_true (hc ▸ hb))
  · exact .inr (h.any_frames hb hc)

/-- **What is on something stays there until it is done.** -/
lemma Goes.isOn (h : Goes s s') (hs : IsOn ctl below s) (hengine : ∀ c, ctl ≠ .engine c)
    (hdone : ∀ r, ctl ≠ .done r) :
    IsOn ctl below s' ∨ s.frames = below ∧ s.control = ctl ∧
      ∃ t, s.proceed? = some t ∧ s' = s.lettingGo t := by
  rcases hs with ⟨rfl, rfl⟩ | ⟨l, hl⟩
  · cases h.happens with
    | works hc => exact absurd hc (hengine _)
    | tidies hc ht =>
      rcases frames_tidy? ht with ⟨hframes, hcontrol⟩ | ⟨l, hl⟩
      · exact .inl (.inl ⟨hframes, hcontrol⟩)
      · exact .inl (.inr ⟨l, hl⟩)
    | proceeds hc ht hp h => exact .inr ⟨rfl, rfl, _, hp, h⟩
    | turns hc => exact absurd hc (hdone _)
  · exact .inl ((h.waits hl).elim .inr .inl)

/-! ### The call at work -/

/-- The call that disposes a bridge is at work, on what lies beneath. -/
inductive Disposing (b : Nat) (below : List Frame) (s : Session) : Prop
  /-- The slots that the engine held, and then all others, are given up. -/
  | tears {slots : List Slot} (h : IsOn (.teardown b slots) below s)
  /-- All entries have been taken out, and the host types that have been described are to be
  forgotten. -/
  | forgets (h : IsOn (.forget b) below s) (he : Emptied b s)

/-- The call that disposes a bridge has returned. -/
structure Disposed (b : Nat) (below : List Frame) (s : Session) : Prop where
  control : s.control = .finished
  frames : s.frames = below
  emptied : Emptied b s
  described : ∀ br, s.bridge? b = some br → br.described = []

lemma Disposing.uses (h : Disposing b below s) : s.uses b = true := by
  cases h with
  | tears h => exact h.uses rfl
  | forgets h => exact h.uses rfl

lemma Disposing.any_frames {op : Operation} {c : Nat} (h : Disposing b below s)
    (hc : s.control = .operate c op) :
    s.frames.any (fun f => decide (f.bridge? = some b)) = true := by
  cases h with
  | tears h => exact h.any_frames rfl (by rw [hc]; nofun)
  | forgets h => exact h.any_frames rfl (by rw [hc]; nofun)

lemma Disposing.lettingGo (h : Disposing b below t) (before : Session) :
    Disposing b below (before.lettingGo t) := by
  cases h with
  | tears h => exact .tears (h.lettingGo before)
  | forgets h he =>
    exact .forgets (h.lettingGo before) fun a ha =>
      he a (arena?_lettingGo before t ▸ ha)

lemma disposing_teardownStep {slots : List Slot} {br : Bridge} (hb : s.bridge? b = some br) :
    Disposing b s.frames (s.teardownStep b slots) := by
  cases slots with
  | cons slot rest => exact .tears isOn_removeSlot
  | nil =>
    unfold teardownStep
    dsimp only
    rw [hb]
    refine .forgets isOn_push fun a ha => ?_
    obtain rfl : br.arena.drain.2 = a := by
      refine Option.some.inj (Eq.trans ?_ ha)
      exact (arena?_updateBridge s b _ b).trans (by rw [if_pos rfl, hb]; rfl) |>.symm
    exact ⟨rfl, rfl⟩

/-- The host types of a bridge are forgotten, and nothing is let go of with them. -/
lemma lettingGo_forget (hc : s.control = .forget b) :
    s.lettingGo (s.updateBridge b ({ · with described := [] })).finish =
      (s.updateBridge b ({ · with described := [] })).finish := by
  have hforget : Drives s (s.updateBridge b ({ · with described := [] })) :=
    drives_updateBridge (fun _ => rfl) fun _ => rfl
  exact lettingGo_of_widens (hforget.widens.trans (.of_bridges rfl)) rfl rfl rfl (by rw [hc]; rfl)

lemma Goes.eq_forget (h : Goes s s') (ht : s.tidy? = none) (hc : s.control = .forget b) :
    s' = (s.updateBridge b ({ · with described := [] })).finish :=
  (h.eq_lettingGo ht (by rw [hc]; nofun) (by rw [proceed?, hc])).trans (lettingGo_forget hc)

/-- **The call stays at work until it returns.** -/
theorem Goes.disposing (h : Goes s s') (hr : Retired b s) (hb : (s.arena? b).isSome = true)
    (hd : Disposing b below s) : Disposing b below s' ∨ Disposed b below s' := by
  cases hd with
  | tears hon =>
    rcases h.isOn hon (by simp) (by simp) with hon' | ⟨rfl, hc, t, hp, rfl⟩
    · exact .inl (.tears hon')
    · obtain ⟨a, ha⟩ := Option.isSome_iff_exists.1 hb
      obtain ⟨br, hbr, -⟩ := Option.map_eq_some_iff.1 ha
      rw [proceed?, hc] at hp
      cases hp
      exact .inl ((disposing_teardownStep hbr).lettingGo s)
  | forgets hon he =>
    have he' := (h.shrinks hr).emptied he
    rcases h.isOn hon (by simp) (by simp) with hon' | ⟨rfl, hc, t, hp, rfl⟩
    · exact .inl (.forgets hon' he')
    · rw [proceed?, hc] at hp
      cases hp
      rw [lettingGo_forget hc] at he' ⊢
      refine .inr ⟨rfl, rfl, he', fun br hbr => ?_⟩
      have hupdate := bridge?_updateBridge s b ({ · with described := [] }) b
      rw [if_pos rfl] at hupdate
      obtain ⟨br', -, rfl⟩ := Option.map_eq_some_iff.1 (hupdate.symm.trans hbr)
      rfl

/-! ### What holds from then on -/

/-- A bridge is being disposed, or has been. -/
structure Ended (b : Nat) (below : List Frame) (s : Session) : Prop where
  retired : Retired b s
  waits : Waits b s
  present : (s.arena? b).isSome = true
  disposing : Disposing b below s ∨ Emptied b s

lemma Shrinks.isSome (h : Shrinks b s s') : (s'.arena? b).isSome = (s.arena? b).isSome := by
  cases h with
  | stays ht h => rw [h]
  | takes ht ha h ha' => rw [ha, ha']; rfl
  | drains ht ha ha' => rw [ha, ha']; rfl
  | vanishes hu ht ha ha' => rw [ha, ha']; rfl

/-- **A bridge that is being disposed, or has been, stays so.** -/
theorem Goes.ended (h : Goes s s') (he : Ended b below s) : Ended b below s' where
  retired := h.retired he.retired
  waits := h.waits_deferred (fun _ => he.retired.idle _ (List.mem_cons_self ..)) he.waits
  present := (h.shrinks he.retired).isSome.trans he.present
  disposing := by
    rcases he.disposing with hd | hempty
    · exact (h.disposing he.retired he.present hd).imp_right (·.emptied)
    · exact .inr ((h.shrinks he.retired).emptied hempty)

lemma disposeStep_eq {e : Engine} (hbusy : s.isBusy b = false) (he : s.engine? b = some e) :
    s.disposeStep b =
      (s.updateBridge b ({ · with engine := none })).goto (.teardown b e.heldSlots) := by
  unfold disposeStep
  rw [hbusy, he, if_neg Bool.false_ne_true]

/-- A bridge begins to be disposed, and its arena is still as it was. -/
lemma History.ended_disposeStep {e : Engine} (h : History types setups (s :: older))
    (hc : s.control = .dispose b) (hbusy : s.isBusy b = false) (he : s.engine? b = some e) :
    Ended b s.frames (s.disposeStep b) ∧ (s.disposeStep b).arena? b = s.arena? b ∧
      Disposing b s.frames (s.disposeStep b) := by
  rw [disposeStep_eq hbusy he]
  obtain ⟨x, hx, -⟩ := side?_isSome_of_engine? he
  obtain ⟨br, hbr, -⟩ := Option.bind_eq_some_iff.1 he
  let u : Session := s.updateBridge b ({ · with engine := none })
  have harena : u.arena? b = s.arena? b :=
    arena?_updateBridge_of_same (f := ({ · with engine := none })) (fun _ => rfl) s b b
  have hwaiting : u.waiting b = s.waiting b :=
    waiting_updateBridge_of_same (f := ({ · with engine := none })) (fun _ => rfl) s b b
  have hd : Disposing b s.frames (u.goto (.teardown b e.heldSlots)) :=
    .tears (isOn_goto (s := u))
  refine ⟨⟨⟨?_, ?_⟩, ?_, ?_, .inl hd⟩, harena, hd⟩
  · change u.engine? b = none
    rw [Session.engine?, bridge?_updateBridge, if_pos rfl, hbr]
    rfl
  · have hidle := isIdle_of_accounted hx (h.accounted (List.mem_cons_self ..) hx) hc hbusy
    refine List.forall_mem_cons.2 ⟨?_, List.forall_mem_map.2 hidle⟩
    rw [goto, Control.mark, if_pos rfl]
    rfl
  · refine fun hne => (h.waits_deferred (List.mem_cons_self ..) he (hwaiting ▸ hne)).imp_right ?_
    rintro ⟨hdrain, -⟩
    rw [hc] at hdrain
    cases hdrain
  · change (u.arena? b).isSome = true
    rw [harena, arena?, hbr]
    rfl

end ScriptBridge.Session
