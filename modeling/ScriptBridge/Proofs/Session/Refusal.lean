/-
# Operations of a bridge whose engine has gone

An operation of a bridge whose engine has gone fails once its name and its target have been looked
at.  It counts as a crossing and leaves everything else as it was.
-/
import ScriptBridge.Proofs.Session.Deferred

namespace ScriptBridge.Session

open ScriptBridge.Bridge ScriptBridge.Host ScriptBridge.Table ScriptBridge.Wire

variable {s t u : Session} {b : Nat} {op : Operation}

/-! ### What an operation needs, counts as and keeps -/

/-- The name of an operation is not empty, and its target is a script object of the bridge. -/
def Operation.Passes (b : Nat) : Operation → Prop
  | evaluate _ => True
  | getVariable name => name ≠ ""
  | setVariable name _ => name ≠ ""
  | member target name _ => name ≠ "" ∧ ∃ h, handleOf b target = .ok h
  | flush => True

/-- What an operation counts as. -/
def Operation.crossing? : Operation → Option Crossing
  | evaluate _ => some .evaluate
  | getVariable _ => some .getGlobal
  | setVariable _ _ => some .setGlobal
  | member _ _ .get => some .getMember
  | member _ _ (.set _) => some .setMember
  | member _ _ (.invoke _) => some .invokeMember
  | flush => none

/-- The frames that keep the values of an operation. -/
def Operation.keepers : Operation → List Frame
  | setVariable _ v => [.held [v]]
  | member target _ access => [.held (access.values ++ [.foreign target])]
  | _ => []

/-- An operation has been counted. -/
def counted (s : Session) (b : Nat) (op : Operation) : Session :=
  op.crossing?.elim s (s.record b)

/-- An operation has failed since its bridge has been disposed; the values it was given are still
kept. -/
def failed (s : Session) (b : Nat) (op : Operation) : Session :=
  { s.counted b op with
    frames := op.keepers ++ s.frames
    control := .done (.error (.operation (.interop .disposed))) }

lemma call_disposed {crossing : Crossing} {w : Engine.Operation} (he : t.engine? b = none) :
    t.call b crossing w = ((t.record b crossing).push (.scope b)).fail (.interop .disposed) := by
  have hrecord : ((t.record b crossing).push (.scope b)).engine? b = none :=
    ((same_record t b crossing).engine? b).trans he
  unfold call
  dsimp only
  rw [hrecord]

lemma exchange_disposed {crossing : Crossing} {v : HostValue} {w : Record → Engine.Operation}
    (he : t.engine? b = none) :
    t.exchange b crossing v w = ((t.record b crossing).push (.scope b)).fail
      (.interop .disposed) := by
  have hrecord : ((t.record b crossing).push (.scope b)).engine? b = none :=
    ((same_record t b crossing).engine? b).trans he
  unfold exchange
  dsimp only
  cases hbr : ((t.record b crossing).push (.scope b)).bridge? b with
  | none => rfl
  | some br =>
    rw [engine?, hbr] at hrecord
    dsimp only
    rw [show br.engine = none from hrecord]

lemma operateStep_disposed (he : s.engine? b = none) (hp : op.Passes b) :
    s.operateStep b op = { s.failed b op with frames := .scope b :: (op.keepers ++ s.frames) } := by
  have hpush : ∀ f, (s.push f).engine? b = none := fun _ => he
  cases op with
  | evaluate script => exact call_disposed he
  | getVariable name =>
    rw [operateStep, if_neg hp]
    exact call_disposed he
  | setVariable name v =>
    rw [operateStep, if_neg hp]
    exact exchange_disposed (hpush _)
  | member target name access =>
    obtain ⟨hname, h, hh⟩ := hp
    unfold operateStep
    dsimp only
    rw [if_neg hname, hh]
    cases access with
    | get => exact call_disposed (hpush _)
    | set v => exact exchange_disposed (hpush _)
    | invoke args => exact exchange_disposed (hpush _)
  | flush =>
    unfold operateStep
    dsimp only
    rw [hpush]
    rfl

/-! ### How it fails -/

lemma drives_counted (s : Session) (b : Nat) (op : Operation) : Drives s (s.counted b op) := by
  unfold counted
  cases op.crossing? with
  | none => exact .refl s
  | some crossing => exact drives_updateBridge (fun _ => rfl) fun _ => rfl

lemma waiting_counted (s : Session) (b : Nat) (op : Operation) :
    (s.counted b op).waiting b = s.waiting b := by
  unfold counted
  cases op.crossing? with
  | none => rfl
  | some crossing =>
    exact waiting_updateBridge_of_same (f := (·.record crossing)) (fun _ => rfl) s b b

lemma arena?_counted (s : Session) (b : Nat) (op : Operation) :
    (s.counted b op).arena? b = s.arena? b := by
  unfold counted
  cases op.crossing? with
  | none => rfl
  | some crossing =>
    exact arena?_updateBridge_of_same (f := (·.record crossing)) (fun _ => rfl) s b b

lemma Operation.values_subset (op : Operation) : op.values ⊆ op.keepers.flatMap Frame.values := by
  cases op with
  | setVariable name v => exact List.Subset.refl _
  | member target name access =>
    intro v hv
    rcases List.mem_cons.1 hv with rfl | hv
    · exact List.mem_append_left _ (List.mem_append_right _ (List.mem_singleton_self _))
    · exact List.mem_append_left _ (List.mem_append_left _ hv)
  | _ => exact nofun

lemma Operation.any_keepers (op : Operation) (rest : List Frame) :
    (op.keepers ++ rest).any (Frame.isScope b) = rest.any (Frame.isScope b) := by
  cases op <;> rfl

/-- An operation that has failed within its scope. -/
def failing (s : Session) (b : Nat) (op : Operation) : Session :=
  { s.failed b op with frames := .scope b :: (op.keepers ++ s.frames) }

lemma values_failing (s : Session) (b : Nat) (op : Operation) :
    (s.failing b op).values = (s.failed b op).values := rfl

lemma broadens_failing (hc : s.control = .operate b op) : Broadens s (s.failing b op) := by
  have hcounted := drives_counted s b op
  refine .of_frames (g := []) (l := .scope b :: op.keepers)
    (hcounted.widens.trans (.of_bridges rfl))
    hcounted.leases hcounted.objects hcounted.registers rfl rfl nofun ?_ ?_
  · rw [hc]
    exact fun v hv => op.values_subset (List.append_nil op.values ▸ hv)
  · rintro c (hctl | ⟨f, hf, -⟩)
    · rw [hc] at hctl
      cases hctl
      simp [uses, failing, Frame.bridge?]
    · cases hf

/-- Giving up the slots that waited comes to its end at once when none did. -/
lemma drainStep_nil (h : s.waiting b = []) : s.drainStep b [] = s.finish := by
  unfold drainStep
  dsimp only
  rw [show (s.bridge? b).elim [] (·.deferred) = [] from h]

lemma referencesOf_values_finish (hc : s.control = .drain b []) :
    HostValue.referencesOf s.finish.values = HostValue.referencesOf s.values := by
  have hvalues : s.finish.values = .null :: s.values := by
    simp only [values, hc, finish, goto, Control.finished, Control.values, outcomeValues,
      List.cons_append, List.nil_append]
  rw [hvalues, HostValue.referencesOf_eq_flatMap, HostValue.referencesOf_eq_flatMap,
    List.flatMap_cons]
  rfl

/-- What waited goes on with an outcome, and nothing is let go of. -/
lemma step?_finish {r : Outcome} {rest : List Frame} (hc : s.control = .finished)
    (hs : s.frames = .interrupted (.done r) :: rest) (ht : s.tidy? = none) :
    s.step? = some { s with frames := rest, control := .done r } := by
  have hlost : s.lettingGo { s with frames := rest, control := .done r } =
      { s with frames := rest, control := .done r } := by
    refine lettingGo_of_subset ?_
    have hvalues : s.values =
        .null :: ({ s with frames := rest, control := .done r } : Session).values := by
      simp only [values, hc, hs, Control.finished, Control.values, outcomeValues, Frame.values,
        List.flatMap_cons, List.cons_append, List.nil_append, List.append_assoc]
    rw [hvalues, HostValue.referencesOf_eq_flatMap, HostValue.referencesOf_eq_flatMap,
      List.flatMap_cons]
    exact List.Subset.refl _
  have hp : s.proceed? = some { s with frames := rest, control := .done r } := by
    rw [proceed?, hc]
    dsimp only [Control.finished]
    rw [hs]
    rfl
  exact step?_of_lettingGo (by rw [hc]; rintro _ ⟨⟩) ht hp hlost

/-! ### A bridge of which nothing is left -/

lemma isAt_vanish {c : Nat} {stage : Bridge.Stage} (hstage : stage ≠ .gone)
    (h : (s.updateBridge b Bridge.vanish).isAt c stage = true) :
    b ≠ c ∧ s.isAt c stage = true := by
  rw [isAt, bridge?_updateBridge] at h
  split at h
  · next heq =>
    cases hb : s.bridge? c with
    | none =>
      rw [hb] at h
      cases h
    | some br =>
      rw [hb] at h
      exact absurd (of_decide_eq_true h) hstage.symm
  · next hne => exact ⟨hne, h⟩

lemma bridgeAt?_vanish {stage : Bridge.Stage} {p : Nat → Bool} (hstage : stage ≠ .gone)
    (h : ∀ c, b ≠ c → s.isAt c stage = true → p c = false) :
    (s.updateBridge b Bridge.vanish).bridgeAt? stage p = none := by
  refine List.find?_eq_none.2 fun c _ => ?_
  rw [Bool.and_eq_true]
  rintro ⟨hat, hp⟩
  obtain ⟨hne, hat⟩ := isAt_vanish hstage hat
  rw [h c hne hat] at hp
  cases hp

/-- Nothing that is found among the bridges has some property. -/
lemma of_bridgeAt? {stage : Bridge.Stage} {p : Nat → Bool} (h : s.bridgeAt? stage p = none)
    {c : Nat} (hat : s.isAt c stage = true) : p c = false := by
  have hc : c ∈ List.range s.bridges.length := by
    rw [List.mem_range]
    by_contra hle
    rw [isAt, bridge?, List.getElem?_eq_none (Nat.le_of_not_lt hle)] at hat
    cases hat
  have hnone := List.find?_eq_none.1 h c hc
  rw [hat, Bool.true_and] at hnone
  exact Bool.eq_false_iff.2 hnone

lemma values_vanish (he : Emptied b s) : s.values ⊆ (s.updateBridge b Bridge.vanish).values := by
  intro v hv
  have harena : v ∈ s.bridges.flatMap arenaValues →
      v ∈ (s.updateBridge b Bridge.vanish).bridges.flatMap arenaValues := fun hm => by
    obtain ⟨br, hbr, hv⟩ := List.mem_flatMap.1 hm
    obtain ⟨c, hc⟩ := List.getElem?_of_mem hbr
    by_cases heq : b = c
    · have hpinned := he.pinned
      rw [Session.pinned, heq, show s.bridge? c = some br from hc] at hpinned
      rw [arenaValues, show br.arena.values = [] from hpinned] at hv
      cases hv
    · refine List.mem_flatMap.2 ⟨br, List.mem_of_getElem? (i := c) ?_, hv⟩
      exact ((bridge?_updateBridge ..).trans (if_neg heq)).trans hc
  simp only [values, List.mem_append] at hv ⊢
  exact hv.imp_right harena

/-- A bridge that has been dropped vanishes once nothing uses it any more, and with it nothing that
was referred to. -/
lemma tidy?_vanish (he : Emptied b s) (habandoned : s.abandoned? = none)
    (hunused : ∀ c, b ≠ c → s.isAt c .dropped = true → s.uses c = true)
    (hlease : s.deadLease? = none) (hobject : s.deadObject? = none) :
    (s.updateBridge b Bridge.vanish).tidy? = none := by
  have hvalues : HostValue.referencesOf s.values ⊆
      HostValue.referencesOf (s.updateBridge b Bridge.vanish).values :=
    fun _ => HostValue.mem_referencesOf_of_subset (values_vanish he)
  refine tidy?_eq_none.2 ⟨bridgeAt?_vanish nofun fun c _ hat => of_bridgeAt? habandoned hat,
    bridgeAt?_vanish nofun fun c hne hat => ?_,
    deadLease?_of_subset (s := s) rfl hvalues hlease,
    deadObject?_of_subset (s := s) rfl hvalues hobject⟩
  rw [show (s.updateBridge b Bridge.vanish).uses c = true from hunused c hne hat]
  rfl

/-- Leaving an outermost operation gives up the slots that waited, and then its outcome is given on.
-/
def leavingLast (s : Session) (b : Nat) (r : Outcome) : Session :=
  (s.push (.interrupted (.done r))).goto (.drain b [])

/-- Where no slot waited, an outermost operation is left at once. -/
lemma exists_left {r : Outcome} (hc : s.control = .done r) (hw : s.waiting b = [])
    (ht : (s.leavingLast b r).tidy? = none)
    (hempty : s.frames.any (fun f => decide (f.bridge? = some b)) = true ∨ Emptied b s) :
    ∃ u, Proceeds (s.leavingLast b r) u ∧
      (u = s ∨ s.isAt b .dropped = true ∧ u = s.updateBridge b Bridge.vanish) := by
  obtain ⟨habandoned, hunused, hlease, hobject⟩ := tidy?_eq_none.1 ht
  let t : Session := (s.leavingLast b r).finish
  have hback : { t with frames := s.frames, control := .done r } = s := by
    rw [← hc]
    rfl
  have hvalues : HostValue.referencesOf (s.leavingLast b r).values ⊆
      HostValue.referencesOf t.values := by
    rw [referencesOf_values_finish rfl]
    exact List.Subset.refl _
  have hstep : (s.leavingLast b r).step? = some t :=
    step?_of_lettingGo (by rintro _ ⟨⟩) ht (congrArg some (drainStep_nil hw))
      (lettingGo_of_subset hvalues)
  have hlease' : t.deadLease? = none :=
    deadLease?_of_subset (s := s.leavingLast b r) rfl hvalues hlease
  have hobject' : t.deadObject? = none :=
    deadObject?_of_subset (s := s.leavingLast b r) rfl hvalues hobject
  have huses : ∀ c, b ≠ c → s.isAt c .dropped = true → t.uses c = true := fun c hne hat => by
    have hused := of_bridgeAt? hunused hat
    rw [Bool.not_eq_false', Session.uses, Bool.or_eq_true] at hused
    rw [Session.uses, Bool.or_eq_true]
    refine .inr (hused.resolve_left fun hctl => hne ?_)
    exact Option.some.inj (of_decide_eq_true hctl)
  cases hfound : t.unused? with
  | none =>
    have ht' : t.tidy? = none := tidy?_eq_none.2 ⟨habandoned, hfound, hlease', hobject'⟩
    exact ⟨_, .head hstep (.single (step?_finish rfl rfl ht')), .inl hback⟩
  | some c =>
    have hfind := List.find?_some hfound
    rw [Bool.and_eq_true, Bool.not_eq_true'] at hfind
    obtain rfl : b = c := by
      by_contra hne
      rw [huses c hne hfind.1] at hfind
      cases hfind.2
    have he : Emptied b t := hempty.resolve_left fun hany => by
      have hfree := hfind.2
      rw [Session.uses, Bool.or_eq_false_iff, show t.frames = _ :: s.frames from rfl, List.any_cons,
        hany, Bool.or_true] at hfree
      cases hfree.2
    have ht' := tidy?_vanish he habandoned huses hlease' hobject'
    have hvanish : t.tidy? = some (t.updateBridge b Bridge.vanish) := by
      unfold tidy?
      rw [show t.abandoned? = none from habandoned]
      dsimp only
      rw [hfound]
    refine ⟨_, .head hstep (.head (step?_of_tidy? (by rintro _ ⟨⟩) hvanish)
      (.single (step?_finish rfl rfl ht'))), .inr ⟨hfind.1, ?_⟩⟩
    exact congrArg (·.updateBridge b Bridge.vanish) hback

/-- **An operation of a bridge whose engine has gone fails** once its name and its target have been
looked at, and nothing changes but that it is counted.  A bridge that has been dropped and that
nothing else uses is gone afterwards. -/
theorem exists_failed (he : s.engine? b = none) (hw : Waits b s)
    (hempty : s.frames.any (fun f => decide (f.bridge? = some b)) = true ∨ Emptied b s)
    (hc : s.control = .operate b op) (ht : s.tidy? = none) (hp : op.Passes b) :
    ∃ u, Proceeds s u ∧ (u = s.failed b op ∨
      s.isAt b .dropped = true ∧ u = (s.failed b op).updateBridge b Bridge.vanish) := by
  let r : Outcome := .error (.operation (.interop .disposed))
  have hbroadens := broadens_failing hc
  have hstep : s.step? = some (s.failing b op) := by
    refine hbroadens.step? (by simp [hc]) ht ?_
    rw [proceed?, hc]
    exact congrArg some (operateStep_disposed he hp)
  have ht' := hbroadens.tidy? ht
  have hcall : (s.failed b op).inCall b = s.inCall b := op.any_keepers _
  have hleave : (s.failing b op).proceed? = some ((s.failed b op).leaveScope b r) := rfl
  cases hi : s.inCall b with
  | true =>
    have hback : (s.failed b op).leaveScope b r = s.failed b op := by
      rw [leaveScope, hcall, hi, if_pos rfl]
      rfl
    refine ⟨_, .head hstep (.single
      (step?_of_lettingGo (by rintro _ ⟨⟩) ht' (hback ▸ hleave) ?_)), .inl rfl⟩
    refine lettingGo_of_subset ?_
    rw [values_failing]
    exact List.Subset.refl _
  | false =>
    have hback : (s.failed b op).leaveScope b r = (s.failed b op).leavingLast b r := by
      rw [leaveScope, hcall, hi, if_neg Bool.false_ne_true]
      rfl
    have hbroadens₁ : Broadens (s.failing b op) ((s.failed b op).leavingLast b r) :=
      broadens_leavesLast rfl rfl
    have hwaiting : (s.failed b op).waiting b = [] := by
      by_contra hne
      rw [show (s.failed b op).waiting b = _ from waiting_counted s b op] at hne
      rcases hw hne with hcall | ⟨hdrain, -⟩
      · rw [hcall] at hi
        cases hi
      · rw [hc] at hdrain
        cases hdrain
    have hempty' : (op.keepers ++ s.frames).any (fun f => decide (f.bridge? = some b)) = true ∨
        Emptied b (s.failed b op) := by
      refine hempty.imp (fun hany => ?_) fun he a ha => he a ?_
      · rw [List.any_append, hany, Bool.or_true]
      · rwa [show (s.failed b op).arena? b = _ from arena?_counted s b op] at ha
    obtain ⟨u, hsteps, hu⟩ := exists_left rfl hwaiting (hbroadens₁.tidy? ht') hempty'
    refine ⟨u, .head hstep (.head (hbroadens₁.step? (by rintro _ ⟨⟩) ht' (hback ▸ hleave)) hsteps),
      hu.imp_right fun h => ⟨(hbroadens.isAt b _).symm.trans h.1, h.2⟩⟩

end ScriptBridge.Session
