/-
# Records are decoded as long as there is an engine

A record that an engine has sent is decoded at once, or an engine waits at work beneath it.  So no
record is left to be decoded when a bridge is disposed, and none is decoded for a bridge whose
engine has gone.
-/
import ScriptBridge.Proofs.Session.AtWork

namespace ScriptBridge.Session

open ScriptBridge.Bridge ScriptBridge.Host ScriptBridge.Table ScriptBridge.Wire

variable {s s' t u : Session} {b c : Nat} {types : List HostType} {setups : List Setup}
  {hist older : List Session}

/-! ### Steps that decode nothing -/

/-- Whether a record is about to be decoded. -/
def Control.isDecode : Control → Bool
  | .decode .. => true
  | _ => false

/-- Whether a record waits to be decoded. -/
def Frame.isDecode : Frame → Bool
  | .interrupted ctl => ctl.isDecode
  | _ => false

/-- Things that are still to be done have been added, none of which is to decode a record. -/
structure Adds (s t : Session) : Prop where
  frames : ∃ l, t.frames = l ++ s.frames ∧ ∀ fr ∈ l, fr.isDecode = false
  control : t.control.isDecode = false

lemma Control.isDecode_of_isInner {ctl : Control} (h : ctl.isInner = true) :
    ctl.isDecode = false := by
  cases ctl <;> first | rfl | cases h

lemma Frame.isDecode_of_isInner {fr : Frame} (h : fr.isInner = true) : fr.isDecode = false := by
  cases fr <;> first | rfl | exact Control.isDecode_of_isInner h

lemma Inner.adds (h : Inner s t) : Adds s t := by
  obtain ⟨l, hl, hquiet⟩ := h.frames
  exact ⟨⟨l, hl, fun fr hfr => Frame.isDecode_of_isInner
    (Frame.isInner_of_isQuiet (hquiet fr hfr))⟩,
    Control.isDecode_of_isInner (Control.isInner_of_isQuiet h.control)⟩

namespace Adds

lemma none (hf : t.frames = s.frames) (hc : t.control.isDecode = false) : Adds s t :=
  ⟨⟨[], hf, List.forall_mem_nil _⟩, hc⟩

lemma one {f : Frame} (hs : t.frames = f :: s.frames) (hf : f.isDecode = false)
    (hc : t.control.isDecode = false) : Adds s t :=
  ⟨⟨[f], hs, List.forall_mem_singleton.2 hf⟩, hc⟩

/-- A frame was on the stack before. -/
lemma below {f : Frame} (h : Adds t u) (hs : t.frames = f :: s.frames)
    (hf : f.isDecode = false) : Adds s u := by
  obtain ⟨l, hl, hnot⟩ := h.frames
  exact ⟨⟨l ++ [f], by rw [hl, hs, List.append_assoc, List.singleton_append],
    List.forall_mem_append.2 ⟨hnot, List.forall_mem_singleton.2 hf⟩⟩, h.control⟩

lemma of_frames (h : Adds t u) (hf : t.frames = s.frames) : Adds s u := by
  obtain ⟨l, hl, hnot⟩ := h.frames
  exact ⟨⟨l, by rw [hl, hf], hnot⟩, h.control⟩

lemma startEngine (s : Session) (b : Nat) (p : Purpose) (e : Engine) (op : Engine.Operation) :
    Adds s (s.startEngine b p e op) := .one (f := .running b p) rfl rfl rfl

lemma call (s : Session) (b : Nat) (crossing : Crossing) (op : Engine.Operation) :
    Adds s (s.call b crossing op) := by
  unfold Session.call
  dsimp only
  split
  · exact .one (f := .scope b) rfl rfl rfl
  · exact (startEngine _ b .value _ op).below (f := .scope b) rfl rfl

lemma exchange (s : Session) (b : Nat) (crossing : Crossing) (v : HostValue)
    (op : Record → Engine.Operation) : Adds s (s.exchange b crossing v op) := by
  unfold Session.exchange
  dsimp only
  split
  · exact .one (f := .scope b) rfl rfl rfl
  · split
    · exact .one (f := .scope b) rfl rfl rfl
    · split
      · exact .one (f := .scope b) rfl rfl rfl
      · exact (startEngine _ b .value _ _).below (f := .scope b) rfl rfl

lemma operateStep (s : Session) (b : Nat) (op : Operation) : Adds s (s.operateStep b op) := by
  cases op with
  | evaluate script => exact call ..
  | getVariable name =>
    unfold Session.operateStep
    dsimp only
    split
    · exact .none rfl rfl
    · exact call ..
  | setVariable name v =>
    unfold Session.operateStep
    dsimp only
    split
    · exact .none rfl rfl
    · exact (exchange ..).below (f := .held [v]) rfl rfl
  | member target name access =>
    unfold Session.operateStep
    dsimp only
    split
    · exact .none rfl rfl
    · split
      · exact .none rfl rfl
      · cases access with
        | get => exact (call ..).below (f := .held _) rfl rfl
        | set v => exact (exchange ..).below (f := .held _) rfl rfl
        | invoke args => exact (exchange ..).below (f := .held _) rfl rfl
  | flush =>
    unfold Session.operateStep
    dsimp only
    split
    · exact .one (f := .scope b) rfl rfl rfl
    · exact (startEngine _ b .nothing _ _).below (f := .scope b) rfl rfl

lemma performStep (s : Session) (b : Nat) (tasks : List Task) (heard : List Heard)
    (result : Except Fault HostValue) : Adds s (s.performStep b tasks heard result) := by
  unfold Session.performStep
  split
  · split <;> exact .none rfl rfl
  · split
    · exact .none rfl rfl
    · exact (startEngine _ b .nothing _ _).below (f := .interrupted _) rfl rfl
  · split
    · exact .none rfl rfl
    · exact startEngine ..

lemma unpin (s : Session) (b : Nat) (slot : Slot) {next : Control} (hn : next.isDecode = false) :
    Adds s (s.unpin b slot next) := by
  unfold Session.unpin
  split
  · exact .none rfl hn
  · exact .one (f := .interrupted next) rfl hn rfl

lemma removeSlot (s : Session) (b : Nat) (slot : Slot) {next : Control}
    (hn : next.isDecode = false) : Adds s (s.removeSlot b slot next) := by
  unfold Session.removeSlot
  dsimp only
  split
  · exact .none rfl hn
  · exact (unpin (s.record b .removeSlot) b slot hn).of_frames rfl

lemma drainStep (s : Session) (b : Nat) (slots : List Slot) : Adds s (s.drainStep b slots) := by
  unfold Session.drainStep
  split
  · exact unpin s b _ rfl
  · split <;> exact .none rfl rfl

lemma teardownStep (s : Session) (b : Nat) (slots : List Slot) :
    Adds s (s.teardownStep b slots) := by
  unfold Session.teardownStep
  split
  · exact removeSlot s b _ rfl
  · split
    · exact .none rfl rfl
    · exact .one (f := .interrupted (.forget b)) rfl rfl rfl

lemma runHook (s : Session) (o : HostObject) (hc : s.control.isDecode = false) :
    Adds s (s.runHook o) := by
  cases hhook : (s.typeOf o).hook with
  | none =>
    rw [runHook_of_none hhook]
    split <;> exact .none rfl hc
  | some a =>
    obtain ⟨hcontrol, hframes⟩ := runHook_of_some hhook
    exact ⟨⟨[.hook o, .interrupted s.control], hframes,
      List.forall_mem_cons.2 ⟨rfl, List.forall_mem_singleton.2 hc⟩⟩, by rw [hcontrol]; rfl⟩

lemma releaseStep (s : Session) (entries : List Entry) : Adds s (s.releaseStep entries) := by
  cases entries with
  | nil => exact .none rfl rfl
  | cons entry rest =>
    rw [releaseStep_cons]
    split
    · exact .none rfl rfl
    · split
      · exact .none rfl rfl
      · exact (runHook (s.goto (.release rest)) _ rfl).of_frames rfl

lemma leaveScope (s : Session) (b : Nat) (r : Outcome) : Adds s (s.leaveScope b r) := by
  unfold Session.leaveScope
  split
  · exact .none rfl rfl
  · exact .one (f := .interrupted (.done r)) rfl rfl rfl

lemma change (s : Session) (b : Nat) (o : HostObject) {f : Frame} (hf : f.isDecode = false)
    (a : Action) (scene : Scene) : Adds s (s.change b o f a scene) := by
  unfold Session.change
  split
  · exact .none rfl rfl
  · exact .one rfl hf rfl

lemma callMethod (s : Session) (b : Nat) (o : HostObject) (name : String) (v : HostValue) :
    Adds s (s.callMethod b o name v) := by
  unfold Session.callMethod
  dsimp only
  split
  · exact .none rfl rfl
  · next overload _ =>
    exact (change (s.updateBridge b (·.describe o.type)) b o (f := .calling b o _) rfl
      overload.body _).of_frames rfl

lemma actFirst (s : Session) (actions : List Action) (scene : Scene) {v : Session}
    (hv : Adds s v) (k : List Action → Frame) (hk : ∀ rest, (k rest).isDecode = false) :
    Adds s (s.actFirst actions scene v k) := by
  cases actions with
  | nil => exact hv
  | cons a rest => exact .one rfl (hk rest) rfl

/-- What a frame that does not wait for anything else does with an outcome. -/
lemma doneStep (s : Session) {fr : Frame} (hfr : fr.isInterrupted = false) (r : Outcome) :
    Adds s (s.doneStep fr r) := by
  cases fr with
  | interrupted ctl => cases hfr
  | scope b => exact leaveScope ..
  | assignee b o setter =>
    cases r with
    | error e => exact .none rfl rfl
    | ok v => exact change s b o rfl _ _
  | callee b o name =>
    cases r with
    | error e => exact .none rfl rfl
    | ok v => exact callMethod ..
  | hook o =>
    unfold Session.doneStep
    dsimp only
    split <;> exact .none rfl rfl
  | sequence rest last scene =>
    cases r with
    | error e => exact .none rfl rfl
    | ok v =>
      exact actFirst s rest scene (v := s.give v) (.none rfl rfl)
        (.sequence · v scene) fun _ => rfl
  | listing rest results scene =>
    cases r with
    | error e => exact .none rfl rfl
    | ok v =>
      exact actFirst s rest scene (v := s.give _) (.none rfl rfl) (.listing · (v :: results) scene)
        fun _ => rfl
  | attempting =>
    unfold Session.doneStep
    dsimp only
    split <;> exact .none rfl rfl
  | _ => exact .none rfl rfl

end Adds

/-- What is about to be done adds no record that is to be decoded: it takes the frame on top off
the stack at most, or what waited there goes on. -/
lemma adds_proceed? (hc : ∀ b, s.control ≠ .engine b) (h : s.proceed? = some t) :
    Adds s t ∨ (∃ fr rest, s.frames = fr :: rest ∧ Adds { s with frames := rest } t) ∨
      s.frames = .interrupted t.control :: t.frames := by
  unfold proceed? at h
  split at h
  · next r _ =>
    split at h
    · cases h
    · cases h
    · next fr rest _ hf =>
      cases h
      cases hfr : fr.isInterrupted with
      | false => exact .inr (.inl ⟨fr, rest, hf, .doneStep _ hfr r⟩)
      | true =>
        cases fr with
        | interrupted ctl => exact .inr (.inr hf)
        | _ => cases hfr
  · cases h
    exact .inl (inner_actStep s _ _).adds
  · cases h
    exact .inl (.operateStep ..)
  · next b hb => exact absurd hb (hc b)
  · cases h
    unfold decodeStep
    split <;> exact .inl (.none rfl rfl)
  · cases h
    exact .inl (.performStep ..)
  · cases h
    unfold respondStep
    split
    · exact .inl (.none rfl rfl)
    · split <;> exact .inl (.none rfl rfl)
  · cases h
    unfold answerStep
    split <;> exact .inl (.none rfl rfl)
  · cases h
    exact .inl (.drainStep ..)
  · cases h
    exact .inl (.releaseStep ..)
  · cases h
    unfold disposeStep
    split
    · exact .inl (.none rfl rfl)
    · split <;> exact .inl (.none rfl rfl)
  · cases h
    exact .inl (.teardownStep ..)
  · cases h
    exact .inl (.none rfl rfl)
  · cases h
    exact .inl (.none rfl rfl)
  · cases h
    exact .inl (.none rfl rfl)

/-! ### Records that wait -/

/-- A record is decoded at once, or an engine waits at work beneath it. -/
structure Attended (b : Nat) (s : Session) : Prop where
  waiting : ∀ l r below, s.frames = l ++ .interrupted (.decode b r) :: below →
    below.any (Frame.isRunning b) = true
  now : ∀ r, s.control = .decode b r →
    s.isBusy b = true ∨ s.tidy? = none ∧ (s.engine? b).isSome = true

/-- What waits on a stack beneath frames that do not wait to decode a record waited there before. -/
lemma exists_of_append_eq {g frames l below : List Frame} {ctl : Control}
    (hnot : ∀ fr ∈ g, fr.isDecode = false) (hctl : ctl.isDecode = true)
    (h : g ++ frames = l ++ .interrupted ctl :: below) :
    ∃ l', frames = l' ++ .interrupted ctl :: below := by
  rcases List.append_eq_append_iff.1 h with ⟨l', -, heq⟩ | ⟨l', heq, hrest⟩
  · exact ⟨l', heq⟩
  · cases l' with
    | nil => exact ⟨[], hrest.symm⟩
    | cons fr l' =>
      obtain ⟨rfl, -⟩ := List.cons.inj hrest
      have hmem := hnot (.interrupted ctl) (by rw [heq]; simp)
      rw [Frame.isDecode, hctl] at hmem
      cases hmem

lemma Adds.attended (h : Adds s t)
    (hs : ∀ l r below, s.frames = l ++ .interrupted (.decode b r) :: below →
      below.any (Frame.isRunning b) = true) : Attended b t := by
  obtain ⟨l, hl, hnot⟩ := h.frames
  refine ⟨fun l' r below heq => ?_, fun r hc => ?_⟩
  · obtain ⟨l'', hbefore⟩ := exists_of_append_eq hnot rfl (hl.symm.trans heq)
    exact hs l'' r below hbefore
  · have hcontrol := h.control
    rw [hc] at hcontrol
    cases hcontrol

/-- What is put off waits on the stack. -/
lemma Attended.interrupt (h : Attended b t) {ctl : Control} (hctl : ctl.isDecode = false)
    (hbusy : ∀ r, t.control = .decode b r → t.isBusy b = true) :
    Attended b (t.interrupt ctl) := by
  refine ⟨fun l r below heq => ?_, fun r hc => ?_⟩
  · cases l with
    | nil =>
      obtain ⟨hcontrol, rfl⟩ := List.cons.inj heq
      exact hbusy r (Frame.interrupted.inj hcontrol)
    | cons fr l => exact h.waiting l r below (List.cons.inj heq).2
  · obtain rfl : ctl = .decode b r := hc
    cases hctl

lemma Attended.lettingGo (h : Attended b t) (before : Session)
    (hbusy : ∀ r, t.control = .decode b r → t.isBusy b = true) :
    Attended b (before.lettingGo t) := by
  rcases lettingGo_cases before t with heq | ⟨vs, heq⟩ <;> rw [heq]
  · exact h
  · exact h.interrupt rfl hbusy

lemma Attended.tidy? (h : Attended b s) (ht : s.tidy? = some u) : Attended b u := by
  have hbusy : ∀ r, s.control = .decode b r → s.isBusy b = true := fun r hc =>
    (h.now r hc).resolve_right fun hnone => by
      rw [hnone.1] at ht
      cases ht
  have hsame : ∀ {v : Session}, v.frames = s.frames → v.control = s.control → Attended b v :=
    fun hf hc => ⟨fun l r below heq => h.waiting l r below (hf.symm.trans heq), fun r hr => .inl (by
      rw [isBusy, hf]
      exact hbusy r (hc.symm.trans hr))⟩
  have hput : ∀ {v : Session} {k : Control}, v.frames = s.frames → v.control = s.control →
      k.isDecode = false → Attended b (v.interrupt k) := fun hf hc hk =>
    (hsame hf hc).interrupt hk fun r hr => by
      rw [isBusy, hf]
      exact hbusy r (hc.symm.trans hr)
  unfold Session.tidy? at ht
  split at ht
  · cases ht
    exact hput rfl rfl rfl
  · split at ht
    · cases ht
      exact hsame rfl rfl
    · split at ht
      · next g _ =>
        cases ht
        unfold endLease
        dsimp only
        split
        · exact hsame rfl rfl
        · next e _ =>
          have hpushed :=
            hput (v := { s with leases := s.leases.filter fun g' => g'.lease ≠ g.lease })
            (k := .finished) rfl rfl rfl
          exact (Adds.startEngine _ g.bridge .nothing e _).attended hpushed.waiting
      · obtain ⟨st, -, rfl⟩ := Option.map_eq_some_iff.1 ht
        unfold forgetObject
        dsimp only
        split
        · exact hsame rfl rfl
        · exact hput rfl rfl rfl

/-- What a request of an engine adds decodes nothing, or the value of the request. -/
lemma serve_cases (s : Session) (b : Nat) (req : Engine.Request) :
    Adds s (s.serve b req) ∨ ∃ fr r, (s.serve b req).frames = fr :: s.frames ∧
      fr.isDecode = false ∧ (s.serve b req).control = .decode b r := by
  cases req with
  | get slot name =>
    refine .inl ?_
    unfold serve readProperty
    dsimp only
    split
    · exact .none rfl rfl
    · next o _ =>
      unfold readObject
      dsimp only
      split
      · split
        · exact .none rfl rfl
        · exact .one (f := .getting b o _) rfl rfl rfl
      · split
        · split <;> exact .none rfl rfl
        · exact .none rfl rfl
    · split <;> exact .none rfl rfl
    · split
      · exact .none rfl rfl
      · split <;> exact .none rfl rfl
  | set slot name r =>
    unfold serve writeProperty
    dsimp only
    split
    · exact .inl (.none rfl rfl)
    · split
      · exact .inr ⟨_, r, rfl, rfl, rfl⟩
      · exact .inl (.none rfl rfl)
    · exact .inl (.none rfl rfl)
  | invoke slot r =>
    unfold serve callEntry
    dsimp only
    split
    · exact .inl (.none rfl rfl)
    · exact .inr ⟨_, r, rfl, rfl, rfl⟩
    · exact .inl (.none rfl rfl)

/-- The record that an engine sends to its host is decoded next, or its engine waits for the
host. -/
lemma Attended.engineStep (h : Attended b s) (hc : s.control = .engine c)
    (hrun : (s.engine? c).isSome → ∃ p rest, s.frames = .running c p :: rest ∧
      (p ≠ .nothing → s.tidy? = none)) : Attended b (s.engineStep c) := by
  unfold Session.engineStep
  cases he : s.engine? c with
  | none => exact (Adds.none rfl rfl).attended h.waiting
  | some e =>
    obtain ⟨p, rest, hf, htidy⟩ := hrun (by rw [he]; rfl)
    have hbusy : s.isBusy c = true := by
      rw [isBusy, hf]
      simp [Frame.isRunning]
    dsimp only
    split
    · refine Adds.attended ⟨⟨[], rfl, List.forall_mem_nil _⟩, ?_⟩ h.waiting
      change s.control.isDecode = false
      rw [hc]
      rfl
    · exact ((Adds.removeSlot _ c _ rfl).of_frames rfl).attended h.waiting
    · next req _ =>
      rcases serve_cases (s.updateBridge c ({ · with engine := some e.step.1 })) c req with
        hadds | ⟨fr, r, hframes, hfr, hcontrol⟩
      · exact (hadds.of_frames rfl).attended h.waiting
      · refine ⟨fun l r below heq => ?_, fun r' hr => .inl ?_⟩
        · obtain ⟨l', hbefore⟩ := exists_of_append_eq (g := [fr])
            (List.forall_mem_singleton.2 hfr) rfl (hframes.symm.trans heq)
          exact h.waiting l' r below hbefore
        · rw [hcontrol] at hr
          obtain rfl := (Control.decode.inj hr).1
          rw [isBusy, hframes, List.any_cons]
          exact Bool.or_eq_true_iff.2 (.inr hbusy)
    · next r _ =>
      unfold takeFinished
      rw [show (s.updateBridge c ({ · with engine := some e.step.1 })).frames = _ from hf]
      dsimp only
      have hrest : ∀ l r below, rest = l ++ .interrupted (.decode b r) :: below →
          below.any (Frame.isRunning b) = true := fun l r below heq =>
        h.waiting (_ :: l) r below (hf.trans (congrArg (List.cons _) heq))
      cases p with
      | value =>
        refine ⟨hrest, fun r' hr => .inr ?_⟩
        obtain rfl := (Control.decode.inj hr).1
        refine ⟨(broadens_finished hc hf (by rintro _ ⟨⟩) (.inl rfl)).tidy? (htidy (by rintro ⟨⟩)),
          ?_⟩
        obtain ⟨br, hbr, -⟩ := Option.bind_eq_some_iff.1 he
        change ((s.updateBridge c ({ · with engine := some e.step.1 })).engine? c).isSome = true
        rw [Session.engine?, bridge?_updateBridge, if_pos rfl, hbr]
        rfl
      | nothing => exact Adds.attended (s := { s with frames := rest }) (.none rfl rfl) hrest
      | member => exact Adds.attended (s := { s with frames := rest }) (.none rfl rfl) hrest

/-- **Records stay attended to.** -/
theorem Goes.attended (h : Goes s s') (hs : Attended b s)
    (hrun : ∀ c, s.control = .engine c → (s.engine? c).isSome → ∃ p rest,
      s.frames = .running c p :: rest ∧ (p ≠ .nothing → s.tidy? = none)) : Attended b s' := by
  have hproceeds : (∀ c, s.control ≠ .engine c) → ∀ t, s.proceed? = some t →
      Attended b (s.lettingGo t) := fun hne t hp => by
    rcases adds_proceed? hne hp with hadds | ⟨fr, rest, hf, hadds⟩ | hf
    · refine (hadds.attended hs.waiting).lettingGo s fun r hc => ?_
      have hcontrol := hadds.control
      rw [hc] at hcontrol
      cases hcontrol
    · refine (hadds.attended fun l r below heq => ?_).lettingGo s fun r hc => ?_
      · exact hs.waiting (fr :: l) r below (hf.trans (congrArg (List.cons fr) heq))
      · have hcontrol := hadds.control
        rw [hc] at hcontrol
        cases hcontrol
    · have hbusy : ∀ r, t.control = .decode b r → t.isBusy b = true := fun r hc =>
        hs.waiting [] r t.frames (hc ▸ hf)
      exact Attended.lettingGo ⟨fun l r below heq => hs.waiting (_ :: l) r below
        (hf.trans (congrArg (List.cons _) heq)), fun r hc => .inl (hbusy r hc)⟩ s hbusy
  have hinner : ∀ {v t : Session} (before : Session), Inner v t →
      (∀ l r below, v.frames = l ++ .interrupted (.decode b r) :: below →
        below.any (Frame.isRunning b) = true) → Attended b (before.lettingGo t) :=
    fun before ht hv => (ht.adds.attended hv).lettingGo before fun r hc => by
      have hcontrol := ht.adds.control
      rw [hc] at hcontrol
      cases hcontrol
  cases h with
  | steps h =>
    unfold step? at h
    split at h
    · next c hc =>
      cases h
      exact hs.engineStep hc (hrun c hc)
    · next hne =>
      cases htidy : s.tidy? with
      | some u =>
        rw [htidy] at h
        cases h
        exact hs.tidy? htidy
      | none =>
        rw [htidy] at h
        obtain ⟨t, ht, rfl⟩ := Option.map_eq_some_iff.1 h
        exact hproceeds hne t ht
  | begins hr hf hb h =>
    obtain ⟨before, t, ht, rfl⟩ := inner_begin? h
    exact hinner before ht hs.waiting
  | @concludes rest save hr hf h =>
    subst h
    exact hinner s (inner_settle hf save) fun l r below heq =>
      hs.waiting (.pausing :: l) r below (hf.trans (congrArg (List.cons _) heq))

/-- What waits for an engine at work is on top of the stack. -/
lemma exists_running_of_engine (h : History types setups (s :: older))
    (hc : s.control = .engine c) (he : (s.engine? c).isSome) :
    ∃ p rest, s.frames = .running c p :: rest ∧ (p ≠ .nothing → s.tidy? = none) := by
  obtain ⟨e, he⟩ := Option.isSome_iff_exists.1 he
  obtain ⟨x, hx, -⟩ := side?_isSome_of_engine? he
  obtain ⟨p, rest, hf⟩ := exists_running_of_side? hx (h.accounted (List.mem_cons_self ..) hx) hc
  exact ⟨p, rest, hf, h.tidy?_eq_none hx hc hf⟩

/-- At all times, records are decoded at once or an engine waits at work beneath them. -/
lemma History.attended (h : History types setups hist) (hs : s ∈ hist) : Attended b s := by
  induction h generalizing s with
  | starts hcreate =>
    obtain rfl := List.mem_singleton.1 hs
    unfold create at hcreate
    cases hmap : setups.mapM Bridge.create with
    | error err =>
      rw [hmap] at hcreate
      cases hcreate
    | ok bridges =>
      rw [hmap] at hcreate
      cases hcreate
      exact ⟨fun l r below heq => by simp at heq, nofun⟩
  | @goes u s' l h hgo ih =>
    rcases List.mem_cons.1 hs with rfl | hs
    · exact hgo.attended (ih (List.mem_cons_self ..)) fun c hc he =>
        exists_running_of_engine h hc he
    · exact ih hs

/-- **No record is decoded for a bridge whose engine has gone.** -/
theorem History.engine_isSome_of_decode (h : History types setups hist) (hs : s ∈ hist)
    {r : Record} (hc : s.control = .decode b r) : (s.engine? b).isSome = true := by
  rcases (h.attended hs).now r hc with hbusy | ⟨-, he⟩
  · by_contra hnone
    obtain ⟨fr, hfr, hrunning⟩ := List.any_eq_true.1 hbusy
    have hidle := (h.retired hs (Option.not_isSome_iff_eq_none.1 hnone)).idle (fr.mark b)
      (List.mem_cons_of_mem _ (List.mem_map_of_mem hfr))
    cases fr with
    | running d p =>
      rw [Frame.mark, if_pos (by simpa [Frame.isRunning] using hrunning)] at hidle
      cases hidle
    | _ => cases hrunning
  · exact he

end ScriptBridge.Session
