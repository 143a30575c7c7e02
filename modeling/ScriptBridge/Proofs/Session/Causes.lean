/-
# Failures keep their cause

A callback of script fails, and host code and script call each other to any depth around it.  Where
no script keeps the failure to itself and host code hands it on, it is entered anew in the arena of
each bridge that it comes through, thrown as a stand-in, and found again when the operation that is
left through it ends: the outermost one ends with the same failure.
-/
import ScriptBridge.Proofs.Engine.Exceptions
import ScriptBridge.Proofs.Session.AtWork
import ScriptBridge.Proofs.Session.Stage
import ScriptBridge.Proofs.Session.Storage

namespace ScriptBridge.Session

open ScriptBridge.Bridge ScriptBridge.Host ScriptBridge.Script ScriptBridge.Table ScriptBridge.Wire

variable {s s' t u : Session} {b c : Nat} {x y : Side} {e : HostError} {q : Ref} {ctl : Control}
  {f : Failure} {below outer way w : List Frame} {types : List HostType} {setups : List Setup}
  {older : List Session}

/-! ### Programs that go on by themselves -/

/-- Script never puts anything in the place of the class of stand-ins as long as a program goes on
by itself. -/
def StaysIntact (s : Session) : Prop :=
  ∀ u, Proceeds s u → ∀ b e, u.engine? b = some e → e.isIntact .proxy = true

lemma StaysIntact.later (h : StaysIntact s) (hp : Proceeds s u) : StaysIntact u :=
  fun v hv => h v (hp.trans hv)

/-- A program has come to where it is without script putting anything in the place of the class of
stand-ins. -/
def CameIntact (types : List HostType) (setups : List Setup) (s : Session) : Prop :=
  ∃ older, History types setups (s :: older) ∧ ∀ b, Intact b (s :: older)

lemma CameIntact.later (h : CameIntact types setups s) (hi : StaysIntact s) (hp : Proceeds s u) :
    CameIntact types setups u := by
  induction hp with
  | refl => exact h
  | tail hp hstep ih =>
    obtain ⟨older, h, hintact⟩ := ih
    exact ⟨_, h.goes (.steps hstep), fun b => List.forall_mem_cons.2
      ⟨fun e he => hi _ (hp.tail hstep) b e he, hintact b⟩⟩

lemma CameIntact.faithful (h : CameIntact types setups s) (hx : s.side? b = some x) :
    x.Faithful := by
  obtain ⟨older, h, hintact⟩ := h
  exact h.faithful (hintact b) (List.mem_cons_self ..) hx

lemma CameIntact.isIntact (h : CameIntact types setups s) (hx : s.side? b = some x) :
    x.engine.isIntact .proxy = true := by
  obtain ⟨older, h, hintact⟩ := h
  exact hintact b s (List.mem_cons_self ..) _ (engine?_of_side? hx)

/-! ### What stands for a failure -/

/-- Nothing in an engine becomes anything else. -/
lemma CameIntact.ages_step (h : CameIntact types setups s) (hstep : s.step? = some s')
    (hy : s'.side? b = some y) :
    ∃ x, s.side? b = some x ∧ x.engine.heap.Ages y.engine.heap := by
  obtain ⟨k, x, z, hx, hmove, hlast⟩ := (Goes.steps hstep).moves hy
  have hfaithful := h.faithful hx
  refine ⟨x, hx, ?_⟩
  have hengine : y.engine = z.engine := by
    rcases hlast with ⟨rfl, -⟩ | ⟨-, -, hengine, -⟩
    · rfl
    · exact hengine
  rw [hengine]
  rcases hmove.engine hfaithful.toAccounted with heq | ⟨-, heq⟩ | ⟨-, -, ⟨w, heq⟩ | ⟨-, -, r, heq⟩⟩
    <;> rw [heq]
  · exact hfaithful.honest.ages_step hfaithful.shaped (h.isIntact hx)
  · exact .refl _
  · exact .refl _

lemma CameIntact.ages (h : CameIntact types setups s) (hi : StaysIntact s) (hp : Proceeds s s')
    (hy : s'.side? b = some y) :
    ∃ x, s.side? b = some x ∧ x.engine.heap.Ages y.engine.heap := by
  induction hp generalizing y with
  | refl => exact ⟨y, hy, .refl _⟩
  | tail hp hstep ih =>
    obtain ⟨z, hz, hlast⟩ := (h.later hi hp).ages_step hstep hy
    obtain ⟨x, hx, hfirst⟩ := ih hz
    exact ⟨x, hx, hfirst.trans hlast⟩

/-- An object of the engine of a bridge is the stand-in for a failure. -/
def Embodies (s : Session) (b : Nat) (q : Ref) (e : HostError) : Prop :=
  ∃ x o slot token, s.side? b = some x ∧ x.engine.heap.get? q = some o ∧
    o.kind = .proxy slot token ∧ o.entry = some slot ∧ x.arena.get? slot = some (.error e)

/-- **A stand-in for a failure remains so as long as it is there.** -/
theorem CameIntact.embodies (h : CameIntact types setups s) (hi : StaysIntact s)
    (hp : Proceeds s s') (hs : s.Embodies b q e) (hy : s'.side? b = some y)
    (hq : (y.engine.heap.get? q).isSome) : s'.Embodies b q e := by
  induction hp using Relation.ReflTransGen.head_induction_on with
  | refl => exact hs
  | @head s s₁ hstep hp ih =>
    have h₁ := h.later hi (.single hstep)
    have hi₁ := hi.later (.single hstep)
    refine ih h₁ hi₁ ?_
    obtain ⟨x, o, slot, token, hx, ho, hk, hentry, hv⟩ := hs
    obtain ⟨y₁, hy₁, hlater⟩ := h₁.ages hi₁ hp hy
    obtain ⟨x', hx', hfirst⟩ := h.ages_step hstep hy₁
    obtain rfl : x = x' := Option.some.inj (hx.symm.trans hx')
    have hlt : q < x.engine.heap.next := (h.faithful hx).sound.lt_of_get? ho
    obtain ⟨o', ho'⟩ := Option.isSome_iff_exists.1 hq
    obtain ⟨o₁, ho₁, -⟩ := hlater.sort q o' (Nat.lt_of_lt_of_le hlt hfirst.next_le) ho'
    obtain ⟨p, hp, hsort⟩ := hfirst.sort q o₁ hlt ho₁
    obtain rfl : o = p := Option.some.inj (ho.symm.trans hp)
    obtain ⟨hshape, hsame⟩ := Prod.mk.inj hsort
    have hk₁ : o₁.kind = .proxy slot token := by
      rw [hk] at hshape
      cases hkind : o₁.kind with
      | array n => rw [hkind] at hshape; cases hshape
      | _ => rw [hkind] at hshape; exact hshape.symm
    have hfaithful₁ := h₁.faithful hy₁
    refine ⟨y₁, o₁, slot, token, hy₁, ho₁, hk₁, hsame.symm.trans hentry, ?_⟩
    exact (Goes.steps hstep).get?_eq_some (fun z hz => (h.faithful hz).toAccounted) hy₁
      (Side.mem_holders_of_hasStandIn hfaithful₁.honest ⟨q, o₁, token, ho₁, hk₁⟩)
      ((entryOf?_of_side? hx slot).trans hv)

/-! ### Host code that hands failures on -/

/-- A failure is, to script and to the host, what a failure of host code is. -/
structure Failure.Of (f : Failure) (e : HostError) : Prop where
  cause : f.cause = e
  error : f.error = .ofHost e

/-- Whether a frame hands on a failure that is given to it. -/
def Frame.propagates : Frame → Bool
  | .interrupted _ | .pausing | .hook _ | .attempting => false
  | .running _ purpose => match purpose with
    | .value => true
    | _ => false
  | .getting _ _ fallible => fallible
  | _ => true

/-- What is about to be done with a failure that is handed on. -/
inductive Control.Carries (e : HostError) : Control → Prop
  /-- It becomes the answer to a callback. -/
  | respond {b : Nat} : Carries e (.respond b (.error e))
  /-- A callback is answered with it. -/
  | answer {b : Nat} : Carries e (.answer b (.error e))
  /-- It is given to what waits for an outcome. -/
  | done {f : Failure} (hf : f.Of e) : Carries e (.done (.error f))

lemma Control.Carries.ne_engine (h : ctl.Carries e) (b : Nat) : ctl ≠ .engine b := by
  rintro rfl
  cases h

/-- A frame that is no scope gives way to what carries the failure on. -/
lemma carries_doneStep {fr : Frame} (hp : fr.propagates = true) (hs : ∀ b, fr ≠ .scope b)
    (hf : f.Of e) :
    (s.doneStep fr (.error f)).frames = s.frames ∧
      (s.doneStep fr (.error f)).control.Carries e := by
  have hseen : seenByScript (.error f) = .error e := congrArg Except.error hf.cause
  cases fr with
  | interrupted | pausing | hook | attempting => cases hp
  | scope b => exact absurd rfl (hs b)
  | held | keeping | running | borrowed | «sequence» | listing => exact ⟨rfl, .done hf⟩
  | reporting =>
    cases f with
    | operation err =>
      obtain rfl : err.cause = e := hf.cause
      exact ⟨rfl, .done ⟨rfl, rfl⟩⟩
    | _ => exact ⟨rfl, .done hf⟩
  | getting c o fallible =>
    obtain rfl : fallible = true := hp
    have hresult : getterResult true (.error f) = .error e := by
      cases f with
      | panic text => exact congrArg Except.error hf.cause
      | _ => exact hseen
    refine ⟨rfl, ?_⟩
    rw [doneStep, hresult]
    exact .respond
  | setting c o v =>
    refine ⟨rfl, ?_⟩
    rw [doneStep, setterResult, hseen]
    exact .respond
  | calling c o args =>
    refine ⟨rfl, ?_⟩
    rw [doneStep, hseen]
    exact .respond
  | assignee c o setter =>
    refine ⟨rfl, ?_⟩
    rw [doneStep, hf.cause]
    exact .respond
  | callee c o name =>
    refine ⟨rfl, ?_⟩
    rw [doneStep, hf.cause]
    exact .respond

/-- What is left of an operation when it ends is its outcome. -/
lemma isOn_leaveScope (s : Session) (b : Nat) (r : Outcome) :
    IsOn (.done r) s.frames (s.leaveScope b r) := by
  unfold leaveScope
  split
  · exact isOn_goto
  · exact isOn_push

/-- **Host code hands a failure on**, also where an operation within another one is left. -/
lemma exists_carries_doneStep {fr : Frame} (hp : fr.propagates = true) (hf : f.Of e) :
    ∃ ctl : Control, ctl.Carries e ∧ IsOn ctl s.frames (s.doneStep fr (.error f)) := by
  by_cases hscope : ∃ b, fr = .scope b
  · obtain ⟨b, rfl⟩ := hscope
    exact ⟨_, .done hf, isOn_leaveScope ..⟩
  · obtain ⟨hframes, hcarries⟩ := carries_doneStep (s := s) hp (fun b hb => hscope ⟨b, hb⟩) hf
    exact ⟨_, hcarries, .inl ⟨hframes, rfl⟩⟩

/-! ### What is done before -/

/-- What is done next, unless an engine goes on. -/
lemma tidy?_or_proceed?_of_step? (h : s.step? = some t) (hc : ∀ b, s.control ≠ .engine b) :
    s.tidy? = some t ∨ s.tidy? = none ∧ ∃ u, s.proceed? = some u ∧ t = s.lettingGo u := by
  unfold step? at h
  split at h
  · next b hb => exact absurd hb (hc b)
  · cases ht : s.tidy? with
    | some u =>
      rw [ht] at h
      exact .inl h
    | none =>
      rw [ht] at h
      obtain ⟨u, hu, rfl⟩ := Option.map_eq_some_iff.1 h
      exact .inr ⟨rfl, u, hu, rfl⟩

/-- What is on something stays there until it is done next. -/
lemma IsOn.step? (h : IsOn ctl below s) (hengine : ∀ b, ctl ≠ .engine b)
    (hstep : s.step? = some t) :
    IsOn ctl below t ∨ s.frames = below ∧ s.control = ctl ∧ s.tidy? = none ∧
      ∃ u, s.proceed? = some u ∧ t = s.lettingGo u := by
  rcases h with ⟨rfl, rfl⟩ | ⟨l, hl⟩
  · rcases tidy?_or_proceed?_of_step? hstep hengine with ht | ⟨ht, hp⟩
    · rcases frames_tidy? ht with ⟨hframes, hcontrol⟩ | ⟨l, hl⟩
      · exact .inl (.inl ⟨hframes, hcontrol⟩)
      · exact .inl (.inr ⟨l, hl⟩)
    · exact .inr ⟨rfl, rfl, ht, hp⟩
  · exact .inl (((Goes.steps hstep).waits hl).elim .inr .inl)

/-! ### Engines that throw -/

/-- A failure is entered in an arena to become a record. -/
lemma failureRecord_of_add {a a' : Arena Entry} {slot : Slot} (he : ∀ slot, e ≠ .invalidSlot slot)
    (h : a.add (.error e) = some (slot, a')) : failureRecord a e = (.managedError slot, a') := by
  have hpin : pin a (.error e) = (.ok slot, a') := by rw [pin, h]
  unfold failureRecord
  split
  · exact absurd rfl (he _)
  · rw [hpin]

/-- The record of a failure that is still entered is decoded to it. -/
lemma decode_managedError {a : Arena Entry} {slot : Slot} (b n : Nat)
    (h : a.get? slot = some (.error e)) :
    decode b a n (.managedError slot) = ⟨.error (.known (.ofHost e)), [], n⟩ := by
  change decodeLeaf b a n (.managedError slot) = _
  rw [decodeLeaf, Record.view_managedError]
  dsimp only
  rw [plainValue, h]
  rfl

/-- What waits for the answer to a callback. -/
lemma CameIntact.frames_of_answer {r : Except HostError Record} (h : CameIntact types setups u)
    (hc : u.control = .answer b r) :
    ∃ x p rest held result base, u.side? b = some x ∧ u.frames = .running b p :: rest ∧
      x.engine.control = .idle ∧ x.engine.stack = .awaiting result held :: base := by
  have hmark : u.control.mark b = .answer r := by
    rw [hc]
    exact if_pos rfl
  cases hx : u.side? b with
  -- Where the engine has gone nothing is answered.
  | none =>
    obtain ⟨older, h, -⟩ := h
    have hnone : u.engine? b = none := by
      by_contra hne
      obtain ⟨engine, hengine⟩ := Option.ne_none_iff_exists'.1 hne
      obtain ⟨x, hx', -⟩ := side?_isSome_of_engine? hengine
      rw [hx] at hx'
      cases hx'
    have hidle := (h.retired (List.mem_cons_self ..) hnone).idle _ (List.mem_cons_self ..)
    rw [hmark] at hidle
    cases hidle
  | some x =>
    have hfaithful := h.faithful hx
    have htrail : x.trail = .answer r :: u.frames.map (Frame.mark b) := by
      rw [← (side?_eq_some.1 hx).2, trail, hmark]
    have hrests := (htrail ▸ hfaithful.nested).atRest_of_cons (by simp)
    generalize hcontrol : x.engine.control = c at hrests
    generalize hmarks : u.frames.map (Frame.mark b) = T at hrests
    generalize hstack : x.engine.stack = st at hrests
    cases hrests with
    | @awaits T _ _ _ _ p hm hscope hbelow h =>
      obtain ⟨fr, rest, hframes, hrunning, -⟩ := List.map_eq_cons_iff.1 hmarks
      rw [Frame.eq_running_of_mark hrunning] at hframes
      have hfits := hfaithful.shaped.fits
      rw [hcontrol] at hfits
      rcases hfits with hnil | ⟨result, held, base, hbase⟩
      · rw [← hstack, hnil] at hbelow
        cases hbelow
      · exact ⟨x, p, rest, held, result, base, rfl, hframes, hcontrol, hstack ▸ hbase⟩

/-- **The answer to a callback that failed is thrown** in the engine that waits for it, as a
stand-in for the failure. -/
theorem CameIntact.exists_thrown {rest : List Frame} (h : CameIntact types setups u)
    (hc : u.control = .answer b (.error e)) (hf : u.frames = .running b .value :: rest)
    (ht : u.tidy? = none) (he : ∀ slot, e ≠ .invalidSlot slot)
    (hroom : ∀ br, u.bridge? b = some br → (br.arena.add (.error e)).isSome) :
    ∃ u₁ t e' q, u.step? = some u₁ ∧
      ProceedsWhile (fun v => Working b (·.control.isThrow = false) v ∧ v.frames = u.frames) u₁ t ∧
      t.control = .engine b ∧ t.frames = u.frames ∧ t.engine? b = some e' ∧
      e'.thrown? = some q ∧ t.Embodies b q e := by
  obtain ⟨x, p, rest', held, result, base, hx, hf', hcontrol, hstack⟩ := h.frames_of_answer hc
  have hfaithful := h.faithful hx
  have hcore : u.core? b = some ⟨some x.engine, x.arena, x.deferred⟩ := (side?_eq_some.1 hx).1
  obtain ⟨br, hbr, hcores⟩ := bridge?_of_core? hcore
  obtain ⟨hengine, harena, -⟩ : br.engine = some x.engine ∧ br.arena = x.arena ∧
      br.deferred = x.deferred := by
    simpa [Bridge.core] using hcores
  obtain ⟨⟨slot, a⟩, hadd⟩ := Option.isSome_iff_exists.1 (hroom br hbr)
  have hrecord := failureRecord_of_add he hadd
  -- The callback is answered.
  let u₁ : Session := u.answerStep b (.error e)
  have heq : u₁ = (u.updateBridge b fun br =>
      { br with arena := a, engine := br.engine.map (·.answer (.managedError slot)) }).goto
        (.engine b) := by
    change u.answerStep b (.error e) = _
    unfold answerStep
    rw [hbr]
    dsimp only
    rw [hrecord]
  have hbroadens := broadens_answerStep hc hcore hfaithful.regular
  have hstep : u.step? = some u₁ := hbroadens.step? (by simp [hc]) ht (by rw [proceed?, hc])
  have hc₁ : u₁.control = .engine b := by rw [heq]; rfl
  have hf₁ : u₁.frames = u.frames := by rw [heq]; rfl
  have hcore₁ : u₁.core? b =
      some ⟨some (x.engine.answer (.managedError slot)), a, x.deferred⟩ := by
    rw [heq]
    change (u.updateBridge b _).core? b = _
    rw [core?_updateBridge
      (g := fun k => ⟨k.engine.map (·.answer (.managedError slot)), a, k.deferred⟩) (fun _ => rfl),
      if_pos rfl, hcore]
    rfl
  have hin : u₁.inCall b = true := by
    refine inCall_of_running (side?_of_core? hcore₁) ?_ hc₁ (hf₁.trans hf) (by simp)
    obtain ⟨older, hist, -⟩ := h
    exact (hist.goes (.steps hstep)).accounted (List.mem_cons_self ..) (side?_of_core? hcore₁)
  -- It is thrown.
  have hproxy := exists_proxy hfaithful.honest (h.isIntact hx)
  obtain ⟨e', q, o, token, hruns, hthrow, -, ho, hk, hentry⟩ :=
    Engine.exists_thrown (e := x.engine.answer (.managedError slot)) rfl hstack hfaithful.sound
      ⟨hproxy, by rintro ⟨_, ⟨⟩⟩⟩
  obtain ⟨t, q', hruns, hdrives, hcore'⟩ := drives_runs hruns hc₁ hin hcore₁
  refine ⟨u₁, t, e', q, hstep, ?_, hdrives.control.trans hc₁, hdrives.frames.trans hf₁,
    engine?_of_core? hcore', Engine.thrown?_eq_some.2 ⟨hthrow, o, ho⟩,
    ⟨_, o, slot, token, side?_of_core? hcore', ho, hk, hentry, ?_⟩⟩
  · exact hruns.mono fun v hv => hv.imp_right (·.trans hf₁)
  · rw [Arena.get?_add hadd, if_pos rfl]

/-- An engine is about to hand an exception to a handler of script. -/
def Catching (b : Nat) : Session → Prop := Working b (·.isCatching = true)

lemma Working.not_catching (h : Working b (·.isCatching = false) s) (c : Nat) : ¬ Catching c s := by
  rintro ⟨hc, e, he, hcatching⟩
  obtain ⟨hb, e', he', hfalse⟩ := h
  obtain rfl : b = c := Control.engine.inj (hb.symm.trans hc)
  obtain rfl : e = e' := Option.some.inj (he.symm.trans he')
  rw [hcatching] at hfalse
  cases hfalse

lemma not_catching (hc : ∀ b, s.control ≠ .engine b) (c : Nat) : ¬ Catching c s :=
  fun h => hc c h.1

/-- An exception that stands for a failure comes to a frame of the engine that does not let it
pass. -/
theorem CameIntact.exists_passed {e' : Engine} {rest : List Frame} (h : CameIntact types setups u)
    (hc : u.control = .engine b) (hf : u.frames = .running b .value :: rest)
    (he : u.engine? b = some e') (hq : e'.thrown? = some q) (hs : u.Embodies b q e) :
    ∃ t e₁ fr base,
      ProceedsWhile (fun v => Working b (·.isCatching = false) v ∧ v.frames = u.frames) u t ∧
      t.control = .engine b ∧ t.frames = u.frames ∧ t.engine? b = some e₁ ∧
      e₁.stack = fr :: base ∧ fr.passes = false ∧ e₁.thrown? = some q ∧ t.Embodies b q e ∧
      e₁.heap.Sound ∧ .scope b ∈ rest := by
  obtain ⟨x, o, slot, token, hx, ho, hk, hentry, hv⟩ := hs
  obtain rfl : x.engine = e' := Option.some.inj ((engine?_of_side? hx).symm.trans he)
  have hfaithful := h.faithful hx
  have hthrow := (Engine.thrown?_eq_some.1 hq).1
  have hin := inCall_of_running hx hfaithful.toAccounted hc hf nofun
  have htrail : x.trail = .engine :: .running .value :: rest.map (Frame.mark b) := by
    rw [← (side?_eq_some.1 hx).2, trail, hc, hf, Control.mark, if_pos rfl, List.map_cons,
      Frame.mark, if_pos rfl]
  obtain ⟨p, T, c, st, heq, hbelow, -⟩ := (htrail ▸ hfaithful.nested).of_engine
  obtain ⟨fs, fr, base, hstack, hfs, hfr⟩ := Engine.exists_of_below hbelow
  -- The frames that let it pass are left one after the other, without a turn of the host.
  obtain ⟨heap, slots, hruns, hsound, ho'⟩ :=
    Engine.exists_passed hthrow hfaithful.sound ho hstack hfs
  obtain ⟨t, q', hruns, hdrives, hcore⟩ := drives_runs hruns hc hin (side?_eq_some.1 hx).1
  have hscope : .scope b ∈ rest := by
    rw [inCall, hf, List.any_cons, show (Frame.running b .value).isScope b = false from rfl,
      Bool.false_or, List.any_eq_true] at hin
    obtain ⟨g, hg, hscope⟩ := hin
    cases g with
    | scope c => exact (of_decide_eq_true hscope : c = b) ▸ hg
    | _ => cases hscope
  exact ⟨t, _, fr, base, hruns, hdrives.control.trans hc, hdrives.frames, engine?_of_core? hcore,
    rfl, hfr, Engine.thrown?_eq_some.2 ⟨hthrow, o, ho'⟩,
    ⟨_, o, slot, token, side?_of_core? hcore, ho', hk, hentry, hv⟩, hsound, hscope⟩

/-- **An exception that leaves its operation is what it stands for** to the host. -/
theorem CameIntact.exists_unwound {e' : Engine} {rest : List Frame} {c' : Engine.Control}
    {base : List Engine.Frame} (h : CameIntact types setups u) (hi : StaysIntact u)
    (hc : u.control = .engine b) (hf : u.frames = .running b .value :: rest)
    (he : u.engine? b = some e') (hq : e'.thrown? = some q) (hs : u.Embodies b q e)
    (hstack : e'.stack = .entry c' :: base) (hscope : .scope b ∈ rest) :
    ∃ t, ProceedsWhile (fun v => (∀ c, ¬ Catching c v) ∧ rest <:+ v.frames) u t ∧ u ≠ t ∧
      t.control = .done (.error (.operation (.ofHost e))) ∧ t.frames = rest := by
  obtain ⟨x, o, slot, token, hx, ho, hk, hentry, hv⟩ := hs
  obtain rfl : x.engine = e' := Option.some.inj ((engine?_of_side? hx).symm.trans he)
  have hfaithful := h.faithful hx
  have hin := inCall_of_running hx hfaithful.toAccounted hc hf nofun
  -- The exception becomes a record.
  obtain ⟨heap, hruns, hclean⟩ := Engine.exists_unwound (Engine.thrown?_eq_some.1 hq).1
    hfaithful.sound ho hentry hstack
  obtain ⟨u₁, q', hruns, hdrives, hcore₁⟩ := drives_runs hruns hc hin (side?_eq_some.1 hx).1
  have hc₁ := hdrives.control.trans hc
  have hf₁ := hdrives.frames.trans hf
  have ht₁ : u₁.tidy? = none := by
    obtain ⟨older, h₁, -⟩ := h.later hi hruns.proceeds
    exact h₁.tidy?_eq_none (side?_of_core? hcore₁) hc₁ hf₁ nofun
  obtain ⟨u₂, hstep₂, hbroadens₂, hc₂, hf₂, -, hcore₂⟩ :=
    step_finished hc₁ hf₁ hcore₁ hclean rfl rfl
  -- The record is decoded.
  obtain ⟨u₃, t, hstep₃, hstep, hc₃, hf₃, -, hc', hf', -⟩ :=
    exists_performed hc₂ (hf₂ ▸ hscope) (hbroadens₂.tidy? ht₁) hcore₂
      (decode_managedError b _ hv) nofun
  have hclear : ∀ {v : Session}, v.frames = rest → (∀ b, v.control ≠ .engine b) →
      (∀ c, ¬ Catching c v) ∧ rest <:+ v.frames :=
    fun hf hc => ⟨not_catching hc, hf ▸ List.suffix_refl _⟩
  have hruns : ProceedsWhile (fun v => (∀ c, ¬ Catching c v) ∧ rest <:+ v.frames) u u₁ :=
    hruns.mono fun v hv => ⟨hv.1.not_catching, by rw [hv.2, hf]; exact List.suffix_cons ..⟩
  refine ⟨t, ?_, ?_, hc', hf'.trans hf₂⟩
  · have hencoded : Working b (·.isCatching = false) u₁ :=
      ⟨hc₁, _, engine?_of_core? hcore₁, Engine.isCatching_of_control rfl⟩
    refine hruns.trans (.head ⟨⟨hencoded.not_catching, ?_⟩, hstep₂⟩ (.head ⟨hclear hf₂ ?_, hstep₃⟩
      (.single ⟨hclear (hf₃.trans hf₂) ?_, hstep⟩)))
    · rw [hf₁]
      exact List.suffix_cons ..
    · rw [hc₂]
      nofun
    · rw [hc₃]
      nofun
  · rintro rfl
    rw [hc] at hc'
    cases hc'

/-! ### The way out -/

/-- Script throws again what a handler has caught: the same object is thrown, without the handler
and all that was above it. -/
structure Rethrows (s t : Session) : Prop where
  proceeds : ProceedsWhile (fun u => s.frames <:+ u.frames) s t
  frames : t.frames = s.frames
  engines : ∃ b e e' handler env q, s.control = .engine b ∧ s.engine? b = some e ∧
    e.stack = .guard handler env :: e'.stack ∧ e.thrown? = some q ∧
    t.control = .engine b ∧ t.engine? b = some e' ∧ e'.thrown? = some q

/-- Some frames are still there, and none but those that were there to begin with. -/
def Amid (outer : List Frame) (s u : Session) : Prop := outer <:+ u.frames ∧ u.frames <:+ s.frames

/-- What may come while a failure gets out of some frames.  What a handler does until it throws
again what it has caught is left out. -/
inductive Way (outer : List Frame) (s : Session) : Session → Prop
  /-- The failure is there. -/
  | start : Way outer s s
  /-- Something is done that is not the work of a handler for the failure. -/
  | step {u t : Session} (h : Way outer s u) (hc : Amid outer s u → ∀ b, ¬ Catching b u)
    (hstep : u.step? = some t) : Way outer s t
  /-- A handler throws again what it has caught. -/
  | rethrown {u t : Session} (h : Way outer s u) (hr : Rethrows u t) : Way outer s t

/-- Nothing keeps a failure on its way out of some frames: there is room for it in each arena that
it comes to, it does not break off the copying of what script calls the host with or the printing of
what has been thrown, and script that catches it throws it again. -/
structure Escapes (outer : List Frame) (e : HostError) (s : Session) : Prop where
  room : ∀ u b br, Way outer s u → Amid outer s u → u.control = .answer b (.error e) →
    u.bridge? b = some br → (br.arena.add (.error e)).isSome
  copies : ∀ u b, Way outer s u → Amid outer s u → ¬ Working b (·.isDiverted = true) u
  catches : ∀ u b q, Way outer s u → Amid outer s u → Catching b u → u.Embodies b q e →
    (u.engine? b).bind Engine.thrown? = some q → ∃ t, Rethrows u t

lemma Way.proceeds (h : Way outer s u) : Proceeds s u := by
  induction h with
  | start => exact .refl
  | step h hc hstep ih => exact ih.tail hstep
  | rethrown h hr ih => exact ih.trans hr.proceeds.proceeds

lemma Way.append {p : Session → Prop} (h : Way outer s u) (hp : ProceedsWhile p u t)
    (hc : ∀ v, p v → ∀ b, ¬ Catching b v) : Way outer s t := by
  induction hp with
  | refl => exact h
  | tail _ hstep ih => exact ih.step (fun _ => hc _ hstep.1) hstep.2

/-! ### How far a failure has come -/

/-- A failure is on its way out of some frames. -/
inductive Spreads (e : HostError) (outer way : List Frame) (u : Session) : Prop
  /-- Host code hands it on. -/
  | handed {w : List Frame} {ctl : Control} (hw : w <:+ way) (hc : ctl.Carries e)
    (h : IsOn ctl (w ++ outer) u)
  /-- It is thrown in an engine. -/
  | thrown {w : List Frame} {b : Nat} {e' : Engine} {q : Ref} (hw : .running b .value :: w <:+ way)
    (hc : u.control = .engine b) (hf : u.frames = .running b .value :: (w ++ outer))
    (he : u.engine? b = some e') (hq : e'.thrown? = some q) (hs : u.Embodies b q e)

/-- A program has gone on to another state, where a failure is further on its way, or has left its
operation. -/
structure Advances (e : HostError) (c : Nat) (below way : List Frame) (s u t : Session) : Prop where
  proceeds : Relation.TransGen
    (fun v w => below.length < v.frames.length ∧ v.step? = some w) u t
  spreads : Spreads e (.scope c :: below) way t ∧ Way (.scope c :: below) s t ∨
    ∃ f : Failure, f.Of e ∧ IsOn (.done (.error f)) below t

lemma length_lt_of_suffix {fs : List Frame} (h : .scope c :: below <:+ fs) :
    below.length < fs.length :=
  h.length_le

lemma IsOn.suffix (h : IsOn ctl below s) : below <:+ s.frames := by
  rcases h with ⟨rfl, -⟩ | ⟨l, hl⟩
  · exact List.suffix_refl _
  · rw [hl]
    exact (List.suffix_cons ..).trans (List.suffix_append ..)

/-- As long as something is left to do above where no look at an outcome is waited for, it goes
on. -/
lemma exists_step (hlooks : s.looks ≤ below.countP Frame.isPausing) {l : List Frame} (hl : l ≠ [])
    (hf : s.frames = l ++ below) : ∃ t, s.step? = some t := by
  rw [← Option.ne_none_iff_exists']
  intro hnone
  obtain ⟨fr, l, rfl⟩ := List.exists_cons_of_ne_nil hl
  rcases frames_of_step?_eq_none hnone with hnil | ⟨rest, hpausing⟩
  · rw [hf] at hnil
    cases hnil
  · rw [hf] at hpausing
    obtain rfl : fr = .pausing := (List.cons.inj hpausing).1
    rw [looks, hf, List.cons_append, List.countP_cons, List.countP_append,
      if_pos (show Frame.isPausing .pausing = true from rfl)] at hlooks
    omega

lemma looks_proceeds (hp : Proceeds s u) : u.looks = s.looks := by
  induction hp with
  | refl => rfl
  | tail _ hstep ih => exact (looks_step? hstep).trans ih

/-- A program that does not run on forever does not do so later on either. -/
lemma acc_proceeds (hends : Acc (fun t u : Session => u.step? = some t) s) (hp : Proceeds s u) :
    Acc (fun t u : Session => u.step? = some t) u := by
  induction hp with
  | refl => exact hends
  | tail _ hstep ih => exact ih.inv hstep

/-- A program that is followed until nothing is left to do does not run on forever. -/
lemma acc_of_follow {fuel : Nat}
    (hend : (follow fuel (s :: older)).head?.all (·.step?.isNone) = true) :
    Acc (fun t u : Session => u.step? = some t) s := by
  induction fuel generalizing s older with
  | zero =>
    rw [Session.follow, List.head?_cons, Option.all_some, Option.isNone_iff_eq_none] at hend
    · exact ⟨s, fun t hstep => by rw [hend] at hstep; cases hstep⟩
    · simp
  | succ fuel ih =>
    rw [Session.follow] at hend
    refine ⟨s, fun t hstep => ?_⟩
    rw [hstep] at hend
    exact ih hend

lemma history_proceeds (h : History types setups (s :: older)) (hp : Proceeds s u) :
    ∃ older, History types setups (u :: older) := by
  induction hp with
  | refl => exact ⟨older, h⟩
  | tail _ hstep ih =>
    obtain ⟨older, h⟩ := ih
    exact ⟨_, h.goes (.steps hstep)⟩

/-- What is on something comes to be done next, once all has been done that is to be done before. -/
lemma IsOn.exists_reached (hon : IsOn ctl below u) (hlooks : u.looks ≤ below.countP Frame.isPausing)
    (hends : Acc (fun t u : Session => u.step? = some t) u) :
    ∃ t, ProceedsWhile (fun v => below.length < v.frames.length) u t ∧ t.frames = below ∧
      t.control = ctl := by
  induction hends with
  | intro u _ ih =>
    rcases hon with ⟨hf, hc⟩ | ⟨l, hl⟩
    · exact ⟨u, .refl, hf, hc⟩
    · obtain ⟨v, hstep⟩ := exists_step hlooks (l := l ++ [.interrupted ctl]) (by simp)
        (by rw [List.append_assoc]; exact hl)
      have habove : below.length < u.frames.length := by
        rw [hl, List.length_append, List.length_cons]
        omega
      obtain ⟨t, hruns, hend⟩ := ih v hstep (((Goes.steps hstep).waits hl).elim .inr .inl)
        ((looks_step? hstep).symm ▸ hlooks)
      exact ⟨t, .head ⟨habove, hstep⟩ hruns, hend⟩

/-- What is on a frame is done, once nothing is left to let go of. -/
lemma IsOn.exists_done {fr : Frame} (hon : IsOn ctl (fr :: below) u)
    (hengine : ∀ b, ctl ≠ .engine b) (hlooks : u.looks ≤ below.countP Frame.isPausing)
    (hends : Acc (fun t u : Session => u.step? = some t) u) :
    ∃ v w : Session, ProceedsWhile (fun v => below.length < v.frames.length) u (v.lettingGo w) ∧
      v.frames = fr :: below ∧ v.control = ctl ∧ v.proceed? = some w := by
  induction hends with
  | intro u _ ih =>
    have habove : below.length < u.frames.length := hon.suffix.length_le
    obtain ⟨t, hstep⟩ : ∃ t, u.step? = some t := by
      obtain ⟨l, hl⟩ := hon.suffix
      exact exists_step hlooks (l := l ++ [fr]) (by simp) (by rw [List.append_assoc]; exact hl.symm)
    rcases hon.step? hengine hstep with hon' | ⟨hf, hc, -, w, hw, rfl⟩
    · obtain ⟨v, w, hruns, hend⟩ := ih t hstep hon' ((looks_step? hstep).symm ▸ hlooks)
      exact ⟨v, w, .head ⟨habove, hstep⟩ hruns, hend⟩
    · exact ⟨u, w, .single ⟨habove, hstep⟩, hf, hc, hw⟩

/-- A failure of a callback gets out of an operation: nothing keeps it on its way, and host code
hands it on. -/
structure Unhindered (types : List HostType) (setups : List Setup) (e : HostError) (c : Nat)
    (way below : List Frame) (s : Session) : Prop where
  came : CameIntact types setups s
  stays : StaysIntact s
  valid : ∀ slot, e ≠ .invalidSlot slot
  frames : s.frames = way ++ .scope c :: below
  way : ∀ f ∈ way, f.propagates = true
  escapes : Escapes (.scope c :: below) e s

namespace Unhindered

lemma looks (h : Unhindered types setups e c way below s) (hp : Proceeds s u) :
    u.looks ≤ below.countP Frame.isPausing := by
  have hstart : s.looks = below.countP Frame.isPausing := by
    have hnone : way.countP Frame.isPausing = 0 := List.countP_eq_zero.2 fun f hf hpausing => by
      have hprop := h.way f hf
      cases f with
      | pausing => cases hprop
      | _ => cases hpausing
    rw [Session.looks, h.frames, List.countP_append, hnone, Nat.zero_add]
    exact List.countP_cons_of_neg (by rintro ⟨⟩)
  exact Nat.le_of_eq ((looks_proceeds hp).trans hstart)

/-- What waits for something else to be done before is no part of the way. -/
lemma not_amid {ctl : Control} {l : List Frame} (h : Unhindered types setups e c way below s)
    (hf : u.frames = l ++ .interrupted ctl :: (w ++ .scope c :: below)) :
    ¬ Amid (.scope c :: below) s u := by
  rintro ⟨-, m, hm⟩
  rw [hf, h.frames, ← List.append_assoc, ← List.cons_append, ← List.append_assoc,
    List.append_left_inj] at hm
  have hprop := h.way (.interrupted ctl) (by rw [← hm]; simp)
  cases hprop

lemma amid (h : Unhindered types setups e c way below s) (hw : w <:+ way)
    (hf : u.frames = w ++ .scope c :: below) : Amid (.scope c :: below) s u := by
  obtain ⟨m, rfl⟩ := hw
  refine ⟨hf ▸ List.suffix_append .., m, ?_⟩
  rw [hf, h.frames, List.append_assoc]

/-- A failure is thrown in the engine that waits for the answer to a callback. -/
lemma advances_answered (h : Unhindered types setups e c way below s)
    (hu : Way (.scope c :: below) s u) (hw : w <:+ way) (hc : u.control = .answer b (.error e))
    (hf : u.frames = w ++ .scope c :: below) (ht : u.tidy? = none) :
    ∃ t, Advances e c below way s u t := by
  have hcame := h.came.later h.stays hu.proceeds
  obtain ⟨x, p, rest, -, -, -, -, hframes, -⟩ := hcame.frames_of_answer hc
  -- The engine is within the operation.
  obtain ⟨w, rfl, rfl⟩ : ∃ w', w = .running b p :: w' ∧ rest = w' ++ .scope c :: below := by
    rw [hframes] at hf
    cases w with
    | nil => cases hf
    | cons fr w =>
      obtain ⟨rfl, rfl⟩ := List.cons.inj hf
      exact ⟨w, rfl, rfl⟩
  obtain rfl : p = .value := by
    have hprop := h.way _ (hw.mem (List.mem_cons_self ..))
    cases p with
    | value => rfl
    | _ => cases hprop
  have hamid := h.amid hw hf
  have habove := length_lt_of_suffix hamid.1
  obtain ⟨u₁, t, e', q, hstep, hruns, hc', hf', he', hq, hs⟩ :=
    hcame.exists_thrown hc hframes ht h.valid
      fun br hbr => h.escapes.room u b br hu hamid hc hbr
  have hclear : ∀ c, ¬ Catching c u := not_catching (by rw [hc]; nofun)
  refine ⟨t, ⟨.trans_left (.single ⟨habove, hstep⟩) (hruns.mono fun v hv => ?_),
    .inl ⟨.thrown hw hc' (hf'.trans hframes) he' hq hs, ?_⟩⟩⟩
  · rw [hv.2]
    exact habove
  · refine (hu.step (fun _ => hclear) hstep).append hruns fun v hv => ?_
    obtain ⟨⟨hworks, engine, hengine, hthrow⟩, -⟩ := hv
    exact Working.not_catching ⟨hworks, engine, hengine, Engine.isCatching_of_control hthrow⟩

/-- **Host code hands a failure on**, once all that is done before has been done. -/
lemma advances_handed (h : Unhindered types setups e c way below s)
    (hu : Way (.scope c :: below) s u) (hw : w <:+ way) (hc : ctl.Carries e)
    (hon : IsOn ctl (w ++ .scope c :: below) u) : ∃ t, Advances e c below way s u t := by
  have hclear : Amid (.scope c :: below) s u → ∀ b, ¬ Catching b u := by
    rcases hon with ⟨-, hcontrol⟩ | ⟨l, hl⟩
    · exact fun _ => not_catching (hcontrol ▸ hc.ne_engine)
    · exact fun hamid => absurd hamid (h.not_amid hl)
  have habove : .scope c :: below <:+ u.frames := (List.suffix_append ..).trans hon.suffix
  obtain ⟨t, hstep⟩ : ∃ t, u.step? = some t := by
    obtain ⟨l, hl⟩ := habove
    exact exists_step (h.looks hu.proceeds) (l := l ++ [.scope c]) (by simp)
      (by rw [List.append_assoc]; exact hl.symm)
  have hsteps : Relation.TransGen
      (fun v w => below.length < v.frames.length ∧ v.step? = some w) u t :=
    .single ⟨length_lt_of_suffix habove, hstep⟩
  have hway := hu.step hclear hstep
  have hhanded : ∀ {w ctl}, w <:+ way → ctl.Carries e → IsOn ctl (w ++ .scope c :: below) t →
      ∃ t, Advances e c below way s u t := fun hw hc hon =>
    ⟨t, hsteps, .inl ⟨.handed hw hc hon, hway⟩⟩
  -- Something is done before, or the failure is handed to the next frame.
  rcases hon.step? hc.ne_engine hstep with hon | ⟨hf, hcontrol, ht, v, hp, rfl⟩
  · exact hhanded hw hc hon
  · cases hc with
    | @respond b =>
      rw [proceed?, hcontrol] at hp
      obtain rfl := Option.some.inj hp
      exact hhanded hw (.answer (b := b)) (IsOn.lettingGo (hf ▸ isOn_goto) u)
    | answer => exact h.advances_answered hu hw hcontrol hf ht
    | @done f hfailure =>
      cases w with
      | nil =>
        rw [proceed?_of_done hcontrol hf (by simp)] at hp
        obtain rfl := Option.some.inj hp
        exact ⟨_, hsteps, .inr ⟨f, hfailure, (isOn_leaveScope ..).lettingGo _⟩⟩
      | cons fr w =>
        have hprop := h.way _ (hw.mem (List.mem_cons_self ..))
        rw [proceed?_of_done hcontrol hf (by rintro rfl; cases hprop)] at hp
        obtain rfl := Option.some.inj hp
        obtain ⟨ctl, hcarries, hon⟩ := exists_carries_doneStep
          (s := { u with frames := w ++ .scope c :: below }) hprop hfailure
        exact hhanded ((List.suffix_cons ..).trans hw) hcarries (hon.lettingGo _)

/-- **An exception goes on its way** through an engine: it leaves the operation, or script throws it
again. -/
lemma advances_thrown {e' : Engine} (h : Unhindered types setups e c way below s)
    (hu : Way (.scope c :: below) s u) (hw : .running b .value :: w <:+ way)
    (hc : u.control = .engine b) (hf : u.frames = .running b .value :: (w ++ .scope c :: below))
    (he : u.engine? b = some e') (hq : e'.thrown? = some q) (hs : u.Embodies b q e) :
    ∃ t, Advances e c below way s u t := by
  have hcame := h.came.later h.stays hu.proceeds
  have hstays := h.stays.later hu.proceeds
  have habove : .scope c :: below <:+ u.frames := (h.amid hw hf).1
  -- It comes to a frame that does not let it pass.
  obtain ⟨t, e₁, fr, base, hruns, hc₁, hf₁, he₁, hstack, hfr, hq₁, hs₁, -, hscope⟩ :=
    hcame.exists_passed hc hf he hq hs
  have hcame₁ := hcame.later hstays hruns.proceeds
  have hstays₁ := hstays.later hruns.proceeds
  have hway := hu.append hruns fun v hv => hv.1.not_catching
  have hamid := h.amid hw (hf₁.trans hf)
  have hruns : ProceedsWhile (fun v => below.length < v.frames.length) u t :=
    hruns.mono fun v hv => hv.2 ▸ length_lt_of_suffix habove
  have hsteps : ∀ {t'}, ProceedsWhile (fun v => below.length < v.frames.length) t t' → t ≠ t' →
      Relation.TransGen (fun v w => below.length < v.frames.length ∧ v.step? = some w) u t' :=
    fun hmore hne => .trans_right hruns
      ((Relation.reflTransGen_iff_eq_or_transGen.1 hmore).resolve_left hne.symm)
  have hworking : ∀ {p : Engine → Prop}, p e₁ → Working b p t := fun hp => ⟨hc₁, e₁, he₁, hp⟩
  have hthrow := (Engine.thrown?_eq_some.1 hq₁).1
  cases fr with
  | guard handler env =>
    have hcatching : Catching b t := hworking (by rw [Engine.isCatching, hthrow, hstack])
    obtain ⟨t', hr⟩ := h.escapes.catches t b q hway hamid hcatching hs₁
      (by rw [he₁, Option.bind_some, hq₁])
    obtain ⟨b', e₁', e₂, handler', env', q', hb', he₁', hstack', hq', hc₂, he₂, hq₂⟩ := hr.engines
    obtain rfl : b = b' := Control.engine.inj (hc₁.symm.trans hb')
    obtain rfl : e₁ = e₁' := Option.some.inj (he₁.symm.trans he₁')
    obtain rfl : q = q' := Option.some.inj (hq₁.symm.trans hq')
    obtain ⟨y, hy, rfl⟩ := side?_isSome_of_engine? he₂
    have hs₂ := hcame₁.embodies hstays₁ hr.proceeds.proceeds hs₁ hy
      (Option.isSome_iff_exists.2 (Engine.thrown?_eq_some.1 hq₂).2)
    have hne : t ≠ t' := by
      rintro rfl
      obtain rfl : e₁ = y.engine := Option.some.inj (he₁.symm.trans he₂)
      have hlength := congrArg List.length hstack'
      rw [List.length_cons] at hlength
      omega
    have hagain : ProceedsWhile (fun v => below.length < v.frames.length) t t' :=
      hr.proceeds.mono fun v hv => length_lt_of_suffix (hamid.1.trans hv)
    exact ⟨t', hsteps hagain hne, .inl ⟨.thrown hw hc₂ (hr.frames.trans (hf₁.trans hf)) he₂ hq₂ hs₂,
      hway.rethrown hr⟩⟩
  | sending call result held =>
    exact absurd (hworking (by rw [Engine.isDiverted, hthrow, hstack]))
      (h.escapes.copies t b hway hamid)
  | printing thrown =>
    exact absurd (hworking (by rw [Engine.isDiverted, hthrow, hstack]))
      (h.escapes.copies t b hway hamid)
  | entry c' =>
    obtain ⟨t', hends, hne, hc', hf'⟩ := hcame₁.exists_unwound hstays₁ hc₁
      (hf₁.trans hf) he₁ hq₁ hs₁
      hstack hscope
    have hends' : ProceedsWhile (fun v => below.length < v.frames.length) t t' :=
      hends.mono fun v hv => length_lt_of_suffix ((List.suffix_append ..).trans hv.2)
    have hfailure : Failure.Of (.operation (.ofHost e)) e := ⟨BridgeError.cause_ofHost e, rfl⟩
    exact ⟨t', hsteps hends' hne, .inl ⟨.handed ((List.suffix_cons ..).trans hw)
      (.done hfailure) (.inl ⟨hf', hc'⟩), hway.append hends fun v hv => hv.1⟩⟩
  | _ => cases hfr

/-- A failure on its way gets out of its operation, if the program does not run on forever. -/
lemma exists_escaped (h : Unhindered types setups e c way below s)
    (hu : Way (.scope c :: below) s u) (hspreads : Spreads e (.scope c :: below) way u)
    (hends : Acc (fun t u : Session => u.step? = some t) u) :
    ∃ t f, ProceedsWhile (fun v => below.length < v.frames.length) u t ∧ t.frames = below ∧
      t.control = .done (.error f) ∧ f.Of e := by
  induction hends.transGen with
  | intro u hacc ih =>
    clear hends
    obtain ⟨t, hsteps, hnext⟩ : ∃ t, Advances e c below way s u t := by
      cases hspreads with
      | handed hw hc hon => exact h.advances_handed hu hw hc hon
      | thrown hw hc hf he hq hs => exact h.advances_thrown hu hw hc hf he hq hs
    have hproceeds : ProceedsWhile (fun v => below.length < v.frames.length) u t :=
      hsteps.to_reflTransGen
    have hlater : Relation.TransGen (fun t u : Session => u.step? = some t) t u :=
      Relation.transGen_swap.2 (Relation.TransGen.mono (fun _ _ hstep => hstep.2) _ _ hsteps)
    have hends := acc_transGen_iff.1 (hacc t hlater)
    rcases hnext with ⟨hspreads, hway⟩ | ⟨f, hfailure, hon⟩
    · obtain ⟨t', f, hruns, hend⟩ := ih t hlater hway hspreads hends
      exact ⟨t', f, hproceeds.trans hruns, hend⟩
    · obtain ⟨t', hruns, hf, hc⟩ :=
        hon.exists_reached (h.looks (hu.proceeds.trans hproceeds.proceeds)) hends
      exact ⟨t', f, hproceeds.trans hruns, hf, hc, hfailure⟩

end Unhindered

end ScriptBridge.Session
