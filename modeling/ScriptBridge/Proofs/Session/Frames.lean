/-
# The stack of a session

Each step touches the frame on top at most.  What waits until something else is done before goes
on once that has ended, so whatever lies beneath it stays where it is until then.
-/
import ScriptBridge.Proofs.Session.History

namespace ScriptBridge.Session

open ScriptBridge.Bridge ScriptBridge.Host ScriptBridge.Wire

variable {s s' t u : Session} {b c : Nat} {ctl : Control} {l below : List Frame}

/-! ### The frame on top -/

/-- What a step does to the stack: it puts frames on it, or it takes the one on top off before. -/
inductive Stacks (s t : Session) : Prop
  /-- Frames are put on the stack. -/
  | pushes (l : List Frame) (h : t.frames = l ++ s.frames)
  /-- The frame on top gives way to others. -/
  | pops {f : Frame} {rest : List Frame} (l : List Frame) (hs : s.frames = f :: rest)
    (hf : f.isInterrupted = false) (h : t.frames = l ++ rest)
    (hscope : ∀ b, f.isScope b = true → t.inCall b = true ∨ ∃ r, s.control = .done r)
  /-- What waited on top goes on. -/
  | resumes {rest : List Frame} (hs : s.frames = .interrupted t.control :: rest)
    (h : t.frames = rest)

lemma Stride.stacks (h : Stride s t) : Stacks s t := by
  have hcallback : ∀ {f : Frame} {c}, f.isCallback c = true → f.isInterrupted = false ∧
      ∀ b, f.isScope b = false := by
    intro f c hf
    cases f <;> first | exact ⟨rfl, fun _ => rfl⟩ | cases hf
  cases h with
  | inner hc hs hos hs' hfs hc' h ho =>
    rcases ho with rfl | ⟨f, rfl, hf⟩
    · exact .pushes _ (hs'.trans (congrArg _ hs.symm))
    · refine .pops _ hs hf hs' fun b hb => ?_
      have hinner := hos f (List.mem_singleton_self f)
      cases f <;> first | cases hb | cases hinner
  | interrupts hc hs' => exact .pushes [_] hs'
  | resumes hc hs hs' hc' => exact .resumes (hc'.symm ▸ hs) hs'
  | forgets hc hs' => exact .pushes [] hs'
  | vanishes hc hs' => exact .pushes [] hs'
  | disposes hc hs' => exact .pushes [] hs'
  | tears hc hs' => exact .pushes _ hs'
  | gone hb hc hfly hs' => exact .pushes _ hs'
  | skips hb hc hs' => exact .pushes [] hs'
  | opens hc hb hm hw hg hp hs' => exact .pushes (_ :: _ :: _) hs'
  | balks hc hb hm hs' => exact .pushes (_ :: _) hs'
  | releases hc hf hb hs' => exact .pushes [_, _] hs'
  | gives hc hb hs' => exact .pushes [_, _] hs'
  | reads hc hb hs' => exact .pushes [_] hs'
  | performed hc hs' => exact .pushes [] hs'
  | decodes hc hb hs' => exact .pushes [] hs'
  | works hc hb he hs' => exact .pushes [] hs'
  | defers hc hb he hi hs' => exact .pushes [] hs'
  | unpins hc hb he hi ht hs' => exact .pushes [_] hs'
  | misses hc hb he hi ht hs' => exact .pushes [] hs'
  | refuses hc hb he hs' => exact .pushes [] hs'
  | calls hc hb he hf hs' => exact .pushes [_] hs'
  | takes hc hb he hr hf hs' => exact .pushes [_] hs'
  | pins hc hb he hs' => exact .pushes [] hs'
  | finishes hc hb he hs hs' => exact .pops [] hs rfl hs' nofun
  | misplaced hc hb hs hs' => exact .pushes [] hs'
  | drops hc hs hs' => exact .pops [] hs rfl hs' nofun
  | replies hc hs hf hs' =>
    exact .pops [] hs (hcallback hf).1 hs' fun b hb => by
      rw [(hcallback hf).2 b] at hb
      cases hb
  | continues hc hs hf hs' =>
    exact .pops [_] hs (hcallback hf).1 hs' fun b hb => by
      rw [(hcallback hf).2 b] at hb
      cases hb
  | @leaves c rest hc hs hi hs' =>
    refine .pops [] hs rfl hs' fun b hb => .inl ?_
    obtain rfl : c = b := by simpa [Frame.isScope] using hb
    rwa [inCall, hs']
  | leavesLast hc hs hi hs' => exact .pops [_] hs rfl hs' fun _ _ => .inr ⟨_, hc⟩
  | responds hc hb hs' => exact .pushes [] hs'
  | fails hc hs' => exact .pushes [] hs'
  | answers hc hb hr hs' => exact .pushes [] hs'
  | drains hc hb ht hs' => exact .pushes [_] hs'
  | passes hc hb ht hs' => exact .pushes [] hs'
  | refills hc hb hs' => exact .pushes [] hs'
  | dries hc hb hq hs' => exact .pushes [] hs'

/-- What waits on top is given the outcome. -/
lemma proceed?_of_done {fr : Frame} {rest : List Frame} {r : Outcome} (hc : s.control = .done r)
    (hf : s.frames = fr :: rest) (hfr : fr ≠ .pausing) :
    s.proceed? = some ({ s with frames := rest }.doneStep fr r) := by
  rw [proceed?, hc]
  dsimp only
  split
  · next hnil => rw [hnil] at hf; cases hf
  · next hpausing =>
    rw [hpausing] at hf
    exact absurd (List.cons.inj hf).1.symm hfr
  · next heq =>
    rw [heq] at hf
    obtain ⟨rfl, rfl⟩ := List.cons.inj hf
    rfl

/-! ### What waits beneath -/

/-- How something happens. -/
inductive Happens (s s' : Session) : Prop
  /-- An engine works. -/
  | works {b : Nat} (hc : s.control = .engine b) (h : s' = s.engineStep b)
  /-- Something that nothing refers to any more is let go of. -/
  | tidies (hc : ∀ b, s.control ≠ .engine b) (h : s.tidy? = some s')
  /-- What is about to be done is done. -/
  | proceeds {t : Session} (hc : ∀ b, s.control ≠ .engine b) (ht : s.tidy? = none)
    (hp : s.proceed? = some t) (h : s' = s.lettingGo t)
  /-- A command begins or ends. -/
  | turns {before t : Session} {r : Outcome} (hc : s.control = .done r)
    (hf : s.frames = [] ∨ ∃ rest, s.frames = .pausing :: rest) (hs : Stride s t)
    (h : s' = before.lettingGo t)

lemma Goes.happens (h : Goes s s') : Happens s s' := by
  cases h with
  | steps h =>
    unfold step? at h
    split at h
    · next b hc =>
      cases h
      exact .works hc rfl
    · next hc =>
      cases htidy : s.tidy? with
      | some u =>
        rw [htidy] at h
        cases h
        exact .tidies hc htidy
      | none =>
        rw [htidy] at h
        obtain ⟨t, ht, rfl⟩ := Option.map_eq_some_iff.1 h
        exact .proceeds hc htidy ht rfl
  | begins hr hs hb h =>
    obtain ⟨r, hc⟩ := control_of_step? hr
    obtain ⟨before, t, ht, rfl⟩ := inner_begin? h
    exact .turns hc (.inl hs) (ht.stride (by rw [hc]; rfl)) rfl
  | concludes save hr hs h =>
    obtain ⟨r, hc⟩ := control_of_step? hr
    exact .turns hc (.inr ⟨_, hs⟩)
      ((inner_settle hs save).stride_of_cons (by rw [hc]; rfl) hs rfl rfl)
      h.symm

/-- What is let go of goes on the stack before what is about to be done. -/
lemma lettingGo_cases (before t : Session) :
    before.lettingGo t = t ∨ ∃ vs, before.lettingGo t = t.interrupt (.drop vs) :=
  (lettingGo_eq before t).imp_right fun ⟨_, vs, _, heq⟩ => ⟨vs, heq⟩

/-- Whatever happens is a step, after which what nothing refers to any more may be let go of. -/
lemma Goes.exists_stride (h : Goes s s') :
    ∃ t, Stride s t ∧ (s' = t ∨ ∃ vs, s' = t.interrupt (.drop vs)) := by
  cases h.happens with
  | works hc h => exact ⟨s', h ▸ stride_engineStep hc, .inl rfl⟩
  | tidies hc h => exact ⟨s', stride_tidy? hc h, .inl rfl⟩
  | proceeds hc ht hp h => exact ⟨_, stride_proceed? hp, h ▸ lettingGo_cases ..⟩
  | turns hc hf hs h => exact ⟨_, hs, h ▸ lettingGo_cases ..⟩

/-- **What waits stays where it is, on what lies beneath it, until it goes on there.** -/
theorem Goes.waits (h : Goes s s') (hs : s.frames = l ++ .interrupted ctl :: below) :
    (∃ l', s'.frames = l' ++ .interrupted ctl :: below) ∨
      s'.frames = below ∧ s'.control = ctl := by
  obtain ⟨t, hstride, hnext⟩ := h.exists_stride
  have ht : (∃ l', t.frames = l' ++ .interrupted ctl :: below) ∨
      t.frames = below ∧ t.control = ctl := by
    cases hstride.stacks with
    | pushes k h => exact .inl ⟨k ++ l, by rw [h, hs, List.append_assoc]⟩
    | @pops f rest k hs' hf h =>
      cases l with
      | nil =>
        rw [hs', List.nil_append, List.cons.injEq] at hs
        rw [hs.1] at hf
        cases hf
      | cons g l =>
        rw [hs', List.cons_append, List.cons.injEq] at hs
        exact .inl ⟨k ++ l, by rw [h, hs.2, List.append_assoc]⟩
    | @resumes rest hs' h =>
      cases l with
      | nil =>
        rw [hs', List.nil_append, List.cons.injEq, Frame.interrupted.injEq] at hs
        exact .inr ⟨h.trans hs.2, hs.1⟩
      | cons g l =>
        rw [hs', List.cons_append, List.cons.injEq] at hs
        exact .inl ⟨l, h.trans hs.2⟩
  rcases hnext with rfl | ⟨vs, rfl⟩
  · exact ht
  · rcases ht with ⟨l', heq⟩ | ⟨hframes, hcontrol⟩
    · exact .inl ⟨.interrupted t.control :: l', congrArg (List.cons _) heq⟩
    · refine .inl ⟨[], ?_⟩
      rw [← hframes, ← hcontrol]
      rfl

/-- Letting go of something leaves what is about to be done, or puts it on the stack. -/
lemma frames_tidy? (h : s.tidy? = some u) :
    (u.frames = s.frames ∧ u.control = s.control) ∨
      ∃ l, u.frames = l ++ .interrupted s.control :: s.frames := by
  unfold tidy? at h
  split at h
  · cases h
    exact .inr ⟨[], rfl⟩
  · split at h
    · cases h
      exact .inl ⟨rfl, rfl⟩
    · split at h
      · cases h
        unfold endLease
        dsimp only
        split
        · exact .inl ⟨rfl, rfl⟩
        · exact .inr ⟨[_], rfl⟩
      · obtain ⟨st, -, rfl⟩ := Option.map_eq_some_iff.1 h
        unfold forgetObject
        dsimp only
        split
        · exact .inl ⟨rfl, rfl⟩
        · exact .inr ⟨[], rfl⟩

/-! ### Operations that have not been left -/

lemma inCall_of_frames (ht : t.frames = l ++ s.frames) (h : s.inCall b = true) :
    t.inCall b = true := by
  rw [inCall, ht, List.any_append, Bool.or_eq_true]
  exact .inr h

/-- An operation is left by what ends it only. -/
lemma Stride.inCall (h : Stride s t) (hcall : s.inCall b = true)
    (hleave : ∀ r rest, s.control = .done r → s.frames ≠ .scope b :: rest) :
    t.inCall b = true := by
  cases h.stacks with
  | pushes l h => exact inCall_of_frames h hcall
  | @pops f rest l hs hf h hscope =>
    cases hb : f.isScope b with
    | false =>
      rw [Session.inCall, hs, List.any_cons, hb, Bool.false_or] at hcall
      rw [Session.inCall, h, List.any_append, hcall, Bool.or_true]
    | true =>
      refine (hscope b hb).resolve_right fun ⟨r, hr⟩ => hleave r rest hr ?_
      obtain rfl : f = .scope b := by
        cases f <;> first | cases hb | exact congrArg _ (by simpa [Frame.isScope] using hb)
      exact hs
  | @resumes rest hs h =>
    rw [Session.inCall, hs] at hcall
    rwa [Session.inCall, h]

end ScriptBridge.Session
