/-
# Steps of alike sessions

A step leaves two sessions alike, as long as the slots that it looks up have the same entries in
both, those that it hands out have been foreseen, and at most one entry is left where a bridge is
torn down.  So do commands, whose reports differ in what they say about the arenas only.
-/
import ScriptBridge.Proofs.Session.AlikeBridges

namespace ScriptBridge.Session

open ScriptBridge.Bridge ScriptBridge.Host ScriptBridge.Table ScriptBridge.Wire

variable {f : Nat → Slot → Slot} {s t u : Session} {b : Nat} {n : Nat → Nat}

/-- Either nothing comes of two things, or what comes of them is related. -/
lemma exists_of_rel {α β : Type} {R : α → β → Prop} {x : Option α} {y : Option β}
    (h : Option.Rel R x y) :
    (x = none ∧ y = none) ∨ ∃ a b, x = some a ∧ y = some b ∧ R a b := by
  cases h with
  | none => exact .inl ⟨rfl, rfl⟩
  | some h => exact .inr ⟨_, _, rfl, rfl, h⟩

namespace Alike

lemma regularArenas (h : Alike f s t) : RegularArenas t := by
  intro b a ha
  obtain ⟨y, hy, rfl⟩ := Option.map_eq_some_iff.1 ha
  rcases h.bridge_cases b with ⟨-, hnone⟩ | ⟨x, y', -, hy', hxy⟩
  · rw [hnone] at hy
    cases hy
  · obtain rfl := Option.some.inj (hy.symm.trans hy')
    exact hxy.arena.regular'

/-! ### Letting go -/

lemma vanish (h : Alike f s t) (b : Nat) :
    Alike f (s.updateBridge b Bridge.vanish) (t.updateBridge b Bridge.vanish) :=
  h.updateBridge fun x y _ _ hxy =>
    { hxy with
      engine := rfl
      arena := by
        change Arena.Tracks (f b) (.empty x.arena.policy) (.empty y.arena.policy)
        rw [hxy.arena.monotonic]
        exact .empty _ _
      deferred := rfl
      stage := rfl }

lemma endLease (h : Alike f s t) (g : ForeignObject) :
    Alike f (s.endLease g) (t.endLease g) := by
  have h₁ : Alike f { s with leases := s.leases.filter fun g' => g'.lease ≠ g.lease }
      { t with leases := t.leases.filter fun g' => g'.lease ≠ g.lease } :=
    { h with leases := by rw [h.leases] }
  unfold Session.endLease
  dsimp only
  rw [show Session.engine? { s with leases := s.leases.filter fun g' => g'.lease ≠ g.lease }
    g.bridge = _ from h₁.engine? g.bridge]
  cases Session.engine? { t with leases := t.leases.filter fun g' => g'.lease ≠ g.lease }
    g.bridge with
  | none => exact h₁
  | some e =>
    have hpush := h₁.push (.interrupted t.control)
    rw [Frame.rename, ← h.control] at hpush
    exact hpush.startEngine g.bridge .nothing e (.release g.handle)

lemma forgetObject (h : Alike f s t) (st : HostState) :
    Alike f (s.forgetObject st) (t.forgetObject st) := by
  have h₁ : Alike f { s with objects := s.objects.filter fun other => !other.object.same st.object }
      { t with objects := t.objects.filter fun other => !other.object.same st.object } :=
    { h with objects := by rw [h.objects] }
  unfold Session.forgetObject
  dsimp only
  split
  · exact h₁
  · exact h₁.interrupt (.drop _)

/-- **What nothing refers to any more is let go of alike.** -/
theorem tidy? (h : Alike f s t) : Option.Rel (Alike f) s.tidy? t.tidy? := by
  unfold Session.tidy?
  rw [h.abandoned?, h.unused?, h.deadLease?, h.deadObject?]
  cases t.abandoned? with
  | some b =>
    exact .some ((h.updateBridge (b := b) (g := ({ · with stage := .dropped }))
      (k := ({ · with stage := .dropped })) fun _ _ _ _ hxy => { hxy with stage := rfl }).interrupt
        (.dispose b))
  | none =>
    cases t.unused? with
    | some b => exact .some (h.vanish b)
    | none =>
      cases t.deadLease? with
      | some g => exact .some (h.endLease g)
      | none =>
        cases t.deadObject? with
        | none => exact .none
        | some st => exact .some (h.forgetObject st)

/-! ### Outcomes -/

lemma listStep (h : Alike f s t) (rest : List Action) (results : List HostValue) (scene : Scene) :
    Alike f (s.listStep rest results scene) (t.listStep rest results scene) :=
  h.actFirst rest scene (h.give _) fun _ => rfl

/-- An outcome is given to what waits for it alike. -/
lemma doneStep (h : Alike f s t) (frame : Frame) (r : Outcome) :
    Alike f (s.doneStep (frame.rename f) r) (t.doneStep frame r) := by
  cases frame with
  | interrupted c => exact h.goto c
  | scope b => exact h.leaveScope b r
  | getting b o fallible => exact h.goto (.respond b _)
  | setting b o v => exact h.goto (.respond b _)
  | calling b o args => exact h.goto (.respond b _)
  | assignee b o setter =>
    cases r with
    | error e => exact h.refuse b _
    | ok v => exact h.change b o rfl _ _
  | callee b o name =>
    cases r with
    | error e => exact h.refuse b _
    | ok v => exact h.callMethod b o name v
  | hook o =>
    unfold Session.doneStep
    dsimp only [Frame.rename]
    cases hookFailure? r with
    | none => exact h.finish
    | some e =>
      dsimp only
      rw [h.identOf]
      exact (h.log _).finish
  | sequence rest last scene =>
    cases r with
    | error e => exact h.goto (.done (.error e))
    | ok v => exact h.actFirst rest scene (h.give v) fun _ => rfl
  | listing rest results scene =>
    cases r with
    | error e => exact h.goto (.done (.error e))
    | ok v => exact h.listStep rest (v :: results) scene
  | attempting =>
    cases r with
    | ok v => exact h.goto (.done (.ok v))
    | error e => cases e <;> first | exact h.give _ | exact h.goto (.done (.error _))
  | reporting => exact h.goto (.done (reported r))
  | _ => exact h.goto (.done r)

/-! ### Steps -/

/-- What has to hold of two sessions that are alike for their next step to be alike. -/
structure Ready (f : Nat → Slot → Slot) (s t : Session) : Prop where
  /-- The engine at work can do its step. -/
  serves : ∀ b, t.control = .engine b → Serves t b
  /-- The slots of a record that is decoded are occupied. -/
  decodes : ∀ b r, t.control = .decode b r → ∀ slot ∈ r.slots, (t.entryOf? b slot).isSome
  /-- The slot that is given up has the same entry in both. -/
  drains : ∀ b slot rest, t.control = .drain b (slot :: rest) → SameAt f s t b slot
  /-- The slot of a bridge that is torn down has the same entry in both. -/
  tears : ∀ b slot rest, t.control = .teardown b (slot :: rest) → SameAt f s t b slot
  /-- Where all slots are given up, one entry is left at most. -/
  torn : ∀ b, t.control = .teardown b [] → ∀ y, t.bridge? b = some y → y.arena.used ≤ 1

/-- What is about to be done is done alike. -/
lemma proceed? (h : Alike f s t) (hf : Foresees n f s t) (hl : ∀ b, n b < 0x80000000)
    (hr : Ready f s t) (hn : ∀ u, t.proceed? = some u → ∀ b, u.finishOf b ≤ n b) :
    Option.Rel (Alike f) s.proceed? t.proceed? := by
  unfold Session.proceed? at hn ⊢
  rw [h.control, h.frames]
  cases hc : t.control with
  | done r =>
    dsimp only [Control.rename]
    cases t.frames with
    | nil => exact .none
    | cons frame rest =>
      have hpop := (h.pop (l := rest)).doneStep frame r
      cases frame <;> first | exact .none | exact .some hpop
  | act a scene => exact .some (h.actStep a scene)
  | operate b op => exact .some (h.operateStep hf (hl b) op (hn _ (by rw [hc]) b))
  | engine b => exact .some (h.engineStep hf (hl b) (hr.serves b hc) (hn _ (by rw [hc]) b))
  | decode b r =>
    refine .some (h.decodeStep fun y hy slot hslot => ?_)
    have hentry := hr.decodes b r hc slot hslot
    rwa [Session.entryOf?, hy] at hentry
  | perform b tasks heard result => exact .some (h.performStep tasks heard result)
  | respond b r => exact .some (h.respondStep hf (hl b) r (hn _ (by rw [hc]) b))
  | answer b r => exact .some (h.answerStep hf (hl b) r (hn _ (by rw [hc]) b))
  | drain b slots =>
    refine .some (h.drainStep fun slot hslot => ?_)
    cases slots with
    | nil => cases hslot
    | cons slot' rest =>
      cases hslot
      exact hr.drains b _ rest hc
  | release entries => exact .some (h.releaseStep entries)
  | dispose b => exact .some (h.disposeStep b)
  | teardown b slots =>
    refine .some (h.teardownStep (fun slot hslot => ?_) fun hnil => hr.torn b (hnil ▸ hc))
    cases slots with
    | nil => cases hslot
    | cons slot' rest =>
      cases hslot
      exact hr.tears b _ rest hc
  | forget b =>
    exact .some (h.updateBridge (b := b) (g := ({ · with described := [] }))
      (k := ({ · with described := [] })) fun _ _ _ _ hxy => { hxy with described := rfl }).finish
  | drop vs =>
    cases vs with
    | nil => exact .some h.finish
    | cons v rest => exact .some (h.goto (.drop rest))

/-- **A step is done alike.** -/
theorem step? (h : Alike f s t) (hf : Foresees n f s t) (hl : ∀ b, n b < 0x80000000)
    (hr : Ready f s t) (hn : ∀ u, t.step? = some u → ∀ b, u.finishOf b ≤ n b) :
    Option.Rel (Alike f) s.step? t.step? := by
  by_cases hengine : ∃ b, t.control = .engine b
  · obtain ⟨b, hc⟩ := hengine
    have hc' : s.control = .engine b := h.control.trans (by rw [hc]; rfl)
    have hstep : t.step? = some (t.engineStep b) := by rw [Session.step?, hc]
    rw [hstep, Session.step?, hc']
    exact .some (h.engineStep hf (hl b) (hr.serves b hc) (hn _ hstep b))
  · have hstep : ∀ {v : Session}, (∀ b, v.control ≠ .engine b) →
        v.step? = (v.tidy? <|> v.proceed?.map v.lettingGo) := fun {v} hv => by
      unfold Session.step?
      split
      · next b hb => exact absurd hb (hv b)
      · rfl
    have hne : ∀ b, t.control ≠ .engine b := fun b hb => hengine ⟨b, hb⟩
    have hne' : ∀ b, s.control ≠ .engine b := fun b hb => by
      rw [h.control] at hb
      cases hc : t.control <;> rw [hc] at hb <;> cases hb
      exact hne _ hc
    rw [hstep hne] at hn ⊢
    rw [hstep hne']
    rcases exists_of_rel h.tidy? with ⟨hs, ht⟩ | ⟨s', t', hs, ht, hst⟩ <;> rw [hs, ht]
    · rw [ht] at hn
      have hproceed := h.proceed? hf hl hr fun u hu b => by
        have hlast := hn (t.lettingGo u) (by rw [hu]; rfl) b
        rwa [finishOf, arena?_lettingGo, ← finishOf] at hlast
      rcases exists_of_rel hproceed with ⟨hs', ht'⟩ | ⟨s', t', hs', ht', hst⟩ <;> rw [hs', ht']
      · exact .none
      · exact .some (h.lettingGo hst (keepsEntries_proceed? h.regularArenas ht').subset)
    · exact .some hst

end Alike

end ScriptBridge.Session
