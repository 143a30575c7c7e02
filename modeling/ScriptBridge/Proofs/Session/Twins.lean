/-
# Sessions that go on alike under other slots

A session whose arenas are monotonic goes along with one whose arenas hand out slots in another
way.  Which slots go together is known for those that have been handed out so far, and it is settled
for the others as they are handed out.  What is still to be handed out can be chosen freely, so
nothing that has not been handed out is mentioned anywhere.
-/
import ScriptBridge.Proofs.Session.AlikeCommands
import ScriptBridge.Proofs.Session.Mentions

namespace ScriptBridge.Session

open ScriptBridge.Bridge ScriptBridge.Host ScriptBridge.Table ScriptBridge.Wire

variable {s s' t u : Session} {b : Nat} {slot : Slot} {f g F : Nat → Slot → Slot}
  {M : Nat → Slot → Prop} {types : List HostType} {setups : List Setup}
  {hist older : List Session} {x : Side}

/-! ### Discretion -/

/-- Script does nothing in a session for which it has to be told a slot, and there are slots
left. -/
structure Modest (s : Session) : Prop where
  /-- Script calls no stand-in but those of methods. -/
  called : ∀ b e slot r entry, s.control = .engine b → s.engine? b = some e →
    e.step.2 = .request (.invoke slot r) → s.entryOf? b slot = some entry →
      ∃ o name, entry = .method o name
  /-- No arena has run out of slots. -/
  room : ∀ b, s.finishOf b < 0x80000000

/-- Nothing in a session tells its slots apart. -/
structure Discreet (s : Session) : Prop extends Modest s where
  /-- Script has not put anything in the place of the class of stand-ins. -/
  intact : ∀ b e, s.engine? b = some e → e.isIntact .proxy = true
  /-- Once the slots that its engine held have been given up, at most one entry of a bridge that is
  disposed is left. -/
  torn : ∀ b, s.control = .teardown b [] → ∀ a, s.arena? b = some a → a.used ≤ 1

lemma intact_of_discreet (h : ∀ s ∈ hist, Discreet s) : Intact b hist :=
  fun s hs e he => (h s hs).intact b e he

/-- An engine that goes on with something that script may see calls no token. -/
lemma not_tellsSlot {e : Engine} (h : e.Honest) : ¬ e.TellsSlot := by
  rintro ⟨g, this, args, slot, hc, hkind⟩
  obtain ⟨o, ho, hk⟩ := Option.map_eq_some_iff.1 hkind
  cases g with
  | object r =>
    have hr : r ∈ e.control.refs := by
      rw [hc]
      simp [Engine.Control.refs, Script.Value.refs]
    have hnone := (h.control r hr trivial).2
    rw [show e.heap.get? r = some o from ho, Option.bind_some, Script.Object.slot?, hk] at hnone
    cases hnone
  | _ => cases ho

/-- **The next step of an engine depends on no slot**, where nothing tells them apart. -/
theorem History.serves (h : History types setups (s :: older))
    (hd : ∀ t ∈ s :: older, Discreet t) (hc : s.control = .engine b) : Alike.Serves s b := by
  have hside : ∀ e, s.engine? b = some e → ∃ x, s.side? b = some x ∧ x.engine = e ∧ x.Faithful :=
    fun e he => by
      obtain ⟨x, hx, heq⟩ := side?_isSome_of_engine? he
      exact ⟨x, hx, heq, h.faithful (intact_of_discreet hd) (List.mem_cons_self ..) hx⟩
  have hdiscreet := hd s (List.mem_cons_self ..)
  refine ⟨fun e he => ?_, fun e slot he hstep => ?_, fun e req he hstep => ?_⟩
  · obtain ⟨x, -, rfl, hf⟩ := hside e he
    exact not_tellsSlot hf.honest
  · obtain ⟨⟨e, a, q, T⟩, hx, rfl, hf⟩ := hside e he
    rw [entryOf?_of_side? hx]
    exact (hf.occupied slot).1
      ((holders_removed hf.toAccounted hstep).symm.subset (List.mem_cons_self ..))
  · obtain ⟨x, hx, rfl, hf⟩ := hside e he
    obtain ⟨entry, hentry⟩ := hf.toAccounted.exists_get? (Side.mem_holders_of_hasStandIn hf.honest
      (hf.honest.hasStandIn_of_request hf.shaped (hdiscreet.intact b _ he) hstep))
    rw [← entryOf?_of_side? hx] at hentry
    refine ⟨entry, hentry, fun slot r heq => ?_⟩
    subst heq
    exact hdiscreet.called b _ slot r entry hc he hstep hentry

/-! ### Twins -/

/-- A session is the twin of one whose arenas are monotonic: it is the same but for the slots, and
only for those that have been handed out, or that a bridge without an engine had then, it is settled
which ones go together. -/
structure Twin (M : Nat → Slot → Prop) (F : Nat → Slot → Slot) (s t : Session) : Prop where
  alike : ∀ f, (∀ b slot, M b slot → f b slot = F b slot) → Alike f s t
  issued : ∀ b, (t.engine? b).isSome → ∀ slot, M b slot ↔ slot.index < t.finishOf b
  injective : ∀ b, t.engine? b = none → ∀ slot slot', M b slot → M b slot' →
    F b slot = F b slot' → slot = slot'
  occupied : ∀ b slot, (t.entryOf? b slot).isSome → M b slot

lemma same_lettingGo (before t : Session) : Same t (before.lettingGo t) := by
  rcases lettingGo_cases before t with heq | ⟨vs, heq⟩ <;> rw [heq]
  · exact .refl t
  · exact ⟨fun _ => rfl, rfl, rfl⟩

namespace Twin

lemma refl (h : Twin M F s t) : Alike F s t := h.alike F fun _ _ _ => rfl

/-- What is named in the same way whatever slots go with those that have not been handed out, has
been handed out. -/
lemma mem_of_control (h : Twin M F s t) (hslot : ∀ f g : Nat → Slot → Slot,
    t.control.rename f = t.control.rename g → f b slot = g b slot) : M b slot := by
  by_contra hnot
  obtain ⟨other, hne⟩ : ∃ other : Slot, other ≠ F b slot := by
    by_cases hzero : F b slot = ⟨0, by decide⟩
    · exact ⟨⟨1, by decide⟩, by rw [hzero]; decide⟩
    · exact ⟨⟨0, by decide⟩, Ne.symm hzero⟩
  let g : Nat → Slot → Slot := fun c t => if c = b ∧ t = slot then other else F c t
  have hg : ∀ c t, M c t → g c t = F c t := fun c t hM => if_neg (by
    rintro ⟨rfl, rfl⟩
    exact hnot hM)
  have heq := hslot g F ((h.alike g hg).control.symm.trans h.refl.control)
  rw [show g b slot = other from if_pos ⟨rfl, rfl⟩] at heq
  exact hne heq

end Twin

/-- Different slots that are occupied go with different slots. -/
lemma Alike.injective (h : Alike f s t) {slot' : Slot} (hslot : (t.entryOf? b slot).isSome)
    (hslot' : (t.entryOf? b slot').isSome) (heq : f b slot = f b slot') : slot = slot' := by
  rcases h.bridge_cases b with ⟨-, ht⟩ | ⟨x, y, -, ht, hxy⟩ <;> rw [Session.entryOf?, ht]
    at hslot hslot'
  · cases hslot
  · exact hxy.arena.injective slot slot' hslot hslot' heq

lemma Alike.monotonic (h : Alike f s t) (b : Nat) (a : Arena Entry) (ha : t.arena? b = some a) :
    a.policy = .monotonic := by
  obtain ⟨y, hy, rfl⟩ := Option.map_eq_some_iff.1 ha
  rcases h.bridge_cases b with ⟨-, ht⟩ | ⟨x, y', -, ht, hxy⟩ <;> rw [ht] at hy <;> cases hy
  exact hxy.arena.monotonic

/-- A slot that goes with no slot but one has the same entry as that one. -/
lemma Alike.sameAt_of_injective (h : Alike f s t)
    (hinj : ∀ slot', (t.entryOf? b slot').isSome → f b slot' = f b slot → slot' = slot) :
    SameAt f s t b slot := by
  cases hentry : t.entryOf? b slot with
  | some entry => exact h.sameAt (by rw [hentry]; rfl)
  | none =>
    rw [SameAt, hentry, ← Option.not_isSome_iff_eq_none]
    intro hsome
    rcases h.bridge_cases b with ⟨hs, -⟩ | ⟨x, y, hs, ht, hxy⟩
    · rw [Session.entryOf?, hs] at hsome
      cases hsome
    · rw [Session.entryOf?, hs] at hsome
      obtain ⟨slot', hoccupied, heq⟩ := hxy.arena.exists_of_get? hsome
      have hslot' : (t.entryOf? b slot').isSome := by rwa [Session.entryOf?, ht]
      obtain rfl := hinj slot' hslot' heq
      rw [hentry] at hslot'
      cases hslot'

namespace Twin

/-- What is given up has the same entry in both. -/
lemma sameAt (h : Twin M F s t) (hh : History types setups (t :: older))
    (hd : ∀ v ∈ t :: older, Discreet v) (hg : ∀ b slot, M b slot → g b slot = F b slot)
    (hmem : slot ∈ t.slotsOf b) (hslot : ∀ f g : Nat → Slot → Slot,
      t.control.rename f = t.control.rename g → f b slot = g b slot) : SameAt g s t b slot := by
  have halike := h.alike g hg
  cases he : t.engine? b with
  | some e =>
    obtain ⟨x, hx, -⟩ := side?_isSome_of_engine? he
    exact halike.sameAt
      ((hh.faithful (intact_of_discreet hd) (List.mem_cons_self ..) hx).isSome_entryOf?
      hx hmem)
  | none =>
    have hM := h.mem_of_control hslot
    refine halike.sameAt_of_injective fun slot' hoccupied heq => ?_
    have hM' := h.occupied b slot' hoccupied
    rw [hg b slot hM, hg b slot' hM'] at heq
    exact h.injective b he slot' slot hM' hM heq

/-- **Twins are ready for the same next step.** -/
theorem ready (h : Twin M F s t) (hh : History types setups (t :: older))
    (hd : ∀ v ∈ t :: older, Discreet v) (hg : ∀ b slot, M b slot → g b slot = F b slot) :
    Alike.Ready g s t where
  serves b hc := hh.serves hd hc
  decodes b r hc slot hslot := by
    obtain ⟨e, he⟩ := Option.isSome_iff_exists.1
      (hh.engine_isSome_of_decode (List.mem_cons_self ..) hc)
    obtain ⟨x, hx, -⟩ := side?_isSome_of_engine? he
    refine (hh.faithful (intact_of_discreet hd) (List.mem_cons_self ..) hx).isSome_entryOf? hx ?_
    refine List.mem_append_left _ (List.mem_append_left _ ?_)
    rw [hc, Control.slotsOf, if_pos rfl]
    exact hslot
  drains b slot rest hc := by
    refine h.sameAt hh hd hg ?_ fun f g heq => ?_
    · refine List.mem_append_left _ (List.mem_append_left _ ?_)
      rw [hc, Control.slotsOf, if_pos rfl]
      exact List.mem_cons_self ..
    · rw [hc] at heq
      exact (List.cons.inj (Control.drain.inj heq).2).1
  tears b slot rest hc := by
    refine h.sameAt hh hd hg ?_ fun f g heq => ?_
    · refine List.mem_append_left _ (List.mem_append_left _ ?_)
      rw [hc, Control.slotsOf, if_pos rfl]
      exact List.mem_cons_self ..
    · rw [hc] at heq
      exact (List.cons.inj (Control.teardown.inj heq).2).1
  torn b hc y hy := (hd t (List.mem_cons_self ..)).torn b hc y.arena (by rw [arena?, hy]; rfl)

end Twin

/-! ### Steps -/

/-- The slots of a bridge that go together from now on, as long as none is given up. -/
def foreseen (F : Nat → Slot → Slot) (s t : Session) (b : Nat) (slot : Slot) : Slot :=
  match s.arena? b, t.arena? b with
  | some a, some a' => Arena.foresee (F b) a a' slot
  | _, _ => F b slot

/-- The slots of a bridge that go together after a step. -/
def pairing (F : Nat → Slot → Slot) (s t u : Session) (b : Nat) : Slot → Slot :=
  if (u.engine? b).isSome then foreseen F s t b else F b

/-- The slots of a bridge for which it is settled after a step which ones go together. -/
def settled (M : Nat → Slot → Prop) (t u : Session) (b : Nat) (slot : Slot) : Prop :=
  if (u.engine? b).isSome then slot.index < u.finishOf b
  else if (t.engine? b).isSome then (u.entryOf? b slot).isSome = true
  else M b slot

lemma foreseen_of_lt (h : slot.index < t.finishOf b) : foreseen F s t b slot = F b slot := by
  unfold foreseen
  split
  · next a a' _ ha' =>
    rw [finishOf, ha'] at h
    exact Arena.foresee_of_lt h
  · rfl

lemma pairing_of_engine (h : (u.engine? b).isSome) : pairing F s t u b = foreseen F s t b :=
  if_pos h

lemma pairing_of_none (h : u.engine? b = none) : pairing F s t u b = F b :=
  if_neg (by rw [h]; exact Bool.false_ne_true)

lemma settled_of_engine (h : (u.engine? b).isSome) :
    settled M t u b slot ↔ slot.index < u.finishOf b := by
  rw [settled, if_pos h]

lemma settled_of_gone (ht : (t.engine? b).isSome) (hu : u.engine? b = none) :
    settled M t u b slot ↔ (u.entryOf? b slot).isSome := by
  rw [settled, if_neg (by rw [hu]; exact Bool.false_ne_true), if_pos ht]

lemma settled_of_none (ht : t.engine? b = none) (hu : u.engine? b = none) :
    settled M t u b slot ↔ M b slot := by
  rw [settled, if_neg (by rw [hu]; exact Bool.false_ne_true),
    if_neg (by rw [ht]; exact Bool.false_ne_true)]

namespace Twin

/-- The slots that go together before a step, given those that do afterwards: a bridge whose engine
goes in it has mentioned others. -/
def before (F f : Nat → Slot → Slot) (t u : Session) (b : Nat) : Slot → Slot :=
  if (t.engine? b).isSome ∧ u.engine? b = none then F b else f b

section Step

variable (hh : History types setups (t :: older)) (hgo : Goes t u)
  (hf : ∀ b slot, settled M t u b slot → f b slot = pairing F s t u b slot)

include hh hgo hf

/-- What goes together before a step still does afterwards. -/
lemma before_eq (h : Twin M F s t)
    (hgrows : ∀ b, (u.engine? b).isSome → t.finishOf b ≤ u.finishOf b) (b : Nat) (slot : Slot)
    (hM : M b slot) : before F f t u b slot = F b slot := by
  unfold before
  cases hu : u.engine? b with
  | some e =>
    have hlive : (u.engine? b).isSome := by rw [hu]; rfl
    have ht : (t.engine? b).isSome := by
      rw [← Option.ne_none_iff_isSome]
      intro hnone
      rw [(hgo.retired (hh.retired (List.mem_cons_self ..) hnone)).engine] at hu
      cases hu
    have hlt := (h.issued b ht slot).1 hM
    rw [if_neg nofun,
      hf b slot ((settled_of_engine hlive).2 (Nat.lt_of_lt_of_le hlt (hgrows b hlive))),
      pairing_of_engine hlive, foreseen_of_lt hlt]
  | none =>
    cases ht : t.engine? b with
    | some e => rw [if_pos ⟨rfl, rfl⟩]
    | none =>
      rw [if_neg nofun, hf b slot ((settled_of_none ht hu).2 hM), pairing_of_none hu]

/-- What goes together afterwards has been foreseen. -/
lemma foresees_before : Foresees u.finishOf (before F f t u) s t := by
  intro b x y hx hy
  cases hu : u.engine? b with
  | some e =>
    have hlive : (u.engine? b).isSome := by rw [hu]; rfl
    refine Arena.foresees_foresee (f := F b) fun slot hslot => ?_
    rw [before, if_neg (by rw [hu]; exact nofun), hf b slot ((settled_of_engine hlive).2 hslot),
      pairing_of_engine hlive, foreseen, arena?, arena?, hx, hy]
    rfl
  | none =>
    have hle := (hh.wanes hgo hu).finish_le
    rw [finishOf_of_bridge? hy] at hle
    exact Arena.foresees_of_le hle

end Step

/-- **A step of a session is done by its twin as well**, and leaves them twins. -/
theorem step? (h : Twin M F s t) (hh : History types setups (t :: older))
    (hd : ∀ v ∈ t :: older, Discreet v) (ht : t.step? = some u) (hu : Discreet u) :
    ∃ s', s.step? = some s' ∧ Twin (settled M t u) (pairing F s t u) s' u := by
  have hgo : Goes t u := .steps ht
  have hgrows : ∀ b, (u.engine? b).isSome → t.finishOf b ≤ u.finishOf b := fun b hb =>
    finishOf_le_of_step? h.refl.regularArenas (h.refl.monotonic b) ht hb
  -- Any pairing that agrees on the settled slots carries the step over; so its twin does not depend
  -- on how the others are paired.
  have hstep : ∀ f, (∀ b slot, settled M t u b slot → f b slot = pairing F s t u b slot) →
      ∃ s', s.step? = some s' ∧ Alike f s' u := by
    intro f hf
    have hbefore := before_eq hh hgo hf h hgrows
    have hrel := (h.alike _ hbefore).step? (foresees_before hh hgo hf) hu.room
      (h.ready hh hd hbefore) fun v hv b => by
        obtain rfl := Option.some.inj (ht.symm.trans hv)
        exact Nat.le_refl _
    rw [ht] at hrel
    rcases exists_of_rel hrel with ⟨-, hnone⟩ | ⟨s', u', hs', hu', halike⟩
    · cases hnone
    · obtain rfl := Option.some.inj hu'
      refine ⟨s', hs', halike.congr fun b => ?_⟩
      by_cases hgone : (t.engine? b).isSome ∧ u.engine? b = none
      · refine .inr ⟨hgone.2, ?_⟩
        have hagrees : ∀ slot, (u.entryOf? b slot).isSome → f b slot = before F f t u b slot :=
          fun slot hslot => by
            rw [before, if_pos hgone, hf b slot ((settled_of_gone hgone.1 hgone.2).2 hslot),
              pairing_of_none hgone.2]
        obtain ⟨e, he⟩ := Option.isSome_iff_exists.1 hgone.1
        obtain ⟨x, hx, -⟩ := side?_isSome_of_engine? he
        exact ⟨fun slot hslot => hagrees slot (hgo.isSome_entryOf? hx
          (hh.faithful (intact_of_discreet hd) (List.mem_cons_self ..) hx) hgone.2 hslot), hagrees⟩
      · exact .inl (if_neg hgone).symm
  obtain ⟨s', hs', -⟩ := hstep (pairing F s t u) fun _ _ _ => rfl
  refine ⟨s', hs', fun f hf => ?_, fun b hb slot => settled_of_engine hb, fun b hnone => ?_,
    fun b slot hslot => ?_⟩
  · obtain ⟨s'', hs'', halike⟩ := hstep f hf
    obtain rfl := Option.some.inj (hs'.symm.trans hs'')
    exact halike
  · rw [pairing_of_none hnone]
    cases he : t.engine? b with
    | none =>
      intro slot slot' hslot hslot'
      exact h.injective b he slot slot' ((settled_of_none he hnone).1 hslot)
        ((settled_of_none he hnone).1 hslot')
    | some e =>
      have hgone : (t.engine? b).isSome := by rw [he]; rfl
      intro slot slot' hslot hslot'
      have hwanes := hh.wanes hgo hnone
      exact h.refl.injective (hwanes.occupied slot ((settled_of_gone hgone hnone).1 hslot))
        (hwanes.occupied slot' ((settled_of_gone hgone hnone).1 hslot'))
  · cases hb : u.engine? b with
    | some e =>
      refine (settled_of_engine (by rw [hb]; rfl)).2 ?_
      obtain ⟨a, ha, hget⟩ := Option.bind_eq_some_iff.1
        ((entryOf?_eq u b slot).symm.trans (Option.some_get hslot).symm)
      rw [finishOf, ha]
      exact Arena.lt_finish_of_get? (by rw [hget]; rfl)
    | none =>
      cases he : t.engine? b with
      | some e => exact (settled_of_gone (by rw [he]; rfl) hb).2 hslot
      | none =>
        exact (settled_of_none he hb).2
          (h.occupied b slot ((hh.wanes hgo hb).occupied slot hslot))

/-! ### Commands -/

/-- What leaves the bridges as they are leaves twins, if it is the same in both. -/
lemma of_same (h : Twin M F s t) (hsame : Same t u)
    (halike : ∀ f, (∀ b slot, M b slot → f b slot = F b slot) → Alike f s' u) : Twin M F s' u := by
  have harena : ∀ b, u.arena? b = t.arena? b := fun b => by rw [arena?_eq, arena?_eq, hsame.core]
  refine ⟨halike, fun b hb slot => ?_, fun b hb => ?_, fun b slot hslot => ?_⟩
  · rw [finishOf, harena, ← finishOf]
    exact h.issued b (hsame.engine? b ▸ hb) slot
  · exact h.injective b (hsame.engine? b ▸ hb)
  · rw [entryOf?_eq, harena, ← entryOf?_eq] at hslot
    exact h.occupied b slot hslot

/-- **A command begins in twins alike.** -/
theorem begin? (h : Twin M F s t) (b : Nat) (c : Command) :
    s.begin? b c = none ∧ t.begin? b c = none ∨ ∃ s' u form, s.begin? b c = some (s', form) ∧
      t.begin? b c = some (u, form) ∧ Twin M F s' u := by
  rcases exists_of_rel (h.refl.begin? b c) with hnone | ⟨⟨s', form⟩, ⟨u, form'⟩, hs, ht, -, hform⟩
  · exact .inl hnone
  · obtain rfl : form = form' := hform
    refine .inr ⟨s', u, form, hs, ht, h.of_same ?_ fun f hf => ?_⟩
    · obtain ⟨before, v, hv, rfl⟩ := inner_begin? ht
      exact hv.same.trans (same_lettingGo before v)
    · rcases exists_of_rel ((h.alike f hf).begin? b c) with ⟨hnone, -⟩ | ⟨p, q, hp, hq, halike, -⟩
      · rw [hs] at hnone
        cases hnone
      · obtain rfl := Option.some.inj (hs.symm.trans hp)
        obtain rfl := Option.some.inj (ht.symm.trans hq)
        exact halike

/-- **A command ends in twins alike.** -/
theorem conclude (h : Twin M F s t) {rest : List Frame} (hf : t.frames = .pausing :: rest)
    (save : Option String) : Twin M F (s.conclude save) (t.conclude save) := by
  refine h.of_same ?_ fun f hf => (h.alike f hf).conclude save
  have hpop : Same t { t with frames := rest } := ⟨fun _ => rfl, rfl, rfl⟩
  exact (hpop.trans (inner_settle hf save).same).trans (same_lettingGo t _)

end Twin

/-! ### The start -/

/-- The same setup with another policy for slots that were given up. -/
def withPolicy (policy : SlotPolicy) (setup : Setup) : Setup :=
  { setup with settings.arena.policy := policy }

/-- A new bridge is the same as one whose arena is monotonic. -/
lemma alike_create {x y : Bridge} {setup : Setup} (hx : Bridge.create setup = .ok x)
    (hy : Bridge.create (withPolicy .monotonic setup) = .ok y) (f : Slot → Slot) :
    x.Alike f y := by
  unfold Bridge.create withPolicy at *
  dsimp only at hx hy
  split at hx
  · next hstart =>
    rw [if_pos hstart] at hy
    cases hx
    cases hy
    exact ⟨rfl, .empty _ _, rfl, rfl, rfl, rfl⟩
  · cases hx

lemma arena_create {br : Bridge} {setup : Setup} (h : Bridge.create setup = .ok br) :
    br.arena = .empty setup.settings.arena.policy := by
  unfold Bridge.create at h
  dsimp only at h
  split at h <;> cases h
  rfl

lemma forall₂_mapM_create {xs ys : List Bridge} (hx : setups.mapM Bridge.create = .ok xs)
    (hy : (setups.map (withPolicy .monotonic)).mapM Bridge.create = .ok ys) :
    List.Forall₂ (fun x y => ∀ f, x.Alike f y) xs ys := by
  induction setups generalizing xs ys with
  | nil =>
    cases hx
    cases hy
    exact .nil
  | cons setup setups ih =>
    rw [List.mapM_cons] at hx
    rw [List.map_cons, List.mapM_cons] at hy
    cases hx₁ : Bridge.create setup with
    | error e => rw [hx₁] at hx; cases hx
    | ok x =>
      cases hx₂ : setups.mapM Bridge.create with
      | error e => rw [hx₁, hx₂] at hx; cases hx
      | ok xs' =>
        cases hy₁ : Bridge.create (withPolicy .monotonic setup) with
        | error e => rw [hy₁] at hy; cases hy
        | ok y =>
          cases hy₂ : (setups.map (withPolicy .monotonic)).mapM Bridge.create with
          | error e => rw [hy₁, hy₂] at hy; cases hy
          | ok ys' =>
            rw [hx₁, hx₂] at hx
            rw [hy₁, hy₂] at hy
            cases hx
            cases hy
            exact .cons (alike_create hx₁ hy₁) (ih hx₂ hy₂)

/-- **New sessions are twins.** -/
theorem twin_create (hs : create types setups = .ok s)
    (ht : create types (setups.map (withPolicy .monotonic)) = .ok t) :
    Twin (fun _ _ => False) (fun _ slot => slot) s t := by
  unfold create at hs ht
  cases hx : setups.mapM Bridge.create with
  | error e => rw [hx] at hs; cases hs
  | ok xs =>
    cases hy : (setups.map (withPolicy .monotonic)).mapM Bridge.create with
    | error e => rw [hy] at ht; cases ht
    | ok ys =>
      rw [hx] at hs
      rw [hy] at ht
      cases hs
      cases ht
      have hall := forall₂_mapM_create hx hy
      have hempty : ∀ {b : Nat} {y : Bridge}, ys[b]? = some y →
        ∃ policy, y.arena = .empty policy := fun hb => by
        obtain ⟨setup, -, hcreate⟩ := exists_of_mapM_create hy (List.mem_of_getElem? hb)
        exact ⟨_, arena_create hcreate⟩
      refine ⟨fun f _ => ?_, fun b hb slot => ?_, fun _ _ _ _ => False.elim, fun b slot hslot => ?_⟩
      · refine ⟨rfl, hall.length_eq, fun b x y hx hy => ?_, rfl, rfl, rfl, rfl, rfl, rfl,
          rfl, rfl, rfl⟩
        obtain ⟨hlt, rfl⟩ := List.getElem?_eq_some_iff.1 hx
        obtain ⟨hlt', rfl⟩ := List.getElem?_eq_some_iff.1 hy
        exact (List.forall₂_iff_get.1 hall).2 b hlt hlt' (f b)
      · obtain ⟨e, he⟩ := Option.isSome_iff_exists.1 hb
        obtain ⟨y, hy, -⟩ := Option.bind_eq_some_iff.1 he
        obtain ⟨policy, harena⟩ := hempty hy
        rw [finishOf_of_bridge? hy, harena]
        exact iff_of_false id (Nat.not_lt_zero _)
      · obtain ⟨entry, hentry⟩ := Option.isSome_iff_exists.1 hslot
        obtain ⟨y, hy, hget⟩ := Option.bind_eq_some_iff.1 hentry
        obtain ⟨policy, harena⟩ := hempty hy
        rw [harena, Arena.get?_empty] at hget
        cases hget

end ScriptBridge.Session
