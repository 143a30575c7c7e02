/-
# Slots resolve

As long as script does not put anything in the place of the class of stand-ins, a stand-in
that is still there finds the entry that its slot was handed out for, and so does a record
of the engine when it is decoded, even if the stand-in has died in the meantime.
-/
import ScriptBridge.Proofs.Session.History

namespace ScriptBridge.Session

open ScriptBridge.Bridge ScriptBridge.Host ScriptBridge.Table ScriptBridge.Wire

variable {s s' t : Session} {b : Nat} {x y : Side} {slot : Slot} {v : Entry}
  {types : List HostType} {setups : List Setup} {hist older : List Session}
  {P Q : List Session → Prop}

/-! ### Entries over time -/

/-- A slot of a bridge has held an entry ever since something was so. -/
inductive Since (b : Nat) (slot : Slot) (v : Entry) (P : List Session → Prop) :
    List Session → Prop
  /-- It is so now. -/
  | now {s : Session} {older : List Session} (hv : s.entryOf? b slot = some v)
    (hP : P (s :: older)) : Since b slot v P (s :: older)
  /-- It was so before. -/
  | later {s : Session} {older : List Session} (hv : s.entryOf? b slot = some v)
    (h : Since b slot v P older) : Since b slot v P (s :: older)

/-- A slot has just been handed out: it was vacant before, and had no stand-in. -/
def Minted (b : Nat) (slot : Slot) (hist : List Session) : Prop :=
  ∃ s t older, hist = s :: t :: older ∧ t.entryOf? b slot = none ∧
    ∀ e, t.engine? b = some e → ¬ e.HasStandIn slot

/-- There is a stand-in for a slot. -/
def Standing (b : Nat) (slot : Slot) (hist : List Session) : Prop :=
  ∃ s older e, hist = s :: older ∧ s.engine? b = some e ∧ e.HasStandIn slot

lemma entryOf?_of_side? (hx : s.side? b = some x) (slot : Slot) :
    s.entryOf? b slot = x.arena.get? slot := by
  obtain ⟨br, hbr, heq⟩ := bridge?_of_core? (side?_eq_some.1 hx).1
  rw [entryOf?, hbr, Option.bind_some]
  exact congrArg (fun k : Core => k.arena.get? slot) heq

/-- What something keeps, and so has an entry. -/
lemma Side.Accounted.exists_get? (hx : x.Accounted) (hs : slot ∈ x.holders) :
    ∃ v, x.arena.get? slot = some v :=
  Option.isSome_iff_exists.1 ((hx.occupied slot).1 hs)

/-- An entry is never replaced by another one. -/
lemma Goes.get?_eq_some (h : Goes s s') (hs : ∀ x, s.side? b = some x → x.Accounted)
    (hy : s'.side? b = some y) (hslot : slot ∈ y.holders) (hv : s.entryOf? b slot = some v) :
    y.arena.get? slot = some v := by
  obtain ⟨k, x, z, hx, hmove, hrest⟩ := h.moves hy
  rw [entryOf?_of_side? hx] at hv
  have hz := hmove.accounted (hs x hx)
  have hget : slot ∈ z.holders → z.arena.get? slot = some v :=
    hmove.get?_eq_some (hs x hx) hv
  rcases hrest with ⟨rfl, -⟩ | ⟨-, hmove', -, harena⟩
  · exact hget hslot
  · rw [harena]
    refine hget ((hz.occupied slot).2 ?_)
    rw [← harena]
    exact ((hmove'.accounted hz).occupied slot).1 hslot

/-- **Whatever is at a slot was entered when the slot was handed out.** -/
theorem History.minted (h : History types setups (s :: older)) (hi : Intact b (s :: older))
    (hx : s.side? b = some x) (hv : x.arena.get? slot = some v) :
    Since b slot v (Minted b slot) (s :: older) := by
  generalize heq : s :: older = hist at h hi
  induction h generalizing s older x with
  | starts hcreate =>
    cases heq
    obtain ⟨maxDepth, maxLength, maxCalls, policy, rfl⟩ := side?_of_create hcreate hx
    simp [Side.initial] at hv
  | @goes t s' rest h hgo ih =>
    cases heq
    have hnow : s'.entryOf? b slot = some v := (entryOf?_of_side? hx slot).trans hv
    obtain ⟨k, w, z, hw, -⟩ := hgo.moves hx
    have hfaithful := h.faithful hi.tail (List.mem_cons_self ..) hw
    -- It has been entered in the last step, or was there before and has stayed.
    cases hbefore : w.arena.get? slot with
    | none =>
      refine .now hnow ⟨s', t, rest, rfl, (entryOf?_of_side? hw slot).trans hbefore, ?_⟩
      intro e he hstand
      obtain rfl : w.engine = e := Option.some.inj ((engine?_of_side? hw).symm.trans he)
      obtain ⟨u, hu⟩ := hfaithful.toAccounted.exists_get?
        (Side.mem_holders_of_hasStandIn hfaithful.honest hstand)
      rw [hbefore] at hu
      cases hu
    | some u =>
      have hy := (h.goes hgo).accounted (List.mem_cons_self ..) hx
      have hsame := hgo.get?_eq_some (fun x hx => h.accounted (List.mem_cons_self ..) hx) hx
        ((hy.occupied slot).2 (by rw [hv]; rfl)) ((entryOf?_of_side? hw slot).trans hbefore)
      rw [hv] at hsame
      cases hsame
      exact .later hnow (ih hw hbefore rfl hi.tail)

/-- **A slot on its way to the host has kept its entry since it had a stand-in.** -/
theorem History.standing (h : History types setups (s :: older)) (hi : Intact b (s :: older))
    (hx : s.side? b = some x) (hslot : slot ∈ x.outgoing) :
    ∃ v, Since b slot v (Standing b slot) (s :: older) := by
  generalize heq : s :: older = hist at h hi
  induction h generalizing s older x with
  | starts hcreate =>
    cases heq
    obtain ⟨maxDepth, maxLength, maxCalls, policy, rfl⟩ := side?_of_create hcreate hx
    cases hslot
  | @goes t s' rest h hgo ih =>
    cases heq
    have hy := (h.goes hgo).faithful hi (List.mem_cons_self ..) hx
    obtain ⟨k, w, z, hw, hmove, hrest⟩ := hgo.moves hx
    have hfaithful := h.faithful hi.tail (List.mem_cons_self ..) hw
    -- What holds of the entry before holds of it now.
    have hlater : ∀ v, Since b slot v (Standing b slot) (t :: rest) →
        ∃ v, Since b slot v (Standing b slot) (s' :: t :: rest) := fun v hsince => by
      have hv : t.entryOf? b slot = some v := by cases hsince <;> assumption
      refine ⟨v, .later ?_ hsince⟩
      rw [entryOf?_of_side? hx]
      exact hgo.get?_eq_some (fun x hx => h.accounted (List.mem_cons_self ..) hx) hx
        (hy.held slot hslot) hv
    have hbefore : slot ∈ z.outgoing → ∃ v, Since b slot v (Standing b slot) (s' :: t :: rest) := by
      intro hz
      rcases hmove.outgoing hfaithful.toAccounted hfaithful.honest hz with hout | hstand
      · obtain ⟨v, hsince⟩ := ih hw hout rfl hi.tail
        exact hlater v hsince
      · obtain ⟨v, hv⟩ := hfaithful.toAccounted.exists_get?
          (Side.mem_holders_of_hasStandIn hfaithful.honest hstand)
        exact hlater v (.now ((entryOf?_of_side? hw slot).trans hv)
          ⟨t, rest, w.engine, rfl, engine?_of_side? hw, hstand⟩)
    rcases hrest with ⟨rfl, -⟩ | ⟨-, hmove', hengine, -⟩
    · exact hbefore hslot
    · have hintact := hi t (List.mem_cons_of_mem _ (List.mem_cons_self ..)) _
        (engine?_of_side? hw)
      have hz := hmove.faithful hfaithful hintact
      rcases hmove'.outgoing hz.toAccounted hz.honest hslot with hout | hstand
      · exact hbefore hout
      · obtain ⟨v, hv⟩ := hy.toAccounted.exists_get? (hy.held slot hslot)
        refine ⟨v, .now ((entryOf?_of_side? hx slot).trans hv)
          ⟨s', t :: rest, x.engine, rfl, engine?_of_side? hx, ?_⟩⟩
        rw [hengine]
        exact hstand

/-! ### Slot safety -/

/-- **Slot safety.**  As long as script does not put anything in the place of the class of
stand-ins, every stand-in that is still there finds the entry that its slot was handed out
for: so does every request of the engine, and every record that is decoded, whose slots have
kept their entries since they had stand-ins. -/
theorem slots_resolve (h : History types setups hist) (hi : Intact b hist)
    (hs : hist.head? = some s) {e : Engine} (he : s.engine? b = some e) :
    (∀ slot, e.HasStandIn slot → ∃ v, Since b slot v (Minted b slot) hist) ∧
    (∀ req, s.control = .engine b → e.step.2 = .request req →
      ∃ v, Since b req.slot v (Minted b req.slot) hist) ∧
    (∀ r, s.control = .decode b r → ∀ slot ∈ r.slots,
      ∃ v, Since b slot v (Minted b slot) hist ∧ Since b slot v (Standing b slot) hist) := by
  obtain ⟨older, rfl⟩ : ∃ older, hist = s :: older := by
    cases hist with
    | nil => cases hs
    | cons s' older =>
      cases hs
      exact ⟨older, rfl⟩
  obtain ⟨x, hx, rfl⟩ := side?_isSome_of_engine? he
  have hfaithful := h.faithful hi (List.mem_cons_self ..) hx
  -- A slot that a stand-in holds is accounted for, so there is an entry.
  have hstand : ∀ slot, x.engine.HasStandIn slot →
      ∃ v, Since b slot v (Minted b slot) (s :: older) := fun slot hstand => by
    obtain ⟨v, hv⟩ := hfaithful.toAccounted.exists_get?
      (Side.mem_holders_of_hasStandIn hfaithful.honest hstand)
    exact ⟨v, h.minted hi hx hv⟩
  refine ⟨hstand, fun req hc hreq => ?_, fun r hc slot hslot => ?_⟩
  · exact hstand _ (hfaithful.honest.hasStandIn_of_request hfaithful.shaped
      (hi s (List.mem_cons_self ..) _ he) hreq)
  · have hout : slot ∈ x.outgoing := by
      refine List.mem_append_right _ ?_
      rw [← (side?_eq_some.1 hx).2, trail_eq hc rfl, List.flatMap_cons]
      refine List.mem_append_left _ ?_
      rw [show (Control.decode b r).mark b = .decode r from if_pos rfl]
      exact hslot
    obtain ⟨v, hsince⟩ := h.standing hi hx hout
    have hv : s.entryOf? b slot = some v := by cases hsince <;> assumption
    exact ⟨v, h.minted hi hx ((entryOf?_of_side? hx slot).symm.trans hv), hsince⟩

/-! ### Two runs -/

/-- A host type without members. -/
def bareType : HostType := { name := "Bare", description := { name := "Bare" } }

/-- The first slot. -/
def firstSlot : Slot := ⟨0, Nat.two_pow_pos 31⟩

/-- The slots of the record that a session is about to decode. -/
def decoding? (b : Nat) (s : Session) : Option (List Slot) :=
  match s.control with
  | .decode c r => if c = b then some r.slots else none
  | _ => none

lemma exists_of_decoding? {slots : List Slot} (h : hist.head?.bind (decoding? b) = some slots) :
    ∃ s r, hist.head? = some s ∧ s.control = .decode b r ∧ r.slots = slots := by
  obtain ⟨s, hs, hdecoding⟩ := Option.bind_eq_some_iff.1 h
  unfold decoding? at hdecoding
  split at hdecoding
  · next c r hc =>
    split at hdecoding
    · next heq =>
      cases heq
      exact ⟨s, r, hs, hc, Option.some.inj hdecoding⟩
    · cases hdecoding
  · cases hdecoding

/-- A program that makes an object a global and reads it again, up to the record of it. -/
def reading : List Session :=
  follow 6 (tell 0 (.getVariable "x") (obey 40 0 (.setVariable "x" (.fresh 0 "x" [])) none
    (made [bareType] [{}])))

lemma history_reading : History [bareType] [{}] reading :=
  (((history_made (by decide +kernel)).obey ..).tell ..).follow _

/-- The record of an object that was made a global is decoded. -/
theorem slots_resolve_reading : ∃ s r v, reading.head? = some s ∧ s.control = .decode 0 r ∧
    r.slots = [firstSlot] ∧ Since 0 firstSlot v (Minted 0 firstSlot) reading ∧
      Since 0 firstSlot v (Standing 0 firstSlot) reading := by
  obtain ⟨s, r, hs, hc, hslots⟩ := exists_of_decoding?
    (show reading.head?.bind (decoding? 0) = some [firstSlot] by decide +kernel)
  have hi : Intact 0 reading := intact_of_all (by decide +kernel)
  have hengine : (reading.head?.bind (·.engine? 0)).isSome = true := by decide +kernel
  rw [hs, Option.bind_some] at hengine
  obtain ⟨e, he⟩ := Option.isSome_iff_exists.1 hengine
  obtain ⟨v, hminted, hstanding⟩ := (slots_resolve history_reading hi hs he).2.2 r hc firstSlot
    (by rw [hslots]; exact List.mem_singleton_self _)
  exact ⟨s, r, v, hs, hc, hslots, hminted, hstanding⟩

/-- The same program, after script has put a function in the place of the class of stand-ins. -/
def shadowed : List Session :=
  follow 6 (tell 0 (.getVariable "x") (obey 40 0 (.setVariable "x" (.fresh 0 "x" [])) none
    (obey 40 0 (.evaluate (.op (.assign "Proxy") [.function (.op (.object ["k"]) [.int 1])])) none
      (made [bareType] [{}]))))

/-- A record is decoded although its slot is vacant, after script has put a function in the
place of the class of stand-ins. -/
theorem slot_vacant_shadowed : History [bareType] [{}] shadowed ∧
    ∃ s r, shadowed.head? = some s ∧ s.control = .decode 0 r ∧ r.slots = [firstSlot] ∧
      s.entryOf? 0 firstSlot = none := by
  refine ⟨((((history_made (by decide +kernel)).obey ..).obey ..).tell ..).follow _, ?_⟩
  obtain ⟨s, r, hs, hc, hslots⟩ := exists_of_decoding?
    (show shadowed.head?.bind (decoding? 0) = some [firstSlot] by decide +kernel)
  have hentry : shadowed.head?.map (·.entryOf? 0 firstSlot) = some none := by decide +kernel
  rw [hs] at hentry
  exact ⟨s, r, hs, hc, hslots, Option.some.inj hentry⟩

end ScriptBridge.Session
