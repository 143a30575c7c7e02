/-
# Disposal of a bridge

While its engine is at work a bridge is not disposed.  Otherwise its entries are let go of, one
after the other; the dispose hooks that run meanwhile may do whatever host code can do.  Unless one
of them runs on forever the call returns, and then nothing is left.  From the beginning on the
bridge does nothing any more.
-/
import ScriptBridge.Proofs.Session.Progress

namespace ScriptBridge.Session

open ScriptBridge.Bridge ScriptBridge.Host ScriptBridge.Table ScriptBridge.Wire

variable {s s' t : Session} {b : Nat} {types : List HostType} {setups : List Setup}
  {older between : List Session} {below : List Frame}

/-! ### What is let go of meanwhile -/

/-- The entries that are taken out of the arenas of other bridges next. -/
def takenElsewhere (b : Nat) (s : Session) : List Entry :=
  if s.control.bridge? = some b then [] else s.taken

lemma taken_eq (b : Nat) (s : Session) : s.taken = s.takenFrom b ++ s.takenElsewhere b := by
  unfold takenFrom takenElsewhere
  split
  · rw [List.append_nil]
  · rw [List.nil_append]

lemma perm_flatMap_taken (b : Nat) (l : List Session) :
    (l.flatMap taken).Perm (l.flatMap (takenFrom b) ++ l.flatMap (takenElsewhere b)) := by
  rw [funext (taken_eq b)]
  exact (List.flatMap_append_perm l _ _).symm

/-- All entries of an arena are taken out of it one by one, or are left. -/
lemma History.taken_perm (h : History types setups (t :: (between ++ s :: older)))
    (hp : ∀ u ∈ between ++ [s], ∀ u', Goes u u' →
      (u.takenFrom b ++ u'.pinned b).Perm (u.pinned b)) :
    ((between ++ [s]).flatMap (takenFrom b) ++ t.pinned b).Perm (s.pinned b) := by
  induction between generalizing t with
  | nil =>
    cases h with
    | goes h hgo =>
      simpa only [List.nil_append, List.flatMap_singleton] using
        hp s (List.mem_singleton_self s) t hgo
  | cons u between ih =>
    cases h with
    | goes h hgo =>
      have hu := ih h fun v hv => hp v (List.mem_cons_of_mem _ hv)
      have hstep := hp u (List.mem_cons_self ..) t hgo
      simp only [List.cons_append, List.flatMap_cons, List.append_assoc]
      exact (List.perm_append_comm_assoc ..).trans ((hstep.append_left _).trans hu)

/-! ### The end of a bridge -/

lemma endLease_of_engine {f : ForeignObject} (he : s.engine? f.bridge = none) :
    s.endLease f = { s with leases := s.leases.filter fun g => g.lease ≠ f.lease } := by
  have hnone : ({ s with leases := s.leases.filter fun g => g.lease ≠ f.lease } :
      Session).engine? f.bridge = none := he
  unfold endLease
  dsimp only
  rw [hnone]

/-- Nothing is left in the arena of a bridge that has been disposed, no script object is referred to
and no host type remembered. -/
lemma Disposed.statsOf (h : Disposed b below s) (he : s.engine? b = none)
    (hb : (s.arena? b).isSome = true) : ∃ br, s.bridge? b = some br ∧
      (statsOf br).occupancy.used = 0 ∧ (statsOf br).handles = 0 ∧ (statsOf br).types = 0 := by
  obtain ⟨a, ha⟩ := Option.isSome_iff_exists.1 hb
  obtain ⟨br, hbr, harena⟩ := Option.map_eq_some_iff.1 ha
  refine ⟨br, hbr, (h.emptied br.arena (by rw [arena?, hbr]; rfl)).2, ?_, ?_⟩
  · rw [engine?, hbr] at he
    rw [Session.statsOf, Bridge.foreignHandles, show br.engine = none from he]
    rfl
  · rw [Session.statsOf, h.described br hbr]
    rfl

/-- All entries of a bridge are let go of once while it is disposed, and besides them those only
that are taken out of the arenas of other bridges. -/
lemma History.released_perm_pinned (h : History types setups (t :: (between ++ s :: older)))
    (hc : s.control = .dispose b) (hd : Disposed b s.frames t)
    (hp : ∀ u ∈ between ++ [s], ∀ u', Goes u u' →
      (u.takenFrom b ++ u'.pinned b).Perm (u.pinned b)) :
    ((between ++ [s]).flatMap released).Perm
      (s.pinned b ++ (between ++ [s]).flatMap (takenElsewhere b)) := by
  have hpending : t.pending = s.pending := by
    rw [Session.pending, Session.pending, hd.control, hd.frames, hc]
    rfl
  have hreleased := h.released_perm
  rw [hpending, List.perm_append_right_iff] at hreleased
  have htaken := h.taken_perm hp
  rw [hd.emptied.pinned, List.append_nil] at htaken
  exact (hreleased.trans (perm_flatMap_taken b _)).trans (htaken.append_right _)

/-- The call that disposes a bridge has returned.  Nothing is left in the arena, no script object is
referred to and no host type remembered, and all that was in the arena when the call began has been
let go of once. -/
structure Undone (b : Nat) (s : Session) (between : List Session) (t : Session) : Prop where
  control : t.control = .finished
  frames : t.frames = s.frames
  empty : ∃ br, t.bridge? b = some br ∧ (statsOf br).occupancy.used = 0 ∧
    (statsOf br).handles = 0 ∧ (statsOf br).types = 0
  released : ((between ++ [s]).flatMap released).Perm
    (s.pinned b ++ (between ++ [s]).flatMap (takenElsewhere b))

/-- The call that disposes a bridge stays at work until it returns; then all that was in the arena
of the bridge has been let go of once. -/
lemma History.disposing_or_undone {newer newest : List Session} {e : Engine}
    (h : History types setups (newer ++ s' :: s :: older)) (hc : s.control = .dispose b)
    (ht : s.tidy? = none) (hbusy : s.isBusy b = false) (he : s.engine? b = some e)
    (heq : newer ++ [s'] = newest ++ t :: between)
    (hall : ∀ u ∈ between, Disposing b s.frames u) :
    Disposing b s.frames t ∨ Undone b s between t := by
  cases h.earlier with
  | goes hs hgo =>
    have hs' := hgo.eq_disposeStep ht hc
    obtain ⟨hended, harena, hdisposing⟩ := hs' ▸ hs.ended_disposeStep hc hbusy he
    have hlater : ∀ u ∈ newer ++ [s'], Ended b s.frames u :=
      h.later hended fun _ _ hgo => hgo.ended
    have hbetween : ∀ u ∈ between, Ended b s.frames u := fun u hu =>
      hlater u (heq ▸ List.mem_append_right _ (List.mem_cons_of_mem _ hu))
    have hist : History types setups (t :: (between ++ s :: older)) := by
      have hsplit : History types setups (newest ++ t :: (between ++ s :: older)) := by
        rw [← List.cons_append, ← List.append_assoc, ← heq, ← List.append_cons]
        exact h
      exact hsplit.earlier
    -- Up to here the call was at work; its next step ends it or leaves it at work.
    have hnext : Disposing b s.frames t ∨ Disposed b s.frames t := by
      cases between with
      | nil =>
        obtain rfl : s' = t := (List.cons.inj (List.append_inj' heq rfl).2).1
        exact .inl hdisposing
      | cons u between =>
        have hend := hbetween u (List.mem_cons_self ..)
        cases hist with
        | goes hu hgo' =>
          exact hgo'.disposing hend.retired hend.present
            (hall u (List.mem_cons_self ..))
    refine hnext.imp_right fun hd => ?_
    have hend := hlater t (heq ▸ List.mem_append_right _ (List.mem_cons_self ..))
    refine ⟨hd.control, hd.frames, hd.statsOf hend.retired.engine hend.present,
      hist.released_perm_pinned hc hd fun u hu u' hgo' => ?_⟩
    rcases List.mem_append.1 hu with hu | hu
    · exact (hgo'.shrinks (hbetween u hu).retired).perm (hall u hu).uses
    · obtain rfl := List.mem_singleton.1 hu
      rw [hgo'.eq_disposeStep ht hc, ← hs', pinned_eq, pinned_eq, harena, takenFrom, taken, taking,
        hc]
      simp only [ite_self, List.nil_append]
      exact .refl _

/-- A program that goes on by itself has a history. -/
lemma History.exists_newer {p : Session → Prop} (h : History types setups (s' :: older))
    (hp : ProceedsWhile p s' t) : ∃ newer between, History types setups (newer ++ s' :: older) ∧
      newer ++ [s'] = t :: between ∧ ∀ u ∈ between, p u := by
  induction hp with
  | refl => exact ⟨[], [], h, rfl, List.forall_mem_nil _⟩
  | @tail u t _ hstep ih =>
    obtain ⟨newer, between, hist, heq, hall⟩ := ih
    have hlist : newer ++ s' :: older = u :: (between ++ older) := by
      rw [List.append_cons, heq, List.cons_append]
    refine ⟨t :: newer, u :: between, ?_, congrArg (t :: ·) heq,
      List.forall_mem_cons.2 ⟨hstep.1, hall⟩⟩
    rw [List.cons_append]
    rw [hlist] at hist ⊢
    exact hist.goes (.steps hstep.2)

/-- **The call that disposes a bridge returns**, if nothing that comes between its turns runs on
forever. -/
theorem History.exists_undone {e : Engine} (h : History types setups (s' :: s :: older))
    (hc : s.control = .dispose b) (ht : s.tidy? = none) (hbusy : s.isBusy b = false)
    (he : s.engine? b = some e) (hturns : TurnsCome b s.frames s') :
    ∃ newer t between, History types setups (newer ++ s' :: s :: older) ∧
      newer ++ [s'] = t :: between ∧ (∀ u ∈ between, Disposing b s.frames u) ∧
      Undone b s between t := by
  cases h with
  | goes hs hgo =>
    have hist := hs.goes hgo
    have hs' := hgo.eq_disposeStep ht hc
    have hbegins := hs' ▸ hs.ended_disposeStep hc hbusy he
    have hstart : s' = (s.updateBridge b ({ · with engine := none })).goto
        (.teardown b e.heldSlots) := hs'.trans (disposeStep_eq hbusy he)
    -- The first step has taken the engine out, and left all that it held to be given up.
    have hleft : TurnsLeft b s.frames (s'.turnsFor b (.teardown b e.heldSlots)) s' :=
      .undoes (.next (hstart ▸ rfl) (hstart ▸ rfl)) (.inr ⟨_, rfl⟩) (Nat.le_refl _)
    obtain ⟨t, hruns, hd⟩ := hleft.exists_disposed hist hbegins.1 hbegins.2.2 hturns
      (by rw [hstart]; exact Nat.le_refl _)
    obtain ⟨newer, between, hist', heq, hall⟩ := hist.exists_newer hruns
    refine ⟨newer, t, between, hist', heq, hall, ?_⟩
    have hlast : newer ++ [s'] = [] ++ t :: between := heq
    exact (hist'.disposing_or_undone hc ht hbusy he hlast hall).resolve_left
      fun hdisposing => hdisposing.ne_finished hd.frames hd.control

/-- **Disposal of a bridge.**  While the engine of the bridge is at work the call has no effect, and
neither has it once the engine has gone.  Otherwise it stays at work until it returns; then all
that was in the arena of the bridge has been let go of once, and nothing is left.  It does return,
unless something that comes between its turns, such as a dispose hook, runs on forever.  From the
beginning of the call on the operations of the bridge fail and change nothing but that they are
counted, those through a script object itself without being counted once the bridge is gone; leases
of the bridge end without a sign, and disposing it again has no effect. -/
theorem History.disposal {newer : List Session}
    (h : History types setups (newer ++ s' :: s :: older)) (hc : s.control = .dispose b)
    (ht : s.tidy? = none) :
    (s.isBusy b = true ∨ s.engine? b = none → s' = s.finish) ∧
    (s.isBusy b = false → s.engine? b ≠ none →
      (∀ newest t between, newer ++ [s'] = newest ++ t :: between →
        (∀ u ∈ between, Disposing b s.frames u) →
        Disposing b s.frames t ∨ Undone b s between t) ∧
      (TurnsCome b s.frames s' → ∃ on t between, History types setups (on ++ s' :: s :: older) ∧
        on ++ [s'] = t :: between ∧ (∀ u ∈ between, Disposing b s.frames u) ∧
        Undone b s between t) ∧
      ∀ t ∈ newer ++ [s'], t.engine? b = none ∧
        (∀ op, t.control = .operate b op → t.tidy? = none → op.Passes b → ∃ u, Proceeds t u ∧
          (u = t.failed b op ∨
            t.isAt b .dropped = true ∧ u = (t.failed b op).updateBridge b Bridge.vanish)) ∧
        (∀ (f : ForeignObject) op, f.bridge = b →
          t.gotoMember f op = t.goto (.operate b op) ∨
            t.gotoMember f op = t.fail (.interop .disposed)) ∧
        (∀ f : ForeignObject, f.bridge = b →
          t.endLease f = { t with leases := t.leases.filter fun g => g.lease ≠ f.lease }) ∧
        ∀ t', Goes t t' → t.control = .dispose b → t.tidy? = none → t' = t.finish) := by
  cases h.earlier with
  | goes hs hgo =>
    have hs' := hgo.eq_disposeStep ht hc
    refine ⟨fun hrefused => hs'.trans (disposeStep_refused hrefused), fun hbusy hengine => ?_⟩
    obtain ⟨e, he⟩ := Option.ne_none_iff_exists'.1 hengine
    have hended := hs' ▸ (hs.ended_disposeStep hc hbusy he).1
    have hlater := h.later hended fun _ _ hgo => hgo.ended
    refine ⟨fun newest t between heq hall => h.disposing_or_undone hc ht hbusy he heq hall,
      h.earlier.exists_undone hc ht hbusy he, fun t hmem => ?_⟩
    · have hend := hlater t hmem
      refine ⟨hend.retired.engine, fun op hop htidy hpasses => ?_, fun f op hf => ?_,
        fun f hf => ?_, fun t' hgo' hagain htidy => ?_⟩
      · exact exists_failed hend.retired.engine hend.waits
          (hend.disposing.imp_left (·.any_frames hop)) hop htidy hpasses
      · rw [gotoMember, hf]
        split
        · exact .inr rfl
        · exact .inl rfl
      · exact endLease_of_engine (hf ▸ hend.retired.engine)
      · exact (hgo'.eq_disposeStep htidy hagain).trans
          (disposeStep_refused (.inr hend.retired.engine))

/-- Whether a bridge that keeps something is about to be disposed. -/
def disposesNext (s : Session) (b : Nat) : Bool :=
  match s.control with
  | .dispose c => c == b && s.tidy?.isNone && !s.isBusy b && (s.engine? b).isSome &&
      !(s.pinned b).isEmpty
  | _ => false

lemma eq_of_disposesNext (h : s.disposesNext b = true) : s.control = .dispose b ∧
    s.tidy? = none ∧ s.isBusy b = false ∧ s.engine? b ≠ none ∧ s.pinned b ≠ [] := by
  unfold disposesNext at h
  split at h
  · next c hc =>
    simp only [Bool.and_eq_true, beq_iff_eq, Option.isNone_iff_eq_none, Bool.not_eq_true',
      List.isEmpty_eq_false_iff] at h
    obtain ⟨⟨⟨⟨rfl, ht⟩, hbusy⟩, he⟩, hpinned⟩ := h
    exact ⟨hc, ht, hbusy, Option.isSome_iff_ne_none.1 he, hpinned⟩
  · cases h

/-- If the program does not run on forever, nothing that comes between the turns does. -/
lemma turnsCome_of_acc (h : Acc (fun t u : Session => u.step? = some t) s) :
    TurnsCome b below s := fun _ hu =>
  Subrelation.accessible (fun hstep => hstep.1) (acc_proceeds h hu.proceeds)

/-- A program that makes an object a global, up to where it disposes the bridge. -/
def discarding : List Session :=
  tell 0 .dispose (obey 60 0 (.setVariable "x" (.fresh 0 "x" [])) none (made [bareType] [{}]))

/-- The bridge through which script refers to an object is disposed.  The call returns, the object
has been let go of, and nothing is left. -/
theorem disposal_discarding : ∃ s' s older newer t between, discarding = s :: older ∧
    s.control = .dispose 0 ∧ s.step? = some s' ∧ newer ++ [s'] = t :: between ∧
    Undone 0 s between t ∧ ∃ entry ∈ s.pinned 0, entry ∈ (between ++ [s]).flatMap released := by
  have hnext : discarding.head?.map (·.disposesNext 0) = some true := by decide +kernel
  have hsome : discarding.head?.map (·.step?.isSome) = some true := by decide +kernel
  have hend : (follow 80 discarding).head?.all (·.step?.isNone) = true := by decide +kernel
  have h : History [bareType] [{}] discarding :=
    ((history_made (by decide +kernel)).obey ..).tell ..
  generalize discarding = hist at hnext hend hsome h ⊢
  cases hist with
  | nil => cases hnext
  | cons s older =>
  obtain ⟨hc, ht, hbusy, hengine, hpinned⟩ := eq_of_disposesNext (Option.some.inj hnext)
  obtain ⟨s', hstep⟩ := Option.isSome_iff_exists.1 (Option.some.inj hsome)
  have hist : History [bareType] [{}] ([] ++ s' :: s :: older) := h.goes (.steps hstep)
  obtain ⟨newer, t, between, -, heq, -, hundone⟩ := ((hist.disposal hc ht).2 hbusy hengine).2.1
    (turnsCome_of_acc ((acc_of_follow hend).inv hstep))
  obtain ⟨entry, hentry⟩ := List.exists_mem_of_ne_nil _ hpinned
  exact ⟨s', s, older, newer, t, between, rfl, hc, hstep, heq, hundone, entry, hentry,
    hundone.released.symm.mem_iff.1 (List.mem_append_left _ hentry)⟩

end ScriptBridge.Session
