/-
# Disposal comes to its end

The call that disposes a bridge takes turns with whatever comes in between: dispose hooks, and
letting go of what nothing refers to any more.  Each of its own turns leaves it less to do, and
nothing that comes in between gives it more.  So it returns, if nothing in between runs on forever.
-/
import ScriptBridge.Proofs.Session.Causes
import ScriptBridge.Proofs.Session.Decoding

namespace ScriptBridge.Session

open ScriptBridge.Bridge ScriptBridge.Host ScriptBridge.Table ScriptBridge.Wire

variable {s s' t u : Session} {b c : Nat} {types : List HostType} {setups : List Setup}
  {older : List Session} {ctl next : Control} {l below : List Frame} {slots : List Slot}
  {entries : List Entry} {n : Nat}

/-! ### Turns of the call -/

/-- What the call that disposes a bridge does itself. -/
def Control.IsUndoing (b : Nat) (ctl : Control) : Prop :=
  ctl = .forget b ∨ ∃ slots, ctl = .teardown b slots

/-- It is the turn of the call that disposes a bridge: it gives up a slot or all that are left, it
lets go of an entry, or it forgets the host types. -/
structure OwnTurn (b : Nat) (below : List Frame) (s : Session) : Prop where
  tidy : s.tidy? = none
  own : s.frames = below ∧ s.control.IsUndoing b ∨ ∃ next entries, next.IsUndoing b ∧
    s.frames = .interrupted next :: below ∧ s.control = .release entries

/-- Nothing that comes between the turns of the call runs on forever. -/
def TurnsCome (b : Nat) (below : List Frame) (s : Session) : Prop :=
  ∀ u, ProceedsWhile (Disposing b below) s u →
    Acc (fun w v : Session => v.step? = some w ∧ ¬ v.OwnTurn b below) u

/-- How many turns the call needs at most for something that it does itself: for each slot it takes
out the entry, lets go of it, and goes on; the entries that are left are let go of one by one. -/
def turnsFor (s : Session) (b : Nat) : Control → Nat
  | .teardown _ slots => 3 * slots.length + (s.pinned b).length + 3
  | _ => 1

lemma turnsFor_le (h : (t.pinned b).length ≤ (s.pinned b).length) (ctl : Control) :
    t.turnsFor b ctl ≤ s.turnsFor b ctl := by
  cases ctl with
  | teardown => exact Nat.add_le_add_right (Nat.add_le_add_left h _) _
  | _ => exact Nat.le_refl _

/-! ### What comes in between -/

lemma Control.IsUndoing.ne_engine (h : ctl.IsUndoing b) (c : Nat) : ctl ≠ .engine c := by
  rcases h with rfl | ⟨slots, rfl⟩ <;> nofun

lemma Control.IsUndoing.ne_done (h : ctl.IsUndoing b) (r : Outcome) : ctl ≠ .done r := by
  rcases h with rfl | ⟨slots, rfl⟩ <;> nofun

/-- Whether something that is about to be done neither calls host code nor lets go of entries. -/
def Control.isUpkeep : Control → Bool
  | .done _ | .drop _ | .dispose _ | .teardown .. | .forget _ => true
  | _ => false

/-- Something is about to be done on what lies beneath, or what nothing refers to any more is let go
of before. -/
inductive BetweenTurns (ctl : Control) (below : List Frame) (u : Session) : Prop
  /-- It is done next. -/
  | next (hf : u.frames = below) (hc : u.control = ctl)
  /-- Something is let go of before. -/
  | upkeep (hf : u.frames = .interrupted ctl :: below) (hc : u.control.isUpkeep = true)
  /-- That is interrupted itself. -/
  | waits {l : List Frame} {up : Control} (hup : up.isUpkeep = true)
    (hf : u.frames = l ++ .interrupted up :: .interrupted ctl :: below)
  /-- A handle is given up before. -/
  | gives {l : List Frame} {c : Nat} (he : (u.engine? c).isSome = true)
    (hf : u.frames = l ++ .running c .nothing :: .interrupted ctl :: below)

lemma BetweenTurns.isOn (h : BetweenTurns ctl below u) : IsOn ctl below u := by
  cases h with
  | next hf hc => exact .inl ⟨hf, hc⟩
  | upkeep hf => exact .inr ⟨[], hf⟩
  | waits _ hf => exact .inr ⟨_ ++ [_], by rw [hf, List.append_assoc]; rfl⟩
  | gives _ hf => exact .inr ⟨_ ++ [_], by rw [hf, List.append_assoc]; rfl⟩

/-- Letting go comes on top, and leaves what waits as it is. -/
lemma BetweenTurns.lettingGo (h : BetweenTurns ctl below t) (before : Session) :
    BetweenTurns ctl below (before.lettingGo t) := by
  rcases lettingGo_cases before t with heq | ⟨vs, heq⟩ <;> rw [heq]
  · exact h
  · cases h with
    | next hf hc => exact .upkeep (by rw [← hf, ← hc]; rfl) rfl
    | upkeep hf hc => exact .waits (l := []) hc (congrArg (List.cons _) hf)
    | waits hup hf => exact .waits (l := _ :: _) hup (congrArg (List.cons _) hf)
    | gives he hf => exact .gives (l := _ :: _) he (congrArg (List.cons _) hf)

/-- What nothing refers to any more is let go of before something is done. -/
lemma betweenTurns_tidy? (hf : s.frames = below) (hc : s.control = ctl) (h : s.tidy? = some t) :
    BetweenTurns ctl below t := by
  unfold tidy? at h
  split at h
  · cases h
    exact .upkeep (by rw [← hf, ← hc]; rfl) rfl
  · split at h
    · cases h
      exact .next hf hc
    · split at h
      · next f _ =>
        cases h
        unfold endLease
        dsimp only
        split
        · exact .next hf hc
        · next e he =>
          refine .gives (l := []) (c := f.bridge) ?_ (by rw [← hf, ← hc]; rfl)
          exact Option.isSome_iff_exists.2 ⟨_, engine?_startEngine
            (s := ({ s with leases := s.leases.filter fun g => g.lease ≠ f.lease } : Session).push
              (.interrupted s.control)) he ..⟩
      · obtain ⟨st, -, rfl⟩ := Option.map_eq_some_iff.1 h
        unfold forgetObject
        dsimp only
        split
        · exact .next hf hc
        · exact .upkeep (by rw [← hf, ← hc]; rfl) rfl

lemma betweenTurns_unpin {slot : Slot} (hf : s.frames = .interrupted ctl :: below)
    (hup : next.isUpkeep = true) : BetweenTurns ctl below (s.unpin b slot next) := by
  unfold unpin
  split
  · exact .upkeep hf hup
  · exact .waits (l := []) hup (congrArg (List.cons _) hf)

/-- What is done before something else goes on, or what is let go of for it comes on top. -/
lemma betweenTurns_proceed? (hf : s.frames = .interrupted ctl :: below)
    (hup : s.control.isUpkeep = true) (h : s.proceed? = some t) : BetweenTurns ctl below t := by
  cases hc : s.control with
  | done r =>
    rw [proceed?_of_done hc hf nofun] at h
    obtain rfl := Option.some.inj h
    exact .next rfl rfl
  | drop vs =>
    cases vs with
    | nil =>
      rw [proceed?, hc] at h
      obtain rfl := Option.some.inj h
      exact .upkeep hf rfl
    | cons v vs =>
      rw [proceed?, hc] at h
      obtain rfl := Option.some.inj h
      exact .upkeep hf rfl
  | dispose c =>
    rw [proceed?, hc] at h
    obtain rfl := Option.some.inj h
    unfold disposeStep
    split
    · exact .upkeep hf rfl
    · split
      · exact .upkeep hf rfl
      · exact .upkeep hf rfl
  | teardown c slots =>
    rw [proceed?, hc] at h
    obtain rfl := Option.some.inj h
    unfold teardownStep
    split
    · unfold removeSlot
      dsimp only
      split
      · exact .upkeep hf rfl
      · exact betweenTurns_unpin (s := s.record c .removeSlot) hf rfl
    · split
      · exact .upkeep hf rfl
      · exact .waits (l := []) (show (Control.forget c).isUpkeep = true from rfl)
          (congrArg (List.cons _) hf)
  | forget c =>
    rw [proceed?, hc] at h
    obtain rfl := Option.some.inj h
    exact .upkeep hf rfl
  | _ =>
    rw [hc] at hup
    cases hup

/-- **What is let go of before the call goes on stays apart from it**, until it is its turn. -/
theorem BetweenTurns.step (h : BetweenTurns ctl below u) (hctl : ctl.IsUndoing b) (hgo : Goes u t)
    (ho : Orderly u) (hown : ¬ u.OwnTurn b below) : BetweenTurns ctl below t := by
  cases h with
  | next hf hc =>
    subst hc
    cases hgo.happens with
    | works hc => exact absurd hc (hctl.ne_engine _)
    | tidies hc ht => exact betweenTurns_tidy? hf rfl ht
    | proceeds hc ht => exact absurd ⟨ht, .inl ⟨hf, hctl⟩⟩ hown
    | turns hc => exact absurd hc (hctl.ne_done _)
  | upkeep hf hup =>
    cases hgo.happens with
    | works hc =>
      rw [hc] at hup
      cases hup
    | tidies hc ht =>
      cases betweenTurns_tidy? rfl rfl ht with
      | next hf' hc' => exact .upkeep (hf'.trans hf) (hc' ▸ hup)
      | upkeep hf' => exact .waits (l := []) hup (by rw [hf', hf]; rfl)
      | waits _ hf' => exact .waits (l := _ ++ [_]) hup (by rw [hf', hf, List.append_assoc]; rfl)
      | gives _ hf' => exact .waits (l := _ ++ [_]) hup (by rw [hf', hf, List.append_assoc]; rfl)
    | proceeds hc ht hp h => exact h ▸ (betweenTurns_proceed? hf hup hp).lettingGo u
    | turns hc hf' =>
      rw [hf] at hf'
      rcases hf' with hnil | ⟨rest, hpausing⟩
      · cases hnil
      · cases hpausing
  | waits hup hf =>
    rcases hgo.waits hf with ⟨l', hl'⟩ | ⟨hf', hc'⟩
    · exact .waits hup hl'
    · exact .upkeep hf' (hc' ▸ hup)
  | @gives l c he hf =>
    rcases hgo.running ho he hf with ⟨l', hl'⟩ | ⟨-, e, r, -, -, -, hf', hc'⟩
    · exact .gives (hgo.engine_isSome he (p := .nothing) (by rw [hf]; simp)) hl'
    · exact .upkeep hf' (by rw [hc']; rfl)

/-! ### What is left to do -/

/-- What the call that disposes a bridge has left to do, in so many turns of its own at most. -/
inductive TurnsLeft (b : Nat) (below : List Frame) (n : Nat) (u : Session) : Prop
  /-- It gives up slots, or forgets the host types. -/
  | undoes {ctl : Control} (h : BetweenTurns ctl below u) (hctl : ctl.IsUndoing b)
    (hn : u.turnsFor b ctl ≤ n)
  /-- It lets go of entries before. -/
  | releases {next : Control} {entries : List Entry}
    (h : IsOn (.release entries) (.interrupted next :: below) u) (hnext : next.IsUndoing b)
    (hn : entries.length + 1 + u.turnsFor b next ≤ n)

/-- Nothing that comes in between gives the call more to do. -/
lemma TurnsLeft.step (h : TurnsLeft b below n u) (hgo : Goes u t) (ho : Orderly u)
    (hpinned : (t.pinned b).length ≤ (u.pinned b).length) (hown : ¬ u.OwnTurn b below) :
    TurnsLeft b below n t := by
  cases h with
  | undoes h hctl hn =>
    exact .undoes (h.step hctl hgo ho hown) hctl (Nat.le_trans (turnsFor_le hpinned _) hn)
  | releases h hnext hn =>
    have hn := Nat.le_trans (Nat.add_le_add_left (turnsFor_le hpinned _) _) hn
    rcases hgo.isOn h nofun nofun with hon | ⟨hf, hc, -⟩
    · exact .releases hon hnext hn
    · cases hgo.happens with
      | works hc' => cases hc.symm.trans hc'
      | tidies hc' ht =>
        rcases frames_tidy? ht with ⟨hframes, hcontrol⟩ | ⟨l, hl⟩
        · exact .releases (.inl ⟨hframes.trans hf, hcontrol.trans hc⟩) hnext hn
        · exact .releases (.inr ⟨l, by rw [hl, hf, hc]⟩) hnext hn
      | proceeds hc' ht => exact absurd ⟨ht, .inr ⟨_, _, hnext, hf, hc⟩⟩ hown
      | turns hc' => cases hc.symm.trans hc'

lemma OwnTurn.length_le (h : OwnTurn b below u) : u.frames.length ≤ below.length + 1 := by
  rcases h.own with ⟨hf, -⟩ | ⟨next, entries, -, hf, -⟩ <;> rw [hf]
  · exact Nat.le_succ _
  · exact Nat.le_refl _

/-- When it is the turn of the call, what it has left to do is done next. -/
lemma OwnTurn.of_between (h : OwnTurn b below u) (hb : BetweenTurns ctl below u) :
    u.frames = below ∧ u.control = ctl := by
  have hlength := h.length_le
  cases hb with
  | next hf hc => exact ⟨hf, hc⟩
  | upkeep hf hup =>
    rcases h.own with ⟨hf', -⟩ | ⟨next, entries, -, -, hc⟩
    · have heq := congrArg List.length (hf.symm.trans hf')
      rw [List.length_cons] at heq
      omega
    · rw [hc] at hup
      cases hup
  | waits _ hf | gives _ hf =>
    rw [hf, List.length_append, List.length_cons, List.length_cons] at hlength
    omega

/-- A slot is given up before the call goes on, or is vacant. -/
lemma betweenTurns_or_isOn_removeSlot (b : Nat) (slot : Slot) (next : Control)
    (hf : s.frames = below) :
    BetweenTurns next below (s.removeSlot b slot next) ∨
      ∃ entry, IsOn (.release [entry]) (.interrupted next :: below) (s.removeSlot b slot next) := by
  unfold removeSlot
  dsimp only
  split
  · exact .inl (.next hf rfl)
  · unfold unpin
    split
    · exact .inl (.next hf rfl)
    · exact .inr ⟨_, .inl ⟨congrArg (List.cons _) hf, rfl⟩⟩

/-- An entry is let go of before the others are. -/
lemma isOn_releaseStep (s : Session) (entry : Entry) (rest : List Entry) :
    IsOn (.release rest) s.frames (s.releaseStep (entry :: rest)) := by
  unfold releaseStep
  dsimp only
  split
  · exact isOn_goto
  · split
    · exact isOn_goto
    · (repeat' split) <;> first | exact .inl ⟨rfl, rfl⟩ | exact .inr ⟨[_], rfl⟩

/-- **Each turn of the call leaves it less to do**, and after the last one it has returned. -/
theorem TurnsLeft.ownTurn (h : TurnsLeft b below n u) (hgo : Goes u t) (hown : u.OwnTurn b below)
    (hb : (u.arena? b).isSome = true) (hpinned : (t.pinned b).length ≤ (u.pinned b).length) :
    (∃ m < n, TurnsLeft b below m t) ∨ t.frames = below ∧ t.control = .finished := by
  have ht := hown.tidy
  cases h with
  | undoes h hctl hn =>
    obtain ⟨hf, rfl⟩ := hown.of_between h
    rcases hctl with hc | ⟨slots, hc⟩
    · rw [hgo.eq_forget ht hc]
      exact .inr ⟨hf, rfl⟩
    · have hstep := hgo.eq_lettingGo ht (by rw [hc]; nofun)
        (show u.proceed? = some (u.teardownStep b slots) by rw [proceed?, hc])
      rw [hc] at hn
      refine .inl ?_
      cases slots with
      | cons slot rest =>
        -- The slot is vacant, or its entry is let go of first.
        have hle := turnsFor_le hpinned (.teardown b rest)
        simp only [turnsFor, List.length_cons] at hn hle
        rcases betweenTurns_or_isOn_removeSlot b slot (.teardown b rest) hf with
          hbetween | ⟨entry, hon⟩
        · exact ⟨_, by omega, .undoes (hstep ▸ hbetween.lettingGo u) (.inr ⟨_, rfl⟩) hle⟩
        · refine ⟨_, ?_, .releases (hstep ▸ hon.lettingGo u) (.inr ⟨_, rfl⟩)
            (Nat.add_le_add_left hle _)⟩
          rw [List.length_singleton]
          omega
      | nil =>
        obtain ⟨a, ha⟩ := Option.isSome_iff_exists.1 hb
        obtain ⟨br, hbr, rfl⟩ := Option.map_eq_some_iff.1 ha
        have hon : IsOn (.release br.arena.values) (.interrupted (.forget b) :: below)
            (u.teardownStep b []) := by
          unfold teardownStep
          dsimp only
          rw [hbr]
          exact .inl ⟨congrArg (List.cons _) hf, rfl⟩
        refine ⟨_, ?_, .releases (hstep ▸ hon.lettingGo u) (.inl rfl) (Nat.le_refl _)⟩
        have hvalues : u.pinned b = br.arena.values := by rw [pinned, hbr]; rfl
        simp only [turnsFor, hvalues] at hn ⊢
        omega
  | @releases next entries h hnext hn =>
    obtain ⟨hf, hc⟩ : u.frames = .interrupted next :: below ∧ u.control = .release entries := by
      refine h.resolve_right ?_
      rintro ⟨l, hl⟩
      have hlength := hown.length_le
      rw [hl, List.length_append, List.length_cons, List.length_cons] at hlength
      omega
    have hstep := hgo.eq_releaseStep ht hc
    have hle := turnsFor_le hpinned next
    refine .inl ?_
    cases entries with
    | nil =>
      have hbetween : BetweenTurns next below (u.releaseStep []) := .upkeep hf rfl
      exact ⟨_, by simp only [List.length_nil] at hn; omega,
        .undoes (hstep ▸ hbetween.lettingGo u) hnext hle⟩
    | cons entry rest =>
      have hon := hf ▸ isOn_releaseStep u entry rest
      exact ⟨_, by rw [List.length_cons] at hn; omega,
        .releases (hstep ▸ hon.lettingGo u) hnext (Nat.add_le_add_left hle _)⟩

/-! ### The end of the call -/

lemma TurnsLeft.exists_step (h : TurnsLeft b below n u)
    (hlooks : u.looks ≤ below.countP Frame.isPausing) :
    ∃ t, u.step? = some t := by
  have habove : ∀ {l}, l ≠ [] → u.frames = l ++ below → ∃ t, u.step? = some t :=
    fun hl hf => Session.exists_step hlooks hl hf
  cases h with
  | undoes h hctl =>
    rcases h.isOn with ⟨-, hc⟩ | ⟨l, hl⟩
    · refine Option.ne_none_iff_exists'.1 fun hnone => ?_
      obtain ⟨r, hr⟩ := control_of_step? hnone
      exact hctl.ne_done r (hc.symm.trans hr)
    · exact habove (l := l ++ [_]) (by simp) (by rw [hl, List.append_assoc]; rfl)
  | releases h =>
    rcases h with ⟨hf, -⟩ | ⟨l, hl⟩
    · exact habove (l := [_]) (by simp) hf
    · exact habove (l := l ++ [_, _]) (by simp) (by rw [hl, List.append_assoc]; rfl)

/-- The call that is at work has not returned. -/
lemma Disposing.ne_finished (h : Disposing b below t) (hf : t.frames = below) :
    t.control ≠ .finished := by
  have hnot : ∀ {ctl : Control}, IsOn ctl below t → ctl ≠ .finished → t.control ≠ .finished := by
    rintro ctl (⟨-, hc⟩ | ⟨l, hl⟩) hne
    · exact hc ▸ hne
    · have hlength := congrArg List.length (hf.symm.trans hl)
      rw [List.length_append, List.length_cons] at hlength
      omega
  cases h with
  | tears h => exact hnot h nofun
  | forgets h => exact hnot h nofun

/-- **The call that disposes a bridge returns**, if nothing that comes between its turns runs on
forever. -/
theorem TurnsLeft.exists_disposed (h : TurnsLeft b below n u)
    (hist : History types setups (u :: older))
    (he : Ended b below u) (hd : Disposing b below u) (hturns : TurnsCome b below u)
    (hlooks : u.looks ≤ below.countP Frame.isPausing) :
    ∃ t, ProceedsWhile (Disposing b below) u t ∧ Disposed b below t := by
  -- By the number of turns that are left; and until the next turn comes, by what comes in between.
  induction n using Nat.strongRecOn generalizing u older with
  | _ n ih =>
  induction hturns u .refl generalizing older with
  | intro u _ ih' =>
    obtain ⟨t, hstep⟩ := h.exists_step hlooks
    have hgo : Goes u t := .steps hstep
    rcases hgo.disposing he.retired he.present hd with hd' | hdisposed
    · have hpinned : (t.pinned b).length ≤ (u.pinned b).length := by
        rw [← ((hgo.shrinks he.retired).perm hd.uses).length_eq, List.length_append]
        exact Nat.le_add_left _ _
      have hist' := hist.goes hgo
      have hlooks' := (looks_step? hstep).symm ▸ hlooks
      have hturns' : TurnsCome b below t := fun v hv => hturns v (.head ⟨hd, hstep⟩ hv)
      obtain ⟨t', hruns, hend⟩ : ∃ t', ProceedsWhile (Disposing b below) t t' ∧
          Disposed b below t' := by
        by_cases hown : u.OwnTurn b below
        · rcases h.ownTurn hgo hown he.present hpinned with ⟨m, hm, h'⟩ | ⟨hf, hc⟩
          · exact ih m hm h' hist' (hgo.ended he) hd' hturns' hlooks'
          · exact absurd hc (hd'.ne_finished hf)
        · exact ih' t ⟨hstep, hown⟩ (h.step hgo hist.orderly hpinned hown) hist' (hgo.ended he) hd'
            hturns' hlooks'
      exact ⟨t', .head ⟨hd, hstep⟩ hruns, hend⟩
    · exact ⟨t, .single ⟨hd, hstep⟩, hdisposed⟩

end ScriptBridge.Session
