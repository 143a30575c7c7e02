/-
# Slots that wait for the end of an operation

Slots that script lets go of during an operation wait until the outermost operation has ended.  So
none waits outside all operations, but for the moment in which they are about to be given up.  An
operation of a bridge whose engine has gone fails at once and leaves everything else as it was.
-/
import ScriptBridge.Proofs.Session.Retired

namespace ScriptBridge.Session

open ScriptBridge.Bridge ScriptBridge.Host ScriptBridge.Table ScriptBridge.Wire

variable {s s' t u : Session} {b : Nat} {types : List HostType} {setups : List Setup}
  {hist older : List Session}

/-! ### Slots that wait -/

/-- The slots of a bridge that wait for the end of an operation. -/
def waiting (s : Session) (b : Nat) : List Slot := (s.bridge? b).elim [] (·.deferred)

lemma waiting_eq (s : Session) (b : Nat) : s.waiting b = (s.core? b).elim [] (·.deferred) := by
  rw [waiting, core?]
  cases s.bridge? b <;> rfl

lemma waiting_of_core? {k : Core} (hk : s.core? b = some k) : s.waiting b = k.deferred := by
  rw [waiting_eq, hk]
  rfl

lemma waiting_congr (h : t.core? b = s.core? b) : t.waiting b = s.waiting b := by
  rw [waiting_eq, waiting_eq, h]

lemma waiting_updateBridge_of_same {f : Bridge → Bridge} (hf : ∀ br, (f br).deferred = br.deferred)
    (s : Session) (b c : Nat) : (s.updateBridge b f).waiting c = s.waiting c := by
  rw [waiting, waiting, bridge?_updateBridge]
  split
  · cases s.bridge? c with
    | none => rfl
    | some br => exact hf br
  · rfl

lemma waiting_of_cores {c : Nat} {k k' : Core}
    (h : ∀ d, t.core? d = if c = d then some k' else s.core? d) (hk : s.core? c = some k)
    (hq : k'.deferred = k.deferred) : t.waiting b = s.waiting b := by
  by_cases heq : c = b
  · subst heq
    rw [waiting_of_core? ((h c).trans (if_pos rfl)), waiting_of_core? hk, hq]
  · exact waiting_congr ((h b).trans (if_neg heq))

/-- A slot begins to wait within an operation only. -/
lemma Stride.waiting (h : Stride s t) (htear : ∀ slots, s.control ≠ .teardown b slots)
    (hr : s.engine? b = none → (s.control.mark b).isIdle = true) :
    t.waiting b = s.waiting b ∨ t.waiting b = [] ∨ t.inCall b = true := by
  have hcore : t.core? b = s.core? b → t.waiting b = s.waiting b ∨ t.waiting b = [] ∨
      t.inCall b = true := fun h => .inl (waiting_congr h)
  cases h with
  | forgets hc hs' hc' h | performed hc hs' hc' h | decodes hc hb hs' hc' h => exact hcore (h b)
  | @vanishes c hc hs' hc' h hb hl hn hk =>
    by_cases heq : b = c
    · subst heq
      refine .inr (.inl ?_)
      rw [waiting_eq, hk]
      cases s.core? b <;> rfl
    · exact hcore (h b heq)
  | @disposes c slots hc hs' hc' h hb hl hn hk =>
    by_cases heq : b = c
    · subst heq
      refine .inl ?_
      rw [waiting_eq, waiting_eq, hk]
      cases s.core? b <;> rfl
    · exact hcore (h b heq)
  | @tears c slots fs hc hs' hfs hc' hfly h =>
    exact hcore (h b fun heq => htear slots (heq ▸ hc))
  | @gone c fs hb hc hfly hs' hfs hc' hfly' h hb' hl hn hi =>
    by_cases heq : b = c
    · subst heq
      exact hcore ((hi (hr hb)).1.core b)
    · exact hcore (h b heq)
  | releases hc hf hb hs' hc' h => exact .inl (waiting_of_cores h hb rfl)
  | @defers c e a q slot hc hb he hi hs' hc' h =>
    by_cases heq : c = b
    · exact .inr (.inr (inCall_of_frames (l := []) hs' (heq ▸ hi)))
    · exact hcore ((h.core b).trans (if_neg heq))
  | @refills c k hc hb hs' hc' h =>
    by_cases heq : c = b
    · refine .inr (.inl ?_)
      rw [← heq, waiting_of_core? h.self]
    · exact hcore ((h.core b).trans (if_neg heq))
  | opens hc hb hm hw hg hp hs' hfs hc' h => exact .inl (waiting_of_cores h.core hb rfl)
  | balks hc hb hm hs' hfs hc' h => exact .inl (waiting_of_cores h.core hb rfl)
  | gives hc hb hs' hc' h | reads hc hb hs' hc' h => exact .inl (waiting_of_cores h.core hb rfl)
  | works hc hb he hs' hc' h | refuses hc hb he hs' hc' h =>
    exact .inl (waiting_of_cores h.core hb rfl)
  | unpins hc hb he hi ht hs' hc' h | misses hc hb he hi ht hs' hc' h =>
    exact .inl (waiting_of_cores h.core hb rfl)
  | calls hc hb he hf hs' hc' h => exact .inl (waiting_of_cores h.core hb rfl)
  | takes hc hb he hr hf hs' hc' h => exact .inl (waiting_of_cores h.core hb rfl)
  | pins hc hb he hs' hc' h => exact .inl (waiting_of_cores h.core hb rfl)
  | finishes hc hb he hs hs' hc' h => exact .inl (waiting_of_cores h.core hb rfl)
  | misplaced hc hb hs hs' hc' h => exact .inl (waiting_of_cores h.core hb rfl)
  | answers hc hb hr hs' hc' h => exact .inl (waiting_of_cores h.core hb rfl)
  | responds hc hb hs' hc' h => exact .inl (waiting_of_cores h.core hb rfl)
  | drains hc hb ht hs' hc' h => exact .inl (waiting_of_cores h.core hb rfl)
  | inner hc hs hos hs' hfs hc' h => exact hcore (h.core b)
  | interrupts hc hs' hc' h => exact hcore (h.core b)
  | resumes hc hs hs' hc' h => exact hcore (h.core b)
  | skips hb hc hs' hc' h => exact hcore (h.core b)
  | drops hc hs hs' hc' h | fails hc hs' hc' h => exact hcore (h.core b)
  | replies hc hs hf hs' hc' h => exact hcore (h.core b)
  | continues hc hs hf hs' hf' hc' h => exact hcore (h.core b)
  | leaves hc hs hi hs' hc' h | leavesLast hc hs hi hs' hc' h => exact hcore (h.core b)
  | passes hc hb ht hs' hc' h | dries hc hb hq hs' hc' h => exact hcore (h.core b)

/-- Slots wait within operations only, and outside all of them as long as they are about to be
given up. -/
def Waits (b : Nat) (s : Session) : Prop :=
  s.waiting b ≠ [] → s.inCall b = true ∨ s.control = .drain b [] ∧ s.tidy? = none

lemma waiting_lettingGo (before t : Session) : (before.lettingGo t).waiting b = t.waiting b := by
  rcases lettingGo_cases before t with heq | ⟨vs, heq⟩ <;> rw [heq]
  rfl

lemma inCall_lettingGo (before : Session) (h : t.inCall b = true) :
    (before.lettingGo t).inCall b = true := by
  rcases lettingGo_cases before t with heq | ⟨vs, heq⟩ <;> rw [heq]
  · exact h
  · exact inCall_of_frames (l := [_]) rfl h

lemma waiting_tidy? (h : s.tidy? = some u) : u.waiting b = s.waiting b ∨ u.waiting b = [] := by
  unfold tidy? at h
  split at h
  · cases h
    exact .inl
      (waiting_updateBridge_of_same (f := ({ · with stage := .dropped })) (fun _ => rfl) s _ b)
  · split at h
    · next c _ =>
      cases h
      by_cases heq : c = b
      · refine .inr ?_
        rw [waiting, bridge?_updateBridge, if_pos heq]
        cases s.bridge? b <;> rfl
      · refine .inl ?_
        rw [waiting, waiting, bridge?_updateBridge, if_neg heq]
    · split at h
      · cases h
        unfold endLease
        dsimp only
        split
        · exact .inl rfl
        · next e he =>
          exact .inl (waiting_updateBridge_of_same (f := ({ · with engine := some (e.enter _) }))
            (fun _ => rfl) s _ b)
      · obtain ⟨st, -, rfl⟩ := Option.map_eq_some_iff.1 h
        unfold forgetObject
        dsimp only
        split <;> exact .inl rfl

lemma inCall_tidy? (h : s.tidy? = some u) (hi : s.inCall b = true) : u.inCall b = true := by
  rcases frames_tidy? h with ⟨hframes, -⟩ | ⟨l, hframes⟩
  · exact inCall_of_frames (l := []) hframes hi
  · exact inCall_of_frames (l := l ++ [_]) (by rw [hframes, List.append_assoc]; rfl) hi

lemma waiting_drainStep_nil : (s.drainStep b []).waiting b = [] := by
  unfold drainStep
  dsimp only
  split
  · next hq => exact hq
  · rw [waiting]
    change ((s.updateBridge b ({ · with deferred := [] })).bridge? b).elim [] _ = []
    rw [bridge?_updateBridge, if_pos rfl]
    cases s.bridge? b <;> rfl

lemma waiting_unpin {slot : Slot} {next : Control} :
    (s.unpin b slot next).waiting b = s.waiting b := by
  unfold unpin
  split
  · rfl
  · next entry a h =>
    exact waiting_updateBridge_of_same (f := ({ · with arena := a })) (fun _ => rfl) s b b

/-- The slots of a bridge that is torn down are given up, or wait within an operation. -/
lemma waits_teardownStep {slots : List Slot} (hw : s.waiting b ≠ [] → s.inCall b = true) :
    (s.teardownStep b slots).waiting b ≠ [] → (s.teardownStep b slots).inCall b = true := by
  cases slots with
  | cons slot rest =>
    have hcall : (s.record b .removeSlot).inCall b = s.inCall b := rfl
    unfold teardownStep removeSlot
    dsimp only
    rw [hcall]
    split
    · next hi => exact fun _ => hi
    · next hi =>
      have hrecord : (s.record b .removeSlot).waiting b = s.waiting b :=
        waiting_updateBridge_of_same (f := (·.record .removeSlot)) (fun _ => rfl) s b b
      rw [waiting_unpin, hrecord]
      exact fun hne => absurd (hw hne) hi
  | nil =>
    refine fun hne => absurd ?_ hne
    unfold teardownStep
    dsimp only
    split
    · next hb =>
      rw [waiting]
      change (s.bridge? b).elim [] _ = []
      rw [hb]
      rfl
    · rw [waiting]
      change ((s.updateBridge b _).bridge? b).elim [] _ = []
      rw [bridge?_updateBridge, if_pos rfl]
      cases s.bridge? b <;> rfl

/-- Leaving the outermost operation of a bridge lets go of nothing else before. -/
lemma broadens_leavesLast {r : Outcome} {rest : List Frame} (hc : s.control = .done r)
    (hs : s.frames = .scope b :: rest) :
    Broadens s ((({ s with frames := rest } : Session).push (.interrupted (.done r))).goto
      (.drain b [])) := by
  refine .of_frames (g := [.scope b]) (l := [.interrupted (.done r)]) (.of_bridges rfl) rfl rfl rfl
    hs rfl (List.forall_mem_singleton.2 fun _ => rfl) ?_ ?_
  · rw [hc]
    exact List.Subset.refl _
  · rintro c (hctl | ⟨f, hf, hfc⟩)
    · rw [hc] at hctl
      cases hctl
    · cases List.mem_singleton.1 hf
      cases hfc
      simp [uses, goto, Control.bridge?]

/-- **Slots wait within operations only.** -/
theorem Goes.waits_deferred (h : Goes s s')
    (hr : s.engine? b = none → (s.control.mark b).isIdle = true) (hw : Waits b s) : Waits b s' := by
  -- A step that does not leave an operation.
  have hstays : ∀ {t}, Stride s t → (∀ slots, s.control ≠ .teardown b slots) →
      s.control ≠ .drain b [] → (∀ r rest, s.control = .done r → s.frames ≠ .scope b :: rest) →
      t.waiting b ≠ [] → t.inCall b = true := by
    intro t hs htear hdrain hleave hne
    rcases hs.waiting htear hr with heq | hnil | hi
    · rw [heq] at hne
      exact hs.inCall ((hw hne).resolve_right fun h => hdrain h.1) hleave
    · exact absurd hnil hne
    · exact hi
  have hgo : ∀ (before : Session) {t : Session}, (t.waiting b ≠ [] → t.inCall b = true) →
      Waits b (before.lettingGo t) := fun before _ ht hne => by
    rw [waiting_lettingGo] at hne
    exact .inl (inCall_lettingGo before (ht hne))
  cases h.happens with
  | works hc h =>
    exact fun hne => .inl (h ▸ hstays (stride_engineStep hc) (by rw [hc]; nofun) (by rw [hc]; nofun)
      (by rw [hc]; nofun) (h ▸ hne))
  | tidies hc h =>
    refine fun hne => .inl ?_
    rcases waiting_tidy? (b := b) h with heq | hnil
    · rw [heq] at hne
      refine inCall_tidy? h ((hw hne).resolve_right fun hdrain => ?_)
      rw [hdrain.2] at h
      cases h
    · exact absurd hnil hne
  | turns hc hf hs h =>
    rw [h]
    refine hgo _ (hstays hs (by rw [hc]; nofun) (by rw [hc]; nofun) fun r rest _ hscope => ?_)
    rcases hf with hf | ⟨rest', hf⟩ <;> rw [hf] at hscope <;> cases hscope
  | @proceeds t hengine ht hp h =>
    rw [h]
    by_cases htear : ∃ slots, s.control = .teardown b slots
    · obtain ⟨slots, hc⟩ := htear
      rw [proceed?, hc] at hp
      cases hp
      refine hgo s (waits_teardownStep fun hne => (hw hne).resolve_right fun hdrain => ?_)
      rw [hdrain.1] at hc
      cases hc
    by_cases hdrain : s.control = .drain b []
    · rw [proceed?, hdrain] at hp
      cases hp
      exact hgo s fun hne => absurd waiting_drainStep_nil hne
    by_cases hleave : ∃ r rest, s.control = .done r ∧ s.frames = .scope b :: rest
    · obtain ⟨r, rest, hc, hs⟩ := hleave
      have hstep : t = { s with frames := rest }.leaveScope b r := by
        rw [proceed?, hc] at hp
        dsimp only at hp
        rw [hs] at hp
        exact (Option.some.inj hp).symm
      cases hi : rest.any (Frame.isScope b) with
      | true =>
        rw [leaveScope, inCall, hi, if_pos rfl] at hstep
        rw [hstep]
        exact hgo s fun _ => hi
      | false =>
        rw [leaveScope, inCall, hi, if_neg Bool.false_ne_true] at hstep
        have hbroadens := hstep ▸ broadens_leavesLast hc hs
        rw [hbroadens.lettingGo]
        exact fun _ => .inr ⟨by rw [hstep]; rfl, hbroadens.tidy? ht⟩
    · exact hgo s (hstays (stride_proceed? hp) (not_exists.1 htear) hdrain
        fun r rest hc hs => hleave ⟨r, rest, hc, hs⟩)

/-- Slots of a bridge that is there wait within operations only. -/
theorem History.waits_deferred (h : History types setups hist) (hs : s ∈ hist) {e : Engine}
    (he : s.engine? b = some e) : Waits b s := by
  induction h generalizing s e with
  | starts hcreate =>
    obtain rfl := List.mem_singleton.1 hs
    obtain ⟨x, hx, -⟩ := side?_isSome_of_engine? he
    obtain ⟨maxDepth, maxLength, maxCalls, policy, rfl⟩ := side?_of_create hcreate hx
    exact fun hne => absurd (waiting_of_core? (side?_eq_some.1 hx).1) hne
  | @goes u s' older h hgo ih =>
    rcases List.mem_cons.1 hs with rfl | hs
    · obtain ⟨y, hy, -⟩ := side?_isSome_of_engine? he
      obtain ⟨k, x, z, hx, -⟩ := hgo.moves hy
      have heu := engine?_of_side? hx
      exact hgo.waits_deferred (by rw [heu]; nofun) (ih (List.mem_cons_self ..) heu)
    · exact ih hs he

end ScriptBridge.Session
