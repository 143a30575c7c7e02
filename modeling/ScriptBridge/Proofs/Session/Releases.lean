/-
# What is taken out of an arena is let go of

An entry that is taken out of an arena is on its way to its end until it is let go of.  Whatever
happens, what has been let go of and what is still on its way are together what was taken out and
what had been on its way before: no entry is let go of twice, and none gets lost.
-/
import ScriptBridge.Proofs.Session.Frames
import ScriptBridge.Proofs.Session.Origins

namespace ScriptBridge.Session

open ScriptBridge.Bridge ScriptBridge.Host ScriptBridge.Table ScriptBridge.Wire

variable {s s' t u : Session} {b : Nat} {types : List HostType} {setups : List Setup}
  {older between : List Session}

/-! ### Entries on their way -/

/-- The entries in the arena of a bridge. -/
def pinned (s : Session) (b : Nat) : List Entry := (s.bridge? b).elim [] (·.arena.values)

/-- The entries that have been taken out of their arenas and have not been let go of. -/
def pending (s : Session) : List Entry := s.control.entries ++ s.frames.flatMap Frame.entries

/-- The entries that what is about to be done takes out of an arena. -/
def taking (s : Session) : List Entry :=
  match s.control with
  | .engine b =>
    match (s.engine? b).map (fun e => e.step.2) with
    | some (Engine.Event.removed slot) => if s.inCall b then [] else (s.entryOf? b slot).toList
    | _ => []
  | .drain b (slot :: _) => (s.entryOf? b slot).toList
  | .teardown b (slot :: _) => if s.inCall b then [] else (s.entryOf? b slot).toList
  | .teardown b [] => s.pinned b
  | _ => []

/-- Whether something that nothing refers to any more is let go of before. -/
def isTidying (s : Session) : Bool :=
  match s.control with
  | .engine _ => false
  | _ => s.tidy?.isSome

/-- The entries that are taken out of an arena next. -/
def taken (s : Session) : List Entry := if s.isTidying then [] else s.taking

/-- The entries that are taken out of the arena of a bridge next. -/
def takenFrom (b : Nat) (s : Session) : List Entry :=
  if s.control.bridge? = some b then s.taken else []

/-- The entry that is let go of next, if there is one. -/
def released (s : Session) : List Entry := if s.isTidying then [] else s.control.entries.take 1

lemma isTidying_of_engine (hc : s.control = .engine b) : s.isTidying = false := by
  rw [isTidying, hc]

lemma isTidying_of_tidy? (hc : ∀ b, s.control ≠ .engine b) (ht : s.tidy? = some u) :
    s.isTidying = true := by
  unfold isTidying
  split
  · next b hb => exact absurd hb (hc b)
  · rw [ht]
    rfl

lemma isTidying_of_none (ht : s.tidy? = none) : s.isTidying = false := by
  unfold isTidying
  split
  · rfl
  · rw [ht]
    rfl

/-! ### Steps -/

lemma pending_eq {ctl : Control} {fs : List Frame} (hc : s.control = ctl) (hs : s.frames = fs) :
    s.pending = ctl.entries ++ fs.flatMap Frame.entries := by
  rw [pending, hc, hs]

lemma pending_of_append {l rest : List Frame} (hs : s.frames = l ++ rest)
    (hq : s.control.entries ++ l.flatMap Frame.entries = []) :
    s.pending = rest.flatMap Frame.entries := by
  rw [pending, hs, List.flatMap_append, ← List.append_assoc, hq, List.nil_append]

lemma entries_of_isInterrupted {f : Frame} (hf : f.isInterrupted = false) : f.entries = [] := by
  cases f <;> first | rfl | cases hf

lemma entries_of_isCallback {f : Frame} (hf : f.isCallback b = true) : f.entries = [] := by
  cases f <;> first | rfl | cases hf

lemma entries_replyControl (b : Nat) (r : Record) (p : Purpose) :
    (replyControl b r p).entries = [] := by
  cases p <;> rfl

lemma pending_lettingGo (before t : Session) : (before.lettingGo t).pending = t.pending := by
  rcases lettingGo_cases before t with heq | ⟨vs, heq⟩ <;> rw [heq]
  rfl

lemma pending_tidy? (h : s.tidy? = some u) : u.pending = s.pending := by
  unfold tidy? at h
  split at h
  · cases h
    rfl
  · split at h
    · cases h
      rfl
    · split at h
      · cases h
        unfold endLease
        dsimp only
        split <;> rfl
      · obtain ⟨st, -, rfl⟩ := Option.map_eq_some_iff.1 h
        unfold forgetObject
        dsimp only
        split <;> rfl

lemma taking_of_step {e : Engine} {a : Arena Entry} {q : List Slot} (hc : s.control = .engine b)
    (hb : s.core? b = some ⟨some e, a, q⟩) : s.taking =
      match e.step.2 with
      | .removed slot => if s.inCall b then [] else (a.get? slot).toList
      | _ => [] := by
  rw [taking, hc]
  dsimp only
  rw [engine?_of_core? hb, Option.map_some]
  cases e.step.2 with
  | removed slot =>
    dsimp only
    rw [entryOf?_of_core? hb]
  | _ => rfl

/-- What is about to be done adds the entries that it takes out of an arena to those on their way,
unless it gives up slots or lets go of entries. -/
lemma Stride.pending (h : Stride s t) (hrelease : ∀ entries, s.control ≠ .release entries)
    (hdrain : ∀ b slots, s.control ≠ .drain b slots)
    (htear : ∀ b slots, s.control ≠ .teardown b slots) : t.pending = s.taking ++ s.pending := by
  have hplain : (∀ b, s.control ≠ .engine b) → s.taking = [] := fun hengine => by
    unfold taking
    split
    · next b hc => exact absurd hc (hengine b)
    · next b slot slots hc => exact absurd hc (hdrain b _)
    · next b slot slots hc => exact absurd hc (htear b _)
    · next b hc => exact absurd hc (htear b _)
    · rfl
  have hnone : s.control.isInner = true → s.taking = [] := fun hc =>
    hplain fun b hb => by rw [hb] at hc; cases hc
  have hquiet : s.control.isInner = true → s.control.isQuiet = true := fun hc => by
    cases hctl : s.control with
    | release entries => exact absurd hctl (hrelease entries)
    | _ => rw [hctl] at hc; exact hc
  have hentries : s.control.entries = [] := by
    cases hctl : s.control with
    | release entries => exact absurd hctl (hrelease entries)
    | _ => rfl
  -- The frame on top gives way to others, without entries on either side.
  have hframes : ∀ (os fs : List Frame) {rest : List Frame}, s.taking = [] → s.frames = os ++ rest →
      os.flatMap Frame.entries = [] → t.frames = fs ++ rest →
      t.control.entries ++ fs.flatMap Frame.entries = [] → t.pending = s.taking ++ s.pending :=
    fun os fs _ htaking hs hos hs' hq => by
      rw [htaking, pending_of_append hs' hq, Session.pending, hentries, hs,
        List.flatMap_append, hos]
      rfl
  -- An engine at work reports no slot, or the slot is kept until an operation has ended.
  have hwork : ∀ (fs : List Frame) {b : Nat} {e : Engine} {a : Arena Entry} {q : List Slot},
      s.control = .engine b → s.core? b = some ⟨some e, a, q⟩ →
      (∀ slot, e.step.2 = .removed slot → s.inCall b = true ∨ a.get? slot = none) →
      t.frames = fs ++ s.frames → t.control.entries ++ fs.flatMap Frame.entries = [] →
      t.pending = s.taking ++ s.pending := fun fs _ _ _ _ hc hb hev hs' hq => by
    refine hframes [] fs ?_ (List.nil_append s.frames).symm rfl hs' hq
    rw [taking_of_step hc hb]
    split
    · next slot hslot =>
      rcases hev slot hslot with hi | hnone
      · rw [if_pos hi]
      · rw [hnone]
        split <;> rfl
    · rfl
  have hstays : ∀ fs : List Frame, (∀ b, s.control ≠ .engine b) → t.frames = fs ++ s.frames →
      t.control.entries ++ fs.flatMap Frame.entries = [] → t.pending = s.taking ++ s.pending :=
    fun fs hc hs' hq => hframes [] fs (hplain hc) (List.nil_append s.frames).symm rfl hs' hq
  cases h with
  | inner hc hs hos hs' hfs hc' h ho hq =>
    refine hframes _ _ (hnone hc) hs ?_ hs' (hq (hquiet hc))
    rcases ho with rfl | ⟨f, rfl, hf⟩
    · rfl
    · rw [List.flatMap_cons, entries_of_isInterrupted hf]
      rfl
  | interrupts hc hs' hc' h hq =>
    rw [hplain hc, Session.pending, hq, hs']
    rfl
  | resumes hc hs hs' hc' =>
    rw [hnone hc, Session.pending, Session.pending, hentries, hs, hs', hc']
    rfl
  | forgets hc hs' hc' | vanishes hc hs' hc' =>
    rw [hplain hc, Session.pending, Session.pending, hs', hc']
    rfl
  | tears hc => exact absurd hc (htear _ _)
  | drains hc | passes hc | refills hc | dries hc => exact absurd hc (hdrain _ _)
  | @gone b fs hb hc hfly hs' hfs hc' hfly' h hb' hl hn hi hq =>
    rw [hentries, List.nil_append] at hq
    refine hframes [] _ ?_ (List.nil_append s.frames).symm rfl hs' hq
    unfold taking
    split
    · next c hengine =>
      obtain rfl : c = b := by
        by_contra hne
        have hmark := hc c hne
        rw [hengine, Control.mark, if_pos rfl] at hmark
        cases hmark
      rw [hb]
      rfl
    · next b slot slots hc => exact absurd hc (hdrain b _)
    · next b slot slots hc => exact absurd hc (htear b _)
    · next b hc => exact absurd hc (htear b _)
    · rfl
  | disposes hc hs' hc' | skips hb hc hs' hc' | performed hc hs' hc' | decodes hc hb hs' hc'
  | responds hc hb hs' hc' | fails hc hs' hc' | answers hc hb hr hs' hc' =>
    exact hstays [] (by simp [hc]) hs' (by rw [hc']; rfl)
  | opens hc hb hm hw hg hp hs' hfs hc' h hq =>
    exact hstays (_ :: _ :: _) (by simp [hc]) hs' (by rw [hc']; exact hq)
  | balks hc hb hm hs' hfs hc' h hq => exact hstays (_ :: _) (by simp [hc]) hs' hq
  | releases hc hf hb hs' hc' =>
    rw [hplain hc, Session.pending, Session.pending, hs', hc']
    rfl
  | gives hc hb hs' hc' => exact hstays [_, _] (by simp [hc]) hs' (by rw [hc']; rfl)
  | reads hc hb hs' hc' => exact hstays [_] (by simp [hc]) hs' (by rw [hc']; rfl)
  | works hc hb he hs' hc' | refuses hc hb he hs' hc' | pins hc hb he hs' hc' =>
    exact hwork [] hc hb (by simp [he]) hs' (by rw [hc']; rfl)
  | defers hc hb he hi hs' hc' =>
    exact hwork [] hc hb (fun _ _ => .inl hi) hs' (by rw [hc']; rfl)
  | @unpins b e a a' q slot entry hc hb he hi ht hs' hc' =>
    rw [taking_of_step hc hb, he, Session.pending, hc', hs', Session.pending, hentries]
    dsimp only
    rw [hi, if_neg Bool.false_ne_true, Arena.get?_of_take ht]
    rfl
  | misses hc hb he hi ht hs' hc' =>
    refine hwork [] hc hb (fun slot hslot => .inr ?_) hs' (by rw [hc']; rfl)
    rw [he] at hslot
    cases hslot
    exact Arena.take_eq_none.1 ht
  | calls hc hb he hf hs' hc' h hq =>
    exact hwork [_] hc hb (by simp [he]) hs'
      (by rw [hq, List.flatMap_singleton, entries_of_isCallback hf]; rfl)
  | takes hc hb he hr hf hs' hc' =>
    exact hwork [_] hc hb (by simp [he]) hs'
      (by rw [hc', List.flatMap_singleton, entries_of_isCallback hf]; rfl)
  | finishes hc hb he hs hs' hc' =>
    refine hframes [_] [] ?_ hs rfl hs' ?_
    · rw [taking_of_step hc hb, he]
    · rw [hc']
      exact List.append_nil _ |>.trans (entries_replyControl ..)
  | misplaced hc hb hs hs' hc' h hq he =>
    obtain ⟨r, hr⟩ := he
    exact hwork [] hc hb (by simp [hr]) hs' (by rw [hq]; rfl)
  | drops hc hs hs' hc' h hq =>
    exact hframes [_] [] (hnone hc) hs rfl hs' (by rw [hq]; rfl)
  | replies hc hs hf hs' hc' =>
    exact hframes [_] [] (hnone hc) hs
      (by rw [List.flatMap_singleton, entries_of_isCallback hf]) hs' (by rw [hc']; rfl)
  | continues hc hs hf hs' hf' hc' h hq =>
    exact hframes [_] [_] (hnone hc) hs
      (by rw [List.flatMap_singleton, entries_of_isCallback hf]) hs'
      (by rw [hq, List.flatMap_singleton, entries_of_isCallback hf']; rfl)
  | leaves hc hs hi hs' hc' h hq =>
    exact hframes [_] [] (hnone hc) hs rfl hs' (by rw [hq]; rfl)
  | leavesLast hc hs hi hs' hc' =>
    exact hframes [_] [_] (hplain (by simp [hc])) hs rfl hs' (by rw [hc']; rfl)

lemma pending_unpin {slot : Slot} {next : Control} (hn : next.entries = []) :
    (s.unpin b slot next).pending =
      (s.entryOf? b slot).toList ++ s.frames.flatMap Frame.entries := by
  cases he : s.entryOf? b slot with
  | none =>
    have htake : ((s.bridge? b).bind fun br => br.arena.take slot) = none := by
      refine Option.bind_eq_none_iff.2 fun br hbr => Arena.take_eq_none.2 ?_
      rw [entryOf?, hbr] at he
      exact he
    rw [unpin, htake, Session.pending, goto, hn]
    rfl
  | some entry =>
    obtain ⟨br, hbr, hget⟩ := Option.bind_eq_some_iff.1 he
    obtain ⟨a, htake⟩ := Arena.take_of_get? hget
    rw [unpin, hbr, Option.bind_some, htake]
    change [entry] ++ (next.entries ++ s.frames.flatMap Frame.entries) = _
    rw [hn]
    rfl

lemma pending_removeSlot {slot : Slot} {next : Control} (hn : next.entries = []) :
    (s.removeSlot b slot next).pending =
      (if s.inCall b then [] else (s.entryOf? b slot).toList) ++
        s.frames.flatMap Frame.entries := by
  have hcall : (s.record b .removeSlot).inCall b = s.inCall b := rfl
  unfold removeSlot
  dsimp only
  rw [hcall]
  split
  · rw [Session.pending, goto, hn]
    rfl
  · rw [pending_unpin hn]
    congr 2
    rw [entryOf?, entryOf?, Session.record, bridge?_updateBridge, if_pos rfl, Option.bind_map]
    rfl

lemma pending_runHook (u : Session) (o : HostObject) : (u.runHook o).pending = u.pending := by
  cases hhook : (u.typeOf o).hook with
  | none =>
    rw [runHook_of_none hhook]
    split <;> rfl
  | some a =>
    rw [Session.pending, (runHook_of_some hhook).1, (runHook_of_some hhook).2]
    rfl

/-- One entry is let go of, and the others stay on their way. -/
lemma pending_releaseStep {entries : List Entry} (hc : s.control = .release entries) :
    s.control.entries.take 1 ++ (s.releaseStep entries).pending = s.pending := by
  cases entries with
  | nil =>
    rw [Session.pending, Session.pending, hc]
    rfl
  | cons entry rest =>
    have hrest :
      (s.releaseStep (entry :: rest)).pending = rest ++ s.frames.flatMap Frame.entries := by
      rw [releaseStep_cons]
      split
      · rfl
      · split
        · rfl
        · rw [pending_runHook]
          rfl
    rw [hrest, Session.pending, hc]
    rfl

lemma pending_drainStep {slots : List Slot} (hc : s.control = .drain b slots) :
    (s.drainStep b slots).pending = s.taking ++ s.pending := by
  have hpending := pending_eq hc rfl
  rw [hpending, taking, hc]
  cases slots with
  | cons slot rest => exact pending_unpin rfl
  | nil =>
    unfold drainStep
    dsimp only
    split <;> rfl

lemma pending_teardownStep {slots : List Slot} (hc : s.control = .teardown b slots) :
    (s.teardownStep b slots).pending = s.taking ++ s.pending := by
  have hpending := pending_eq hc rfl
  rw [hpending, taking, hc]
  cases slots with
  | cons slot rest => exact pending_removeSlot rfl
  | nil =>
    unfold teardownStep pinned
    dsimp only
    cases s.bridge? b <;> rfl

lemma pending_proceed? (h : s.proceed? = some t) :
    s.control.entries.take 1 ++ t.pending = s.taking ++ s.pending := by
  cases hc : s.control with
  | release entries =>
    rw [proceed?, hc] at h
    cases h
    rw [← hc, pending_releaseStep hc, taking, hc]
    rfl
  | drain b slots =>
    rw [proceed?, hc] at h
    cases h
    exact pending_drainStep hc
  | teardown b slots =>
    rw [proceed?, hc] at h
    cases h
    exact pending_teardownStep hc
  | _ => exact (stride_proceed? h).pending (by simp [hc]) (by simp [hc]) (by simp [hc])

/-- **What is let go of and what is on its way then are what is taken out of an arena and what has
been on its way before.** -/
theorem Goes.pending (h : Goes s s') : s.released ++ s'.pending = s.taken ++ s.pending := by
  have hnone : ∀ {ctl : Control}, s.control = ctl → ctl.entries = [] → s.released = [] :=
    fun hc hctl => by
      rw [released, hc, hctl, List.take_nil, ite_self]
  cases h.happens with
  | works hc h =>
    rw [hnone hc rfl, taken, isTidying_of_engine hc, h, (stride_engineStep hc).pending
      (by rw [hc]; nofun) (by rw [hc]; nofun) (by rw [hc]; nofun)]
    rfl
  | tidies hc h =>
    rw [released, taken, isTidying_of_tidy? hc h, pending_tidy? h]
    rfl
  | proceeds hc ht hp h =>
    rw [released, taken, isTidying_of_none ht, h, pending_lettingGo]
    exact pending_proceed? hp
  | turns hc hf hs h =>
    have htaking : s.taking = [] := by rw [taking, hc]
    rw [hnone hc rfl, taken, htaking, ite_self, h, pending_lettingGo, hs.pending
      (by rw [hc]; nofun) (by rw [hc]; nofun) (by rw [hc]; nofun), htaking]
    rfl

/-- **No entry is let go of twice, and none gets lost.** -/
theorem History.released_perm (h : History types setups (t :: (between ++ s :: older))) :
    ((between ++ [s]).flatMap released ++ t.pending).Perm
      ((between ++ [s]).flatMap taken ++ s.pending) := by
  induction between generalizing t with
  | nil =>
    cases h with
    | goes h hgo =>
      simp only [List.nil_append, List.flatMap_singleton, hgo.pending]
      exact .refl _
  | cons u between ih =>
    cases h with
    | goes h hgo =>
      have hu := ih h
      simp only [List.cons_append, List.flatMap_cons, List.append_assoc] at hu ⊢
      refine (List.perm_append_comm_assoc ..).trans ?_
      rw [hgo.pending]
      exact (List.perm_append_comm_assoc ..).trans (hu.append_left _)

end ScriptBridge.Session
