/-
# Bridges whose engine has gone

When a bridge is disposed its engine is not at work, and from then on nothing is done any more
that needs it.  The entries that are left in its arena are taken out of it one by one, and none is
added.
-/
import ScriptBridge.Proofs.Session.Passage
import ScriptBridge.Proofs.Session.Releases

namespace ScriptBridge.Session

open ScriptBridge.Bridge ScriptBridge.Host ScriptBridge.Table ScriptBridge.Wire

variable {s s' t u : Session} {b : Nat} {types : List HostType} {setups : List Setup}
  {older between : List Session}

/-- The engine of a bridge has gone, and nothing that is still to be done needs it. -/
structure Retired (b : Nat) (s : Session) : Prop where
  engine : s.engine? b = none
  idle : ∀ m ∈ s.trail b, m.isIdle = true

lemma Retired.ne_of_core? (h : Retired b s) {c : Nat} {e : Engine} {a : Arena Entry}
    {q : List Slot} (hc : s.core? c = some ⟨some e, a, q⟩) : c ≠ b := fun heq => by
  have hnone := h.engine
  rw [← heq, engine?_of_core? hc] at hnone
  cases hnone

lemma Stride.engine?_eq_none (h : Stride s t) (he : s.engine? b = none) : t.engine? b = none := by
  cases ht : t.engine? b with
  | none => rfl
  | some e =>
    obtain ⟨y, hy, -⟩ := side?_isSome_of_engine? ht
    obtain ⟨x, hx, -⟩ := moves_of_stride h hy
    rw [engine?_of_side? hx] at he
    cases he

lemma isIdle_of_isInner {ctl : Control} (hc : ctl.isInner = true) : (ctl.mark b).isIdle = true := by
  rw [Control.mark_of_isInner hc]
  rfl

lemma isIdle_of_isOf {c : Nat} {ctl : Control} (hc : ctl.IsOf c) (hne : c ≠ b) :
    (ctl.mark b).isIdle = true := by
  rw [hc b hne.symm]
  rfl

theorem Stride.retired (h : Stride s t) (hr : Retired b s) : Retired b t := by
  refine ⟨h.engine?_eq_none hr.engine, ?_⟩
  obtain ⟨hcontrol, hframes⟩ := List.forall_mem_cons.1 hr.idle
  have hidle : ∀ (os fs : List Frame) {rest : List Frame}, s.frames = os ++ rest →
      t.frames = fs ++ rest → (t.control.mark b).isIdle = true →
      (∀ f ∈ fs, (f.mark b).isIdle = true) → ∀ m ∈ t.trail b, m.isIdle = true := by
    intro os fs rest hs hs' hc hfs
    rw [hs, List.map_append, List.forall_mem_append] at hframes
    rw [trail, hs', List.map_append]
    exact List.forall_mem_cons.2
      ⟨hc, List.forall_mem_append.2 ⟨List.forall_mem_map.2 hfs, hframes.2⟩⟩
  have hpush : ∀ fs : List Frame, t.frames = fs ++ s.frames → (t.control.mark b).isIdle = true →
      (∀ f ∈ fs, (f.mark b).isIdle = true) → ∀ m ∈ t.trail b, m.isIdle = true := fun fs =>
    hidle [] fs rfl
  have hne : ∀ {c e a q}, s.core? c = some ⟨some e, a, q⟩ → c ≠ b := hr.ne_of_core?
  have hother : ∀ {c : Nat} (os fs : List Frame) {rest : List Frame}, c ≠ b →
      s.frames = os ++ rest → t.frames = fs ++ rest → t.control.IsOf c → (∀ f ∈ fs, f.IsOf c) →
      ∀ m ∈ t.trail b, m.isIdle = true := fun os fs _ hne hs hs' hc hfs =>
    hidle os fs hs hs' (isIdle_of_isOf hc hne) fun f hf => by
      rw [hfs f hf b hne.symm]
      rfl
  -- What is about to be done, or what waits on top, is for another bridge.
  have hself : ∀ {c : Nat} {m : Mark}, (if c = b then m else .other).isIdle = true →
      m.isIdle = false → c ≠ b := fun hm hm' heq => by
    rw [if_pos heq, hm'] at hm
    cases hm
  have hcallback : ∀ {c f rest}, s.frames = f :: rest → f.isCallback c = true → c ≠ b :=
    fun {c f rest} hs hf => by
      have hmark :=
        hframes (f.mark b) (List.mem_map_of_mem (by rw [hs]; exact List.mem_cons_self ..))
      rw [Frame.mark_of_isCallback hf] at hmark
      exact hself hmark rfl
  cases h with
  | inner hc hs hos hs' hfs hc' =>
    refine hidle _ _ hs hs' (isIdle_of_isInner hc') fun f hf => ?_
    rw [Frame.mark_of_isInner (hfs f hf)]
    rfl
  | interrupts hc hs' hc' =>
    exact hpush [_] hs' (isIdle_of_isInner hc') (List.forall_mem_singleton.2 hcontrol)
  | resumes hc hs hs' hc' =>
    rw [hs, List.map_cons, List.forall_mem_cons] at hframes
    exact hidle [_] [] hs hs' (by rw [hc']; exact hframes.1) (List.forall_mem_nil _)
  | forgets hc hs' hc' | vanishes hc hs' hc' =>
    exact hpush [] hs' (by rw [hc']; exact hcontrol) (List.forall_mem_nil _)
  | disposes hc hs' hc' =>
    refine hpush [] hs' ?_ (List.forall_mem_nil _)
    rw [hc', Control.mark]
    split <;> rfl
  | @tears c slots fs hc hs' hfs hc' hfly h hb hl hn hi =>
    by_cases heq : c = b
    · subst heq
      rw [List.forall_mem_cons, List.forall_mem_map] at hi
      exact hpush fs hs' hi.1 hi.2
    · exact hother [] fs heq rfl hs' hc' hfs
  | @gone c fs hb hc hfly hs' hfs hc' hfly' h hb' hl hn hi =>
    by_cases heq : c = b
    · subst heq
      have hidle' := (hi hcontrol).2
      rw [List.forall_mem_cons, List.forall_mem_map] at hidle'
      exact hpush fs hs' hidle'.1 hidle'.2
    · exact hother [] fs heq rfl hs' hc' hfs
  | skips hb hc hs' hc' | decodes hc hb hs' hc' | passes hc hb ht hs' hc' | refills hc hb hs' hc' =>
    refine hpush [] hs' ?_ (List.forall_mem_nil _)
    rw [hc', Control.mark]
    split <;> rfl
  | performed hc hs' hc' | dries hc hb hq hs' hc' =>
    exact hpush [] hs' (by rw [hc']; rfl) (List.forall_mem_nil _)
  | opens hc hb hm hw hg hp hs' hfs hc' =>
    refine hother [] (_ :: _ :: _) (hne hb) rfl hs' (hc' ▸ Control.isOf_engine _) ?_
    refine List.forall_mem_cons.2 ⟨Frame.isOf_running _ _, List.forall_mem_cons.2
      ⟨Frame.isOf_scope _, fun f hf => Frame.isOf_of_isInner (hfs f hf) _⟩⟩
  | balks hc hb hm hs' hfs hc' =>
    refine hother [] (_ :: _) (hne hb) rfl hs' (Control.isOf_of_isInner hc' _) ?_
    exact List.forall_mem_cons.2
      ⟨Frame.isOf_scope _, fun f hf => Frame.isOf_of_isInner (hfs f hf) _⟩
  | releases hc hf hb hs' hc' =>
    refine hpush [_, _] hs' (hc' ▸ isIdle_of_isOf (Control.isOf_engine _) (hne hb)) ?_
    refine List.forall_mem_cons.2 ⟨?_, List.forall_mem_singleton.2 hcontrol⟩
    rw [Frame.isOf_running _ _ b (hne hb).symm]
    rfl
  | gives hc hb hs' hc' =>
    refine hother [] [_, _] (hne hb) rfl hs' (hc' ▸ Control.isOf_engine _) ?_
    exact List.forall_mem_cons.2 ⟨Frame.isOf_running _ _,
      List.forall_mem_singleton.2 (Control.isOf_perform _ _ _ _)⟩
  | reads hc hb hs' hc' =>
    exact hother [] [_] (hne hb) rfl hs' (hc' ▸ Control.isOf_engine _)
      (List.forall_mem_singleton.2 (Frame.isOf_running _ _))
  | works hc hb he hs' hc' | misses hc hb he hi ht hs' hc' | defers hc hb he hi hs' hc' =>
    exact hother [] [] (hne hb) rfl hs' (hc' ▸ Control.isOf_engine _) (List.forall_mem_nil _)
  | unpins hc hb he hi ht hs' hc' =>
    exact hother [] [_] (hne hb) rfl hs' (hc' ▸ fun _ _ => rfl)
      (List.forall_mem_singleton.2 (Control.isOf_engine _))
  | refuses hc hb he hs' hc' =>
    exact hother [] [] (hne hb) rfl hs' (hc' ▸ Control.isOf_respond _ _) (List.forall_mem_nil _)
  | calls hc hb he hf hs' hc' =>
    exact hother [] [_] (hne hb) rfl hs' (Control.isOf_of_isInner hc' _)
      (List.forall_mem_singleton.2 (Frame.isOf_of_isCallback hf))
  | takes hc hb he hr hf hs' hc' =>
    exact hother [] [_] (hne hb) rfl hs' (hc' ▸ Control.isOf_decode _ _)
      (List.forall_mem_singleton.2 (Frame.isOf_of_isCallback hf))
  | pins hc hb he hs' hc' =>
    exact hother [] [] (hne hb) rfl hs' (hc' ▸ Control.isOf_answer _ _) (List.forall_mem_nil _)
  | finishes hc hb he hs hs' hc' =>
    exact hother [_] [] (hne hb) hs hs' (hc' ▸ Control.isOf_replyControl _ _ _)
      (List.forall_mem_nil _)
  | misplaced hc hb hs hs' hc' =>
    exact hpush [] hs' (isIdle_of_isInner hc') (List.forall_mem_nil _)
  | drops hc hs hs' hc' | leaves hc hs hi hs' hc' =>
    exact hidle [_] [] hs hs' (isIdle_of_isInner hc') (List.forall_mem_nil _)
  | replies hc hs hf hs' hc' =>
    exact hother [_] [] (hcallback hs hf) hs hs' (hc' ▸ Control.isOf_respond _ _)
      (List.forall_mem_nil _)
  | continues hc hs hf hs' hf' hc' =>
    exact hother [_] [_] (hcallback hs hf) hs hs' (Control.isOf_of_isInner hc' _)
      (List.forall_mem_singleton.2 (Frame.isOf_of_isCallback hf'))
  | leavesLast hc hs hi hs' hc' =>
    refine hidle [_] [_] hs hs' ?_ (List.forall_mem_singleton.2 rfl)
    rw [hc', Control.mark]
    split <;> rfl
  | responds hc hb hs' hc' | fails hc hs' hc' =>
    rw [hc] at hcontrol
    exact hother [] [] (hself hcontrol rfl) rfl hs' (hc' ▸ Control.isOf_answer _ _)
      (List.forall_mem_nil _)
  | answers hc hb hr hs' hc' =>
    exact hother [] [] (hne hb) rfl hs' (hc' ▸ Control.isOf_engine _) (List.forall_mem_nil _)
  | drains hc hb ht hs' hc' =>
    refine hpush [_] hs' (by rw [hc']; rfl) (List.forall_mem_singleton.2 ?_)
    rw [Frame.mark, Control.mark]
    split <;> rfl

/-- **What happens leaves a bridge without its engine.** -/
theorem Goes.retired (h : Goes s s') (hr : Retired b s) : Retired b s' := by
  obtain ⟨t, hstride, hnext⟩ := h.exists_stride
  have ht := hstride.retired hr
  rcases hnext with rfl | ⟨vs, rfl⟩
  · exact ht
  · exact ⟨ht.engine, List.forall_mem_cons.2 ⟨rfl, ht.idle⟩⟩

/-! ### What is left of a bridge -/

/-- The entries that script refers to through a bridge. -/
def arena? (s : Session) (b : Nat) : Option (Arena Entry) := (s.bridge? b).map (·.arena)

lemma arena?_eq (s : Session) (b : Nat) : s.arena? b = (s.core? b).map (·.arena) := by
  rw [arena?, core?, Option.map_map]
  rfl

lemma pinned_eq (s : Session) (b : Nat) : s.pinned b = (s.arena? b).elim [] Arena.values := by
  rw [pinned, arena?]
  cases s.bridge? b <;> rfl

lemma entryOf?_eq (s : Session) (b : Nat) (slot : Slot) :
    s.entryOf? b slot = (s.arena? b).bind (·.get? slot) := by
  rw [entryOf?, arena?, Option.bind_map]
  rfl

/-- What a step does to the arena of a bridge whose engine has gone. -/
inductive Shrinks (b : Nat) (s s' : Session) : Prop
  /-- It stays as it is. -/
  | stays (ht : s.takenFrom b = []) (h : s'.arena? b = s.arena? b)
  /-- An entry is taken out. -/
  | takes {a a' : Arena Entry} {slot : Slot} {entry : Entry} (ht : s.takenFrom b = [entry])
    (ha : s.arena? b = some a) (h : a.take slot = some (entry, a')) (ha' : s'.arena? b = some a')
  /-- All entries are taken out. -/
  | drains {a : Arena Entry} (ht : s.takenFrom b = a.values) (ha : s.arena? b = some a)
    (ha' : s'.arena? b = some a.drain.2)
  /-- Nothing uses the bridge, and nothing is left of it. -/
  | vanishes {a : Arena Entry} (hu : s.uses b = false) (ht : s.takenFrom b = [])
    (ha : s.arena? b = some a) (ha' : s'.arena? b = some (.empty a.policy))

lemma Shrinks.congr (h : Shrinks b s t) (heq : s'.arena? b = t.arena? b) : Shrinks b s s' := by
  cases h with
  | stays ht h => exact .stays ht (heq.trans h)
  | takes ht ha h ha' => exact .takes ht ha h (heq.trans ha')
  | drains ht ha ha' => exact .drains ht ha (heq.trans ha')
  | vanishes hu ht ha ha' => exact .vanishes hu ht ha (heq.trans ha')

lemma arena?_updateBridge (s : Session) (b : Nat) (f : Bridge → Bridge) (c : Nat) :
    (s.updateBridge b f).arena? c =
      if b = c then (s.bridge? c).map fun br => (f br).arena else s.arena? c := by
  rw [arena?, arena?, bridge?_updateBridge]
  split
  · rw [Option.map_map]
    rfl
  · rfl

/-- Only the arena of a bridge that is given up or torn down changes. -/
lemma Stride.shrinks (h : Stride s t) (hr : Retired b s) (ht : s.takenFrom b = [])
    (hdrain : ∀ slots, s.control ≠ .drain b slots)
    (htear : ∀ slots, s.control ≠ .teardown b slots) : Shrinks b s t := by
  have hcore : t.core? b = s.core? b → Shrinks b s t := fun hcore =>
    .stays ht (by rw [arena?_eq, arena?_eq, hcore])
  have hne : ∀ {c e a q}, s.core? c = some ⟨some e, a, q⟩ → c ≠ b := hr.ne_of_core?
  have hother : ∀ {c k}, Recores s t c k → c ≠ b → Shrinks b s t := fun h hne =>
    hcore ((h.core b).trans (if_neg hne))
  -- A step is about another bridge, or about one whose engine is there.
  obtain ⟨hcontrol, -⟩ := List.forall_mem_cons.1 hr.idle
  cases h with
  | forgets hc hs' hc' h | performed hc hs' hc' h | decodes hc hb hs' hc' h => exact hcore (h b)
  | @vanishes c hc hs' hc' h hb hl hn hk hu =>
    by_cases heq : b = c
    · subst heq
      cases ha : s.arena? b with
      | none =>
        refine .stays ht ?_
        rw [arena?_eq, Option.map_eq_none_iff] at ha
        rw [arena?_eq, arena?_eq, hk, ha]
        rfl
      | some a =>
        refine .vanishes hu ht ha ?_
        rw [arena?_eq, Option.map_eq_some_iff] at ha
        obtain ⟨k, hk', rfl⟩ := ha
        rw [arena?_eq, hk, hk']
        rfl
    · exact hcore (h b heq)
  | @disposes c slots hc hs' hc' h hb hl hn hk =>
    by_cases heq : b = c
    · subst heq
      refine .stays ht ?_
      rw [arena?_eq, arena?_eq, hk, Option.map_map]
      rfl
    · exact hcore (h b heq)
  | @tears c slots fs hc hs' hfs hc' hfly h =>
    exact hcore (h b fun heq => htear slots (heq ▸ hc))
  | @gone c fs hb hc hfly hs' hfs hc' hfly' h hb' hl hn hi =>
    by_cases heq : b = c
    · subst heq
      exact hcore ((hi hcontrol).1.core b)
    · exact hcore (h b heq)
  | releases hc hf hb hs' hc' h => exact hcore ((h b).trans (if_neg (hne hb)))
  | opens hc hb hm hw hg hp hs' hfs hc' h => exact hother h (hne hb)
  | balks hc hb hm hs' hfs hc' h => exact hother h (hne hb)
  | gives hc hb hs' hc' h | reads hc hb hs' hc' h => exact hother h (hne hb)
  | works hc hb he hs' hc' h | refuses hc hb he hs' hc' h => exact hother h (hne hb)
  | defers hc hb he hi hs' hc' h => exact hother h (hne hb)
  | unpins hc hb he hi ht hs' hc' h | misses hc hb he hi ht hs' hc' h => exact hother h (hne hb)
  | calls hc hb he hf hs' hc' h => exact hother h (hne hb)
  | takes hc hb he hr hf hs' hc' h => exact hother h (hne hb)
  | pins hc hb he hs' hc' h => exact hother h (hne hb)
  | finishes hc hb he hs hs' hc' h => exact hother h (hne hb)
  | misplaced hc hb hs hs' hc' h => exact hother h (hne hb)
  | answers hc hb hr hs' hc' h => exact hother h (hne hb)
  | responds hc hb hs' hc' h =>
    refine hother h fun heq => ?_
    rw [hc, Control.mark, if_pos heq] at hcontrol
    cases hcontrol
  | drains hc hb ht hs' hc' h =>
    exact hother h fun heq => hdrain _ (heq ▸ hc)
  | refills hc hb hs' hc' h =>
    exact hother h fun heq => hdrain _ (heq ▸ hc)
  | inner hc hs hos hs' hfs hc' h => exact hcore (h.core b)
  | interrupts hc hs' hc' h => exact hcore (h.core b)
  | resumes hc hs hs' hc' h => exact hcore (h.core b)
  | skips hb hc hs' hc' h => exact hcore (h.core b)
  | drops hc hs hs' hc' h | fails hc hs' hc' h => exact hcore (h.core b)
  | replies hc hs hf hs' hc' h => exact hcore (h.core b)
  | continues hc hs hf hs' hf' hc' h => exact hcore (h.core b)
  | leaves hc hs hi hs' hc' h | leavesLast hc hs hi hs' hc' h => exact hcore (h.core b)
  | passes hc hb ht hs' hc' h | dries hc hb hq hs' hc' h => exact hcore (h.core b)

lemma Retired.takenFrom_eq_nil (h : Retired b s) (hdrain : ∀ slots, s.control ≠ .drain b slots)
    (htear : ∀ slots, s.control ≠ .teardown b slots) : s.takenFrom b = [] := by
  unfold takenFrom
  split
  · next hbridge =>
    have htaking : s.taking = [] := by
      unfold taking
      split
      · next c hc =>
        rw [hc] at hbridge
        obtain rfl : c = b := Option.some.inj hbridge
        rw [h.engine]
        rfl
      · next c slot slots hc =>
        rw [hc] at hbridge
        obtain rfl : c = b := Option.some.inj hbridge
        exact absurd hc (hdrain _)
      · next c slot slots hc =>
        rw [hc] at hbridge
        obtain rfl : c = b := Option.some.inj hbridge
        exact absurd hc (htear _)
      · next c hc =>
        rw [hc] at hbridge
        obtain rfl : c = b := Option.some.inj hbridge
        exact absurd hc (htear _)
      · rfl
    rw [taken, htaking, ite_self]
  · rfl

lemma arena?_updateBridge_of_same {f : Bridge → Bridge} (hf : ∀ br, (f br).arena = br.arena)
    (s : Session) (b c : Nat) : (s.updateBridge b f).arena? c = s.arena? c := by
  rw [arena?_updateBridge]
  split
  · exact congrArg (Option.map · _) (funext hf)
  · rfl

lemma arena?_lettingGo (before t : Session) : (before.lettingGo t).arena? b = t.arena? b := by
  rcases lettingGo_cases before t with heq | ⟨vs, heq⟩ <;> rw [heq]
  rfl

/-- Letting go of what nothing refers to any more leaves an arena as it is, unless nothing uses its
bridge, of which nothing is left then. -/
lemma arena?_tidy? (h : s.tidy? = some u) : u.arena? b = s.arena? b ∨
    s.uses b = false ∧ u.engine? b = none ∧
      u.arena? b = (s.arena? b).map fun a => .empty a.policy := by
  unfold tidy? at h
  split at h
  · cases h
    exact .inl (arena?_updateBridge_of_same (f := ({ · with stage := .dropped }))
      (fun _ => rfl) s _ b)
  · split at h
    · next c hunused =>
      cases h
      by_cases heq : c = b
      · subst heq
        refine .inr ⟨uses_of_unused? hunused, ?_, ?_⟩
        · rw [engine?, bridge?_updateBridge, if_pos rfl]
          cases s.bridge? c <;> rfl
        · rw [arena?_updateBridge, if_pos rfl, arena?, Option.map_map]
          rfl
      · exact .inl ((arena?_updateBridge ..).trans (if_neg heq))
    · split at h
      · cases h
        refine .inl ?_
        unfold endLease
        dsimp only
        split
        · rfl
        · next e he =>
          exact arena?_updateBridge_of_same (f := ({ · with engine := some (e.enter _) }))
            (fun _ => rfl) s _ b
      · obtain ⟨st, -, rfl⟩ := Option.map_eq_some_iff.1 h
        refine .inl ?_
        unfold forgetObject
        dsimp only
        split <;> rfl

lemma shrinks_tidy? (hc : ∀ c, s.control ≠ .engine c) (h : s.tidy? = some u) : Shrinks b s u := by
  have htaken : s.takenFrom b = [] := by
    rw [takenFrom, taken, isTidying_of_tidy? hc h, if_pos rfl, ite_self]
  rcases arena?_tidy? (b := b) h with hsame | ⟨hu, -, hempty⟩
  · exact .stays htaken hsame
  · cases ha : s.arena? b with
    | none => exact .stays htaken (by rw [hempty, ha]; rfl)
    | some a => exact .vanishes hu htaken ha (by rw [hempty, ha]; rfl)

/-- A slot that is given up was vacant, or its entry is taken out. -/
lemma shrinks_unpin {slot : Slot} {next : Control}
    (hs : t.arena? b = s.arena? b) (ht : s.takenFrom b = (s.entryOf? b slot).toList) :
    Shrinks b s (t.unpin b slot next) := by
  rw [entryOf?_eq, ← hs] at ht
  cases hbr : t.bridge? b with
  | none =>
    rw [arena?, hbr] at ht
    rw [unpin, hbr]
    exact .stays ht hs
  | some br =>
    rw [arena?, hbr, Option.map_some, Option.bind_some] at ht
    cases hget : br.arena.get? slot with
    | none =>
      rw [hget] at ht
      rw [unpin, hbr, Option.bind_some, Arena.take_eq_none.2 hget]
      exact .stays ht hs
    | some entry =>
      obtain ⟨a, htake⟩ := Arena.take_of_get? hget
      rw [hget] at ht
      refine .takes ht (by rw [← hs, arena?, hbr]; rfl) htake ?_
      rw [unpin, hbr, Option.bind_some, htake]
      exact (arena?_updateBridge ..).trans (by rw [if_pos rfl, hbr]; rfl)

lemma shrinks_drainStep {slots : List Slot} (ht : s.tidy? = none)
    (hc : s.control = .drain b slots) : Shrinks b s (s.drainStep b slots) := by
  have htaken : s.takenFrom b = s.taking := by
    rw [takenFrom, hc, Control.bridge?, if_pos rfl, taken, isTidying_of_none ht]
    rfl
  rw [taking, hc] at htaken
  cases slots with
  | cons slot rest => exact shrinks_unpin rfl htaken
  | nil =>
    refine .stays htaken ?_
    unfold drainStep
    dsimp only
    split
    · rfl
    · exact arena?_updateBridge_of_same (f := ({ · with deferred := [] })) (fun _ => rfl) s b b

lemma shrinks_teardownStep {slots : List Slot} (ht : s.tidy? = none)
    (hc : s.control = .teardown b slots) : Shrinks b s (s.teardownStep b slots) := by
  have htaken : s.takenFrom b = s.taking := by
    rw [takenFrom, hc, Control.bridge?, if_pos rfl, taken, isTidying_of_none ht]
    rfl
  rw [taking, hc] at htaken
  cases slots with
  | cons slot rest =>
    have hrecord : (s.record b .removeSlot).arena? b = s.arena? b :=
      arena?_updateBridge_of_same (f := (·.record .removeSlot)) (fun _ => rfl) s b b
    have hcall : (s.record b .removeSlot).inCall b = s.inCall b := rfl
    unfold teardownStep removeSlot
    dsimp only at htaken ⊢
    rw [hcall]
    cases hi : s.inCall b with
    | true =>
      rw [hi, if_pos rfl] at htaken
      exact .stays htaken
        ((arena?_updateBridge_of_same (f := (·.defer slot)) (fun _ => rfl) ..).trans
        hrecord)
    | false =>
      rw [hi, if_neg Bool.false_ne_true] at htaken
      exact shrinks_unpin hrecord htaken
  | nil =>
    dsimp only [Session.pinned] at htaken
    unfold teardownStep
    dsimp only
    split
    · next hbr =>
      rw [hbr] at htaken
      exact .stays htaken rfl
    · next br hbr =>
      rw [hbr] at htaken
      refine .drains htaken (by rw [arena?, hbr]; rfl) ?_
      exact (arena?_updateBridge ..).trans (by rw [if_pos rfl, hbr]; rfl)

/-- **The arena of a bridge whose engine has gone only loses entries**, and those it loses are let
go of, unless nothing uses the bridge. -/
theorem Goes.shrinks (h : Goes s s') (hr : Retired b s) : Shrinks b s s' := by
  have hplain : ∀ {t}, Stride s t → (∀ slots, s.control ≠ .drain b slots) →
      (∀ slots, s.control ≠ .teardown b slots) → Shrinks b s t := fun hs hdrain htear =>
    hs.shrinks hr (hr.takenFrom_eq_nil hdrain htear) hdrain htear
  cases h.happens with
  | works hc h =>
    exact h ▸ hplain (stride_engineStep hc) (by rw [hc]; nofun) (by rw [hc]; nofun)
  | tidies hc h => exact shrinks_tidy? hc h
  | turns hc hf hs h =>
    exact h ▸ (hplain hs (by rw [hc]; nofun) (by rw [hc]; nofun)).congr (arena?_lettingGo ..)
  | @proceeds t hengine ht hp h =>
    refine h ▸ Shrinks.congr ?_ (arena?_lettingGo s t)
    by_cases hdrain : ∃ slots, s.control = .drain b slots
    · obtain ⟨slots, hc⟩ := hdrain
      rw [proceed?, hc] at hp
      cases hp
      exact shrinks_drainStep ht hc
    · by_cases htear : ∃ slots, s.control = .teardown b slots
      · obtain ⟨slots, hc⟩ := htear
        rw [proceed?, hc] at hp
        cases hp
        exact shrinks_teardownStep ht hc
      · exact hplain (stride_proceed? hp) (not_exists.1 hdrain) (not_exists.1 htear)

/-- What is taken out of the arena of a bridge that is still used, and what is left in it, are what
was in it before. -/
lemma Shrinks.perm (h : Shrinks b s s') (hu : s.uses b = true) :
    (s.takenFrom b ++ s'.pinned b).Perm (s.pinned b) := by
  rw [pinned_eq, pinned_eq]
  cases h with
  | stays ht h =>
    rw [ht, h]
    exact .refl _
  | takes ht ha h ha' =>
    rw [ht, ha, ha']
    exact (Arena.perm_values_take h).symm
  | drains ht ha ha' =>
    rw [ht, ha, ha']
    exact .of_eq (List.append_nil _)
  | vanishes hu' =>
    rw [hu] at hu'
    cases hu'

/-- Nothing is in the arena of a bridge. -/
def Emptied (b : Nat) (s : Session) : Prop :=
  ∀ a, s.arena? b = some a → a.cells = [] ∧ a.used = 0

lemma Emptied.pinned (h : Emptied b s) : s.pinned b = [] := by
  rw [pinned_eq]
  cases ha : s.arena? b with
  | none => rfl
  | some a =>
    rw [Option.elim_some, Arena.values, (h a ha).1]
    rfl

lemma Shrinks.emptied (h : Shrinks b s s') (he : Emptied b s) : Emptied b s' := by
  intro a' ha'
  cases h with
  | stays ht h => exact he a' (h ▸ ha')
  | @takes a a'' slot entry ht ha h ha'' =>
    have hget := Arena.get?_of_take h
    rw [Arena.get?, Arena.entryAt?, (he a ha).1] at hget
    split at hget <;> cases hget
  | drains ht ha ha'' =>
    rw [ha''] at ha'
    cases ha'
    exact ⟨rfl, rfl⟩
  | vanishes hu ht ha ha'' =>
    rw [ha''] at ha'
    cases ha'
    exact ⟨rfl, rfl⟩

end ScriptBridge.Session
