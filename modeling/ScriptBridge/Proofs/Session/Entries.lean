/-
# Entries that are kept

Whatever is done, the entries in the arenas stay there, or they are taken out of them and are on
their way to their end.  Until then what they refer to is referred to.  No cell is taken off the far
end of a monotonic arena, as long as its bridge has an engine.
-/
import ScriptBridge.Proofs.Bridge.Tracking
import ScriptBridge.Proofs.Session.Retired

namespace ScriptBridge

lemma Bridge.arena_describe (type : Nat) (br : Bridge) : (br.describe type).arena = br.arena := by
  unfold Bridge.describe
  split <;> rfl

namespace Session

open ScriptBridge.Bridge ScriptBridge.Host ScriptBridge.Table ScriptBridge.Wire

variable {s t u : Session} {b : Nat} {a a' : Arena Entry} {ended : List Entry} {slots : List Slot}

/-- The entries of an arena are in another one or among those that are on their way to their end,
and where the arena is monotonic no cell is taken off its far end. -/
structure Preserves (ended : List Entry) (a a' : Arena Entry) : Prop where
  entries : ∀ entry ∈ a.values, entry ∈ a'.values ∨ entry ∈ ended
  finish_le : a.policy = .monotonic → a.finish ≤ a'.finish

lemma Preserves.refl (ended : List Entry) (a : Arena Entry) : Preserves ended a a :=
  ⟨fun _ => .inl, fun _ => Nat.le_refl _⟩

lemma Preserves.of_mints (hr : a.IsRegular) (hm : a.Mints a' slots)
    (he : a.policy = .monotonic → Endures a a') : Preserves ended a a' :=
  ⟨fun _ hentry => .inl (hm.values_subset hr hentry), fun hp => (he hp).finish_le⟩

/-- The entries that are in the arenas of a session are in those of another one, or are on their way
to their end there, and no monotonic arena has become shorter. -/
def KeepsEntries (t u : Session) : Prop :=
  ∀ b a, t.arena? b = some a → ∃ a', u.arena? b = some a' ∧ Preserves u.control.entries a a'

lemma KeepsEntries.of_arena? (h : ∀ b, u.arena? b = t.arena? b) : KeepsEntries t u :=
  fun b a ha => ⟨a, (h b).trans ha, .refl _ a⟩

lemma KeepsEntries.of_same (h : Same t u) : KeepsEntries t u :=
  .of_arena? fun b => by rw [arena?_eq, arena?_eq, h.core]

/-- The arena of one bridge has changed. -/
lemma KeepsEntries.of_updateBridge {g : Bridge → Bridge}
    (hu : ∀ c, u.arena? c = (t.updateBridge b g).arena? c)
    (hg : ∀ br, t.bridge? b = some br →
      Preserves u.control.entries br.arena (g br).arena) : KeepsEntries t u := by
  intro c a ha
  rw [hu, arena?_updateBridge]
  split
  · next heq =>
    obtain ⟨br, hbr, rfl⟩ := Option.map_eq_some_iff.1 ha
    rw [hbr]
    exact ⟨_, rfl, hg br (heq ▸ hbr)⟩
  · exact ⟨a, ha, .refl _ a⟩

lemma KeepsEntries.trans_arena? {t' : Session} (h : KeepsEntries t' u)
    (ht : ∀ b, t'.arena? b = t.arena? b) : KeepsEntries t u :=
  fun b a ha => h b a ((ht b).trans ha)

/-- What the entries of the arenas refer to is still referred to. -/
lemma KeepsEntries.subset (h : KeepsEntries t u) : t.bridges.flatMap arenaValues ⊆ u.values := by
  intro v hv
  obtain ⟨br, hbr, hv⟩ := List.mem_flatMap.1 hv
  obtain ⟨b, hb⟩ := List.mem_iff_getElem?.1 hbr
  obtain ⟨o, ho, rfl⟩ := List.mem_map.1 hv
  obtain ⟨entry, hentry, htarget⟩ := List.mem_filterMap.1 ho
  obtain ⟨a, ha, hkept⟩ := h b br.arena (by rw [arena?, bridge?, hb]; rfl)
  obtain ⟨br', hbr', rfl⟩ := Option.map_eq_some_iff.1 ha
  rcases hkept.entries entry hentry with hmem | hmem
  · refine List.mem_append_right _ (List.mem_flatMap.2 ⟨br', List.mem_of_getElem? hbr', ?_⟩)
    exact List.mem_map_of_mem (List.mem_filterMap.2 ⟨entry, hmem, htarget⟩)
  · have hcontrol : HostValue.object o ∈ u.control.values := by
      generalize u.control = c at hmem
      cases c with
      | release entries => exact List.mem_map_of_mem (List.mem_filterMap.2 ⟨entry, hmem, htarget⟩)
      | _ => cases hmem
    simp only [Session.values, List.mem_append]
    exact .inl (.inl (.inl (.inl hcontrol)))

/-- The index after the last cell of the arena of a bridge. -/
def finishOf (s : Session) (b : Nat) : Nat := (s.arena? b).elim 0 Arena.finish

/-- All arenas of a session are as they should be. -/
def RegularArenas (t : Session) : Prop := ∀ b a, t.arena? b = some a → a.IsRegular

section Arenas

variable (t) (b)

lemma arena?_record (c : Crossing) (d : Nat) : (t.record b c).arena? d = t.arena? d :=
  arena?_updateBridge_of_same (f := (·.record c)) (fun _ => rfl) t b d

lemma arena?_startEngine (p : Purpose) (e : Engine) (op : Engine.Operation) (c : Nat) :
    (t.startEngine b p e op).arena? c = t.arena? c :=
  arena?_updateBridge_of_same (f := ({ · with engine := some (e.enter op) })) (fun _ => rfl) t b c

lemma arena?_call (crossing : Crossing) (op : Engine.Operation) (c : Nat) :
    (t.call b crossing op).arena? c = t.arena? c := by
  have hscope : ((t.record b crossing).push (.scope b)).arena? c = t.arena? c :=
    arena?_record t b crossing c
  unfold call
  dsimp only
  split
  · exact hscope
  · exact (arena?_startEngine ..).trans hscope

lemma arena?_describe (type c : Nat) :
    (t.updateBridge b (·.describe type)).arena? c = t.arena? c :=
  arena?_updateBridge_of_same (Bridge.arena_describe type) t b c

variable {t}

lemma keepsEntries_exchange (hr : RegularArenas t) (crossing : Crossing) (v : HostValue)
    (op : Record → Engine.Operation) : KeepsEntries t (t.exchange b crossing v op) := by
  have hscope : ∀ c, ((t.record b crossing).push (.scope b)).arena? c = t.arena? c :=
    arena?_record t b crossing
  unfold exchange
  dsimp only
  generalize (t.record b crossing).push (.scope b) = t₁ at hscope ⊢
  split
  · exact .of_arena? hscope
  · next br hbr =>
    have hregular : br.arena.IsRegular := hr b _ (by rw [← hscope, arena?, hbr]; rfl)
    have hmints := mints_encode b br.arena v
    have hkept : ∀ {u : Session}, (∀ c, u.arena? c =
        (t₁.updateBridge b ({ · with arena := (encode b br.arena v).2 })).arena? c) →
        KeepsEntries t u := fun hu =>
      (KeepsEntries.of_updateBridge hu fun br' hbr' => by
        obtain rfl := Option.some.inj (hbr.symm.trans hbr')
        exact .of_mints hregular hmints (endures_encode b · v)).trans_arena? hscope
    split
    · exact .of_arena? hscope
    · split
      · next heq => exact hkept fun c => by rw [heq]; rfl
      · next heq => exact hkept fun c => by rw [heq]; exact arena?_startEngine ..

lemma keepsEntries_operateStep (hr : RegularArenas t) (op : Operation) :
    KeepsEntries t (t.operateStep b op) := by
  have hcall : ∀ crossing op, KeepsEntries t (t.call b crossing op) := fun crossing op =>
    .of_arena? (arena?_call t b crossing op)
  cases op with
  | evaluate script => exact hcall _ _
  | getVariable name =>
    unfold operateStep
    dsimp only
    split
    · exact .of_arena? fun _ => rfl
    · exact hcall _ _
  | setVariable name v =>
    unfold operateStep
    dsimp only
    split
    · exact .of_arena? fun _ => rfl
    · exact keepsEntries_exchange b (t := t.push (.held [v])) hr _ _ _
  | member target name access =>
    unfold operateStep
    dsimp only
    split
    · exact .of_arena? fun _ => rfl
    · split
      · exact .of_arena? fun _ => rfl
      · next handle _ =>
        let t₁ := t.push (.held (access.values ++ [.foreign target]))
        cases access with
        | get => exact .of_arena? (arena?_call t₁ b _ _)
        | set v => exact keepsEntries_exchange b (t := t₁) hr _ _ _
        | invoke args => exact keepsEntries_exchange b (t := t₁) hr _ _ _
  | flush =>
    unfold operateStep
    dsimp only
    split
    · exact .of_arena? fun _ => rfl
    · exact .of_arena? (arena?_startEngine _ b _ _ _)

lemma arena?_performStep (tasks : List Task) (heard : List Heard)
    (result : Except Fault HostValue) (c : Nat) :
    (t.performStep b tasks heard result).arena? c = t.arena? c := by
  unfold performStep
  split
  · split <;> rfl
  · split
    · rfl
    · exact arena?_startEngine _ b _ _ _ c
  · split
    · rfl
    · exact arena?_startEngine _ b _ _ _ c

lemma keepsEntries_respondStep (hr : RegularArenas t) (r : Except HostError HostValue) :
    KeepsEntries t (t.respondStep b r) := by
  unfold respondStep
  split
  · exact .of_arena? fun _ => rfl
  · next v =>
    split
    · exact .of_arena? fun _ => rfl
    · next br hbr =>
      refine .of_updateBridge (fun _ => rfl) fun br' hbr' => ?_
      obtain rfl := Option.some.inj (hbr.symm.trans hbr')
      exact .of_mints (hr b _ (by rw [arena?, hbr]; rfl)) (mints_encode b br.arena v)
        (endures_encode b · v)

lemma keepsEntries_answerStep (hr : RegularArenas t) (r : Except HostError Record) :
    KeepsEntries t (t.answerStep b r) := by
  unfold answerStep
  split
  · exact .of_arena? fun _ => rfl
  · next br hbr =>
    refine .of_updateBridge (fun _ => rfl) fun br' hbr' => ?_
    obtain rfl := Option.some.inj (hbr.symm.trans hbr')
    cases r with
    | ok r => exact .refl _ _
    | error e =>
      exact .of_mints (hr b _ (by rw [arena?, hbr]; rfl)) (mints_failureRecord br.arena e)
        (endures_failureRecord · e)

lemma keepsEntries_unpin (slot : Slot) (next : Control) :
    KeepsEntries t (t.unpin b slot next) := by
  unfold unpin
  split
  · exact .of_arena? fun _ => rfl
  · next entry a htake =>
    refine .of_updateBridge (b := b) (g := ({ · with arena := a })) (fun _ => rfl) fun br hbr => ?_
    rw [hbr, Option.bind_some] at htake
    refine ⟨fun entry' hentry => ?_, fun hp => Nat.le_of_eq (Arena.finish_take hp htake).symm⟩
    have hmem := (Arena.perm_values_take htake).subset hentry
    exact (List.mem_cons.1 hmem).elim (fun heq => .inr (heq ▸ List.mem_singleton_self _)) .inl

lemma keepsEntries_removeSlot (slot : Slot) (next : Control) :
    KeepsEntries t (t.removeSlot b slot next) := by
  have hrecord : ∀ c, (t.record b .removeSlot).arena? c = t.arena? c :=
    arena?_record t b .removeSlot
  unfold removeSlot
  dsimp only
  split
  · exact .of_arena? fun c => (arena?_updateBridge_of_same (f := (·.defer slot))
      (fun _ => rfl) _ b c).trans (hrecord c)
  · exact (keepsEntries_unpin b slot _).trans_arena? hrecord

lemma keepsEntries_drainStep (slots : List Slot) : KeepsEntries t (t.drainStep b slots) := by
  cases slots with
  | cons slot rest => exact keepsEntries_unpin b slot _
  | nil =>
    unfold drainStep
    dsimp only
    split
    · exact .of_arena? fun _ => rfl
    · exact .of_arena? (arena?_updateBridge_of_same (f := ({ · with deferred := [] }))
        (fun _ => rfl) t b)

lemma keepsEntries_teardownStep (slots : List Slot) :
    KeepsEntries t (t.teardownStep b slots) := by
  cases slots with
  | cons slot rest => exact keepsEntries_removeSlot b slot _
  | nil =>
    unfold teardownStep
    dsimp only
    split
    · exact .of_arena? fun _ => rfl
    · next br hbr =>
      refine .of_updateBridge (b := b) (g := ({ · with arena := br.arena.drain.2, deferred := [] }))
        (fun _ => rfl) fun br' hbr' => ?_
      obtain rfl := Option.some.inj (hbr.symm.trans hbr')
      exact ⟨fun entry => .inr, fun hp => Nat.le_of_eq (Arena.finish_drain hp).symm⟩

lemma arena?_releaseStep (entries : List Entry) (c : Nat) :
    (t.releaseStep entries).arena? c = t.arena? c := by
  unfold releaseStep
  split
  · rfl
  · dsimp only
    split
    · rfl
    · split
      · rfl
      · split <;> split <;> rfl

lemma arena?_disposeStep (c : Nat) : (t.disposeStep b).arena? c = t.arena? c := by
  unfold disposeStep
  split
  · rfl
  · split
    · rfl
    · exact arena?_updateBridge_of_same (f := ({ · with engine := none })) (fun _ => rfl) t b c

lemma arena?_change (o : HostObject) (frame : Frame) (a : Action) (scene : Scene) (c : Nat) :
    (t.change b o frame a scene).arena? c = t.arena? c := by
  unfold change
  split <;> rfl

lemma arena?_callMethod (o : HostObject) (name : String) (v : HostValue) (c : Nat) :
    (t.callMethod b o name v).arena? c = t.arena? c := by
  have hdescribe := arena?_describe t b o.type c
  unfold callMethod
  dsimp only
  split
  · exact hdescribe
  · exact (arena?_change ..).trans hdescribe

lemma arena?_leaveScope (r : Outcome) (c : Nat) : (t.leaveScope b r).arena? c = t.arena? c := by
  unfold leaveScope
  split <;> rfl

lemma arena?_actFirst (actions : List Action) (scene : Scene) {none : Session}
    (hnone : ∀ c, none.arena? c = t.arena? c) (frame : List Action → Frame) (c : Nat) :
    (t.actFirst actions scene none frame).arena? c = t.arena? c := by
  cases actions with
  | nil => exact hnone c
  | cons a rest => rfl

lemma arena?_doneStep (frame : Frame) (r : Outcome) (c : Nat) :
    (t.doneStep frame r).arena? c = t.arena? c := by
  cases frame with
  | scope d => exact arena?_leaveScope d r c
  | assignee d o setter =>
    cases r with
    | error e => rfl
    | ok v => exact arena?_change ..
  | callee d o name =>
    cases r with
    | error e => rfl
    | ok v => exact arena?_callMethod ..
  | hook o =>
    unfold doneStep
    dsimp only
    split <;> rfl
  | sequence rest last scene =>
    cases r with
    | error e => rfl
    | ok v => exact arena?_actFirst rest scene (fun _ => rfl) _ c
  | listing rest results scene =>
    cases r with
    | error e => rfl
    | ok v => exact arena?_actFirst rest scene (fun _ => rfl) _ c
  | attempting =>
    unfold doneStep
    dsimp only
    split <;> rfl
  | _ => rfl

/-! ### Engines -/

lemma keepsEntries_readObject (hr : RegularArenas t) (o : HostObject) (name : String) :
    KeepsEntries t (t.readObject b o name) := by
  have hdescribe := arena?_describe t b o.type
  unfold readObject
  dsimp only
  generalize t.updateBridge b (·.describe o.type) = t₁ at hdescribe ⊢
  split
  · split <;> exact .of_arena? hdescribe
  · split
    · split
      · exact .of_arena? hdescribe
      · next br hbr =>
        refine KeepsEntries.trans_arena? (.of_updateBridge (t := t₁) (b := b)
          (g := ({ · with arena := (pin br.arena (.method o name)).2 })) (fun _ => rfl)
          fun br' hbr' => ?_) hdescribe
        obtain rfl := Option.some.inj (hbr.symm.trans hbr')
        exact .of_mints (hr b _ (by rw [← hdescribe, arena?, hbr]; rfl)) (mints_pin _ _)
          (endures_pin · _)
    · exact .of_arena? hdescribe

lemma keepsEntries_serve (hr : RegularArenas t) (req : Engine.Request) :
    KeepsEntries t (t.serve b req) := by
  have hrecord := arena?_record t b
  cases req with
  | get slot name =>
    unfold serve readProperty
    dsimp only
    split
    · exact .of_arena? (hrecord _)
    · exact (keepsEntries_readObject b (fun c a ha =>
        hr c a ((hrecord _ c).symm.trans ha)) _ _).trans_arena?
        (hrecord _)
    · split <;> exact .of_arena? (hrecord _)
    · split
      · exact .of_arena? (hrecord _)
      · split <;> exact .of_arena? (hrecord _)
  | set slot name r =>
    unfold serve writeProperty
    dsimp only
    split
    · exact .of_arena? (hrecord _)
    · next o _ =>
      have hdescribe := fun c =>
        (arena?_describe (t.record b .setProperty) b o.type c).trans (hrecord _ c)
      split <;> exact .of_arena? hdescribe
    · exact .of_arena? (hrecord _)
  | invoke slot r =>
    unfold serve callEntry
    dsimp only
    split <;> exact .of_arena? (hrecord _)

/-- **An engine keeps all entries**, or lets go of them next. -/
theorem keepsEntries_engineStep (hr : RegularArenas t) : KeepsEntries t (t.engineStep b) := by
  unfold engineStep
  split
  · exact .of_arena? fun _ => rfl
  · next e _ =>
    have hengine : ∀ c,
         (t.updateBridge b ({ · with engine := some e.step.1 })).arena? c = t.arena? c :=
      arena?_updateBridge_of_same (f := ({ · with engine := some e.step.1 })) (fun _ => rfl) t b
    have hr' : RegularArenas (t.updateBridge b ({ · with engine := some e.step.1 })) :=
      fun c a ha =>
      hr c a ((hengine c).symm.trans ha)
    dsimp only
    generalize t.updateBridge b ({ · with engine := some e.step.1 }) = t₁ at hengine hr' ⊢
    split
    · exact .of_arena? hengine
    · exact (keepsEntries_removeSlot b _ _).trans_arena? hengine
    · exact (keepsEntries_serve b hr' _).trans_arena? hengine
    · unfold takeFinished
      split
      · next p _ _ =>
        cases p <;> exact .of_arena? hengine
      · exact .of_arena? hengine

end Arenas

/-- **What is about to be done keeps all entries**, or lets go of them next. -/
theorem keepsEntries_proceed? (hr : RegularArenas t) (h : t.proceed? = some u) :
    KeepsEntries t u := by
  unfold proceed? at h
  split at h
  · split at h
    · cases h
    · cases h
    · cases h
      exact .of_arena? (arena?_doneStep _ _)
  · cases h
    exact .of_same (inner_actStep t _ _).same
  · cases h
    exact keepsEntries_operateStep _ hr _
  · cases h
    exact keepsEntries_engineStep _ hr
  · cases h
    unfold decodeStep
    split <;> exact .of_arena? fun _ => rfl
  · cases h
    exact .of_arena? (arena?_performStep _ _ _ _)
  · cases h
    exact keepsEntries_respondStep _ hr _
  · cases h
    exact keepsEntries_answerStep _ hr _
  · cases h
    exact keepsEntries_drainStep _ _
  · cases h
    exact .of_arena? (arena?_releaseStep _)
  · cases h
    exact .of_arena? (arena?_disposeStep _)
  · cases h
    exact keepsEntries_teardownStep _ _
  · next b _ =>
    cases h
    exact .of_arena? (arena?_updateBridge_of_same (f := ({ · with described := [] }))
      (fun _ => rfl) t b)
  · cases h
    exact .of_arena? fun _ => rfl
  · cases h
    exact .of_arena? fun _ => rfl

/-- No monotonic arena of a bridge becomes shorter, as long as there is an engine. -/
theorem finishOf_le_of_step? (hr : RegularArenas t)
    (hp : ∀ a, t.arena? b = some a → a.policy = .monotonic) (h : t.step? = some u)
    (hb : (u.engine? b).isSome) : t.finishOf b ≤ u.finishOf b := by
  have hkeeps : ∀ {v : Session}, KeepsEntries t v → u.arena? b = v.arena? b →
      t.finishOf b ≤ u.finishOf b := fun hk hv => by
    rw [finishOf, finishOf, hv]
    cases ha : t.arena? b with
    | none => exact Nat.zero_le _
    | some a =>
      obtain ⟨a', ha', hpreserves⟩ := hk b a ha
      rw [ha']
      exact hpreserves.finish_le (hp a ha)
  have hsame : u.arena? b = t.arena? b → t.finishOf b ≤ u.finishOf b :=
    hkeeps (.of_arena? fun _ => rfl)
  unfold step? at h
  split at h
  · cases h
    exact hkeeps (keepsEntries_engineStep _ hr) rfl
  · next hne =>
    cases ht : t.tidy? with
    | none =>
      rw [ht] at h
      obtain ⟨v, hv, rfl⟩ := Option.map_eq_some_iff.1 h
      exact hkeeps (keepsEntries_proceed? hr hv) (arena?_lettingGo t v)
    | some v =>
      rw [ht] at h
      obtain rfl := Option.some.inj h
      exact hsame ((arena?_tidy? ht).resolve_right fun hgone => by
        rw [hgone.2.1] at hb
        cases hb)

end Session

end ScriptBridge
