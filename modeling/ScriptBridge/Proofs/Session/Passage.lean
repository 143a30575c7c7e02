/-
# How operations come to their end

An operation that starts where nothing is left to let go of, and whose engine comes to its end by
itself, comes to its end: until then nothing stops being referred to, so nothing else is done
in between, and slots that script lets go of meanwhile are only deferred.
-/
import ScriptBridge.Proofs.Engine.Alone
import ScriptBridge.Proofs.Session.History

namespace ScriptBridge

open ScriptBridge.Bridge ScriptBridge.Host ScriptBridge.Table ScriptBridge.Wire

/-! ### References among values -/

namespace Host.HostValue

variable {vs ws : List HostValue}

lemma mem_referencesOf_of_subset {v : HostValue} (h : vs ⊆ ws) (hv : v ∈ referencesOf vs) :
    v ∈ referencesOf ws := by
  rw [referencesOf_eq_flatMap, List.mem_flatMap] at hv ⊢
  exact hv.imp fun w hw => ⟨h hw.1, hw.2⟩

/-- Values that refer to nothing do not matter. -/
lemma referencesOf_subset (h : ∀ v ∈ vs, v.references = [] ∨ v ∈ ws) :
    referencesOf vs ⊆ referencesOf ws := by
  intro w hw
  obtain ⟨v, hv, hwv⟩ := mem_referencesOf.1 hw
  rcases h v hv with hnone | hmem
  · rw [hnone] at hwv
    cases hwv
  · exact mem_referencesOf.2 ⟨v, hmem, hwv⟩

end Host.HostValue

/-! ### Entries that stay -/

namespace Table.Arena

variable {α : Type} {a a' : Arena α} {slots : List Slot} {v : α}

lemma mem_values (hr : a.IsRegular) : v ∈ a.values ↔ ∃ s, a.get? s = some v := by
  rw [← filterMap_get?_occupied hr, List.mem_filterMap]
  refine exists_congr fun s => and_iff_right_of_imp fun hs => mem_occupied.2 ?_
  rw [hs]
  rfl

/-- Handing out slots keeps all entries. -/
lemma Mints.values_subset (h : a.Mints a' slots) (hr : a.IsRegular) : a.values ⊆ a'.values := by
  intro v hv
  obtain ⟨s, hs⟩ := (mem_values hr).1 hv
  refine (mem_values (h.regular hr)).2 ⟨s, ?_⟩
  rw [h.kept s fun hm => by
    have hnone := (h.fresh s hm).1
    rw [hs] at hnone
    cases hnone]
  exact hs

end Table.Arena

namespace Session

variable {s s' s'' : Session} {b c : Nat} {e e' : Engine} {v : HostValue} {a a' : Arena Entry}
  {q : List Slot} {r : Record} {op : Operation} {w : Engine.Operation} {l : List Frame}
  {crossing : Crossing}

/-- A program goes from one state to another by itself. -/
abbrev Proceeds : Session → Session → Prop :=
  Relation.ReflTransGen fun s s' => s.step? = some s'

/-- A program goes from one state to another by itself, and something holds of all states until
then. -/
abbrev ProceedsWhile (p : Session → Prop) : Session → Session → Prop :=
  Relation.ReflTransGen fun s s' => p s ∧ s.step? = some s'

lemma ProceedsWhile.proceeds {p : Session → Prop} (h : ProceedsWhile p s s') : Proceeds s s' :=
  h.lift id fun _ _ hstep => hstep.2

lemma ProceedsWhile.mono {p p' : Session → Prop} (h : ProceedsWhile p s s')
    (hp : ∀ s, p s → p' s) : ProceedsWhile p' s s' :=
  h.lift id fun _ _ hstep => ⟨hp _ hstep.1, hstep.2⟩

/-- The outcome that is about to be given to what waits for it. -/
def outcome? (s : Session) : Option Outcome :=
  match s.control with
  | .done r => some r
  | _ => none

/-- The engine of a bridge is at work, and something holds of it. -/
def Working (b : Nat) (p : Engine → Prop) (s : Session) : Prop :=
  s.control = .engine b ∧ ∃ e, s.engine? b = some e ∧ p e

lemma Working.outcome?_eq_none {p : Engine → Prop} (h : Working b p s) :
    s.outcome? = none := by
  rw [outcome?, h.1]

/-! ### Nothing to let go of -/

/-- What is about to be used, or will be soon, is referred to. -/
lemma subset_values {l rest : List Frame} (hs : s.frames = l ++ rest) :
    s.control.values ++ l.flatMap Frame.values ⊆ s.values := by
  intro v hv
  simp only [Session.values, hs, List.flatMap_append, List.mem_append] at hv ⊢
  tauto

/-- The bridges of a session are at the same stages in another one, and their arenas have kept all
entries. -/
structure Widens (s s' : Session) : Prop where
  stage : ∀ c, (s'.bridge? c).map (·.stage) = (s.bridge? c).map (·.stage)
  entries : ∀ c br br', s.bridge? c = some br → s'.bridge? c = some br' →
    br.arena.values ⊆ br'.arena.values

namespace Widens

lemma of_bridges (h : s'.bridges = s.bridges) : Widens s s' := by
  have hsame : ∀ c, s'.bridge? c = s.bridge? c := fun c => by rw [bridge?, bridge?, h]
  refine ⟨fun c => by rw [hsame], fun c br br' hbr hbr' => ?_⟩
  rw [hsame, hbr] at hbr'
  cases hbr'
  exact List.Subset.refl _

lemma trans (h₁ : Widens s s') (h₂ : Widens s' s'') : Widens s s'' where
  stage c := (h₂.stage c).trans (h₁.stage c)
  entries c br br'' hbr hbr'' := by
    obtain ⟨br', hbr'⟩ : ∃ br', s'.bridge? c = some br' := by
      have hstage := h₁.stage c
      rw [hbr] at hstage
      obtain ⟨br', hbr', -⟩ := Option.map_eq_some_iff.1 hstage
      exact ⟨br', hbr'⟩
    exact List.Subset.trans (h₁.entries c br br' hbr hbr') (h₂.entries c br' br'' hbr' hbr'')

/-- A bridge changes, but not its stage, and its arena keeps all entries. -/
lemma updateBridge {f : Bridge → Bridge} (hstage : ∀ br, (f br).stage = br.stage)
    (hentries : ∀ br, s.bridge? b = some br → br.arena.values ⊆ (f br).arena.values) :
    Widens s (s.updateBridge b f) := by
  refine ⟨fun c => ?_, fun c br br' hbr hbr' => ?_⟩
  · rw [bridge?_updateBridge]
    split
    · rw [Option.map_map]
      exact congrArg (Option.map · _) (funext hstage)
    · rfl
  · rw [bridge?_updateBridge, hbr] at hbr'
    split at hbr'
    · next heq =>
      cases hbr'
      exact hentries br (heq ▸ hbr)
    · cases hbr'
      exact List.Subset.refl _

/-- What was referred to still is, or it was about to be used. -/
lemma mem_values {g l rest : List Frame} (hw : Widens s s') (ho : s'.objects = s.objects)
    (hr : s'.registers = s.registers) (hs : s.frames = g ++ rest) (hs' : s'.frames = l ++ rest)
    (hv : v ∈ s.values) : v ∈ s.control.values ++ g.flatMap Frame.values ∨ v ∈ s'.values := by
  have harena : v ∈ s.bridges.flatMap arenaValues → v ∈ s'.bridges.flatMap arenaValues := by
    intro hm
    obtain ⟨br, hbr, hv⟩ := List.mem_flatMap.1 hm
    obtain ⟨c, hc⟩ := List.getElem?_of_mem hbr
    have hstage := hw.stage c
    rw [show s.bridge? c = some br from hc] at hstage
    obtain ⟨br', hbr', -⟩ := Option.map_eq_some_iff.1 hstage
    refine List.mem_flatMap.2 ⟨br', List.mem_of_getElem? hbr', ?_⟩
    obtain ⟨o, ho, rfl⟩ := List.mem_map.1 hv
    obtain ⟨entry, hentry, htarget⟩ := List.mem_filterMap.1 ho
    exact List.mem_map_of_mem (List.mem_filterMap.2
      ⟨entry, hw.entries c br br' hc hbr' hentry, htarget⟩)
  simp only [Session.values, hs, hs', ho, hr, List.flatMap_append, List.mem_append] at hv ⊢
  tauto

/-- All that was referred to still is. -/
lemma values_subset {g l rest : List Frame} (hw : Widens s s') (ho : s'.objects = s.objects)
    (hr : s'.registers = s.registers) (hs : s.frames = g ++ rest) (hs' : s'.frames = l ++ rest)
    (hv : s.control.values ++ g.flatMap Frame.values ⊆
      s'.control.values ++ l.flatMap Frame.values) : s.values ⊆ s'.values := by
  intro v hv'
  rcases hw.mem_values ho hr hs hs' hv' with hm | hm
  · exact subset_values hs' (hv hm)
  · exact hm

end Widens

lemma tidy?_eq_none : s.tidy? = none ↔ s.abandoned? = none ∧ s.unused? = none ∧
    s.deadLease? = none ∧ s.deadObject? = none := by
  unfold Session.tidy?
  cases s.abandoned? <;> cases s.unused? <;> cases s.deadLease? <;> simp

lemma deadLease?_of_subset (hl : s'.leases = s.leases)
    (hv : HostValue.referencesOf s.values ⊆ HostValue.referencesOf s'.values)
    (h : s.deadLease? = none) : s'.deadLease? = none := by
  refine List.find?_eq_none.2 fun f hf => ?_
  have hnone := List.find?_eq_none.1 h f (hl ▸ hf)
  simp only [Bool.not_eq_true', Bool.not_eq_false, List.any_eq_true] at hnone ⊢
  obtain ⟨g, hg, heq⟩ := hnone
  exact ⟨g, (HostValue.foreign_mem_referencesOf _).1
    (hv ((HostValue.foreign_mem_referencesOf _).2 hg)), heq⟩

lemma deadObject?_of_subset (ho : s'.objects = s.objects)
    (hv : HostValue.referencesOf s.values ⊆ HostValue.referencesOf s'.values)
    (h : s.deadObject? = none) : s'.deadObject? = none := by
  refine List.find?_eq_none.2 fun st hst => ?_
  have hnone := List.find?_eq_none.1 h st (ho ▸ hst)
  simp only [Bool.not_eq_true', Bool.not_eq_false, List.any_eq_true] at hnone ⊢
  obtain ⟨o, ho, heq⟩ := hnone
  exact ⟨o, (HostValue.object_mem_referencesOf _).1
    (hv ((HostValue.object_mem_referencesOf _).2 ho)), heq⟩

/-- What is one of some references is among them. -/
lemma isAmong_of_mem {refs : List HostValue} (h : v ∈ refs) : isAmong refs v = true := by
  cases v with
  | object o => exact List.any_eq_true.2 ⟨_, h, by simp [HostValue.asObject, HostObject.same]⟩
  | foreign f => exact List.any_eq_true.2 ⟨_, h, by simp [HostValue.asForeign]⟩
  | _ => rfl

/-- What is still referred to is not let go of. -/
lemma lettingGo_of_subset
    (h : HostValue.referencesOf s.values ⊆ HostValue.referencesOf s'.values) :
    s.lettingGo s' = s' := by
  have hlost : (HostValue.referencesOf s.values).filter
      (fun v => !isAmong (HostValue.referencesOf s'.values) v) = [] := by
    refine List.filter_eq_nil_iff.2 fun v hv => ?_
    rw [isAmong_of_mem (h hv)]
    exact Bool.false_ne_true
  unfold Session.lettingGo
  dsimp only
  rw [hlost]
  split <;> first | rfl | exact absurd rfl ‹[] = [] → False›

lemma step?_of_lettingGo (hc : ∀ b, s.control ≠ .engine b) (ht : s.tidy? = none)
    (hp : s.proceed? = some s') (hl : s.lettingGo s' = s') : s.step? = some s' := by
  unfold Session.step?
  split
  · next b hb => exact absurd hb (hc b)
  · rw [ht, hp, Option.map_some, hl]
    rfl

lemma step?_of_tidy? (hc : ∀ b, s.control ≠ .engine b) (ht : s.tidy? = some s') :
    s.step? = some s' := by
  unfold Session.step?
  split
  · next b hb => exact absurd hb (hc b)
  · rw [ht]
    rfl

/-- All that a session refers to, uses or keeps is still referred to, used or kept in another one,
which has nothing more that could be let go of. -/
structure Broadens (s s' : Session) : Prop where
  stage : ∀ c, (s'.bridge? c).map (·.stage) = (s.bridge? c).map (·.stage)
  leases : s'.leases = s.leases
  objects : s'.objects = s.objects
  keeping : ∀ b, s.frames.any (Frame.isKeeping b) = true → s'.frames.any (Frame.isKeeping b) = true
  uses : ∀ b, s.uses b = true → s'.uses b = true
  references : HostValue.referencesOf s.values ⊆ HostValue.referencesOf s'.values

namespace Broadens

lemma trans (h₁ : Broadens s s') (h₂ : Broadens s' s'') : Broadens s s'' where
  stage c := (h₂.stage c).trans (h₁.stage c)
  leases := h₂.leases.trans h₁.leases
  objects := h₂.objects.trans h₁.objects
  keeping b h := h₂.keeping b (h₁.keeping b h)
  uses b h := h₂.uses b (h₁.uses b h)
  references := List.Subset.trans h₁.references h₂.references

lemma isAt (h : Broadens s s') (b : Nat) (stage : Bridge.Stage) :
    s'.isAt b stage = s.isAt b stage := by
  have hany : ∀ t : Session, t.isAt b stage =
      ((t.bridge? b).map (·.stage)).any fun st => decide (st = stage) := fun t => by
    rw [Option.any_map]
    rfl
  rw [hany, hany, h.stage]

lemma bridgeAt? (h : Broadens s s') {stage : Bridge.Stage} {p p' : Nat → Bool}
    (hp : ∀ b, p' b = true → p b = true) (hs : s.bridgeAt? stage p = none) :
    s'.bridgeAt? stage p' = none := by
  refine List.find?_eq_none.2 fun b hb => ?_
  rw [h.isAt, Bool.and_eq_true]
  rintro ⟨hat, hp'⟩
  have hb' : b ∈ List.range s.bridges.length := by
    rw [List.mem_range]
    by_contra hle
    rw [Session.isAt, bridge?, List.getElem?_eq_none (Nat.le_of_not_lt hle)] at hat
    cases hat
  have hnone := List.find?_eq_none.1 hs b hb'
  rw [Bool.and_eq_true] at hnone
  exact hnone ⟨hat, hp b hp'⟩

lemma abandoned? (h : Broadens s s') (hs : s.abandoned? = none) : s'.abandoned? = none :=
  h.bridgeAt? (fun b hb => by
    rw [Bool.not_eq_true', ← Bool.not_eq_true] at hb ⊢
    exact fun hk => hb (h.keeping b hk)) hs

lemma unused? (h : Broadens s s') (hs : s.unused? = none) : s'.unused? = none :=
  h.bridgeAt? (fun b hb => by
    rw [Bool.not_eq_true', ← Bool.not_eq_true] at hb ⊢
    exact fun hu => hb (h.uses b hu)) hs

/-- **Where nothing was left to let go of, nothing is.** -/
theorem tidy? (h : Broadens s s') (hs : s.tidy? = none) : s'.tidy? = none := by
  obtain ⟨habandoned, hunused, hlease, hobject⟩ := tidy?_eq_none.1 hs
  exact tidy?_eq_none.2 ⟨h.abandoned? habandoned, h.unused? hunused,
    deadLease?_of_subset h.leases h.references hlease,
    deadObject?_of_subset h.objects h.references hobject⟩

lemma lettingGo (h : Broadens s s') : s.lettingGo s' = s' :=
  lettingGo_of_subset h.references

/-- A step after which all is still referred to, used and kept. -/
lemma step? (h : Broadens s s') (hc : ∀ b, s.control ≠ .engine b) (ht : s.tidy? = none)
    (hp : s.proceed? = some s') : s.step? = some s' := step?_of_lettingGo hc ht hp h.lettingGo

/-- Frames give way to others, and what was about to be used is still referred to. -/
lemma of_references {g l rest : List Frame} (hw : Widens s s') (hl : s'.leases = s.leases)
    (ho : s'.objects = s.objects) (hr : s'.registers = s.registers)
    (hs : s.frames = g ++ rest) (hs' : s'.frames = l ++ rest)
    (hk : ∀ f ∈ g, ∀ c, f.isKeeping c = false)
    (hv : HostValue.referencesOf (s.control.values ++ g.flatMap Frame.values) ⊆
      HostValue.referencesOf s'.values)
    (hu : ∀ c, s.control.bridge? = some c ∨ (∃ f ∈ g, f.bridge? = some c) →
      s'.uses c = true) : Broadens s s' where
  stage := hw.stage
  leases := hl
  objects := ho
  keeping c hc := by
    rw [hs, List.any_append, Bool.or_eq_true] at hc
    rw [hs', List.any_append, Bool.or_eq_true]
    refine hc.imp_left fun hany => ?_
    obtain ⟨f, hf, hfc⟩ := List.any_eq_true.1 hany
    rw [hk f hf c] at hfc
    cases hfc
  uses c hc := by
    rw [Session.uses, hs, List.any_append, Bool.or_eq_true, Bool.or_eq_true,
      decide_eq_true_iff] at hc
    rcases hc with hc | hc | hc
    · exact hu c (.inl hc)
    · obtain ⟨f, hf, hfc⟩ := List.any_eq_true.1 hc
      exact hu c (.inr ⟨f, hf, of_decide_eq_true hfc⟩)
    · rw [Session.uses, hs', List.any_append, hc, Bool.or_true, Bool.or_true]
  references v hv' := by
    rw [HostValue.mem_referencesOf] at hv'
    obtain ⟨w, hw', hvw⟩ := hv'
    rcases hw.mem_values ho hr hs hs' hw' with hm | hm
    · exact hv (HostValue.mem_referencesOf.2 ⟨w, hm, hvw⟩)
    · exact HostValue.mem_referencesOf.2 ⟨w, hm, hvw⟩

/-- Frames give way to others, and those and what is to be done keep all that was about to be
used. -/
lemma of_frames {g l rest : List Frame} (hw : Widens s s') (hl : s'.leases = s.leases)
    (ho : s'.objects = s.objects) (hr : s'.registers = s.registers)
    (hs : s.frames = g ++ rest) (hs' : s'.frames = l ++ rest)
    (hk : ∀ f ∈ g, ∀ c, f.isKeeping c = false)
    (hv : s.control.values ++ g.flatMap Frame.values ⊆
      s'.control.values ++ l.flatMap Frame.values)
    (hu : ∀ c, s.control.bridge? = some c ∨ (∃ f ∈ g, f.bridge? = some c) →
      s'.uses c = true) : Broadens s s' :=
  .of_references hw hl ho hr hs hs' hk (fun _ => HostValue.mem_referencesOf_of_subset
    (List.Subset.trans hv (subset_values hs'))) hu

end Broadens

/-! ### How an operation starts -/

/-- An operation has started, and frames keep what it was given. -/
structure Launched (s : Session) (b : Nat) (e : Engine) (a : Arena Entry) (w : Engine.Operation)
    (l : List Frame) (s' : Session) : Prop where
  step : s.step? = some s'
  broadens : Broadens s s'
  control : s'.control = .engine b
  frames : s'.frames = .running b .value :: .scope b :: (l ++ s.frames)
  core : ∃ q, s'.core? b = some ⟨some (e.enter w), a, q⟩
  nextLease : s'.nextLease = s.nextLease

/-- An engine starts an operation within a scope. -/
lemma Launched.of_startEngine {t : Session} (hc : s.control = .operate b op)
    (ht : s.tidy? = none) (hv : op.values ⊆ l.flatMap Frame.values)
    (hop : s.operateStep b op = t.startEngine b .value e w) (hw : Widens s t)
    (hl : t.leases = s.leases) (ho : t.objects = s.objects) (hr : t.registers = s.registers)
    (hn : t.nextLease = s.nextLease) (hs : t.frames = .scope b :: (l ++ s.frames))
    (hcore : t.core? b = some ⟨some e, a, q⟩) :
    Launched s b e a w l (t.startEngine b .value e w) := by
  have hframes : (t.startEngine b .value e w).frames =
      (.running b .value :: .scope b :: l) ++ s.frames := by
    rw [List.cons_append, List.cons_append, ← hs]
    rfl
  have hbroadens : Broadens s (t.startEngine b .value e w) := by
    have hentered : Widens t (t.updateBridge b ({ · with engine := some (e.enter w) })) :=
      .updateBridge (fun _ => rfl) fun br _ => List.Subset.refl _
    refine .of_frames (g := []) ((hw.trans hentered).trans (.of_bridges rfl)) hl ho hr rfl hframes
      nofun ?_ fun c hc' => ?_
    · rw [hc, List.flatMap_nil, List.append_nil]
      exact fun v hm => List.mem_append_right _ (hv hm)
    · rw [hc] at hc'
      rcases hc' with hc' | ⟨f, hf, -⟩
      · cases hc'
        simp [uses, startEngine, goto, Control.bridge?]
      · cases hf
  refine ⟨hbroadens.step? (fun c h => by rw [hc] at h; cases h) ht ?_, hbroadens, rfl,
    hframes, ⟨q, ?_⟩,
    hn⟩
  · rw [proceed?, hc, ← hop]
  · change (t.updateBridge b ({ · with engine := some (e.enter w) })).core? b = _
    rw [core?_updateBridge (g := fun k => { k with engine := some (e.enter w) }) (fun _ => rfl),
      if_pos rfl, hcore]
    rfl

/-- An operation starts that sends no value. -/
lemma launched_call (hc : s.control = .operate b op) (ht : s.tidy? = none)
    (hcore : s.core? b = some ⟨some e, a, q⟩) (hv : op.values ⊆ l.flatMap Frame.values)
    (hop : s.operateStep b op = ({ s with frames := l ++ s.frames } : Session).call b crossing w) :
    ∃ s', Launched s b e a w l s' := by
  let t : Session :=
    (({ s with frames := l ++ s.frames } : Session).record b crossing).push (.scope b)
  have hcore' : t.core? b = some ⟨some e, a, q⟩ := ((same_record s b crossing).core b).trans hcore
  have hw : Widens s (s.record b crossing) :=
    .updateBridge (fun _ => rfl) fun br _ => List.Subset.refl _
  refine ⟨_, .of_startEngine (t := t) hc ht hv ?_ (hw.trans (.of_bridges rfl)) rfl rfl rfl rfl rfl
    hcore'⟩
  rw [hop]
  have hengine : t.engine? b = some e := by
    rw [engine?_eq, hcore']
    rfl
  unfold call
  dsimp only
  rw [hengine]

/-- An operation starts that sends a value. -/
lemma launched_exchange {f : Record → Engine.Operation} (hc : s.control = .operate b op)
    (ht : s.tidy? = none) (hcore : s.core? b = some ⟨some e, a, q⟩)
    (hv : op.values ⊆ l.flatMap Frame.values) (hregular : a.IsRegular)
    (hencode : encode b a v = (.ok r, a'))
    (hop : s.operateStep b op =
      ({ s with frames := l ++ s.frames } : Session).exchange b crossing v f) :
    ∃ s', Launched s b e a' (f r) l s' := by
  have hmints := mints_encode b a v
  rw [hencode] at hmints
  let t₁ : Session :=
    (({ s with frames := l ++ s.frames } : Session).record b crossing).push (.scope b)
  let t : Session := t₁.updateBridge b ({ · with arena := a' })
  have hcore₁ : t₁.core? b = some ⟨some e, a, q⟩ := ((same_record s b crossing).core b).trans hcore
  obtain ⟨br, hbr, hcores⟩ := bridge?_of_core? hcore₁
  obtain ⟨hengine, harena, -⟩ : br.engine = some e ∧ br.arena = a ∧ br.deferred = q := by
    simpa [Bridge.core] using hcores
  have hcore' : t.core? b = some ⟨some e, a', q⟩ := by
    rw [core?_updateBridge (g := fun k => { k with arena := a' }) (fun _ => rfl),
      if_pos rfl, hcore₁]
    rfl
  have hrecord : Widens s (s.record b crossing) :=
    .updateBridge (fun _ => rfl) fun br _ => List.Subset.refl _
  have hw₁ : Widens s t₁ := hrecord.trans (.of_bridges rfl)
  have hw : Widens t₁ t := .updateBridge (fun _ => rfl) fun br' hbr' => by
    obtain rfl : br' = br := Option.some.inj (hbr'.symm.trans hbr)
    rw [harena]
    exact hmints.values_subset hregular
  refine ⟨_, .of_startEngine (t := t) hc ht hv ?_ (hw₁.trans hw) rfl rfl rfl rfl rfl hcore'⟩
  rw [hop]
  unfold exchange
  dsimp only
  rw [show t₁.bridge? b = some br from hbr]
  dsimp only
  rw [hengine]
  dsimp only
  rw [harena, hencode]

/-! ### How its engine works -/

/-- Only the engine of a bridge has worked, and slots have been deferred. -/
structure Drives (s s' : Session) : Prop where
  types : s'.types = s.types
  widens : Widens s s'
  leases : s'.leases = s.leases
  objects : s'.objects = s.objects
  registers : s'.registers = s.registers
  nextLease : s'.nextLease = s.nextLease
  frames : s'.frames = s.frames
  control : s'.control = s.control

lemma Drives.refl (s : Session) : Drives s s := ⟨rfl, .of_bridges rfl, rfl, rfl, rfl, rfl, rfl, rfl⟩

lemma Drives.trans (h₁ : Drives s s') (h₂ : Drives s' s'') : Drives s s'' where
  types := h₂.types.trans h₁.types
  widens := h₁.widens.trans h₂.widens
  leases := h₂.leases.trans h₁.leases
  objects := h₂.objects.trans h₁.objects
  registers := h₂.registers.trans h₁.registers
  nextLease := h₂.nextLease.trans h₁.nextLease
  frames := h₂.frames.trans h₁.frames
  control := h₂.control.trans h₁.control

lemma drives_updateBridge {f : Bridge → Bridge} (hstage : ∀ br, (f br).stage = br.stage)
    (harena : ∀ br, (f br).arena = br.arena) : Drives s (s.updateBridge b f) :=
  ⟨rfl, .updateBridge hstage fun br _ => by rw [harena]; exact List.Subset.refl _, rfl, rfl, rfl,
    rfl, rfl, rfl⟩

/-- One step of an engine that does not turn to the host, within an operation. -/
lemma drives_step (hc : s.control = .engine b) (hi : s.inCall b = true)
    (hcore : s.core? b = some ⟨some e, a, q⟩) (he : Engine.Continues e e') :
    ∃ s' q', s.step? = some s' ∧ Drives s s' ∧ s'.core? b = some ⟨some e', a, q'⟩ := by
  obtain ⟨heq, hturn⟩ := he
  let t : Session := s.updateBridge b ({ · with engine := some e' })
  have ht : Drives s t := drives_updateBridge (fun _ => rfl) fun _ => rfl
  have hcore' : t.core? b = some ⟨some e', a, q⟩ := by
    rw [core?_updateBridge (g := fun k => { k with engine := some e' }) (fun _ => rfl), if_pos rfl,
      hcore]
    rfl
  have hstep : s.step? = some (s.engineStep b) := by rw [step?, hc]
  have hengine : s.engine? b = some e := by
    rw [engine?_eq, hcore]
    rfl
  have hsilent : e.step.2 = .silent → s.engineStep b = t := fun hev => by
    unfold engineStep
    rw [hengine]
    dsimp only
    rw [hev, heq]
  cases hev : e.step.2 with
  | silent =>
    rw [hsilent hev] at hstep
    exact ⟨t, q, hstep, ht, hcore'⟩
  | removed slot =>
    have hdefer : s.engineStep b =
        (((t.record b .removeSlot).updateBridge b (·.defer slot)).goto (.engine b)) := by
      have hin : (t.record b .removeSlot).inCall b = true := hi
      unfold engineStep
      rw [hengine]
      dsimp only
      rw [hev, heq]
      dsimp only
      rw [removeSlot, if_pos hin]
    rw [hdefer] at hstep
    have hrecord : Drives t (t.record b .removeSlot) :=
      drives_updateBridge (fun _ => rfl) fun _ => rfl
    have hdriven : Drives (t.record b .removeSlot)
        ((t.record b .removeSlot).updateBridge b (·.defer slot)) :=
      drives_updateBridge (fun _ => rfl) fun _ => rfl
    refine ⟨_, q ++ [slot], hstep, ?_, ?_⟩
    · have hall := (ht.trans hrecord).trans hdriven
      exact ⟨hall.types, hall.widens.trans (.of_bridges rfl), hall.leases, hall.objects,
        hall.registers, hall.nextLease, hall.frames, hc.symm⟩
    · have hcore₁ := ((same_record t b .removeSlot).core b).trans hcore'
      change ((t.record b .removeSlot).updateBridge b (·.defer slot)).core? b = _
      rw [core?_updateBridge (g := fun k => { k with deferred := k.deferred ++ [slot] })
        (fun _ => rfl), if_pos rfl, hcore₁]
      rfl
  | request r => rw [hev] at hturn; cases hturn
  | finished r => rw [hev] at hturn; cases hturn

/-- **An engine that gets somewhere by itself gets there within an operation.** -/
theorem drives_runs {p : Engine → Prop} (hruns : Engine.RunsWhile p e e')
    (hc : s.control = .engine b) (hi : s.inCall b = true)
    (hcore : s.core? b = some ⟨some e, a, q⟩) :
    ∃ s' q', ProceedsWhile (fun t => Working b p t ∧ t.frames = s.frames) s s' ∧ Drives s s' ∧
      s'.core? b = some ⟨some e', a, q'⟩ := by
  induction hruns using Relation.ReflTransGen.head_induction_on generalizing s q with
  | refl => exact ⟨s, q, .refl, .refl s, hcore⟩
  | @head e e₁ hstep _ ih =>
    obtain ⟨hp, hstep⟩ := hstep
    have hworking : Working b p s := ⟨hc, e, engine?_of_core? hcore, hp⟩
    obtain ⟨s₁, q₁, hstep₁, hdrives₁, hcore₁⟩ := drives_step hc hi hcore hstep
    have hi₁ : s₁.inCall b = true := by
      rw [inCall, hdrives₁.frames]
      exact hi
    obtain ⟨s₂, q₂, hsteps₂, hdrives₂, hcore₂⟩ := ih (hdrives₁.control.trans hc) hi₁ hcore₁
    have hsteps₂ := hsteps₂.mono fun t ht => ht.imp_right (·.trans hdrives₁.frames)
    exact ⟨s₂, q₂, .head ⟨⟨hworking, rfl⟩, hstep₁⟩ hsteps₂, hdrives₁.trans hdrives₂, hcore₂⟩

/-- Nothing stops being referred to while only an engine works. -/
lemma Drives.broadens (h : Drives s s') (hc : s.control = .engine b) : Broadens s s' := by
  refine .of_frames (g := []) (l := []) h.widens h.leases h.objects h.registers rfl h.frames nofun
    ?_ ?_
  · rw [hc]
    exact nofun
  · rintro c (hc' | ⟨f, hf, -⟩)
    · rw [hc] at hc'
      cases hc'
      simp [uses, h.control, hc, Control.bridge?]
    · cases hf

/-! ### How an operation ends -/

/-- What comes of a record, as the outcome of an operation. -/
def outcomeOf : Except Fault HostValue → Outcome
  | .ok v => .ok v
  | .error f => .error (.operation (f.error []))

/-- The end of an operation within its scope, of which nothing is left to do. -/
structure Concluded (s : Session) (b : Nat) (rest : List Frame) (r : Outcome) (e : Engine)
    (a : Arena Entry) (s' : Session) : Prop where
  proceeds : ProceedsWhile (·.outcome? = none) s s'
  broadens : Broadens s s'
  control : s'.control = .done r
  frames : s'.frames = rest
  core : ∃ q, s'.core? b = some ⟨some e, a, q⟩

/-- Taking what an engine has come to keeps all that was referred to, if what is about to be done
then does. -/
lemma broadens_finished {rest : List Frame} {p : Purpose} {ctl : Control}
    (hc : s.control = .engine b) (hf : s.frames = .running b p :: rest) (hv : p.values ⊆ ctl.values)
    (hu : ctl.bridge? = some b ∨ ∃ f ∈ rest, f.bridge? = some b) :
    Broadens s (({ s.updateBridge b ({ · with engine := some e }) with frames := rest } :
      Session).goto ctl) := by
  have hdrives : Drives s (s.updateBridge b ({ · with engine := some e })) :=
    drives_updateBridge (fun _ => rfl) fun _ => rfl
  refine .of_frames (g := [.running b p]) (l := []) (hdrives.widens.trans (.of_bridges rfl)) rfl rfl
    rfl hf rfl (List.forall_mem_singleton.2 fun _ => rfl) ?_ fun c hc' => ?_
  · rw [hc, List.flatMap_singleton, List.flatMap_nil, List.append_nil]
    exact hv
  · obtain rfl : b = c := by
      rw [hc] at hc'
      rcases hc' with hc' | ⟨f, hm, hf⟩
      · exact Option.some.inj hc'
      · obtain rfl := List.mem_singleton.1 hm
        exact Option.some.inj hf
    rw [uses, Bool.or_eq_true, decide_eq_true_iff, List.any_eq_true]
    exact hu.imp_right fun ⟨f, hf, hb⟩ => ⟨f, hf, decide_eq_true hb⟩

/-- The engine of an operation has come to its end, and its record is taken. -/
lemma step_finished {rest : List Frame} {c : Engine.Control} {stack : List Engine.Frame}
    (hc : s.control = .engine b) (hf : s.frames = .running b .value :: rest)
    (hcore : s.core? b = some ⟨some e, a, q⟩) (hclean : e.Clean) (hr : e.control = .encoded r)
    (hs : e.stack = .entry c :: stack) :
    ∃ s', s.step? = some s' ∧ Broadens s s' ∧ s'.control = .decode b r ∧ s'.frames = rest ∧
      s'.nextLease = s.nextLease ∧
      s'.core? b = some ⟨some { e with stack := stack, control := c }, a, q⟩ := by
  let e' : Engine := { e with stack := stack, control := c }
  have hstep : e.step = (e', .finished r) := by
    rw [hclean.step_eq]
    simp only [Engine.proceed, hr, Engine.popWith, hs]
    rfl
  let t : Session := s.updateBridge b ({ · with engine := some e' })
  have hengine : s.engine? b = some e := by
    rw [engine?_eq, hcore]
    rfl
  have heq : s.engineStep b = { t with frames := rest, control := .decode b r } := by
    unfold engineStep
    rw [hengine]
    dsimp only
    rw [hstep]
    dsimp only
    unfold takeFinished
    rw [show (s.updateBridge b ({ · with engine := some e' })).frames = _ from hf]
    rfl
  refine ⟨{ t with frames := rest, control := .decode b r }, ?_,
    broadens_finished hc hf (by rintro _ ⟨⟩) (.inl rfl), rfl, rfl, rfl, ?_⟩
  · rw [step?, hc, ← heq]
  · change t.core? b = _
    rw [core?_updateBridge (g := fun k => { k with engine := some e' }) (fun _ => rfl), if_pos rfl,
      hcore]
    rfl

/-- A record is decoded. -/
lemma step_decoded {tasks : List Task} {result : Except Fault HostValue} {n : Nat} {k : Core}
    (hc : s.control = .decode b r) (ht : s.tidy? = none) (hcore : s.core? b = some k)
    (hdecode : decode b k.arena s.nextLease r = ⟨result, tasks, n⟩) :
    s.step? = some { s with nextLease := n, control := .perform b tasks [] result } ∧
      Broadens s { s with nextLease := n, control := .perform b tasks [] result } := by
  obtain ⟨br, hbr, rfl⟩ := bridge?_of_core? hcore
  have heq : s.decodeStep b r =
      { s with nextLease := n, control := .perform b tasks [] result } := by
    unfold decodeStep
    rw [hbr]
    dsimp only
    rw [show decode b br.arena s.nextLease r = _ from hdecode]
  have hbroadens : Broadens s { s with nextLease := n, control := .perform b tasks [] result } := by
    refine .of_frames (g := []) (l := []) (.of_bridges rfl) rfl rfl rfl rfl rfl nofun ?_ ?_
    · rw [hc]
      exact nofun
    · rintro c (hc' | ⟨f, hf, -⟩)
      · rw [hc] at hc'
        cases hc'
        simp [uses, Control.bridge?]
      · cases hf
  exact ⟨hbroadens.step? (by rw [hc]; exact nofun) ht
    (by rw [proceed?, hc]; exact congrArg some heq),
    hbroadens⟩

/-- A record that leaves nothing to do is decoded, and what it stands for is the outcome. -/
lemma exists_performed {result : Except Fault HostValue} {n : Nat} {k : Core}
    (hc : s.control = .decode b r) (hscope : .scope b ∈ s.frames) (ht : s.tidy? = none)
    (hcore : s.core? b = some k) (hdecode : decode b k.arena s.nextLease r = ⟨result, [], n⟩)
    (hforeigns : ∀ v, result = .ok v → v.foreigns = []) :
    ∃ s₁ s₂, s.step? = some s₁ ∧ s₁.step? = some s₂ ∧
      s₁.control = .perform b [] [] result ∧ s₁.frames = s.frames ∧ Broadens s s₂ ∧
      s₂.control = .done (outcomeOf result) ∧ s₂.frames = s.frames ∧ s₂.core? b = some k := by
  obtain ⟨hstep₁, hbroadens₁⟩ := step_decoded hc ht hcore hdecode
  -- The outcome is there.
  let s₁ : Session := { s with nextLease := n, control := .perform b [] [] result }
  let s₂ : Session := { s₁ with control := .done (outcomeOf result) }
  have hbroadens₂ : Broadens s₁ s₂ := by
    refine .of_frames (g := []) (l := []) (.of_bridges rfl) rfl rfl rfl rfl rfl nofun ?_ ?_
    · cases result <;> exact fun v hv => hv
    · rintro c (hc | ⟨f, hf, -⟩)
      · cases hc
        rw [Session.uses, Bool.or_eq_true]
        exact .inr (List.any_eq_true.2 ⟨.scope b, hscope, decide_eq_true rfl⟩)
      · cases hf
  have hperform : s₁.performStep b [] [] result = s₂ := by
    cases result with
    | ok v =>
      rw [performStep, hforeigns v rfl, List.append_nil]
      rfl
    | error f => rfl
  have hstep₂ : s₁.step? = some s₂ :=
    hbroadens₂.step? nofun (hbroadens₁.tidy? ht) (congrArg some hperform)
  exact ⟨s₁, s₂, hstep₁, hstep₂, rfl, rfl, hbroadens₁.trans hbroadens₂, rfl, rfl, hcore⟩

/-- **An operation comes to its end.**  Once its engine has come to its end, with a record that
leaves nothing to do and names no script object, what the record stands for is the outcome. -/
theorem exists_concluded {rest : List Frame} {c : Engine.Control} {stack : List Engine.Frame}
    {result : Except Fault HostValue} {n : Nat} (hc : s.control = .engine b)
    (hf : s.frames = .running b .value :: rest) (hscope : .scope b ∈ rest) (ht : s.tidy? = none)
    (hcore : s.core? b = some ⟨some e, a, q⟩) (hclean : e.Clean) (hr : e.control = .encoded r)
    (hs : e.stack = .entry c :: stack) (hdecode : decode b a s.nextLease r = ⟨result, [], n⟩)
    (hforeigns : ∀ v, result = .ok v → v.foreigns = []) :
    ∃ s', Concluded s b rest (outcomeOf result) { e with stack := stack, control := c } a s' := by
  obtain ⟨s₁, hstep₁, hbroadens₁, hc₁, hf₁, hlease₁, hcore₁⟩ :=
    step_finished hc hf hcore hclean hr hs
  obtain ⟨s₂, s₃, hstep₂, hstep₃, hc₂, -, hbroadens₃, hc₃, hf₃, hcore₃⟩ :=
    exists_performed hc₁ (hf₁ ▸ hscope) (hbroadens₁.tidy? ht) hcore₁
      (by rw [hlease₁]; exact hdecode)
      hforeigns
  have hnone : s.outcome? = none := by rw [outcome?, hc]
  have hnone₁ : s₁.outcome? = none := by rw [outcome?, hc₁]
  have hnone₂ : s₂.outcome? = none := by rw [outcome?, hc₂]
  exact ⟨s₃, ⟨.head ⟨hnone, hstep₁⟩ (.head ⟨hnone₁, hstep₂⟩ (.single ⟨hnone₂, hstep₃⟩)),
    hbroadens₁.trans hbroadens₃, hc₃, hf₃.trans hf₁, q, hcore₃⟩⟩

/-- **An operation that starts comes to its end**, if its engine does by itself. -/
theorem Launched.exists_concluded {result : Except Fault HostValue} {n : Nat}
    (hl : Launched s b e a w l s') (hnone : s.outcome? = none) (ht : s.tidy? = none)
    (hruns : Engine.Runs (e.enter w) e')
    (hclean : e'.Clean) (hr : e'.control = .encoded r) (hs : e'.stack = .entry e.control :: e.stack)
    (hdecode : decode b a s.nextLease r = ⟨result, [], n⟩)
    (hforeigns : ∀ v, result = .ok v → v.foreigns = []) :
    ∃ s'', Concluded s b (.scope b :: (l ++ s.frames)) (outcomeOf result)
      { e' with stack := e.stack, control := e.control } a s'' := by
  obtain ⟨q, hcore⟩ := hl.core
  have hin : s'.inCall b = true := by
    rw [inCall, hl.frames]
    simp [Frame.isScope]
  obtain ⟨s₁, q₁, hsteps₁, hdrives₁, hcore₁⟩ := drives_runs hruns.always hl.control hin hcore
  have hc₁ := hdrives₁.control.trans hl.control
  have hf₁ := hdrives₁.frames.trans hl.frames
  have hbroadens := hl.broadens.trans (hdrives₁.broadens hl.control)
  obtain ⟨s₂, hsteps₂, hbroadens₂, hc₂, hf₂, hcore₂⟩ := Session.exists_concluded hc₁ hf₁
    (List.mem_cons_self ..) (hbroadens.tidy? ht) hcore₁ hclean hr hs
    (by rw [hdrives₁.nextLease, hl.nextLease]; exact hdecode) hforeigns
  have hsteps₁ := hsteps₁.mono fun _ h => h.1.outcome?_eq_none
  exact ⟨s₂, .head ⟨hnone, hl.step⟩ (hsteps₁.trans hsteps₂), hbroadens.trans hbroadens₂, hc₂, hf₂,
    hcore₂⟩

end Session

end ScriptBridge
