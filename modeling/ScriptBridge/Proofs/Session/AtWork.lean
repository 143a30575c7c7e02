/-
# While an operation is at work

As long as a script of an operation is at work, nothing stops being referred to: when it starts
nothing was left to let go of, and so nothing is when it ends.  Nor is its engine given up.
-/
import ScriptBridge.Proofs.Session.Teardown
import ScriptBridge.Proofs.Session.Leaks

namespace ScriptBridge.Session

open ScriptBridge.Bridge ScriptBridge.Host ScriptBridge.Table ScriptBridge.Wire

variable {s s' t u : Session} {b : Nat} {e : Engine} {a : Arena Entry} {q : List Slot} {x : Side}
  {types : List HostType} {setups : List Setup} {hist older : List Session}
  {rest : List Frame} {op : Operation} {v : HostValue} {crossing : Crossing} {p : Purpose}

/-! ### Operations that start -/

/-- What an engine is to go on with is not put off. -/
lemma eq_of_lettingGo {before : Session} (hc : (before.lettingGo t).control = .engine b) :
    before.lettingGo t = t := by
  rcases lettingGo_cases before t with heq | ⟨vs, heq⟩
  · exact heq
  · rw [heq] at hc
    cases hc

lemma control_exchange {f : Record → Engine.Operation} (hcore : s.core? b = some ⟨some e, a, q⟩)
    (hc : (s.exchange b crossing v f).control = .engine b) :
    ∃ r a', encode b a v = (.ok r, a') := by
  have hcore' : ((s.record b crossing).push (.scope b)).core? b = some ⟨some e, a, q⟩ :=
    ((same_record s b crossing).core b).trans hcore
  obtain ⟨br, hbr, hcores⟩ := bridge?_of_core? hcore'
  obtain ⟨hengine, harena, -⟩ : br.engine = some e ∧ br.arena = a ∧ br.deferred = q := by
    simpa [Bridge.core] using hcores
  rw [← harena]
  cases hencode : encode b br.arena v with
  | mk result a' =>
    cases result with
    | ok r => exact ⟨r, a', rfl⟩
    | error err =>
      unfold exchange at hc
      dsimp only at hc
      rw [hbr] at hc
      dsimp only at hc
      rw [hengine] at hc
      dsimp only at hc
      rw [hencode] at hc
      cases hc

/-- An operation that starts a script keeps all that was referred to. -/
lemma broadens_operateStep (hc : s.control = .operate b op) (ht : s.tidy? = none)
    (hcore : s.core? b = some ⟨some e, a, q⟩) (hregular : a.IsRegular)
    (hc' : (s.operateStep b op).control = .engine b)
    (hf : (s.operateStep b op).frames = .running b p :: rest) (hp : p ≠ .nothing) :
    Broadens s (s.operateStep b op) := by
  -- What has started is what the step comes to.
  have hlaunched : ∀ {a' w l}, (∃ s', Launched s b e a' w l s') →
      Broadens s (s.operateStep b op) := by
    rintro a' w l ⟨s', hl⟩
    have hstep : s.step? = some (s.lettingGo (s.operateStep b op)) := by
      rw [Session.step?, hc, ht, proceed?, hc]
      rfl
    have heq : s' = s.lettingGo (s.operateStep b op) := Option.some.inj (hl.step.symm.trans hstep)
    rw [eq_of_lettingGo (heq ▸ hl.control)] at heq
    exact heq ▸ hl.broadens
  cases op with
  | evaluate script => exact hlaunched (launched_call (l := []) hc ht hcore (by rintro _ ⟨⟩) rfl)
  | getVariable name =>
    by_cases hname : name = ""
    · rw [operateStep, if_pos hname] at hc'
      cases hc'
    · exact hlaunched (launched_call (l := []) (w := .getGlobal name) hc ht hcore (by rintro _ ⟨⟩)
        (by rw [operateStep]; exact if_neg hname))
  | setVariable name v =>
    by_cases hname : name = ""
    · rw [operateStep, if_pos hname] at hc'
      cases hc'
    · have hop : s.operateStep b (.setVariable name v) =
          (s.push (.held [v])).exchange b .setGlobal v (.setGlobal name) := by
        rw [operateStep]
        exact if_neg hname
      obtain ⟨r, a', hencode⟩ := control_exchange (s := s.push (.held [v])) hcore (hop ▸ hc')
      exact hlaunched (launched_exchange (l := [.held [v]]) hc ht hcore
        (by simp [Operation.values, Frame.values]) hregular hencode hop)
  | member target name access =>
    by_cases hname : name = ""
    · rw [operateStep, if_pos hname] at hc'
      cases hc'
    · cases hhandle : handleOf b target with
      | error err =>
        rw [operateStep, if_neg hname, hhandle] at hc'
        cases hc'
      | ok h =>
        have hop : s.operateStep b (.member target name access) =
            (s.push (.held (access.values ++ [.foreign target]))).useHandle b h name access := by
          rw [operateStep, if_neg hname, hhandle]
        have hvalues : (Operation.member target name access).values ⊆
            [Frame.held (access.values ++ [.foreign target])].flatMap Frame.values := by
          simp [Operation.values, Frame.values]
        cases access with
        | get =>
          exact hlaunched (launched_call (l := [.held _]) (w := .getMember h name) hc ht hcore
            hvalues hop)
        | set v =>
          obtain ⟨r, a', hencode⟩ := control_exchange (s := s.push _) hcore (hop ▸ hc')
          exact hlaunched (launched_exchange (l := [.held _]) hc ht hcore hvalues hregular hencode
            hop)
        | invoke args =>
          obtain ⟨r, a', hencode⟩ := control_exchange (s := s.push _) hcore (hop ▸ hc')
          exact hlaunched (launched_exchange (l := [.held _]) hc ht hcore hvalues hregular hencode
            hop)
  | flush =>
    unfold operateStep at hf hc'
    dsimp only at hf hc'
    split at hf
    · next hnone =>
      rw [hnone] at hc'
      cases hc'
    · cases hf
      exact absurd rfl hp

/-! ### Scripts at work -/

/-- How a script of an operation comes to be at work. -/
inductive Resumes (s t : Session) (b : Nat) : Prop
  /-- It was at work before. -/
  | works {e : Engine} (hc : s.control = .engine b) (he : s.engine? b = some e)
    (hturn : e.step.2.isTurn = false) (hf : t.frames = s.frames)
  /-- A callback has been answered. -/
  | answers {r : Except HostError Record} (hc : s.control = .answer b r)
  /-- The operation has started. -/
  | opens {op : Operation} (hc : s.control = .operate b op)
  /-- A member of a thrown object is read. -/
  | reads {tasks : List Task} {heard : List Heard} {result : Except Fault HostValue}
    (hc : s.control = .perform b tasks heard result)
  /-- A slot had to be given up. -/
  | waits (hf : s.frames = .interrupted (.engine b) :: t.frames)

lemma Stride.resumes_of_engine (h : Stride s t) (hc : t.control = .engine b)
    (hf : t.frames = .running b p :: rest) (hp : p ≠ .nothing) (he : (t.engine? b).isSome) :
    Resumes s t b := by
  have hinner : t.control.isInner ≠ true := by rw [hc]; nofun
  have hcontrol : ∀ {ctl}, t.control = ctl → ctl = .engine b := fun h => h.symm.trans hc
  have hof : ∀ {c}, t.control.IsOf c → c = b := fun {c} h => by
    by_contra hne
    have hmark := h b (Ne.symm hne)
    rw [hc, Control.mark, if_pos rfl] at hmark
    cases hmark
  -- Most steps leave something else to do than work of an engine.
  cases h with
  | works hs hb hev hf' hc' =>
    obtain rfl := Control.engine.inj (hcontrol hc')
    exact .works hs (engine?_of_core? hb) (by rw [hev]; rfl) hf'
  | defers hs hb hev hi hf' hc' =>
    obtain rfl := Control.engine.inj (hcontrol hc')
    exact .works hs (engine?_of_core? hb) (by rw [hev]; rfl) hf'
  | misses hs hb hev hi ht hf' hc' =>
    obtain rfl := Control.engine.inj (hcontrol hc')
    exact .works hs (engine?_of_core? hb) (by rw [hev]; rfl) hf'
  | answers hs hb hr hf' hc' =>
    obtain rfl := Control.engine.inj (hcontrol hc')
    exact .answers hs
  | opens hs hb hm hw hg hp hf' hfs hc' =>
    obtain rfl := Control.engine.inj (hcontrol hc')
    exact .opens hs
  | resumes hs hs' hf' hc' => exact .waits (by rw [hs', hf', hcontrol hc'])
  | gone hb hs hfly hf' hfs hc' hfly' h hnone =>
    obtain rfl := hof hc'
    rw [hnone] at he
    cases he
  | tears hs hf' hfs hc' hfly h hb hl hn hi =>
    obtain rfl := hof hc'
    have hidle := hi _ (List.mem_cons_self ..)
    rw [hc, Control.mark, if_pos rfl] at hidle
    cases hidle
  | forgets hs hf' hc' => exact absurd (hc'.symm.trans hc) (hs b)
  | vanishes hs hf' hc' => exact absurd (hc'.symm.trans hc) (hs b)
  | releases hs hd hb hf' => rw [hf] at hf'; cases hf'; exact absurd rfl hp
  | gives hs hb hf' => rw [hf] at hf'; cases hf'; exact absurd rfl hp
  | reads hs hb hf' hc' =>
    obtain rfl := Control.engine.inj (hcontrol hc')
    exact .reads hs
  | @finishes c c' e a q r p rest hs hb hev hs' hf' hc' =>
    have hreply := hcontrol hc'
    cases p <;> cases hreply
  | dries hs hb hq hf' hc' => cases hcontrol hc'
  | inner hs hf' hos hf'' hfs hc' => exact absurd hc' hinner
  | interrupts hs hf' hc' => exact absurd hc' hinner
  | balks hs hb hm hf' hfs hc' => exact absurd hc' hinner
  | calls hs hb hev hf' hs' hc' => exact absurd hc' hinner
  | misplaced hs hb hs' hf' hc' => exact absurd hc' hinner
  | drops hs hs' hf' hc' => exact absurd hc' hinner
  | continues hs hs' hf' hs'' hf'' hc' => exact absurd hc' hinner
  | leaves hs hs' hi hf' hc' => exact absurd hc' hinner
  | disposes hs hf' hc' => cases hcontrol hc'
  | skips hb hs hf' hc' => cases hcontrol hc'
  | performed hs hf' hc' => cases hcontrol hc'
  | decodes hs hb hf' hc' => cases hcontrol hc'
  | unpins hs hb hev hi ht hf' hc' => cases hcontrol hc'
  | refuses hs hb hev hf' hc' => cases hcontrol hc'
  | takes hs hb hev hr hf' hs' hc' => cases hcontrol hc'
  | pins hs hb hev hf' hc' => cases hcontrol hc'
  | replies hs hs' hf' hs'' hc' => cases hcontrol hc'
  | leavesLast hs hs' hi hf' hc' => cases hcontrol hc'
  | responds hs hb hf' hc' => cases hcontrol hc'
  | fails hs hf' hc' => cases hcontrol hc'
  | drains hs hb ht hf' hc' => cases hcontrol hc'
  | passes hs hb ht hf' hc' => cases hcontrol hc'
  | refills hs hb hf' hc' => cases hcontrol hc'

/-- What waits for an engine at work is on top. -/
lemma exists_running_of_side? (hx : s.side? b = some x) (ha : x.Accounted)
    (hc : s.control = .engine b) : ∃ p rest, s.frames = .running b p :: rest := by
  have htrail : x.trail = .engine :: s.frames.map (Frame.mark b) := by
    rw [← (side?_eq_some.1 hx).2, trail, hc]
    exact congrArg (· :: _) (if_pos rfl)
  obtain ⟨p, T, -, -, hT, -⟩ := (htrail ▸ ha.nested).of_engine
  obtain ⟨f, rest, hframes, hmark, -⟩ := List.map_eq_cons_iff.1 hT
  exact ⟨p, rest, by rw [hframes, Frame.eq_running_of_mark hmark]⟩

/-- A script of an operation is within its scope. -/
lemma inCall_of_running (hx : s.side? b = some x) (ha : x.Accounted) (hc : s.control = .engine b)
    (hf : s.frames = .running b p :: rest) (hp : p ≠ .nothing) : s.inCall b = true := by
  have htrail : x.trail = .engine :: .running p :: rest.map (Frame.mark b) := by
    rw [← (side?_eq_some.1 hx).2, trail, hc, hf, Control.mark, if_pos rfl, List.map_cons,
      Frame.mark, if_pos rfl]
  have hnested := ha.nested
  rw [htrail] at hnested
  obtain ⟨_, T, c, st, hT, -, -, hscope⟩ := hnested.of_engine
  cases hT
  rw [← Bool.not_eq_false]
  intro hcall
  refine not_scope_of_inCall hcall ?_
  rw [(side?_eq_some.1 hx).2, htrail]
  exact List.mem_cons_of_mem _ (List.mem_cons_of_mem _ (hscope.resolve_right fun h => hp h.1))

/-- A callback that is answered keeps all that was referred to. -/
lemma broadens_answerStep {r : Except HostError Record} (hc : s.control = .answer b r)
    (hcore : s.core? b = some ⟨some e, a, q⟩) (hregular : a.IsRegular) :
    Broadens s (s.answerStep b r) := by
  obtain ⟨br, hbr, hcores⟩ := bridge?_of_core? hcore
  have harena : br.arena = a := congrArg Core.arena hcores
  obtain ⟨record, arena, hvalues, heq⟩ : ∃ record arena, br.arena.values ⊆ arena.values ∧
      s.answerStep b r = (s.updateBridge b fun br =>
        { br with arena := arena, engine := br.engine.map (·.answer record) }).goto
          (.engine b) := by
    unfold answerStep
    rw [hbr]
    cases r with
    | ok r => exact ⟨_, _, List.Subset.refl _, rfl⟩
    | error err =>
      exact ⟨_, _, (mints_failureRecord br.arena err).values_subset (harena ▸ hregular), rfl⟩
  rw [heq]
  have hwidens : Widens s (s.updateBridge b fun br =>
      { br with arena := arena, engine := br.engine.map (·.answer record) }) :=
    .updateBridge (fun _ => rfl) fun br' hbr' => by
      obtain rfl : br' = br := Option.some.inj (hbr'.symm.trans hbr)
      exact hvalues
  refine .of_frames (g := []) (l := []) (hwidens.trans (.of_bridges rfl)) rfl rfl rfl rfl rfl
    nofun ?_ ?_
  · rw [hc]
    exact nofun
  · rintro c (hc' | ⟨f, hf, -⟩)
    · rw [hc] at hc'
      cases hc'
      simp [uses, goto, Control.bridge?]
    · cases hf

/-- An engine that starts to do what is left to do for a record keeps all that was referred to. -/
lemma broadens_performStep {tasks : List Task} {heard : List Heard}
    {result : Except Fault HostValue} (hc : s.control = .perform b tasks heard result)
    (hcore : s.core? b = some ⟨some e, a, q⟩)
    (hc' : (s.performStep b tasks heard result).control = .engine b) :
    Broadens s (s.performStep b tasks heard result) := by
  have hengine := engine?_of_core? hcore
  have hstarts : ∀ (fs : List Frame) {op : Engine.Operation} {p : Purpose},
      outcomeValues result ⊆ p.values ++ fs.flatMap Frame.values →
      Broadens s (({ s with frames := fs ++ s.frames } : Session).startEngine b p e op) := by
    intro fs op p hv
    have hdrives : Drives s (s.updateBridge b ({ · with engine := some (e.enter op) })) :=
      drives_updateBridge (fun _ => rfl) fun _ => rfl
    refine .of_frames (g := []) (l := .running b p :: fs) (hdrives.widens.trans (.of_bridges rfl))
      rfl rfl rfl rfl rfl nofun ?_ ?_
    · rw [hc, List.flatMap_nil, List.append_nil]
      exact hv
    · rintro c (hctl | ⟨f, hf, -⟩)
      · rw [hc] at hctl
        cases hctl
        simp [uses, startEngine, goto, Control.bridge?]
      · cases hf
  unfold performStep at hc' ⊢
  split at hc'
  · split at hc' <;> cases hc'
  · next g rest' =>
    rw [hengine]
    exact hstarts [.interrupted (.perform b rest' heard result)]
      (by simp [Purpose.values, Frame.values, Control.values])
  · next h name rest' =>
    rw [hengine]
    exact hstarts [] (by simp [Purpose.values])

/-- An engine that waits until a slot has been given up waits within no operation. -/
lemma Nested.not_waiting {m : Mark} {T : List Mark} (hp : p ≠ .nothing)
    (h : Nested e (m :: .engine :: .running p :: T)) : False := by
  have hrests : ∀ {c st}, ¬ AtRest (.engine :: .running p :: T) c st := fun h => by
    cases h with
    | awaits hm => cases hm
    | gives => exact hp rfl
  by_cases hm : m = .engine
  · subst hm
    obtain ⟨p, T', c, st, heq, -⟩ := h.of_engine
    cases heq
  · cases h.atRest_of_cons hm with
    | other h => exact hrests h
    | scope h => exact hrests h
    | decode hs h => exact hrests h
    | perform hs h => exact hrests h
    | drain hs h => exact hrests h

/-- What is let go of never starts a script. -/
lemma frames_tidy?_of_engine (h : s.tidy? = some u) (hc : ∀ c, s.control ≠ .engine c)
    (hc' : u.control = .engine b) : ∃ rest, u.frames = .running b .nothing :: rest := by
  unfold Session.tidy? at h
  split at h
  · cases h
    cases hc'
  · split at h
    · cases h
      exact absurd hc' (hc b)
    · split at h
      · cases h
        unfold endLease at hc' ⊢
        dsimp only at hc' ⊢
        split at hc'
        · exact absurd hc' (hc b)
        · cases hc'
          exact ⟨_, rfl⟩
      · obtain ⟨st, -, rfl⟩ := Option.map_eq_some_iff.1 h
        unfold forgetObject at hc'
        dsimp only at hc'
        split at hc'
        · exact absurd hc' (hc b)
        · cases hc'

/-- **While a script of an operation is at work, nothing is left to let go of.** -/
theorem History.tidy?_eq_none (h : History types setups (s :: older))
    (hx : s.side? b = some x) (hc : s.control = .engine b)
    (hf : s.frames = .running b p :: rest) (hp : p ≠ .nothing) : s.tidy? = none := by
  generalize heq : s :: older = hist at h
  induction h generalizing s older x rest with
  | starts hcreate =>
    cases heq
    unfold create at hcreate
    cases hmap : setups.mapM Bridge.create with
    | error err =>
      rw [hmap] at hcreate
      cases hcreate
    | ok bridges =>
      rw [hmap] at hcreate
      cases hcreate
      cases hc
  | @goes u s' l h hgo ih =>
    cases heq
    obtain ⟨k, w, z, hw, -⟩ := hgo.moves hx
    have haccounted := h.accounted (List.mem_cons_self ..) hw
    have hcore : u.core? b = some ⟨some w.engine, w.arena, w.deferred⟩ := (side?_eq_some.1 hw).1
    have hengine : (s'.engine? b).isSome := by
      rw [engine?_of_side? hx]
      rfl
    obtain ⟨t, hstride, hnext⟩ := hgo.exists_stride
    obtain rfl : s' = t := hnext.resolve_right (by
      rintro ⟨vs, rfl⟩
      cases hc)
    -- What is about to be done is done next, since letting go of something starts no script.
    have hproceeds : (∀ c, u.control ≠ .engine c) → (∀ r, u.control ≠ .done r) →
        u.tidy? = none ∧ u.proceed? = some s' := fun hne hdone => by
      cases hgo.happens with
      | works hc' => exact absurd hc' (hne _)
      | tidies hc' ht =>
        obtain ⟨rest', hf'⟩ := frames_tidy?_of_engine ht hne hc
        rw [hf] at hf'
        cases hf'
        exact absurd rfl hp
      | @proceeds t hc' ht hnext heq =>
        rw [heq] at hc
        rw [heq, eq_of_lettingGo hc]
        exact ⟨ht, hnext⟩
      | turns hc' => exact absurd hc' (hdone _)
    cases hstride.resumes_of_engine hc hf hp hengine with
    | @works e hc' he hturn hf' =>
      have ht := ih hw hc' (hf'.symm.trans hf) rfl
      have hcall := inCall_of_running hw haccounted hc' (hf'.symm.trans hf) hp
      obtain rfl : w.engine = e := Option.some.inj ((engine?_of_side? hw).symm.trans he)
      obtain ⟨s'', q', hstep, hdrives, -⟩ := drives_step hc' hcall hcore ⟨rfl, hturn⟩
      obtain rfl := hgo.eq_of_step? hstep
      exact (hdrives.broadens hc').tidy? ht
    | @answers r hc' =>
      obtain ⟨ht, hnext⟩ := hproceeds (by simp [hc']) (by simp [hc'])
      rw [proceed?, hc'] at hnext
      cases hnext
      exact (broadens_answerStep hc' hcore haccounted.regular).tidy? ht
    | @opens op hc' =>
      obtain ⟨ht, hnext⟩ := hproceeds (by simp [hc']) (by simp [hc'])
      rw [proceed?, hc'] at hnext
      cases hnext
      exact (broadens_operateStep hc' ht hcore haccounted.regular hc hf hp).tidy? ht
    | @reads tasks heard result hc' =>
      obtain ⟨ht, hnext⟩ := hproceeds (by simp [hc']) (by simp [hc'])
      rw [proceed?, hc'] at hnext
      cases hnext
      exact (broadens_performStep hc' hcore hc).tidy? ht
    | waits hf' =>
      have htrail : w.trail =
          u.control.mark b :: .engine :: .running p :: rest.map (Frame.mark b) := by
        rw [← (side?_eq_some.1 hw).2, trail, hf', hf, List.map_cons, List.map_cons,
          show (Frame.interrupted (.engine b)).mark b = .engine from if_pos rfl,
          show (Frame.running b p).mark b = .running p from if_pos rfl]
      have hnested := haccounted.nested
      rw [htrail] at hnested
      exact (hnested.not_waiting hp).elim

/-! ### Engines that are needed -/

/-- Nothing is left of a bridge that nothing uses. -/
structure Vanishes (b : Nat) (s t : Session) : Prop where
  uses : s.uses b = false
  frames : t.frames = s.frames
  control : t.control = s.control
  core : t.core? b = (s.core? b).map fun k => ⟨none, .empty k.arena.policy, []⟩

/-- An engine goes only where its bridge is disposed, or where nothing uses it any more. -/
lemma Stride.of_engine_gone (h : Stride s t) (he : (s.engine? b).isSome)
    (hnone : t.engine? b = none) :
    s.control = .dispose b ∧ t.frames = s.frames ∧ t.control ≠ s.control ∨ Vanishes b s t := by
  have hsame : t.core? b ≠ s.core? b := fun heq => by
    rw [engine?_eq, heq, ← engine?_eq] at hnone
    rw [hnone] at he
    cases he
  -- The bridge whose core changes is another one, or its engine is still there.
  have hnew : ∀ {c k}, Recores s t c k → (∀ k', s.core? c = some k' → k'.engine.isSome →
      k.engine.isSome) → False := fun {c k} h hk => by
    have hcore := h.core b
    split at hcore
    · next heq =>
      subst heq
      obtain ⟨k', hk', he'⟩ := Option.bind_eq_some_iff.1
        ((engine?_eq s c).symm.trans (Option.some_get he).symm)
      rw [engine?_eq, hcore, Option.bind_some] at hnone
      have hsome := hk k' hk' (by rw [he']; rfl)
      rw [hnone] at hsome
      cases hsome
    · exact hsame hcore
  have hkept : ∀ {c k k'}, Recores s t c k' → s.core? c = some k → k'.engine = k.engine → False :=
    fun h hk heq => hnew h fun k'' hk'' he' => by
      obtain rfl := Option.some.inj (hk.symm.trans hk'')
      exact heq ▸ he'
  cases h with
  | @disposes c slots hc hs' hc' h =>
    by_cases heq : b = c
    · subst heq
      exact .inl ⟨hc, hs', by rw [hc, hc']; nofun⟩
    · exact absurd (h b heq) hsame
  | @vanishes c hc hs' hc' h hb hl hn hk hu =>
    by_cases heq : b = c
    · subst heq
      exact .inr ⟨hu, hs', hc', hk⟩
    · exact absurd (h b heq) hsame
  | @tears c slots fs hc hs' hfs hc' hfly h hb =>
    by_cases heq : b = c
    · rw [heq, hb, ← heq] at hnone
      rw [hnone] at he
      cases he
    · exact absurd (h b heq) hsame
  | @gone c fs hb hc hfly hs' hfs hc' hfly' h =>
    by_cases heq : b = c
    · rw [heq, hb] at he
      cases he
    · exact absurd (h b heq) hsame
  | releases hc hf hb hs' hc' h =>
    have hcore := h b
    split at hcore
    · rw [engine?_eq, hcore] at hnone
      cases hnone
    · exact absurd hcore hsame
  | responds hc hb hs' hc' h | refills hc hb hs' hc' h => exact (hkept h hb rfl).elim
  | drains hc hb ht hs' hc' h => exact (hkept h hb rfl).elim
  | opens hc hb hm hw hg hp hs' hfs hc' h => exact (hnew h fun _ _ _ => rfl).elim
  | balks hc hb hm hs' hfs hc' h => exact (hnew h fun _ _ _ => rfl).elim
  | gives hc hb hs' hc' h | reads hc hb hs' hc' h => exact (hnew h fun _ _ _ => rfl).elim
  | works hc hb hev hs' hc' h => exact (hnew h fun _ _ _ => rfl).elim
  | defers hc hb hev hi hs' hc' h => exact (hnew h fun _ _ _ => rfl).elim
  | unpins hc hb hev hi ht hs' hc' h | misses hc hb hev hi ht hs' hc' h =>
    exact (hnew h fun _ _ _ => rfl).elim
  | refuses hc hb hev hs' hc' h | pins hc hb hev hs' hc' h => exact (hnew h fun _ _ _ => rfl).elim
  | calls hc hb hev hf hs' hc' h => exact (hnew h fun _ _ _ => rfl).elim
  | takes hc hb hev hr hf hs' hc' h => exact (hnew h fun _ _ _ => rfl).elim
  | finishes hc hb hev hs hs' hc' h => exact (hnew h fun _ _ _ => rfl).elim
  | misplaced hc hb hs hs' hc' h => exact (hnew h fun _ _ _ => rfl).elim
  | answers hc hb hr hs' hc' h => exact (hnew h fun _ _ _ => rfl).elim
  | inner hc hs hos hs' hfs hc' h => exact absurd (h.core b) hsame
  | interrupts hc hs' hc' h => exact absurd (h.core b) hsame
  | resumes hc hs hs' hc' h => exact absurd (h.core b) hsame
  | forgets hc hs' hc' h => exact absurd (h b) hsame
  | skips hb hc hs' hc' h => exact absurd (h.core b) hsame
  | performed hc hs' hc' h => exact absurd (h b) hsame
  | decodes hc hb hs' hc' h => exact absurd (h b) hsame
  | drops hc hs hs' hc' h => exact absurd (h.core b) hsame
  | replies hc hs hf hs' hc' h => exact absurd (h.core b) hsame
  | continues hc hs hf hs' hf' hc' h => exact absurd (h.core b) hsame
  | leaves hc hs hi hs' hc' h => exact absurd (h.core b) hsame
  | leavesLast hc hs hi hs' hc' h => exact absurd (h.core b) hsame
  | fails hc hs' hc' h => exact absurd (h.core b) hsame
  | passes hc hb ht hs' hc' h => exact absurd (h.core b) hsame
  | dries hc hb hq hs' hc' h => exact absurd (h.core b) hsame

/-- What does not use a bridge means nothing for it. -/
lemma Control.mark_eq_other {ctl : Control} (h : ctl.bridge? ≠ some b) : ctl.mark b = .other := by
  unfold Control.mark
  split <;> first | rfl | exact if_neg fun heq => h (congrArg some heq)

lemma Frame.mark_eq_other {f : Frame} (h : f.bridge? ≠ some b) : f.mark b = .other := by
  cases f with
  | interrupted ctl => exact Control.mark_eq_other h
  | scope c | running c p => exact if_neg fun heq => h (congrArg some heq)
  | getting c | assignee c | setting c | callee c | calling c =>
    exact if_neg fun heq => h (congrArg some (by simpa [Frame.isCallback] using heq))
  | _ => rfl

lemma idle_of_unused (h : s.uses b = false) {m : Mark} (hm : m ∈ s.trail b) : m.isIdle = true := by
  rw [Session.uses, Bool.or_eq_false_iff, decide_eq_false_iff_not, List.any_eq_false] at h
  rcases List.mem_cons.1 hm with rfl | hm
  · rw [Control.mark_eq_other h.1]
    rfl
  · obtain ⟨f, hf, rfl⟩ := List.mem_map.1 hm
    rw [Frame.mark_eq_other (by simpa using h.2 f hf)]
    rfl

lemma engine?_lettingGo (before t : Session) : (before.lettingGo t).engine? b = t.engine? b := by
  rcases lettingGo_cases before t with heq | ⟨vs, heq⟩
  · rw [heq]
  · rw [heq]
    rfl

/-- **An engine goes only where its bridge is disposed**, or where nothing uses it any more. -/
theorem Goes.of_engine_gone (h : Goes s s') {e : Engine} (he : s.engine? b = some e)
    (hnone : s'.engine? b = none) :
    (s.control = .dispose b ∧ s.isBusy b = false ∧ s' =
        (s.updateBridge b ({ · with engine := none })).goto (.teardown b e.heldSlots)) ∨
      ∃ t, Vanishes b s t ∧ (s' = t ∨ ∃ vs, s' = t.interrupt (.drop vs)) := by
  have hsome : (s.engine? b).isSome := by rw [he]; rfl
  cases h.happens with
  | works hc heq =>
    rcases (heq ▸ stride_engineStep hc : Stride s s').of_engine_gone hsome hnone with ⟨hc', -⟩ | hv
    · rw [hc] at hc'
      cases hc'
    · exact .inr ⟨s', hv, .inl rfl⟩
  | tidies hc ht =>
    rcases (stride_tidy? hc ht).of_engine_gone hsome hnone with ⟨-, hf, hc'⟩ | hv
    · rcases frames_tidy? ht with ⟨-, hsame⟩ | ⟨fs, hmore⟩
      · exact absurd hsame hc'
      · have hlength := congrArg List.length (hf.symm.trans hmore)
        rw [List.length_append, List.length_cons] at hlength
        omega
    · exact .inr ⟨s', hv, .inl rfl⟩
  | proceeds hc ht hp heq =>
    have hnone' := (engine?_lettingGo ..).symm.trans (heq ▸ hnone)
    rcases (stride_proceed? hp).of_engine_gone hsome hnone' with ⟨hc', -⟩ | hv
    · have hdispose := h.eq_disposeStep ht hc'
      cases hbusy : s.isBusy b with
      | true =>
        rw [hdispose, disposeStep_refused (.inl hbusy)] at hnone
        exact absurd (he.symm.trans hnone) nofun
      | false => exact .inl ⟨hc', rfl, hdispose.trans (disposeStep_eq hbusy he)⟩
    · exact .inr ⟨_, hv, heq ▸ lettingGo_cases ..⟩
  | turns hc hf hs heq =>
    rcases hs.of_engine_gone hsome ((engine?_lettingGo ..).symm.trans (heq ▸ hnone)) with
      ⟨hc', -⟩ | hv
    · rw [hc] at hc'
      cases hc'
    · exact .inr ⟨_, hv, heq ▸ lettingGo_cases ..⟩

/-- Nothing that is still to be done needs an engine that has just gone. -/
lemma Vanishes.retired (h : Vanishes b s t) : Retired b t := by
  refine ⟨?_, ?_⟩
  · rw [engine?_eq, h.core]
    cases s.core? b <;> rfl
  · rw [trail, h.frames, h.control]
    exact fun _ => idle_of_unused h.uses

/-- **What needs an engine finds it.**  Where the engine of a bridge has gone, nothing that is still
to be done needs it. -/
theorem History.retired (h : History types setups hist) (hs : s ∈ hist)
    (hnone : s.engine? b = none) : Retired b s := by
  induction h generalizing s with
  | starts hcreate =>
    obtain rfl := List.mem_singleton.1 hs
    refine ⟨hnone, ?_⟩
    unfold create at hcreate
    cases hmap : setups.mapM Bridge.create with
    | error err =>
      rw [hmap] at hcreate
      cases hcreate
    | ok bridges =>
      rw [hmap] at hcreate
      cases hcreate
      exact List.forall_mem_singleton.2 rfl
  | @goes u s' l h hgo ih =>
    rcases List.mem_cons.1 hs with rfl | hs
    · cases hgone : u.engine? b with
      | none => exact hgo.retired (ih (List.mem_cons_self ..) hgone)
      | some e =>
        rcases hgo.of_engine_gone hgone hnone with ⟨hc, hbusy, rfl⟩ | ⟨t, hv, rfl | ⟨vs, rfl⟩⟩
        · rw [← disposeStep_eq hbusy hgone]
          exact (h.ended_disposeStep hc hbusy hgone).1.retired
        · exact hv.retired
        · exact ⟨hnone, List.forall_mem_cons.2 ⟨rfl, hv.retired.idle⟩⟩
    · exact ih hs hnone

end ScriptBridge.Session
