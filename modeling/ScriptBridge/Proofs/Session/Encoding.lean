/-
# Values on their way to script

A value that is sent to script becomes a record as a whole or not at all.  Where it does, the
arena has gained one slot for each host object that occurs in it; where it does not, the
error says why, and nothing is entered anywhere.  A callback that fails in this way then has
its failure entered, for script to catch, and nothing else.
-/
import ScriptBridge.Proofs.Bridge.Obstacles
import ScriptBridge.Proofs.Session.AtWork
import ScriptBridge.Proofs.Session.Teardown
import ScriptBridge.Proofs.Session.Refusal

namespace ScriptBridge.Session

open ScriptBridge.Bridge ScriptBridge.Host ScriptBridge.Table ScriptBridge.Wire

variable {s s' t u : Session} {b : Nat} {op : Operation} {v : HostValue} {br br' : Bridge}
  {e : Engine} {w : Record → Engine.Operation} {crossing : Crossing} {slots : List Slot}
  {entries : List Entry} {err : BridgeError} {types : List HostType} {setups : List Setup}
  {older : List Session}

/-! ### One bridge that changes -/

/-- Only one bridge has changed. -/
structure Alters (s : Session) (b : Nat) (br br' : Bridge) (s' : Session) : Prop where
  before : s.bridge? b = some br
  after : s'.bridge? b = some br'
  others : ∀ c, b ≠ c → s'.bridge? c = s.bridge? c
  objects : s'.objects = s.objects
  disposed : s'.disposed = s.disposed

namespace Alters

lemma updateBridge (hb : s.bridge? b = some br) (f : Bridge → Bridge) :
    Alters s b br (f br) (s.updateBridge b f) where
  before := hb
  after := by rw [bridge?_updateBridge, if_pos rfl, hb, Option.map_some]
  others c hc := by rw [bridge?_updateBridge, if_neg hc]
  objects := rfl
  disposed := rfl

lemma trans {br'' : Bridge} (h : Alters s b br br' s') (h' : Alters s' b br' br'' t) :
    Alters s b br br'' t where
  before := h.before
  after := h'.after
  others c hc := (h'.others c hc).trans (h.others c hc)
  objects := h'.objects.trans h.objects
  disposed := h'.disposed.trans h.disposed

lemma lettingGo (h : Alters s b br br' t) (before : Session) :
    Alters s b br br' (before.lettingGo t) := by
  rcases lettingGo_cases before t with heq | ⟨vs, heq⟩ <;> rw [heq]
  · exact h
  · exact ⟨h.before, h.after, h.others, h.objects, h.disposed⟩

lemma engine? (h : Alters s b br br' s') (he : br'.engine = br.engine) (c : Nat) :
    s'.engine? c = s.engine? c := by
  by_cases hc : b = c
  · subst hc
    rw [Session.engine?, Session.engine?, h.before, h.after]
    exact he
  · rw [Session.engine?, Session.engine?, h.others c hc]

end Alters

lemma Alters.widens (h : Alters s b br br' s') (hstage : br'.stage = br.stage)
    (hvalues : br.arena.values ⊆ br'.arena.values) : Widens s s' where
  stage c := by
    by_cases hc : b = c
    · subst hc
      rw [h.before, h.after, Option.map_some, Option.map_some, hstage]
    · rw [h.others c hc]
  entries c x y hx hy := by
    by_cases hc : b = c
    · subst hc
      obtain rfl : x = br := Option.some.inj (hx.symm.trans h.before)
      obtain rfl : y = br' := Option.some.inj (hy.symm.trans h.after)
      exact hvalues
    · rw [h.others c hc, hx] at hy
      exact Option.some.inj hy ▸ List.Subset.refl _

/-! ### What is entered -/

/-- How many slots of a bridge are in use. -/
def used (s : Session) (b : Nat) : Nat := (s.bridge? b).elim 0 (·.arena.occupancy.used)

/-- Some entries have been entered under fresh slots of a bridge, each under its own.  No other
slot of any bridge has changed, the engines keep the same script objects for the host, and no
hook has run. -/
structure Enters (s : Session) (b : Nat) (slots : List Slot) (entries : List Entry) (s' : Session) :
    Prop where
  nodup : slots.Nodup
  fresh : ∀ slot ∈ slots, s.entryOf? b slot = none
  entered : slots.map (s'.entryOf? b) = entries.map some
  kept : ∀ c slot, (b = c → slot ∉ slots) → s'.entryOf? c slot = s.entryOf? c slot
  used : ∀ c, s'.used c = s.used c + if b = c then slots.length else 0
  handles : ∀ c, (s'.engine? c).map (·.handles) = (s.engine? c).map (·.handles)
  objects : s'.objects = s.objects
  disposed : s'.disposed = s.disposed

/-- Entries have been entered in the arena of the only bridge that has changed. -/
lemma Alters.enters (h : Alters s b br br' s') (hm : br.arena.Mints br'.arena slots)
    (hregular : br.arena.IsRegular) (hentered : slots.map br'.arena.get? = entries.map some)
    (hhandles : br'.engine.map (·.handles) = br.engine.map (·.handles)) :
    Enters s b slots entries s' where
  nodup := hm.nodup
  fresh slot hslot := by
    rw [entryOf?, h.before]
    exact (hm.fresh slot hslot).1
  entered := by
    have hentry : s'.entryOf? b = br'.arena.get? := by
      funext slot
      rw [entryOf?, h.after]
      rfl
    rw [hentry, hentered]
  kept c slot hslot := by
    by_cases hc : b = c
    · subst hc
      rw [entryOf?, entryOf?, h.before, h.after]
      exact hm.kept slot (hslot rfl)
    · rw [entryOf?, entryOf?, h.others c hc]
  used c := by
    by_cases hc : b = c
    · subst hc
      rw [Session.used, Session.used, h.before, h.after, if_pos rfl]
      exact hm.used hregular
    · rw [Session.used, Session.used, h.others c hc, if_neg hc, Nat.add_zero]
  handles c := by
    by_cases hc : b = c
    · subst hc
      rw [Session.engine?, Session.engine?, h.before, h.after]
      exact hhandles
    · rw [Session.engine?, Session.engine?, h.others c hc]
  objects := h.objects
  disposed := h.disposed

/-- What becomes of a value that is to be a record: it is one as a whole, with a fresh slot for
each host object that occurs in it, or there is none; then nothing has been entered and the engines
have not changed. -/
inductive Encoded (s : Session) (b : Nat) (v : HostValue) (s' : Session) :
    Except BridgeError Record → Prop
  | whole {br br' : Bridge} {r : Record} (h : Alters s b br br' s')
    (enters : Enters s b r.slots (v.objects.map .object) s')
    (renders : Renders br'.arena v r) (own : ∀ f ∈ v.foreigns, f.bridge = b) :
    Encoded s b v s' (.ok r)
  | nothing {br br' : Bridge} {e : BridgeError} (h : Alters s b br br' s')
    (enters : Enters s b [] [] s') (engines : ∀ c, s'.engine? c = s.engine? c)
    (bars : Bars b br.arena v e) : Encoded s b v s' (.error e)

/-- The arena of the only bridge that has changed is what came of a value that is to be a record. -/
lemma Alters.encoded (h : Alters s b br br' s') (harena : br'.arena = (encode b br.arena v).2)
    (hregular : br.arena.IsRegular)
    (hhandles : br'.engine.map (·.handles) = br.engine.map (·.handles))
    (hengine : ∀ err, (encode b br.arena v).1 = .error err → br'.engine = br.engine) :
    Encoded s b v s' (encode b br.arena v).1 := by
  have hm := mints_encode b br.arena v
  rw [← harena] at hm
  cases hres : (encode b br.arena v).1 with
  | ok r =>
    rw [hres] at hm
    have hrenders : Renders br'.arena v r := renders_encode b (Prod.ext hres harena.symm)
    have hentered : r.slots.map br'.arena.get? = (v.objects.map Entry.object).map some := by
      rw [hrenders.entries, List.map_map]
      rfl
    exact .whole h (h.enters hm hregular hentered hhandles) hrenders
      (names_encode b br.arena hres).bridge
  | error err =>
    rw [hres] at hm
    exact .nothing h (h.enters hm hregular rfl hhandles) (h.engine? (hengine err hres))
      (bars_encode b br.arena v hres)

/-! ### Operations -/

/-- The value that an operation sends, and what the engine does with its record. -/
def Operation.sent? : Operation → Option (HostValue × (Record → Engine.Operation))
  | setVariable name v => some (v, .setGlobal name)
  | member target name (.set v) => some (v, .setMember target.handle name)
  | member target name (.invoke args) => some (.array args, .invokeMember target.handle name)
  | _ => none

lemma handle_of_handleOf {f : ForeignObject} {h : Handle} (hh : handleOf b f = .ok h) :
    h = f.handle := by
  unfold handleOf at hh
  split at hh <;> cases hh
  rfl

lemma operateStep_sent (hp : op.Passes b) (hs : op.sent? = some (v, w)) :
    ∃ crossing, s.operateStep b op =
      ({ s with frames := op.keepers ++ s.frames }).exchange b crossing v w := by
  unfold Operation.sent? at hs
  split at hs
  · next name v =>
    cases hs
    exact ⟨.setGlobal, by rw [operateStep]; exact if_neg hp⟩
  · next target name v =>
    cases hs
    obtain ⟨hname, h, hhandle⟩ := hp
    obtain rfl := handle_of_handleOf hhandle
    exact ⟨.setMember, by rw [operateStep, if_neg hname, hhandle]; rfl⟩
  · next target name args =>
    cases hs
    obtain ⟨hname, h, hhandle⟩ := hp
    obtain rfl := handle_of_handleOf hhandle
    exact ⟨.invokeMember, by rw [operateStep, if_neg hname, hhandle]; rfl⟩
  · cases hs

/-- What an operation goes on with once its value has become a record, or has not. -/
def Sent (s : Session) (b : Nat) (op : Operation) (e : Engine) (w : Record → Engine.Operation)
    (s' : Session) : Except BridgeError Record → Prop
  | .ok r => s'.control = .engine b ∧ s'.engine? b = some (e.enter (w r)) ∧
    s'.frames = .running b .value :: .scope b :: (op.keepers ++ s.frames)
  | .error err => s'.control = .done (.error (.operation err)) ∧
    s'.frames = .scope b :: (op.keepers ++ s.frames)

/-- An operation that is within its scope keeps all that was referred to. -/
lemma Alters.broadens {l : List Frame} (h : Alters s b br br' s') (hc : s.control = .operate b op)
    (hstage : br'.stage = br.stage) (hvalues : br.arena.values ⊆ br'.arena.values)
    (hl : s'.leases = s.leases) (hr : s'.registers = s.registers)
    (hs' : s'.frames = (l ++ .scope b :: op.keepers) ++ s.frames) : Broadens s s' := by
  refine .of_frames (g := []) (h.widens hstage hvalues) hl h.objects hr rfl hs' nofun ?_ ?_
  · rw [hc]
    intro v hv
    simp only [List.flatMap_append, List.flatMap_cons, List.mem_append]
    exact .inr (.inr (.inr (op.values_subset (List.append_nil op.values ▸ hv))))
  · rintro c (hctl | ⟨f, hf, -⟩)
    · rw [hc] at hctl
      cases hctl
      simp [uses, hs', Frame.bridge?]
    · cases hf

/-- An operation within its scope, which has been counted. -/
def opened (s : Session) (b : Nat) (crossing : Crossing) : Session :=
  (s.record b crossing).push (.scope b)

lemma alters_opened (hb : s.bridge? b = some br) (crossing : Crossing) :
    Alters s b br (br.record crossing) (s.opened b crossing) :=
  have h := Alters.updateBridge hb (·.record crossing)
  ⟨h.before, h.after, h.others, h.objects, h.disposed⟩

lemma exchange_eq (hb : s.bridge? b = some br) (he : br.engine = some e) :
    s.exchange b crossing v w = match encode b br.arena v with
      | (.error err, a) => ((s.opened b crossing).updateBridge b ({ · with arena := a })).fail err
      | (.ok r, a) => ((s.opened b crossing).updateBridge b ({ · with arena := a })).startEngine b
        .value e (w r) := by
  have hb' : ((s.record b crossing).push (.scope b)).bridge? b = some (br.record crossing) :=
    (alters_opened hb crossing).after
  have he' : (br.record crossing).engine = some e := he
  rw [exchange, hb']
  dsimp only
  rw [he']
  rfl

/-- An operation that sends a value makes a record of it, and keeps all that was referred to. -/
lemma exists_sent (hc : s.control = .operate b op) (ht : s.tidy? = none)
    (hb : s.bridge? b = some br) (he : br.engine = some e) (hregular : br.arena.IsRegular)
    (hp : op.Passes b) (hs : op.sent? = some (v, w)) :
    ∃ s', s.step? = some s' ∧ Encoded s b v s' (encode b br.arena v).1 ∧
      Sent s b op e w s' (encode b br.arena v).1 := by
  obtain ⟨crossing, hop⟩ := operateStep_sent (s := s) hp hs
  let t : Session := { s with frames := op.keepers ++ s.frames }
  have hbt : t.bridge? b = some br := hb
  have hopened := alters_opened hbt crossing
  rw [exchange_eq hbt he] at hop
  have hvalues : br.arena.values ⊆ (encode b br.arena v).2.values :=
    (mints_encode b br.arena v).values_subset hregular
  -- Whatever comes of the value, the operation keeps it.
  have hstep : ∀ {br' : Bridge} {l : List Frame}, Alters s b br br' (s.operateStep b op) →
      br'.arena = (encode b br.arena v).2 → br'.stage = br.stage →
      (s.operateStep b op).leases = s.leases → (s.operateStep b op).registers = s.registers →
      (s.operateStep b op).frames = (l ++ .scope b :: op.keepers) ++ s.frames →
      s.step? = some (s.operateStep b op) := by
    intro br' l h ha hstage hl hr hf
    refine (h.broadens hc hstage (ha ▸ hvalues) hl hr hf).step? (fun c => ?_) ht ?_
    · rw [hc]
      exact nofun
    · rw [proceed?, hc]
  refine ⟨s.operateStep b op, ?_⟩
  cases hres : encode b br.arena v with
  | mk res a =>
  rw [hres] at hop
  have ha : a = (encode b br.arena v).2 := (congrArg Prod.snd hres).symm
  have harena := Alters.updateBridge hopened.after ({ · with arena := a })
  cases res with
  | ok r =>
    have h : Alters s b br { br.record crossing with arena := a, engine := some (e.enter (w r)) }
        (s.operateStep b op) := by
      have h := (hopened.trans harena).trans
        (.updateBridge harena.after ({ · with engine := some (e.enter (w r)) }))
      rw [hop]
      exact ⟨h.before, h.after, h.others, h.objects, h.disposed⟩
    have hencoded := h.encoded (v := v) ha hregular (by rw [he]; rfl) fun err herr => by
      rw [hres] at herr
      cases herr
    refine ⟨hstep (l := [.running b .value]) h ha rfl ?_ ?_ ?_, by rwa [hres] at hencoded,
      ?_, ?_, ?_⟩
    · rw [hop]; rfl
    · rw [hop]; rfl
    · rw [hop]; rfl
    · rw [hop]; rfl
    · rw [engine?, h.after]; rfl
    · rw [hop]; rfl
  | error err =>
    have h : Alters s b br { br.record crossing with arena := a } (s.operateStep b op) := by
      have h := hopened.trans harena
      rw [hop]
      exact ⟨h.before, h.after, h.others, h.objects, h.disposed⟩
    have hencoded := h.encoded (v := v) ha hregular rfl fun _ _ => rfl
    refine ⟨hstep (l := []) h ha rfl ?_ ?_ ?_, by rwa [hres] at hencoded, ?_, ?_⟩
    all_goals rw [hop]; rfl

/-! ### Callbacks -/

/-- Something comes next, but for what nothing refers to any more after a value has been used up. -/
inductive ComesNext (ctl : Control) (v : HostValue) (s s' : Session) : Prop
  /-- At most one thing that the value referred to is let go of before. -/
  | directly (hf : s'.frames = s.frames) (hc : s'.control = ctl)
  /-- Things that only the value referred to are let go of before, one after the other. -/
  | afterLoss {vs : List HostValue} (hvs : vs ⊆ v.references)
    (hf : s'.frames = .interrupted ctl :: s.frames) (hc : s'.control = .drop vs)

lemma comesNext_lettingGo (hf : t.frames = s.frames) (hv : ∀ x ∈ s.values, x = v ∨ x ∈ t.values) :
    ComesNext t.control v s (s.lettingGo t) := by
  have hlost : ∀ x ∈ (HostValue.referencesOf s.values).filter
      fun x => !isAmong (HostValue.referencesOf t.values) x, x ∈ v.references := by
    intro x hx
    obtain ⟨hmem, hnot⟩ := List.mem_filter.1 hx
    obtain ⟨y, hy, hxy⟩ := HostValue.mem_referencesOf.1 hmem
    rcases hv y hy with rfl | hy
    · exact hxy
    · rw [isAmong_of_mem (HostValue.mem_referencesOf.2 ⟨y, hy, hxy⟩)] at hnot
      cases hnot
  unfold Session.lettingGo
  dsimp only
  split
  · exact .directly hf rfl
  · exact .directly hf rfl
  · exact .directly hf rfl
  · exact .afterLoss hlost (congrArg (_ :: ·) hf) rfl

/-- A callback makes a record of what it gives, and then answers with it or with what kept it
from being one. -/
lemma exists_replied (hc : s.control = .respond b (.ok v)) (ht : s.tidy? = none)
    (hb : s.bridge? b = some br) (hregular : br.arena.IsRegular) :
    ∃ s', s.step? = some s' ∧ Encoded s b v s' (encode b br.arena v).1 ∧
      ComesNext (.answer b ((encode b br.arena v).1.mapError BridgeError.cause)) v s s' := by
  let t := (s.updateBridge b ({ · with arena := (encode b br.arena v).2 })).goto
    (.answer b ((encode b br.arena v).1.mapError BridgeError.cause))
  have hproceed : s.proceed? = some t := by
    rw [proceed?, hc]
    dsimp only
    rw [respondStep]
    dsimp only
    rw [hb]
  have h : Alters s b br { br with arena := (encode b br.arena v).2 } t :=
    have h := Alters.updateBridge hb ({ · with arena := (encode b br.arena v).2 })
    ⟨h.before, h.after, h.others, h.objects, h.disposed⟩
  have hwidens : Widens s t := h.widens rfl ((mints_encode b br.arena v).values_subset hregular)
  refine ⟨s.lettingGo t, ?_, (h.lettingGo s).encoded rfl hregular rfl fun _ _ => rfl,
    comesNext_lettingGo (t := t) (v := v) rfl fun x hx => ?_⟩
  · rw [step?, hc, ht, hproceed]
    rfl
  · refine (hwidens.mem_values (g := []) (l := []) rfl rfl rfl rfl hx).imp_left fun hmem => ?_
    rw [hc] at hmem
    exact List.mem_singleton.1 hmem

/-- The record of a failure: the failure is entered for it, unless it was about a slot that is not
valid or none is left. -/
inductive Tells (a : Arena Entry) (err : HostError) : Record → Prop
  | entered {a' : Arena Entry} {slot : Slot} (ha : a.add (.error err) = some (slot, a')) :
    Tells a err (.managedError slot)
  | told (h : (∃ slot, err = .invalidSlot slot) ∨ a.add (.error err) = none) :
    Tells a err (.unknownError (some err.message))

lemma tells_failureRecord (a : Arena Entry) (err : HostError) :
    Tells a err (failureRecord a err).1 := by
  unfold failureRecord
  split
  · exact .told (.inl ⟨_, rfl⟩)
  · rw [pin]
    cases hadd : a.add (.error err) with
    | none => exact .told (.inr hadd)
    | some added => exact .entered hadd

lemma entered_failureRecord (a : Arena Entry) (err : HostError) :
    (failureRecord a err).1.slots.map (failureRecord a err).2.get? =
      ((failureRecord a err).1.slots.map fun _ => Entry.error err).map some := by
  unfold failureRecord
  split
  · simp
  · rw [pin]
    cases hadd : a.add (.error err) with
    | none => simp
    | some added =>
      obtain ⟨slot, a'⟩ := added
      simp [Arena.get?_add hadd]

/-- A callback that has failed answers with its failure, which is entered and nothing else. -/
lemma exists_refused {err : HostError} (hc : s.control = .answer b (.error err))
    (ht : s.tidy? = none) (hb : s.bridge? b = some br) (he : br.engine = some e)
    (hregular : br.arena.IsRegular) :
    ∃ s' r, s.step? = some s' ∧ Tells br.arena err r ∧
      Enters s b r.slots (r.slots.map fun _ => .error err) s' ∧ s'.control = .engine b ∧
      s'.engine? b = some (e.answer r) := by
  let r := (failureRecord br.arena err).1
  have hproceed : s.proceed? = some (s.answerStep b (.error err)) := by
    rw [proceed?, hc]
  have hanswer : s.answerStep b (.error err) = (s.updateBridge b fun x =>
      { x with arena := (failureRecord br.arena err).2, engine := x.engine.map (·.answer r) }).goto
        (.engine b) := by
    rw [answerStep, hb]
  have h : Alters s b br { br with
      arena := (failureRecord br.arena err).2, engine := some (e.answer r) }
      (s.answerStep b (.error err)) := by
    have h := Alters.updateBridge hb fun x =>
      { x with arena := (failureRecord br.arena err).2, engine := x.engine.map (·.answer r) }
    rw [hanswer]
    refine ⟨h.before, ?_, h.others, h.objects, h.disposed⟩
    have hafter := h.after
    rw [he, Option.map_some] at hafter
    exact hafter
  have hlater : s.lettingGo (s.answerStep b (.error err)) = s.answerStep b (.error err) := by
    rw [hanswer]
    rfl
  refine ⟨s.answerStep b (.error err), r, ?_, tells_failureRecord br.arena err,
    h.enters (mints_failureRecord br.arena err) hregular (entered_failureRecord br.arena err)
      (by rw [he]; rfl), ?_, ?_⟩
  · rw [step?, hc, ht, hproceed, Option.map_some, hlater]
    rfl
  · rw [hanswer]
    rfl
  · rw [engine?, h.after]
    rfl

/-! ### All or nothing -/

/-- **Encoding a value is atomic.**  An operation that sends a value, and a callback that gives
one, make a record of the value as a whole, with a fresh slot for each host object that occurs in
it, or nothing is entered and no engine changes, and the error says what kept the value from being
a record.  A callback that failed then has its failure entered, and nothing else.  Between the two
the value is let go of, as after any other use: leases in it that nothing else refers to end, and
objects in it that nothing else refers to are disposed, so their dispose hooks run. -/
theorem encoding_atomic (h : History types setups (s :: older)) (ht : s.tidy? = none)
    (hb : s.bridge? b = some br) (he : br.engine = some e) :
    (∀ op v w, s.control = .operate b op → op.Passes b → op.sent? = some (v, w) →
      ∃ s', s.step? = some s' ∧ Encoded s b v s' (encode b br.arena v).1 ∧
        Sent s b op e w s' (encode b br.arena v).1) ∧
    (∀ v, s.control = .respond b (.ok v) →
      ∃ s', s.step? = some s' ∧ Encoded s b v s' (encode b br.arena v).1 ∧
        ComesNext (.answer b ((encode b br.arena v).1.mapError BridgeError.cause)) v s s') ∧
    (∀ err, s.control = .answer b (.error err) →
      ∃ s' r, s.step? = some s' ∧ Tells br.arena err r ∧
        Enters s b r.slots (r.slots.map fun _ => .error err) s' ∧ s'.control = .engine b ∧
        s'.engine? b = some (e.answer r)) := by
  have hcore : s.core? b = some ⟨some e, br.arena, br.deferred⟩ := by
    rw [core?_of_bridge? hb, Bridge.core, he]
  have hregular : br.arena.IsRegular :=
    (h.accounted (List.mem_cons_self ..) (side?_of_core? hcore)).regular
  exact ⟨fun _ _ _ hc hp hs => exists_sent hc ht hb he hregular hp hs,
    fun _ hc => exists_replied hc ht hb hregular,
    fun _ hc => exists_refused hc ht hb he hregular⟩

/-! ### A value that strays -/

/-- A program that sends a new host object to script, and beside it an array with a script object
of another bridge. -/
def straying : List Session :=
  tell 0 (.setVariable "y" (.array [.fresh 0 "x" [], .array [.register "f"]]))
    (obey 40 1 (.evaluate (.op (.object []) [])) (some "f") (made [] [{}, {}]))

/-- Whether a value with a host object is about to be sent through a bridge, to which a script
object in it does not belong. -/
def isStraying (s : Session) : Bool :=
  match s.control, s.bridge? 0 with
  | .operate 0 (.setVariable "y" v), some br =>
    s.tidy?.isNone && br.engine.isSome && !v.objects.isEmpty &&
      match (encode 0 br.arena v).1 with
      | .error (.interop .foreignBridge) => true
      | _ => false
  | _, _ => false

/-- Nothing is entered for a value with a script object of another bridge in it. -/
theorem encoding_atomic_straying : ∃ s s' v, straying.head? = some s ∧
    s.control = .operate 0 (.setVariable "y" v) ∧ v.objects ≠ [] ∧ s.step? = some s' ∧
      Enters s 0 [] [] s' ∧ (∀ c, s'.engine? c = s.engine? c) ∧
        s'.control = .done (.error (.operation (.interop .foreignBridge))) := by
  have hstrays : straying.head?.map isStraying = some true := by decide +kernel
  have h : History [] [{}, {}] straying := ((history_made (by decide +kernel)).obey ..).tell ..
  generalize straying = hist at hstrays h ⊢
  cases hist with
  | nil => cases hstrays
  | cons s older =>
  rw [List.head?_cons, Option.map_some, Option.some_inj, isStraying] at hstrays
  split at hstrays
  case h_2 => cases hstrays
  case h_1 v br hc hb =>
  simp only [Bool.and_eq_true, Bool.not_eq_true', Option.isNone_iff_eq_none,
    Option.isSome_iff_exists, List.isEmpty_eq_false_iff] at hstrays
  obtain ⟨⟨⟨ht, e, he⟩, hv⟩, hres⟩ := hstrays
  split at hres
  case h_2 => cases hres
  case h_1 herr =>
  obtain ⟨s', hstep, hencoded, hsent⟩ := (encoding_atomic h ht hb he).1 _ v _ hc
    (by simp [Operation.Passes]) rfl
  rw [herr] at hencoded hsent
  cases hencoded with
  | nothing _ henters hengines => exact ⟨s, s', v, rfl, hc, hv, hstep, henters, hengines, hsent.1⟩

end ScriptBridge.Session
