/-
# Every step is one of those listed

What each part of a step does is looked at once, from the engines at work to the values
that are let go.
-/
import ScriptBridge.Proofs.Session.Stride

namespace ScriptBridge.Session

open ScriptBridge.Bridge ScriptBridge.Host ScriptBridge.Table ScriptBridge.Wire

variable {s s' t : Session} {b : Nat}

/-! ### Things that mean nothing for a bridge -/

@[simp] lemma Control.mark_of_isInner {ctl : Control} (hc : ctl.isInner = true) (b : Nat) :
    ctl.mark b = .other := by
  cases ctl <;> first | rfl | cases hc

@[simp] lemma Frame.mark_of_isInner {f : Frame} (hf : f.isInner = true) (b : Nat) :
    f.mark b = .other := by
  cases f <;> first | rfl | cases hf | exact Control.mark_of_isInner hf b

lemma Control.isOf_of_isInner {ctl : Control} (hc : ctl.isInner = true) (b : Nat) : ctl.IsOf b :=
  fun c _ => Control.mark_of_isInner hc c

lemma Frame.isOf_of_isInner {f : Frame} (hf : f.isInner = true) (b : Nat) : f.IsOf b :=
  fun c _ => Frame.mark_of_isInner hf c

lemma Frame.isOf_scope (b : Nat) : (Frame.scope b).IsOf b := fun _ hc => if_neg hc.symm

lemma Control.isOf_perform (b : Nat) (tasks : List Task) (heard : List Heard)
    (result : Except Fault HostValue) : (Control.perform b tasks heard result).IsOf b :=
  fun _ hc => if_neg hc.symm

/-- What host code leads to is a step of its own. -/
lemma Control.flying_of_isInner {ctl : Control} (hc : ctl.isInner = true) : ctl.flying = [] := by
  cases ctl <;> first | rfl | cases hc

lemma Frame.flying_of_isInner {f : Frame} (hf : f.isInner = true) : f.flying = [] := by
  cases f with
  | interrupted ctl => exact Control.flying_of_isInner hf
  | _ => first | rfl | cases hf

/-- Host code lets go of no entries. -/
lemma Control.entries_of_isQuiet {ctl : Control} (hc : ctl.isQuiet = true) : ctl.entries = [] := by
  cases ctl <;> first | rfl | cases hc

lemma flatMap_entries_of_isQuiet {fs : List Frame} (hfs : ∀ f ∈ fs, f.isQuiet = true) :
    fs.flatMap Frame.entries = [] := by
  refine List.flatMap_eq_nil_iff.2 fun f hf => ?_
  have hquiet := hfs f hf
  cases f with
  | interrupted ctl => exact Control.entries_of_isQuiet hquiet
  | _ => rfl

lemma Inner.entries {fs : List Frame} (h : Inner s s') (hfs : ∀ f ∈ fs, f.isQuiet = true) :
    s'.control.entries ++ fs.flatMap Frame.entries = [] := by
  rw [Control.entries_of_isQuiet h.control, flatMap_entries_of_isQuiet hfs]
  rfl

lemma Inner.stride (h : Inner s s') (hc : s.control.isInner = true) : Stride s s' := by
  obtain ⟨fs, hs', hfs⟩ := h.frames
  exact .inner hc (List.nil_append s.frames).symm (by simp) hs'
    (fun f hf => Frame.isInner_of_isQuiet (hfs f hf)) (Control.isInner_of_isQuiet h.control) h.same
    (.inl rfl) fun _ => h.entries hfs

/-! ### Starting an operation -/

lemma recores_startEngine {k : Core} (hb : t.core? b = some k) (p : Purpose) (e : Engine)
    (op : Engine.Operation) :
    Recores t (t.startEngine b p e op) b { k with engine := some (e.enter op) } :=
  .of_updateBridge (f := ({ · with engine := some (e.enter op) }))
    (g := fun k => { k with engine := some (e.enter op) }) hb (fun _ => rfl) rfl
    ⟨fun _ => rfl, rfl, rfl⟩

/-- An operation of a bridge that is started: it has been counted, and its scope is open. -/
structure Opened (s u : Session) (b : Nat) (fs : List Frame) : Prop where
  same : Same s u
  frames : u.frames = .scope b :: (fs ++ s.frames)
  quiet : ∀ f ∈ fs, f.isQuiet = true

lemma Opened.inner {u : Session} {fs : List Frame} (h : Opened s u b fs) :
    ∀ f ∈ fs, f.isInner = true := fun f hf => Frame.isInner_of_isQuiet (h.quiet f hf)

lemma Leads.opened (h : Leads s t) (b : Nat) (crossing : Crossing) :
    ∃ fs, Opened s ((t.record b crossing).push (.scope b)) b fs := by
  obtain ⟨fs, hs, hfs⟩ := h.frames
  have hrecord := h.same.trans (same_record t b crossing)
  exact ⟨fs, ⟨hrecord.core, hrecord.leases, hrecord.nextLease⟩, congrArg (List.cons _) hs, hfs⟩

lemma Opened.stride_gone {u : Session} {fs : List Frame} (h : Opened s u b fs) {op : Operation}
    (hc : s.control = .operate b op) (he : u.engine? b = none) (err : BridgeError) :
    Stride s (u.fail err) := by
  rw [h.same.engine?] at he
  have hnone : fs.flatMap Frame.flying = [] :=
    List.flatMap_eq_nil_iff.2 fun f hf => Frame.flying_of_isInner (h.inner f hf)
  refine .gone_same he (by rw [hc]; exact fun _ _ => rfl) (by rw [hc]; rfl)
    (show u.frames = (.scope b :: fs) ++ s.frames from h.frames) ?_ (fun _ _ => rfl)
    ?_ ⟨h.same.core, h.same.leases, h.same.nextLease⟩ ?_ ?_
  · exact List.forall_mem_cons.2
      ⟨Frame.isOf_scope b, fun f hf => Frame.isOf_of_isInner (h.inner f hf) b⟩
  · rw [List.flatMap_cons, hnone]
    rfl
  · refine List.forall_mem_cons.2 ⟨rfl, List.forall_mem_map.2 (List.forall_mem_cons.2 ⟨?_, ?_⟩)⟩
    · rw [Frame.mark, if_pos rfl]
      rfl
    · exact fun f hf => by rw [Frame.mark_of_isInner (h.inner f hf)]; rfl
  · rw [hc, List.flatMap_cons, flatMap_entries_of_isQuiet h.quiet]
    rfl

lemma Leads.stride_call (h : Leads s t) {op : Operation} (hc : s.control = .operate b op)
    (crossing : Crossing) {work : Engine.Operation}
    (hin : (Engine.Control.begin work).inbound = [])
    (hw : (Engine.Control.begin work).holding = []) (hg : work.given = []) :
    Stride s (t.call b crossing work) := by
  obtain ⟨fs, hopened⟩ := h.opened b crossing
  unfold Session.call
  generalize (t.record b crossing).push (.scope b) = u at hopened
  dsimp only
  split
  · next he => exact hopened.stride_gone hc he _
  · next e he =>
    obtain ⟨a, q, hb⟩ := core?_of_engine? he
    have hm : a.Mints a (Engine.Control.begin work).inbound := by
      rw [hin]
      exact .refl a
    exact .opens hc (by rw [← hopened.same.core]; exact hb) hm hw (by simp [hg]) (.inl rfl)
      (congrArg (List.cons _) hopened.frames) hopened.inner rfl
      (.of_same hopened.same (recores_startEngine hb ..)) (flatMap_entries_of_isQuiet hopened.quiet)

lemma recores_withArena {k : Core} (hb : t.core? b = some k) (a : Arena Entry) :
    Recores t (t.updateBridge b ({ · with arena := a })) b { k with arena := a } :=
  .of_updateBridge (f := ({ · with arena := a })) (g := fun k => { k with arena := a }) hb
    (fun _ => rfl) rfl (.refl _)

lemma Leads.stride_exchange (h : Leads s t) {op : Operation} (hc : s.control = .operate b op)
    (crossing : Crossing) {v : HostValue} {vs : List HostValue}
    (ht : t.frames = .held vs :: s.frames) (hv : v.foreigns ⊆ HostValue.foreignsOf vs)
    {work : Record → Engine.Operation} (hwork : ∀ r, ∃ f, Engine.Brings (work r) f r) :
    Stride s (t.exchange b crossing v work) := by
  obtain ⟨fs, hopened⟩ := h.opened b crossing
  obtain rfl : fs = [.held vs] := by
    have hframes := List.tail_eq_of_cons_eq hopened.frames
    rw [show (t.record b crossing).frames = t.frames from rfl, ht] at hframes
    exact (List.append_cancel_right (show [Frame.held vs] ++ s.frames = fs ++ s.frames from
      hframes)).symm
  unfold Session.exchange
  generalize (t.record b crossing).push (.scope b) = u at hopened
  dsimp only
  split
  · next he => exact hopened.stride_gone hc (engine?_eq_none_of_bridge? he) _
  · next br hbr =>
    split
    · next he =>
      refine hopened.stride_gone hc ?_ _
      rw [Session.engine?, hbr]
      exact he
    · next e he =>
      have hmints := mints_encode b br.arena v
      have hcore' : u.core? b = some ⟨some e, br.arena, br.deferred⟩ := by
        rw [core?_of_bridge? hbr, Bridge.core, he]
      have hcore := (hopened.same.core b).symm.trans hcore'
      split
      · next err a henc =>
        rw [henc] at hmints
        have hrecores := recores_withArena hcore' a
        exact .balks hc hcore hmints hopened.frames hopened.inner rfl
          (.of_same hopened.same ⟨hrecores.core, hrecores.leases, hrecores.nextLease⟩) rfl
      · next r a henc =>
        obtain ⟨f, hbrings⟩ := hwork r
        rw [henc, slotsOfResult, ← hbrings.inbound.1] at hmints
        have hgiven : ∀ h ∈ (work r).given,
            ∃ f ∈ HostValue.foreignsOf ([Frame.held vs].flatMap Frame.values),
              f.bridge = b ∧ f.handle = h := by
          have hnames := names_encode b br.arena (congrArg Prod.fst henc)
          intro h hh
          rw [hbrings.given, hnames.eq] at hh
          obtain ⟨f, hf, rfl⟩ := List.mem_map.1 hh
          exact ⟨f, by simpa [Frame.values] using hv hf, hnames.bridge f hf, rfl⟩
        have hencoded := recores_withArena hcore' a
        have hstart := recores_startEngine hencoded.self .value e (work r)
        have hrecores := Recores.of_same hopened.same (hencoded.trans hstart)
        exact .opens hc hcore hmints hbrings.holding.1 hgiven (.inl rfl)
          (congrArg (List.cons _) hopened.frames) hopened.inner rfl hrecores rfl

lemma stride_operateStep {op : Operation} (hc : s.control = .operate b op) :
    Stride s (s.operateStep b op) := by
  have hinner : s.control.isInner = true := by rw [hc]; rfl
  have h : Leads s s := .refl s
  have hfail : ∀ e, Stride s (s.fail e) := fun e => (h.inner (.done _) rfl).stride hinner
  cases op with
  | evaluate script => exact h.stride_call hc _ rfl rfl rfl
  | getVariable name =>
    unfold operateStep
    dsimp only
    split
    · exact hfail _
    · exact h.stride_call hc _ rfl rfl rfl
  | setVariable name v =>
    unfold operateStep
    dsimp only
    split
    · exact hfail _
    · exact (h.push rfl).stride_exchange hc _ rfl (by simp [HostValue.foreignsOf])
        fun r => ⟨_, .global name r⟩
  | member target name access =>
    unfold operateStep
    dsimp only
    split
    · exact hfail _
    · split
      · exact hfail _
      · cases access with
        | get => exact (h.push rfl).stride_call hc _ rfl rfl rfl
        | set v =>
          exact (h.push rfl).stride_exchange hc _ rfl
            (by simp [Access.values, HostValue.foreignsOf]) fun r => ⟨_, .member _ name r⟩
        | invoke args =>
          exact (h.push rfl).stride_exchange hc _ rfl
            (by simp [Access.values, HostValue.foreigns]) fun r => ⟨_, .arguments _ name r⟩
  | flush =>
    unfold operateStep
    dsimp only
    split
    · next he =>
      exact .gone_same he (by rw [hc]; exact fun _ _ => rfl) (by rw [hc]; rfl)
        (show _ = [Frame.scope b] ++ s.frames from rfl)
        (List.forall_mem_cons.2 ⟨Frame.isOf_scope b, by simp⟩) (fun _ _ => rfl) rfl
        ⟨fun _ => rfl, rfl, rfl⟩
        (by simp [Session.fail, goto, Control.mark, Frame.mark, Mark.isIdle])
        (by rw [hc]; rfl)
    · next e he =>
      obtain ⟨a, q, hb⟩ := core?_of_engine? he
      have hstart := recores_startEngine (t := s.push (.scope b)) hb .nothing e .collect
      exact .opens hc hb (show a.Mints a (Engine.Control.begin .collect).inbound from .refl a) rfl
        (by simp [Engine.Operation.given]) (.inr rfl)
        (show _ = Frame.running b .nothing :: .scope b :: ([] ++ s.frames) from rfl) (by simp) rfl
        ⟨hstart.core, hstart.leases, hstart.nextLease⟩ rfl

lemma core?_updateBridge_self {f : Bridge → Bridge} {g : Core → Core}
    (hf : ∀ br, (f br).core = g br.core) : (s.updateBridge b f).core? b = (s.core? b).map g := by
  rw [core?_updateBridge hf, if_pos rfl]

lemma isSome_core?_updateBridge {f : Bridge → Bridge} :
    ((s.updateBridge b f).core? b).isSome = (s.core? b).isSome := by
  rw [core?, core?, bridge?_updateBridge, if_pos rfl, Option.isSome_map, Option.isSome_map,
    Option.isSome_map]

/-! ### Replies -/

lemma stride_decodeStep {r : Record} (hc : s.control = .decode b r) :
    Stride s (s.decodeStep b r) := by
  unfold decodeStep
  split
  · next hb =>
    exact .gone_same (b := b) (engine?_eq_none_of_bridge? hb)
      (by rw [hc]; exact fun _ h => if_neg h.symm) (by rw [hc]; rfl)
      (show _ = [] ++ s.frames from rfl) (by simp) (fun _ _ => rfl) rfl ⟨fun _ => rfl, rfl, rfl⟩
      (List.forall_mem_singleton.2 rfl) (by rw [hc]; rfl)
  · next br hb =>
    exact .decodes (k := br.core) hc (core?_of_bridge? hb) rfl rfl (fun _ => rfl) rfl rfl

lemma stride_performStep {tasks : List Task} {heard : List Heard}
    {result : Except Fault HostValue} (hc : s.control = .perform b tasks heard result) :
    Stride s (s.performStep b tasks heard result) := by
  unfold performStep
  split
  · split
    · next v =>
      refine .performed hc rfl rfl (fun _ => rfl) ?_ rfl
      simp [outcomeValues]
    · next f =>
      refine .performed hc rfl rfl (fun _ => rfl) ?_ rfl
      simp [outcomeValues, Session.fail, goto]
  · next handle rest =>
    split
    · next he => exact .skips he hc rfl rfl ⟨fun _ => rfl, rfl, rfl⟩
    · next e he =>
      obtain ⟨a, q, hb⟩ := core?_of_engine? he
      have hstart := recores_startEngine
        (t := s.push (.interrupted (.perform b rest heard result))) hb .nothing e (.release handle)
      exact .gives hc hb rfl rfl ⟨hstart.core, hstart.leases, hstart.nextLease⟩
  · next handle name rest =>
    split
    · next he => exact .skips he hc rfl rfl ⟨fun _ => rfl, rfl, rfl⟩
    · next e he =>
      obtain ⟨a, q, hb⟩ := core?_of_engine? he
      exact .reads hc hb rfl rfl (recores_startEngine hb ..)

/-! ### Callbacks -/

/-- An engine has done a step, and the session goes on with what came of it. -/
structure Stepped (s u : Session) (b : Nat) (k : Core) : Prop where
  recores : Recores s u b k
  frames : u.frames = s.frames
  control : u.control = .engine b

lemma Stepped.same {k : Core} {u u' : Session} (h : Stepped s u b k) (hs : Same u u') :
    Recores s u' b k := h.recores.trans_same hs

/-- What a request to an entry leads to. -/
lemma stride_readObject {u : Session} {e : Engine} {a : Arena Entry} {q : List Slot}
    {req : Engine.Request} (hc : s.control = .engine b) (hb : s.core? b = some ⟨some e, a, q⟩)
    (he : e.step.2 = .request req) (h : Stepped s u b ⟨some e.step.1, a, q⟩) (o : HostObject)
    (name : String) : Stride s (u.readObject b o name) := by
  have hdescribe := same_describe u b o.type
  have hrecores := h.same hdescribe
  unfold readObject
  dsimp only
  generalize hu : u.updateBridge b (·.describe o.type) = u' at hrecores ⊢
  have hframes : u'.frames = s.frames := by rw [← hu]; exact h.frames
  have hrefuse : ∀ err, Stride s (u'.refuse b err) := fun err =>
    .refuses hc hb he hframes rfl ⟨hrecores.core, hrecores.leases, hrecores.nextLease⟩
  split
  · next g hg =>
    split
    · exact hrefuse _
    · exact .calls (f := .getting b o g.fallible) hc hb he (beq_self_eq_true b)
        (congrArg (List.cons _) hframes) rfl
        ⟨hrecores.core, hrecores.leases, hrecores.nextLease⟩ rfl
  · split
    · split
      · next hnone =>
        have hself := hrecores.self
        rw [core?, hnone] at hself
        cases hself
      · next br hbr =>
        have hself := hrecores.self
        rw [core?_of_bridge? hbr] at hself
        have harena : br.arena = a := congrArg Core.arena (Option.some.inj hself)
        rw [harena]
        have hpin := hrecores.trans (recores_withArena hrecores.self (pin a (.method o name)).2)
        exact .pins hc hb he hframes rfl ⟨hpin.core, hpin.leases, hpin.nextLease⟩
    · exact hrefuse _

lemma stride_serve {u : Session} {e : Engine} {a : Arena Entry} {q : List Slot}
    {req : Engine.Request} (hc : s.control = .engine b) (hb : s.core? b = some ⟨some e, a, q⟩)
    (he : e.step.2 = .request req) (h : Stepped s u b ⟨some e.step.1, a, q⟩) :
    Stride s (u.serve b req) := by
  have hstepped : ∀ crossing, Stepped s (u.record b crossing) b ⟨some e.step.1, a, q⟩ :=
    fun crossing => ⟨h.same (same_record u b crossing), h.frames, h.control⟩
  have hrespond : ∀ {u' : Session}, Stepped s u' b ⟨some e.step.1, a, q⟩ → ∀ r,
      Stride s (u'.goto (.respond b r)) := fun h' r =>
    .refuses hc hb he h'.frames rfl ⟨h'.recores.core, h'.recores.leases, h'.recores.nextLease⟩
  cases req with
  | get slot name =>
    have h' := hstepped .getProperty
    unfold serve readProperty
    dsimp only
    generalize u.record b .getProperty = u' at h'
    split
    · exact hrespond h' _
    · exact stride_readObject hc hb he h' _ _
    · split <;> exact hrespond h' _
    · split
      · exact hrespond h' _
      · split <;> exact hrespond h' _
  | set slot name r =>
    have h' := hstepped .setProperty
    unfold serve writeProperty
    dsimp only
    generalize u.record b .setProperty = u' at h'
    split
    · exact hrespond h' _
    · next o hentry =>
      have h'' : Stepped s (u'.updateBridge b (·.describe o.type)) b ⟨some e.step.1, a, q⟩ :=
        ⟨h'.same (same_describe u' b o.type), h'.frames, h'.control⟩
      split
      · next setter hsetter =>
        exact .takes (f := .assignee b o setter) hc hb he (.inl ⟨slot, name, rfl⟩)
          (beq_self_eq_true b) (congrArg (List.cons _) h''.frames) rfl
          ⟨h''.recores.core, h''.recores.leases, h''.recores.nextLease⟩
      · exact hrespond h'' _
    · exact hrespond h' _
  | invoke slot r =>
    have h' := hstepped .invoke
    unfold serve callEntry
    dsimp only
    generalize u.record b .invoke = u' at h'
    split
    · exact hrespond h' _
    · next o name hentry =>
      exact .takes (f := .callee b o name) hc hb he (.inr ⟨slot, rfl⟩) (beq_self_eq_true b)
        (congrArg (List.cons _) h'.frames) rfl
        ⟨h'.recores.core, h'.recores.leases, h'.recores.nextLease⟩
    · exact hrespond h' _

/-! ### Slots -/

/-- Giving up a slot and its entry. -/
lemma unpin_eq {k : Core} (hb : t.core? b = some k) (slot : Slot) (next : Control) :
    (k.arena.take slot = none ∧ t.unpin b slot next = t.goto next) ∨
    ∃ entry a, k.arena.take slot = some (entry, a) ∧
      t.unpin b slot next = ((t.updateBridge b ({ · with arena := a })).push
        (.interrupted next)).goto (.release [entry]) := by
  obtain ⟨br, hbr, hk⟩ := bridge?_of_core? hb
  have harena : br.arena = k.arena := by rw [← hk]; rfl
  unfold unpin
  rw [hbr, Option.bind_some, harena]
  cases htake : k.arena.take slot with
  | none => exact .inl ⟨rfl, rfl⟩
  | some x => exact .inr ⟨x.1, x.2, rfl, rfl⟩

/-! ### Engines -/

lemma stride_engineStep (hc : s.control = .engine b) : Stride s (s.engineStep b) := by
  unfold engineStep
  split
  · next he =>
    exact .gone_same (b := b) he (by rw [hc]; exact fun _ h => if_neg h.symm) (by rw [hc]; rfl)
      (show _ = [] ++ s.frames from rfl) (by simp) (fun _ _ => rfl) rfl ⟨fun _ => rfl, rfl, rfl⟩
      (List.forall_mem_singleton.2 rfl) (by rw [hc]; rfl)
  · next e he =>
    obtain ⟨a, q, hb⟩ := core?_of_engine? he
    have hstepped : Stepped s (s.updateBridge b ({ · with engine := some e.step.1 })) b
        ⟨some e.step.1, a, q⟩ :=
      ⟨.of_updateBridge (g := fun k => { k with engine := some e.step.1 }) hb (fun _ => rfl) rfl
        (.refl _), rfl, hc⟩
    dsimp only
    generalize s.updateBridge b ({ · with engine := some e.step.1 }) = u at hstepped
    have hrecores := hstepped.recores
    split
    · next hev => exact .works hc hb hev hstepped.frames hstepped.control hrecores
    · next slot hev =>
      have hrecord := hstepped.same (same_record u b .removeSlot)
      have hcall : (u.record b .removeSlot).inCall b = s.inCall b := by
        unfold inCall
        rw [show (u.record b .removeSlot).frames = s.frames from hstepped.frames]
      unfold removeSlot
      dsimp only
      rw [hcall]
      split
      · next hi =>
        have hdefer : Recores (u.record b .removeSlot)
            ((u.record b .removeSlot).updateBridge b (·.defer slot)) b
            ⟨some e.step.1, a, q ++ [slot]⟩ :=
          .of_updateBridge (g := fun k => { k with deferred := k.deferred ++ [slot] })
            hrecord.self (fun _ => rfl) rfl (.refl _)
        have hall := hrecord.trans hdefer
        exact .defers hc hb hev hi hstepped.frames rfl ⟨hall.core, hall.leases, hall.nextLease⟩
      · next hi =>
        rw [Bool.not_eq_true] at hi
        rcases unpin_eq hrecord.self slot (.engine b) with ⟨ht, heq⟩ | ⟨entry, a', ht, heq⟩
        · rw [heq]
          exact .misses hc hb hev hi ht hstepped.frames rfl
            ⟨hrecord.core, hrecord.leases, hrecord.nextLease⟩
        · rw [heq]
          have hall := hrecord.trans (recores_withArena hrecord.self a')
          exact .unpins hc hb hev hi ht (congrArg (List.cons _) hstepped.frames) rfl
            ⟨hall.core, hall.leases, hall.nextLease⟩
    · next req hev => exact stride_serve hc hb hev hstepped
    · next r hev =>
      unfold takeFinished
      split
      · next c p rest hframes =>
        have htake : ({ u with frames := rest } : Session).takeReply b p r =
            { u with frames := rest, control := replyControl b r p } := by cases p <;> rfl
        rw [htake]
        exact .finishes hc hb hev (hstepped.frames.symm.trans hframes) rfl rfl
          ⟨hrecores.core, hrecores.leases, hrecores.nextLease⟩
      · next hframes =>
        exact .misplaced hc hb (fun p rest h => hframes _ p rest (hstepped.frames.trans h))
          hstepped.frames rfl ⟨hrecores.core, hrecores.leases, hrecores.nextLease⟩ rfl ⟨_, hev⟩

lemma stride_respondStep {r : Except HostError HostValue} (hc : s.control = .respond b r) :
    Stride s (s.respondStep b r) := by
  unfold respondStep
  split
  · exact .fails hc rfl rfl ⟨fun _ => rfl, rfl, rfl⟩
  · next v =>
    split
    · next hb =>
      exact .gone_same (b := b) (engine?_eq_none_of_bridge? hb)
        (by rw [hc]; exact fun _ h => if_neg h.symm) (by rw [hc]; rfl)
        (show _ = [] ++ s.frames from rfl) (by simp) (fun _ _ => rfl) rfl ⟨fun _ => rfl, rfl, rfl⟩
        (List.forall_mem_singleton.2 rfl) (by rw [hc]; rfl)
    · next br hb =>
      have hcore := core?_of_bridge? hb
      have hrecores := recores_withArena hcore (encode b br.arena v).2
      exact .responds hc hcore rfl rfl ⟨hrecores.core, hrecores.leases, hrecores.nextLease⟩

lemma stride_answerStep {r : Except HostError Record} (hc : s.control = .answer b r) :
    Stride s (s.answerStep b r) := by
  have hof : s.control.IsOf b := by
    rw [hc]
    exact fun _ h => if_neg h.symm
  unfold answerStep
  split
  · next hb =>
    exact .gone_same (b := b) (engine?_eq_none_of_bridge? hb) hof (by rw [hc]; rfl)
      (show _ = [] ++ s.frames from rfl) (by simp) (fun _ _ => rfl) rfl ⟨fun _ => rfl, rfl, rfl⟩
      (List.forall_mem_singleton.2 rfl) (by rw [hc]; rfl)
  · next br hb =>
    have hcore := core?_of_bridge? hb
    have hanswer : ∀ (record : Record) (arena : Arena Entry), Recores s
        ((s.updateBridge b fun br =>
          { br with arena := arena, engine := br.engine.map (·.answer record) }).goto (.engine b)) b
        ⟨br.engine.map (·.answer record), arena, br.deferred⟩ := fun record arena =>
      .of_updateBridge
        (g := fun k => { k with arena := arena, engine := k.engine.map (·.answer record) })
        hcore (fun _ => rfl) rfl ⟨fun _ => rfl, rfl, rfl⟩
    have hgiven : ∀ record arena, (r = .ok record ∧ arena = br.arena ∨
        ∃ err, r = .error err ∧ failureRecord br.arena err = (record, arena)) →
        Stride s ((s.updateBridge b fun br =>
          { br with arena := arena, engine := br.engine.map (·.answer record) }).goto
            (.engine b)) := by
      intro record arena hr
      have hrecores := hanswer record arena
      cases he : br.engine with
      | none =>
        rw [he] at hrecores
        have hnone : s.engine? b = none := by rw [Session.engine?, hb]; exact he
        refine .gone (b := b) hnone hof (by rw [hc]; rfl) (show _ = [] ++ s.frames from rfl)
          (by simp) (fun _ h => if_neg h.symm) rfl (fun c hne => ?_) ?_ rfl rfl (fun hi => ?_)
          (by rw [hc]; rfl) isSome_core?_updateBridge
        · rw [hrecores.core, if_neg hne.symm]
        · rw [engine?_eq, hrecores.self]
          rfl
        · rw [hc, Control.mark, if_pos rfl] at hi
          cases hi
      | some e =>
        rw [Bridge.core, he] at hcore
        rw [he] at hrecores
        exact .answers hc hcore hr rfl rfl hrecores
    cases r with
    | ok record => exact hgiven record br.arena (.inl ⟨rfl, rfl⟩)
    | error err => exact hgiven _ _ (.inr ⟨err, rfl, rfl⟩)

/-! ### Giving up slots and entries -/

lemma stride_drainStep {slots : List Slot} (hc : s.control = .drain b slots) :
    Stride s (s.drainStep b slots) := by
  have hof : s.control.IsOf b := by
    rw [hc]
    exact fun _ h => if_neg h.symm
  have hgone : ∀ ctl : Control, ctl.IsOf b → ctl.flying = [] → (ctl.mark b).isIdle = true →
      ctl.entries = [] → s.bridge? b = none → Stride s (s.goto ctl) := fun ctl hctl hfly hi hq hb =>
    .gone_same (b := b) (engine?_eq_none_of_bridge? hb) hof (by rw [hc]; rfl)
      (show _ = [] ++ s.frames from rfl) (by simp) hctl (by rw [goto, hfly]; rfl)
      ⟨fun _ => rfl, rfl, rfl⟩ (List.forall_mem_singleton.2 hi) (by rw [hc, goto, hq]; rfl)
  cases hb : s.bridge? b with
  | none =>
    cases slots with
    | nil =>
      rw [drainStep, hb]
      exact hgone _ (fun _ _ => rfl) rfl rfl rfl hb
    | cons slot rest =>
      rw [drainStep, unpin, hb]
      exact hgone _ (fun _ h => if_neg h.symm) rfl (by rw [Control.mark, if_pos rfl]; rfl) rfl hb
  | some br =>
    have hcore := core?_of_bridge? hb
    cases slots with
    | nil =>
      rw [drainStep, hb, Option.elim_some]
      split
      · next hq => exact .dries hc hcore hq rfl rfl ⟨fun _ => rfl, rfl, rfl⟩
      · next hq =>
        have hrecores : Recores s (s.updateBridge b ({ · with deferred := [] })) b
            { br.core with deferred := [] } :=
          .of_updateBridge (g := fun k => { k with deferred := [] }) hcore (fun _ => rfl) rfl
            (.refl _)
        exact .refills hc hcore rfl rfl ⟨hrecores.core, hrecores.leases, hrecores.nextLease⟩
    | cons slot rest =>
      rw [drainStep]
      rcases unpin_eq hcore slot (.drain b rest) with ⟨ht, heq⟩ | ⟨entry, a', ht, heq⟩
      · rw [heq]
        exact .passes hc hcore ht rfl rfl ⟨fun _ => rfl, rfl, rfl⟩
      · rw [heq]
        have hrecores := recores_withArena hcore a'
        exact .drains hc hcore ht rfl rfl ⟨hrecores.core, hrecores.leases, hrecores.nextLease⟩

lemma Leads.log (h : Leads s t) (text : String) : Leads s (t.log text) :=
  h.untouched ⟨rfl, rfl, rfl, rfl, rfl⟩

lemma stride_releaseStep {entries : List Entry} (hc : s.control = .release entries) :
    Stride s (s.releaseStep entries) := by
  have hinner : s.control.isInner = true := by rw [hc]; rfl
  have hworks : ∀ (u : Session) (fs : List Frame), u.frames = fs ++ s.frames →
      (∀ f ∈ fs, f.isInner = true) → u.control.isInner = true → Same s u → Stride s u :=
    fun u fs hs hfs hctl h => .inner hinner (List.nil_append s.frames).symm (by simp) hs hfs hctl h
      (.inl rfl) (by rw [hc]; nofun)
  cases entries with
  | nil => exact hworks _ [] rfl (by simp) rfl ⟨fun _ => rfl, rfl, rfl⟩
  | cons entry rest =>
    have hgoto : Same s (s.goto (.release rest)) := ⟨fun _ => rfl, rfl, rfl⟩
    unfold releaseStep
    dsimp only
    cases entry.target? with
    | none => exact hworks _ [] rfl (by simp) rfl hgoto
    | some o =>
      dsimp only
      split
      · exact hworks _ [] rfl (by simp) rfl hgoto
      · generalize hu : (if ((s.goto (.release rest)).typeOf o).logged = true then
            (s.goto (.release rest)).log ((s.goto (.release rest)).identOf o)
          else s.goto (.release rest)) = u
        obtain ⟨hsame, hs, hcontrol⟩ :
            Same s u ∧ u.frames = s.frames ∧ u.control = .release rest := by
          rw [← hu]
          split
          · exact ⟨⟨fun _ => rfl, rfl, rfl⟩, rfl, rfl⟩
          · exact ⟨hgoto, rfl, rfl⟩
        split
        · exact hworks _ [] hs (by simp) (by rw [hcontrol]; rfl) hsame
        · exact hworks _ [.hook o, .interrupted u.control] (congrArg (_ :: _ :: ·) hs)
            (by simp [Frame.isInner, hcontrol, Control.isInner]) rfl
            ⟨hsame.core, hsame.leases, hsame.nextLease⟩

/-- Nothing but one bridge has changed, and its engine has not. -/
structure Retains (s s' : Session) (b : Nat) : Prop where
  core : ∀ c, c ≠ b → s'.core? c = s.core? c
  exists_core : (s'.core? b).isSome = (s.core? b).isSome
  engine : s'.engine? b = s.engine? b
  leases : s'.leases = s.leases
  nextLease : s'.nextLease = s.nextLease

lemma core?_updateBridge_of_ne {f : Bridge → Bridge} {c : Nat} (hne : c ≠ b) :
    (s.updateBridge b f).core? c = s.core? c := by
  rw [core?, core?, bridge?_updateBridge, if_neg hne.symm]

lemma Retains.refl (s : Session) (b : Nat) : Retains s s b :=
  ⟨fun _ _ => rfl, rfl, rfl, rfl, rfl⟩

lemma Retains.updateBridge (h : Retains s t b) {f : Bridge → Bridge}
    (hf : ∀ br, (f br).engine = br.engine) : Retains s (t.updateBridge b f) b where
  core := fun c hne => (core?_updateBridge_of_ne hne).trans (h.core c hne)
  exists_core := isSome_core?_updateBridge.trans h.exists_core
  engine := by
    refine Eq.trans ?_ h.engine
    unfold Session.engine?
    rw [bridge?_updateBridge, if_pos rfl]
    cases t.bridge? b with
    | none => rfl
    | some br => exact hf br
  leases := h.leases
  nextLease := h.nextLease

lemma Retains.stride {slots : List Slot} (h : Retains s t b)
    (hc : s.control = .teardown b slots) (hf : t.frames = s.frames) (fs : List Frame)
    (ctl : Control) (hfs : ∀ f ∈ fs, f.IsOf b) (hctl : ctl.IsOf b)
    (hfly : ctl.flying ++ fs.flatMap Frame.flying = [])
    (hi : ∀ m ∈ ctl.mark b :: fs.map (Frame.mark b), m.isIdle = true) :
    Stride s { t with frames := fs ++ t.frames, control := ctl } :=
  .tears hc (by rw [← hf]) hfs hctl hfly h.core h.engine h.leases h.nextLease hi h.exists_core

lemma stride_teardownStep {slots : List Slot} (hc : s.control = .teardown b slots) :
    Stride s (s.teardownStep b slots) := by
  have hnext : ∀ rest, (Control.teardown b rest).IsOf b := fun _ _ h => if_neg h.symm
  have hmark : ∀ rest, ((Control.teardown b rest).mark b).isIdle = true := fun _ => by
    rw [Control.mark, if_pos rfl]
    rfl
  have hall : Retains s s b := .refl s b
  cases slots with
  | cons slot rest =>
    have hrecord : Retains s (s.record b .removeSlot) b := hall.updateBridge fun _ => rfl
    unfold teardownStep removeSlot
    dsimp only
    split
    · exact (hrecord.updateBridge (f := (·.defer slot)) fun _ => rfl).stride hc rfl [] _
        (by simp) (hnext rest) rfl (List.forall_mem_singleton.2 (hmark rest))
    · unfold unpin
      split
      · exact hrecord.stride hc rfl [] _ (by simp) (hnext rest) rfl
          (List.forall_mem_singleton.2 (hmark rest))
      · next entry a htake =>
        exact (hrecord.updateBridge (f := ({ · with arena := a })) fun _ => rfl).stride hc rfl
          [.interrupted (.teardown b rest)] (.release [entry])
          (List.forall_mem_cons.2 ⟨hnext rest, by simp⟩) (fun _ _ => rfl) rfl
          (List.forall_mem_cons.2 ⟨rfl, List.forall_mem_singleton.2 (hmark rest)⟩)
  | nil =>
    rw [teardownStep]
    split
    · exact hall.stride hc rfl [] .finished (by simp) (fun _ _ => rfl) rfl
        (List.forall_mem_singleton.2 rfl)
    · next br hbr =>
      exact (hall.updateBridge (f := ({ · with arena := br.arena.drain.2, deferred := [] }))
        fun _ => rfl).stride hc rfl [.interrupted (.forget b)] (.release br.arena.drain.1)
        (List.forall_mem_cons.2 ⟨fun _ _ => rfl, by simp⟩) (fun _ _ => rfl) rfl
        (List.forall_mem_cons.2 ⟨rfl, List.forall_mem_singleton.2 rfl⟩)

lemma stride_disposeStep (hc : s.control = .dispose b) : Stride s (s.disposeStep b) := by
  have hinner : s.control.isInner = true := by rw [hc]; rfl
  have hfinish : Stride s s.finish := ((Leads.refl s).inner .finished rfl).stride hinner
  unfold disposeStep
  split
  · exact hfinish
  · split
    · exact hfinish
    · next e he =>
      refine .disposes hc rfl rfl (fun c hne => core?_updateBridge_of_ne hne) ?_ rfl rfl
        (core?_updateBridge_self fun _ => rfl)
      change (s.updateBridge b _).engine? b = none
      rw [Session.engine?, bridge?_updateBridge, if_pos rfl]
      cases s.bridge? b <;> rfl

/-! ### Outcomes -/

/-- What was waited for has ended, and host code goes on. -/
lemma Inner.stride_of_cons {f : Frame} {rest : List Frame} {u : Session}
    (h : Inner { s with frames := rest } u) (hc : s.control.isInner = true)
    (hs : s.frames = f :: rest) (hf : f.isInner = true) (hi : f.isInterrupted = false) :
    Stride s u := by
  obtain ⟨fs, hs', hfs⟩ := h.frames
  exact .inner hc (show s.frames = [f] ++ rest from hs) (by simpa using hf) hs'
    (fun f hf => Frame.isInner_of_isQuiet (hfs f hf)) (Control.isInner_of_isQuiet h.control)
    ⟨h.same.core, h.same.leases, h.same.nextLease⟩ (.inr ⟨f, rfl, hi⟩) fun _ => h.entries hfs

lemma stride_change {f f' : Frame} {rest : List Frame} {u : Session}
    (hc : s.control.isInner = true) (hs : s.frames = f :: rest) (hf : f.isCallback b = true)
    (h : Same s u) (hu : u.frames = rest) (hf' : f'.isCallback b = true) (o : HostObject)
    (a : Action) (scene : Scene) : Stride s (u.change b o f' a scene) := by
  unfold change
  split
  · exact .replies hc hs hf hu rfl ⟨h.core, h.leases, h.nextLease⟩
  · exact .continues hc hs hf (congrArg (List.cons _) hu) hf' rfl
      ⟨h.core, h.leases, h.nextLease⟩ rfl

lemma stride_doneStep {r : Outcome} {f : Frame} {rest : List Frame} (hc : s.control = .done r)
    (hs : s.frames = f :: rest) : Stride s (doneStep { s with frames := rest } f r) := by
  have hinner : s.control.isInner = true := by rw [hc]; rfl
  have h : Leads { s with frames := rest } { s with frames := rest } := .refl _
  have hsame : Same s { s with frames := rest } := ⟨fun _ => rfl, rfl, rfl⟩
  have hreplies : ∀ {c} (res : Except HostError HostValue), f.isCallback c = true →
      Stride s (goto { s with frames := rest } (.respond c res)) := fun res hf =>
    .replies hinner hs hf rfl rfl ⟨fun _ => rfl, rfl, rfl⟩
  cases f with
  | interrupted ctl => exact .resumes hinner hs rfl rfl ⟨fun _ => rfl, rfl, rfl⟩
  | held vs => exact (h.inner (.done r) rfl).stride_of_cons hinner hs rfl rfl
  | pausing => exact (h.inner (.done r) rfl).stride_of_cons hinner hs rfl rfl
  | keeping c => exact (h.inner (.done r) rfl).stride_of_cons hinner hs rfl rfl
  | borrowed o exclusive => exact (h.inner (.done r) rfl).stride_of_cons hinner hs rfl rfl
  | reporting => exact (h.inner (.done _) rfl).stride_of_cons hinner hs rfl rfl
  | running c p => exact .drops hinner hs rfl rfl ⟨fun _ => rfl, rfl, rfl⟩ rfl
  | scope c =>
    unfold doneStep leaveScope
    dsimp only
    split
    · next hi => exact .leaves hinner hs hi rfl rfl ⟨fun _ => rfl, rfl, rfl⟩ rfl
    · next hi =>
      exact .leavesLast hc hs (Bool.eq_false_iff.2 hi) rfl rfl ⟨fun _ => rfl, rfl, rfl⟩
  | getting c o fallible => exact hreplies _ (beq_self_eq_true c)
  | setting c o v => exact hreplies _ (beq_self_eq_true c)
  | calling c o args => exact hreplies _ (beq_self_eq_true c)
  | assignee c o setter =>
    cases r with
    | error e => exact hreplies _ (beq_self_eq_true c)
    | ok v =>
      exact stride_change hinner hs (beq_self_eq_true c) hsame rfl
        (show (Frame.setting c o v).isCallback c = true from beq_self_eq_true c) ..
  | callee c o name =>
    cases r with
    | error e => exact hreplies _ (beq_self_eq_true c)
    | ok v =>
      have hdescribe := hsame.trans (same_describe _ c o.type)
      unfold doneStep callMethod
      dsimp only
      split
      · exact .replies hinner hs (beq_self_eq_true c) rfl rfl
          ⟨hdescribe.core, hdescribe.leases, hdescribe.nextLease⟩
      · exact stride_change hinner hs (beq_self_eq_true c) hdescribe rfl
          (show (Frame.calling c o _).isCallback c = true from beq_self_eq_true c) ..
  | hook o =>
    unfold doneStep
    dsimp only
    split
    · exact (h.inner .finished rfl).stride_of_cons hinner hs rfl rfl
    · exact ((h.log _).inner .finished rfl).stride_of_cons hinner hs rfl rfl
  | sequence actions last scene =>
    cases r with
    | error e => exact (h.inner (.done _) rfl).stride_of_cons hinner hs rfl rfl
    | ok v =>
      exact (h.actFirst _ _ (h.inner _ rfl) fun _ => rfl).stride_of_cons hinner hs rfl rfl
  | listing actions results scene =>
    cases r with
    | error e => exact (h.inner (.done _) rfl).stride_of_cons hinner hs rfl rfl
    | ok v =>
      exact (h.actFirst _ _ (h.inner _ rfl) fun _ => rfl).stride_of_cons hinner hs rfl rfl
  | attempting =>
    unfold doneStep
    dsimp only
    split <;> exact (h.inner (.done _) rfl).stride_of_cons hinner hs rfl rfl

/-! ### Letting go -/

lemma stride_interrupt (hc : ∀ b, s.control ≠ .engine b) (h : Same s t) (hf : t.frames = s.frames)
    (hctl : t.control = s.control) {ctl : Control} (hctl' : ctl.isQuiet = true) :
    Stride s (t.interrupt ctl) := by
  refine .interrupts hc ?_ (Control.isInner_of_isQuiet hctl') ⟨h.core, h.leases, h.nextLease⟩
    (Control.entries_of_isQuiet hctl')
  rw [interrupt, hctl]
  exact congrArg (List.cons _) hf

lemma uses_of_unused? (h : s.unused? = some b) : s.uses b = false := by
  have hfound := List.find?_some h
  rw [Bool.and_eq_true, Bool.not_eq_true'] at hfound
  exact hfound.2

lemma stride_tidy? (hc : ∀ b, s.control ≠ .engine b) (h : s.tidy? = some s') : Stride s s' := by
  unfold tidy? at h
  split at h
  · next b hb =>
    cases h
    exact stride_interrupt hc
      (same_updateBridge (f := ({ · with stage := .dropped })) (fun _ => rfl) s b) rfl rfl rfl
  · split at h
    · next b hb =>
      cases h
      refine .vanishes (b := b) hc rfl rfl (fun c hne => core?_updateBridge_of_ne hne) ?_ rfl rfl
        (core?_updateBridge_self fun _ => rfl) (uses_of_unused? hb)
      rw [Session.engine?, bridge?_updateBridge, if_pos rfl]
      cases s.bridge? b <;> rfl
    · split at h
      · next f hf =>
        cases h
        unfold endLease
        dsimp only
        split
        · next he => exact .forgets hc rfl rfl (fun _ => rfl) (.inr ⟨f, hf, he, rfl⟩) rfl
        · next e he =>
          obtain ⟨a, q, hb⟩ := core?_of_engine? (s := s) he
          have hstart := recores_startEngine (t := s) hb .nothing e (.release f.handle)
          exact .releases hc hf hb rfl rfl hstart.core rfl rfl
      · obtain ⟨st, hst, heq⟩ := Option.map_eq_some_iff.1 h
        subst heq
        unfold forgetObject
        dsimp only
        split
        · exact .forgets hc rfl rfl (fun _ => rfl) (.inl rfl) rfl
        · exact stride_interrupt
            (t := { s with objects := s.objects.filter fun other => !other.object.same st.object })
            hc ⟨fun _ => rfl, rfl, rfl⟩ rfl rfl rfl

lemma lettingGo_eq (before s : Session) : before.lettingGo s = s ∨
    (∀ b, s.control ≠ .engine b) ∧ ∃ vs, vs ⊆ HostValue.referencesOf before.values ∧
      before.lettingGo s = s.interrupt (.drop vs) := by
  unfold lettingGo
  dsimp only
  split
  · exact .inl rfl
  · exact .inl rfl
  · exact .inl rfl
  · next hc _ _ => exact .inr ⟨hc, _, fun _ hw => List.mem_of_mem_filter hw, rfl⟩

/-- What nothing refers to any more is set out to be let go, if there is more than one thing. -/
lemma stride_lettingGo (before t : Session) : before.lettingGo t = t ∨
    (∀ b, t.control ≠ .engine b) ∧ (before.lettingGo t).control.isInner = true ∧
      Stride t (before.lettingGo t) ∧ Same t (before.lettingGo t) := by
  rcases lettingGo_eq before t with heq | ⟨hc, vs, -, heq⟩
  · exact .inl heq
  · rw [heq]
    exact .inr ⟨hc, rfl, stride_interrupt hc (.refl t) rfl rfl rfl, ⟨fun _ => rfl, rfl, rfl⟩⟩

lemma stride_proceed? (h : s.proceed? = some s') : Stride s s' := by
  unfold proceed? at h
  have hinner : ∀ {u}, s.control.isInner = true → Inner s u → Stride s u := fun hc hu =>
    hu.stride hc
  split at h
  · next r hc =>
    split at h
    · cases h
    · cases h
    · next f rest hs =>
      cases h
      exact stride_doneStep hc hs
  · next hc => cases h; exact hinner (by rw [hc]; rfl) (inner_actStep ..)
  · next hc => cases h; exact stride_operateStep hc
  · next hc => cases h; exact stride_engineStep hc
  · next hc => cases h; exact stride_decodeStep hc
  · next hc => cases h; exact stride_performStep hc
  · next hc => cases h; exact stride_respondStep hc
  · next hc => cases h; exact stride_answerStep hc
  · next hc => cases h; exact stride_drainStep hc
  · next hc => cases h; exact stride_releaseStep hc
  · next hc => cases h; exact stride_disposeStep hc
  · next hc => cases h; exact stride_teardownStep hc
  · next b hc =>
    cases h
    exact hinner (by rw [hc]; rfl)
      (((Leads.refl s).updateBridge (f := ({ · with described := [] })) (fun _ => rfl) b).inner _
        rfl)
  · next hc => cases h; exact hinner (by rw [hc]; rfl) ((Leads.refl s).inner _ rfl)
  · next hc => cases h; exact hinner (by rw [hc]; rfl) ((Leads.refl s).inner _ rfl)

/-- **A step of a session is one of those listed, after which what nothing refers to any
more may be set out to be let go.** -/
theorem stride_of_step? (h : s.step? = some s') :
    ∃ t, Stride s t ∧ (s' = t ∨ (∀ b, t.control ≠ .engine b) ∧ s'.control.isInner = true ∧
      Stride t s' ∧ Same t s') := by
  unfold step? at h
  split at h
  · next b hc =>
    cases h
    exact ⟨_, stride_engineStep hc, .inl rfl⟩
  · next hc =>
    cases htidy : s.tidy? with
    | some u =>
      rw [htidy] at h
      cases h
      exact ⟨_, stride_tidy? hc htidy, .inl rfl⟩
    | none =>
      rw [htidy] at h
      obtain ⟨t, ht, heq⟩ := Option.map_eq_some_iff.1 h
      subst heq
      exact ⟨t, stride_proceed? ht, stride_lettingGo s t⟩

end ScriptBridge.Session
