/-
# Decoding a record

Before the value of a record is given, what the record leaves to its engine is done: the members
of a thrown object are read, and the handles that no value owns are given up.  Scripts and host
code run meanwhile.  A ledger is kept over all of it: whatever has happened so far, the handles
that have been given up and those that are still to be are those of the record which ended up in
no lease, and those in the replies that came.
-/
import ScriptBridge.Proofs.Bridge.Acceptance
import ScriptBridge.Proofs.Session.AtWork
import ScriptBridge.Proofs.Session.Identity

namespace ScriptBridge.Session

open ScriptBridge.Bridge ScriptBridge.Host ScriptBridge.Table ScriptBridge.Wire

variable {s s' t u : Session} {b c : Nat} {p : Purpose} {l below rest : List Frame}
  {ctl : Control} {x : Side} {r : Record} {types : List HostType} {setups : List Setup}
  {older between : List Session}

/-! ### From one state on -/

/-- The states that a program goes through from one on, the last one first. -/
inductive Course (s : Session) : List Session → Prop
  /-- It is there. -/
  | starts : Course s [s]
  /-- Something has happened. -/
  | goes {t t' : Session} {older : List Session} (h : Course s (t :: older)) (hgo : Goes t t') :
    Course s (t' :: t :: older)

/-- What a program goes through from a state of its history on continues the history. -/
lemma Course.history {course : List Session} (h : Course s course)
    (hs : History types setups (s :: older)) : History types setups (course ++ older) := by
  induction h with
  | starts => exact hs
  | goes h hgo ih => exact ih.goes hgo

/-- The slots of all bridges whose engine is there are accounted for. -/
def Orderly (s : Session) : Prop := ∀ b x, s.side? b = some x → x.Accounted

lemma Goes.orderly (h : Goes s s') (hs : Orderly s) : Orderly s' := fun b y hy => by
  obtain ⟨k, x, z, hx, hmove, ⟨heq, -⟩ | ⟨-, hmove', -⟩⟩ := h.moves hy
  · exact heq ▸ hmove.accounted (hs b x hx)
  · exact hmove'.accounted (hmove.accounted (hs b x hx))

lemma Course.orderly {course : List Session} (h : Course s course) (hs : Orderly s) :
    ∀ t ∈ course, Orderly t := by
  induction h with
  | starts => exact List.forall_mem_singleton.2 hs
  | goes h hgo ih => exact List.forall_mem_cons.2 ⟨hgo.orderly (ih _ (List.mem_cons_self ..)), ih⟩

lemma History.orderly (h : History types setups (s :: older)) : Orderly s :=
  fun _ _ hx => h.accounted (List.mem_cons_self ..) hx

/-- The slots that are accounted for do not depend on the record that is decoded next. -/
lemma Orderly.decode {r₀ : Record} (h : Orderly s) (hc : s.control = .decode b r₀) (r : Record) :
    Orderly (s.goto (.decode b r)) := by
  rintro d ⟨e, a, q, T⟩ hx
  obtain ⟨hcore, rfl⟩ := side?_eq_some.1 hx
  have ha := h d _ (side?_of_core? (hcore : s.core? d = _))
  by_cases hd : b = d
  · subst hd
    have htrail : s.trail b = .decode r₀ :: s.frames.map (Frame.mark b) := by
      rw [trail, hc, Control.mark, if_pos rfl]
    have htrail' : (s.goto (.decode b r)).trail b = .decode r :: s.frames.map (Frame.mark b) := by
      rw [trail, goto, Control.mark, if_pos rfl]
    rw [htrail] at ha
    rw [htrail']
    obtain ⟨hscope, hrests⟩ := (ha.nested.atRest_of_cons (by simp)).of_decode
    exact
      { shaped := ha.shaped
        sound := ha.sound
        connected := ha.connected
        nested := .rests (.decode hscope hrests)
        clean := fun hm => ha.clean fun hm' => hm (by simpa using hm')
        nodup := ha.nodup
        occupied := ha.occupied
        regular := ha.regular
        deferred := fun hq => (ha.deferred hq).imp (by simp) (by simp) }
  · have htrail : (s.goto (.decode b r)).trail d = s.trail d := by
      rw [trail, trail, hc, goto, Control.mark, Control.mark, if_neg hd, if_neg hd]
    rw [htrail]
    exact ha

/-! ### Waiting for the reply of an engine -/

/-- A frame that waits for an engine stays on top until an engine has ended an operation. -/
lemma Stride.of_running (h : Stride s t) (hf : s.frames = .running b p :: rest) :
    (∃ l, t.frames = l ++ s.frames) ∨ s.control.isInner = true ∨
      ∃ c e r, s.control = .engine c ∧ s.engine? c = some e ∧ e.step.2 = .finished r ∧
        t.frames = rest ∧ t.control = replyControl c r p := by
  cases h with
  | finishes hc hb he hs hs' hc' =>
    rw [hf, List.cons.injEq, Frame.running.injEq] at hs
    obtain ⟨⟨rfl, rfl⟩, rfl⟩ := hs
    exact .inr (.inr ⟨_, _, _, hc, engine?_of_core? hb, he, hs', hc'⟩)
  | inner hc | resumes hc | drops hc | replies hc | continues hc | leaves hc =>
    exact .inr (.inl hc)
  | leavesLast hc hs =>
    rw [hf] at hs
    cases hs
  | interrupts hc hs' => exact .inl ⟨[_], hs'⟩
  | forgets hc hs' | vanishes hc hs' | disposes hc hs' | performed hc hs' | fails hc hs' =>
    exact .inl ⟨[], hs'⟩
  | tears hc hs' => exact .inl ⟨_, hs'⟩
  | gone hb hc hfly hs' => exact .inl ⟨_, hs'⟩
  | skips hb hc hs' => exact .inl ⟨[], hs'⟩
  | opens hc hb hm hw hg hp hs' => exact .inl ⟨_ :: _ :: _, hs'⟩
  | balks hc hb hm hs' => exact .inl ⟨_ :: _, hs'⟩
  | releases hc hf hb hs' => exact .inl ⟨[_, _], hs'⟩
  | gives hc hb hs' => exact .inl ⟨[_, _], hs'⟩
  | reads hc hb hs' => exact .inl ⟨[_], hs'⟩
  | decodes hc hb hs' | responds hc hb hs' | refills hc hb hs' => exact .inl ⟨[], hs'⟩
  | works hc hb he hs' | refuses hc hb he hs' | pins hc hb he hs' => exact .inl ⟨[], hs'⟩
  | misplaced hc hb hs hs' => exact .inl ⟨[], hs'⟩
  | answers hc hb hr hs' | passes hc hb ht hs' | dries hc hb hq hs' => exact .inl ⟨[], hs'⟩
  | defers hc hb he hi hs' => exact .inl ⟨[], hs'⟩
  | misses hc hb he hi ht hs' => exact .inl ⟨[], hs'⟩
  | unpins hc hb he hi ht hs' => exact .inl ⟨[_], hs'⟩
  | calls hc hb he hf hs' => exact .inl ⟨[_], hs'⟩
  | takes hc hb he hr hf hs' => exact .inl ⟨[_], hs'⟩
  | drains hc hb ht hs' => exact .inl ⟨[_], hs'⟩

/-- What waits for an engine waits for one at work. -/
lemma eq_of_running (hx : s.side? b = some x) (ha : x.Accounted)
    (hf : s.frames = .running b p :: rest) :
    s.control.isInner = false ∧ ∀ c, s.control = .engine c → c = b := by
  have hnot : s.control.mark b ≠ .other := fun hmark => by
    refine ha.nested.not_astray ?_
    rw [← (side?_eq_some.1 hx).2, trail, hmark, hf, List.map_cons, Frame.mark, if_pos rfl]
    exact .forlorn
  refine ⟨?_, fun c hc => ?_⟩
  · rw [← Bool.not_eq_true]
    exact fun hc => hnot (Control.mark_of_isInner hc b)
  · by_contra hne
    exact hnot (by rw [hc, Control.mark, if_neg hne])

/-- **What waits for an engine stays where it is until the engine has ended its operation.** -/
theorem Goes.running (h : Goes s s') (hs : Orderly s) (he : (s.engine? b).isSome)
    (hf : s.frames = l ++ .running b p :: below) :
    (∃ l', s'.frames = l' ++ .running b p :: below) ∨
      l = [] ∧ ∃ e r, s.control = .engine b ∧ s.engine? b = some e ∧ e.step.2 = .finished r ∧
        s'.frames = below ∧ s'.control = replyControl b r p := by
  obtain ⟨e, he⟩ := Option.isSome_iff_exists.1 he
  obtain ⟨x, hx, -⟩ := side?_isSome_of_engine? he
  -- What is let go of comes on top.
  have hnext : ∀ {t}, (∃ l', t.frames = l' ++ .running b p :: below) →
      (s' = t ∨ ∃ vs, s' = t.interrupt (.drop vs)) →
      ∃ l', s'.frames = l' ++ .running b p :: below := by
    rintro t ⟨l', ht⟩ (rfl | ⟨vs, rfl⟩)
    · exact ⟨l', ht⟩
    · exact ⟨_ :: l', congrArg (List.cons _) ht⟩
  cases l with
  | nil =>
    obtain ⟨hinner, hengine⟩ := eq_of_running hx (hs b x hx) hf
    have hstride : ∀ {t}, Stride s t → (∃ l', t.frames = l' ++ .running b p :: below) ∨
        ∃ e r, s.control = .engine b ∧ s.engine? b = some e ∧ e.step.2 = .finished r ∧
          t.frames = below ∧ t.control = replyControl b r p := by
      intro t ht
      rcases ht.of_running hf with ⟨l', hl'⟩ | hinner' | ⟨c, e', r, hc, he', hev, hf', hc'⟩
      · exact .inl ⟨l', by rw [hl', hf, List.nil_append]⟩
      · rw [hinner] at hinner'
        cases hinner'
      · obtain rfl := hengine c hc
        exact .inr ⟨e', r, hc, he', hev, hf', hc'⟩
    by_cases hc : ∃ c, s.control = .engine c
    · obtain ⟨c, hc⟩ := hc
      have ht : Stride s s' := h.eq_engineStep hc ▸ stride_engineStep hc
      exact (hstride ht).imp_right fun hfinished => ⟨rfl, hfinished⟩
    · obtain ⟨t, ht, heq⟩ := h.exists_stride
      rcases hstride ht with hstays | ⟨e, r, hc', -⟩
      · exact .inl (hnext hstays heq)
      · exact absurd ⟨b, hc'⟩ hc
  | cons f l =>
    obtain ⟨t, ht, heq⟩ := h.exists_stride
    refine .inl (hnext ?_ heq)
    cases ht.stacks with
    | pushes k h => exact ⟨k ++ f :: l, by rw [h, hf, List.append_assoc]⟩
    | pops k hs' hf' h =>
      rw [hs', List.cons_append, List.cons.injEq] at hf
      exact ⟨k ++ l, by rw [h, hf.2, List.append_assoc]⟩
    | resumes hs' h =>
      rw [hs', List.cons_append, List.cons.injEq] at hf
      exact ⟨l, h.trans hf.2⟩

/-- An engine that is waited for does not go. -/
lemma Goes.engine_isSome (h : Goes s s') (he : (s.engine? b).isSome)
    (hf : .running b p ∈ s.frames) : (s'.engine? b).isSome := by
  have hbusy : s.isBusy b = true :=
    List.any_eq_true.2 ⟨_, hf, beq_self_eq_true b⟩
  have huses : s.uses b = true := by
    rw [Session.uses, Bool.or_eq_true]
    exact .inr (List.any_eq_true.2 ⟨_, hf, decide_eq_true rfl⟩)
  obtain ⟨e, he⟩ := Option.isSome_iff_exists.1 he
  by_contra hnone
  rcases h.of_engine_gone he (Option.not_isSome_iff_eq_none.1 hnone) with ⟨-, hidle, -⟩ | ⟨t, hv, -⟩
  · rw [hbusy] at hidle
    cases hidle
  · have hunused := hv.uses
    rw [huses] at hunused
    cases hunused

/-! ### What happens meanwhile -/

/-- A member of a thrown object whose reply is taken next, for a record that is decoded on so many
frames. -/
def replyNext? (b depth : Nat) (s : Session) : Option (Handle × String × Record) :=
  match s.control, s.frames with
  | .engine c, .running d (.member thrown name _ _ _) :: rest =>
    if c = b ∧ d = b ∧ rest.length = depth then
      match (s.engine? b).map fun e => e.step.2 with
      | some (Engine.Event.finished r) => some (thrown, name, r)
      | _ => none
    else none
  | _, _ => none

/-- The handles in the reply about a member of a thrown object that is taken next. -/
def replied (b depth : Nat) (s : Session) : List Handle :=
  (s.replyNext? b depth).toList.flatMap fun reply => reply.2.2.handles

/-- The handle that is given up next for a record that is decoded on so many frames. -/
def givenUp (b depth : Nat) (s : Session) : List Handle :=
  match s.control with
  | .perform c (.release h :: _) _ _ =>
    if c = b ∧ s.frames.length = depth ∧ s.isTidying = false then [h] else []
  | _ => []

/-- What is heard next about the members of thrown objects: what a reply says, or nothing where
the engine that would have to be asked has gone. -/
def heardNext (b depth : Nat) (s : Session) : List Heard :=
  match s.control with
  | .perform c (.read h name :: _) _ _ =>
    if c = b ∧ s.frames.length = depth ∧ s.isTidying = false ∧ s.engine? b = none then
      [⟨h, name, none⟩]
    else []
  | _ => (s.replyNext? b depth).toList.map fun reply => ⟨reply.1, reply.2.1, textOf? reply.2.2⟩

/-- A reply is taken for what lies beneath. -/
lemma Goes.length_of_replyNext? {depth : Nat} {reply : Handle × String × Record} (h : Goes s s')
    (hr : s.replyNext? b depth = some reply) : s'.frames.length = depth := by
  unfold replyNext? at hr
  split at hr
  · next c d thrown name tasks heard result rest hc hf =>
    split at hr
    · next hif =>
      obtain ⟨rfl, rfl, rfl⟩ := hif
      split at hr
      · next r hev =>
        obtain ⟨e, he, hev⟩ := Option.map_eq_some_iff.1 hev
        have hstep : e.step = (e.step.1, .finished r) := Prod.ext rfl hev
        have htake : (s.updateBridge d ({ · with engine := some e.step.1 })).frames =
            .running d (.member thrown name tasks heard result) :: rest := hf
        rw [h.eq_engineStep hc, engineStep, he]
        dsimp only
        rw [hstep]
        dsimp only
        rw [takeFinished, htake]
        rfl
      · cases hr
    · cases hr
  · cases hr

/-- Nothing of this happens for a record. -/
structure Silent (b depth : Nat) (s : Session) : Prop where
  givenUp : s.givenUp b depth = []
  replied : s.replied b depth = []
  heardNext : s.heardNext b depth = []

/-- Nothing is given up for a record, and no task of it done, on more frames than it has. -/
lemma silent_of_replyNext? {depth : Nat} (hn : s.replyNext? b depth = none)
    (hd : s.frames.length ≠ depth) : Silent b depth s where
  givenUp := by
    unfold Session.givenUp
    split
    · exact if_neg fun h => hd h.2.1
    · rfl
  replied := by rw [Session.replied, hn]; rfl
  heardNext := by
    unfold Session.heardNext
    split
    · exact if_neg fun h => hd h.2.1
    · rw [hn]; rfl

lemma silent_of_interrupted (hf : s.frames = l ++ .interrupted ctl :: below) :
    Silent b below.length s := by
  refine silent_of_replyNext? ?_ ?_
  · unfold replyNext?
    split
    · next rest _ hrunning =>
      refine if_neg fun h => ?_
      rw [hrunning] at hf
      cases l with
      | nil => cases hf
      | cons f l =>
        rw [List.cons_append, List.cons.injEq] at hf
        have hlength := congrArg List.length hf.2
        rw [List.length_append, List.length_cons] at hlength
        omega
    · rfl
  · rw [hf, List.length_append, List.length_cons]
    omega

/-- Nothing is done for a record while something else is let go of. -/
lemma silent_of_tidying (depth : Nat) (ht : s.isTidying = true) : Silent b depth s where
  givenUp := by
    unfold Session.givenUp
    split
    · exact if_neg fun h => by rw [ht] at h; cases h.2.2
    · rfl
  replied := by
    unfold Session.replied replyNext?
    split
    · next hc hrunning =>
      rw [isTidying_of_engine hc] at ht
      cases ht
    · rfl
  heardNext := by
    unfold Session.heardNext replyNext?
    split
    · exact if_neg fun h => by rw [ht] at h; cases h.2.2.1
    · split
      · next hc hrunning =>
        rw [isTidying_of_engine hc] at ht
        cases ht
      · rfl

/-! ### What a record leaves to its engine -/

/-- What a record leaves to its engine is being done, on what lies beneath: something has been
heard about thrown objects, and some handles are still to be given up. -/
inductive Performing (b : Nat) (below : List Frame) (result : Except Fault HostValue)
    (heard : List Heard) (owed : List Handle) (s : Session) : Prop
  /-- The next of some tasks is about to be done. -/
  | does {tasks : List Task} (h : IsOn (.perform b tasks heard result) below s)
    (ho : tasks.flatMap Task.released = owed)
  /-- A member of a thrown object is read. -/
  | reads {l : List Frame} {thrown : Handle} {name : String} {tasks : List Task}
    (h : s.frames = l ++ .running b (.member thrown name tasks heard result) :: below)
    (he : (s.engine? b).isSome) (ho : tasks.flatMap Task.released = owed)

/-- All has been done for a record, and its value or its error is given to what lies beneath. -/
structure Performed (below : List Frame) (result : Except Fault HostValue) (heard : List Heard)
    (s : Session) : Prop where
  isOn : IsOn (.done (result.mapError fun f => .operation (f.error heard))) below s
  leases : foreignsOfResult result ⊆ s.leases

variable {result : Except Fault HostValue} {heard : List Heard} {owed : List Handle}
  {tasks : List Task} {task : Task}

lemma Performing.lettingGo (h : Performing b below result heard owed t) (before : Session) :
    Performing b below result heard owed (before.lettingGo t) := by
  cases h with
  | does h ho => exact .does (h.lettingGo before) ho
  | @reads l thrown name tasks h he ho =>
    have he' : ((before.lettingGo t).engine? b).isSome := by rwa [engine?_lettingGo]
    rcases lettingGo_cases before t with heq | ⟨vs, heq⟩
    · exact .reads (heq ▸ h) he' ho
    · have hframes : (before.lettingGo t).frames =
          (.interrupted t.control :: l) ++ .running b (.member thrown name tasks heard result) ::
            below := by
        rw [heq, List.cons_append, ← h]
        rfl
      exact .reads hframes he' ho

lemma Performed.lettingGo (h : Performed below result heard t) (before : Session) :
    Performed below result heard (before.lettingGo t) := by
  refine ⟨h.isOn.lettingGo before, ?_⟩
  rcases lettingGo_cases before t with heq | ⟨vs, heq⟩ <;> rw [heq] <;> exact h.leases

lemma engine?_startEngine {e : Engine} (he : s.engine? b = some e) (p : Purpose)
    (op : Engine.Operation) : (s.startEngine b p e op).engine? b = some (e.enter op) := by
  obtain ⟨a, q, hcore⟩ := core?_of_engine? he
  exact engine?_of_core? (recores_startEngine hcore p e op).self

/-- A task is done, and the others are left. -/
lemma performing_performStep (hc : s.control = .perform b (task :: tasks) heard result)
    (ht : s.isTidying = false) : ∃ owed,
      Performing b s.frames result (heard ++ s.heardNext b s.frames.length) owed
        (s.performStep b (task :: tasks) heard result) ∧
      (s.givenUp b s.frames.length ++ owed).Perm
        (s.replied b s.frames.length ++ (task :: tasks).flatMap Task.released) := by
  have hnone : s.replyNext? b s.frames.length = none := by
    rw [replyNext?, hc]
  have hreplied : s.replied b s.frames.length = [] := by
    rw [replied, hnone]
    rfl
  refine ⟨tasks.flatMap Task.released, ?_⟩
  rw [hreplied, givenUp, heardNext, hc]
  cases task with
  | release g =>
    refine ⟨?_, ?_⟩
    · rw [hnone]
      dsimp only [Option.toList_none]
      rw [List.map_nil, List.append_nil, performStep]
      cases he : s.engine? b with
      | none => exact .does isOn_goto rfl
      | some e => exact .does (.inr ⟨[_], rfl⟩) rfl
    · dsimp only
      rw [if_pos ⟨rfl, rfl, ht⟩]
      exact .refl _
  | read thrown name =>
    refine ⟨?_, .refl _⟩
    dsimp only
    rw [performStep]
    cases he : s.engine? b with
    | none =>
      rw [if_pos ⟨rfl, rfl, ht, rfl⟩]
      exact .does isOn_goto rfl
    | some e =>
      rw [if_neg fun h => Option.some_ne_none e h.2.2.2]
      change Performing b s.frames result (heard ++ []) (tasks.flatMap Task.released)
        (s.startEngine b (.member thrown name tasks heard result) e (.getMember thrown name))
      rw [List.append_nil]
      have hengine : ((s.startEngine b (.member thrown name tasks heard result) e
          (.getMember thrown name)).engine? b).isSome := by
        rw [engine?_startEngine he]
        rfl
      exact .reads (l := []) rfl hengine rfl

/-- When no task is left, the value or the error is given. -/
lemma performed_performStep (hc : s.control = .perform b [] heard result) :
    Performed s.frames result heard (s.performStep b [] heard result) ∧
      ∀ depth, Silent b depth s := by
  have hsilent : ∀ depth, Silent b depth s := fun depth => by
    have hnone : s.replyNext? b depth = none := by
      rw [replyNext?, hc]
    refine ⟨?_, ?_, ?_⟩
    · rw [givenUp, hc]
    · rw [replied, hnone]
      rfl
    · rw [heardNext, hc, hnone]
      rfl
  refine ⟨?_, hsilent⟩
  unfold performStep
  cases result with
  | error f => exact ⟨.inl ⟨rfl, rfl⟩, List.nil_subset _⟩
  | ok v =>
    refine ⟨.inl ⟨rfl, rfl⟩, ?_⟩
    rw [foreignsOfResult_ok]
    exact List.subset_append_right ..

/-- **What is done for a record keeps its ledger.**  What is given up and what is still to be are
what was to be given up before, and the handles in the reply that came. -/
theorem Goes.performing (h : Goes s s') (hs : Orderly s)
    (hp : Performing b below result heard owed s) :
    (∃ owed', Performing b below result (heard ++ s.heardNext b below.length) owed' s' ∧
      (s.givenUp b below.length ++ owed').Perm (s.replied b below.length ++ owed)) ∨
    Silent b below.length s ∧ owed = [] ∧ Performed below result heard s' := by
  have hquiet : Silent b below.length s → Performing b below result heard owed s' →
      ∃ owed', Performing b below result (heard ++ s.heardNext b below.length) owed' s' ∧
        (s.givenUp b below.length ++ owed').Perm (s.replied b below.length ++ owed) :=
    fun hsilent hp' => by
      refine ⟨owed, ?_, ?_⟩
      · rw [hsilent.heardNext, List.append_nil]
        exact hp'
      · rw [hsilent.givenUp, hsilent.replied]
  cases hp with
  | @does tasks hon ho =>
    rcases hon with ⟨rfl, hc⟩ | ⟨l, hl⟩
    · cases h.happens with
      | works hc' =>
        rw [hc] at hc'
        cases hc'
      | tidies hc' ht =>
        refine .inl (hquiet (silent_of_tidying _ (isTidying_of_tidy? hc' ht)) (.does ?_ ho))
        rw [← hc]
        rcases frames_tidy? ht with ⟨hframes, hcontrol⟩ | ⟨l, hl⟩
        · exact .inl ⟨hframes, hcontrol⟩
        · exact .inr ⟨l, hl⟩
      | proceeds hc' ht hnext heq =>
        rw [proceed?, hc] at hnext
        obtain rfl := Option.some.inj hnext
        subst heq
        cases tasks with
        | nil =>
          obtain ⟨hperformed, hsilent⟩ := performed_performStep hc
          exact .inr ⟨hsilent _, ho.symm, hperformed.lettingGo s⟩
        | cons task tasks =>
          obtain ⟨owed', hp', hperm⟩ := performing_performStep hc (isTidying_of_none ht)
          exact .inl ⟨owed', hp'.lettingGo s, ho ▸ hperm⟩
      | turns hc' =>
        rw [hc] at hc'
        cases hc'
    · exact .inl (hquiet (silent_of_interrupted hl) (.does ((h.waits hl).elim .inr .inl) ho))
  -- The read goes on, or its reply comes, and the handles in it are to be given up as well.
  | @reads l thrown name tasks hf he ho =>
    have he' : (s'.engine? b).isSome := h.engine_isSome he
      (p := .member thrown name tasks heard result)
      (by rw [hf]; simp)
    have hlength : s.frames.length ≠ below.length := by
      rw [hf, List.length_append, List.length_cons]
      omega
    rcases h.running hs he hf with ⟨l', hl'⟩ | ⟨rfl, e, r, hc, heng, hev, hf', hc'⟩
    · refine .inl (hquiet (silent_of_replyNext? ?_ hlength) (.reads hl' he' ho))
      refine Option.eq_none_iff_forall_ne_some.2 fun reply hreply => ?_
      have hlower := h.length_of_replyNext? hreply
      rw [hl', List.length_append, List.length_cons] at hlower
      omega
    · have hreply : s.replyNext? b below.length = some (thrown, name, r) := by
        rw [replyNext?, hc, hf]
        dsimp only [List.nil_append]
        rw [if_pos ⟨rfl, rfl, rfl⟩, heng]
        dsimp only [Option.map_some]
        rw [hev]
      have hreleased : (r.handles.map Task.release ++ tasks).flatMap Task.released =
          r.handles ++ owed := by
        rw [List.flatMap_append, ho, List.flatMap_map]
        exact congrArg (· ++ owed) (List.flatMap_singleton' _)
      refine .inl ⟨r.handles ++ owed, .does (.inl ⟨hf', ?_⟩) hreleased, ?_⟩
      · rw [hc', heardNext, hc, hreply]
        rfl
      · rw [givenUp, hc, replied, hreply]
        dsimp only [Option.toList_some]
        rw [List.flatMap_singleton]
        exact .refl _

/-! ### Leases that are referred to -/

lemma Stride.mem_leases {f : ForeignObject} (h : Stride s t) (hf : f ∈ s.leases)
    (hv : f ∈ HostValue.foreignsOf s.values) : f ∈ t.leases := by
  have hdead : ∀ {g}, s.deadLease? = some g →
      f ∈ s.leases.filter fun g' => g'.lease ≠ g.lease := by
    intro g hg
    exact List.mem_filter.2 ⟨hf, decide_eq_true fun heq => not_mem_of_deadLease hg heq hv⟩
  cases h with
  | forgets hc hs' hc' h hl hn =>
    rcases hl with hl | ⟨g, hg, -, hl⟩
    · exact hl ▸ hf
    · exact hl ▸ hdead hg
  | releases hc hg hb hs' hc' h hl hn => exact hl ▸ hdead hg
  | performed hc hs' hc' h hl hn => exact hl ▸ List.mem_append_left _ hf
  | vanishes hc hs' hc' h hb hl hn => exact hl ▸ hf
  | disposes hc hs' hc' h hb hl hn => exact hl ▸ hf
  | tears hc hs' hfs hc' hfly h hb hl hn => exact hl ▸ hf
  | gone hb hc hfly hs' hfs hc' hfly' h hb' hl hn => exact hl ▸ hf
  | decodes hc hb hs' hc' h hl hn => exact hl ▸ hf
  | _ =>
    refine Eq.mpr (congrArg (f ∈ ·) ?_) hf
    first | exact ‹Same s t›.leases | exact ‹Recores s t _ _›.leases

/-- A lease that is referred to does not end. -/
lemma Goes.mem_leases {f : ForeignObject} (h : Goes s s') (hf : f ∈ s.leases)
    (hv : f ∈ HostValue.foreignsOf s.values) : f ∈ s'.leases := by
  obtain ⟨t, ht, rfl | ⟨vs, rfl⟩⟩ := h.exists_stride
  · exact ht.mem_leases hf hv
  · exact (ht.mem_leases hf hv : f ∈ t.leases)

/-- An outcome has been given to what lies beneath. -/
def Returns (below : List Frame) (s : Session) : Prop :=
  s.frames = below ∧ ∃ r, s.control = .done r

/-- An outcome that is not there yet for what lies beneath stays on its way, with the leases in
it. -/
lemma Goes.performed (h : Goes s s') (hp : Performed below result heard s)
    (hr : ¬ Returns below s) : Performed below result heard s' ∧ Silent b below.length s := by
  obtain ⟨l, hl⟩ := hp.isOn.resolve_left fun hon => hr ⟨hon.1, _, hon.2⟩
  refine ⟨⟨(h.waits hl).elim .inr .inl, fun f hf => h.mem_leases (hp.leases hf) ?_⟩,
    silent_of_interrupted hl⟩
  cases result with
  | error e => cases hf
  | ok v =>
    have hmem : v ∈ s.values := by
      rw [Session.values, hl]
      simp [Frame.values, Control.values, Except.mapError, outcomeValues]
    rw [foreignsOfResult_ok] at hf
    exact HostValue.mem_foreignsOf.2 ⟨v, hmem, hf⟩

/-! ### The ledger of a record -/

/-- What has been heard about thrown objects in some states, the last one first. -/
def heardIn (b depth : Nat) (past : List Session) : List Heard :=
  past.reverse.flatMap (heardNext b depth)

/-- The ledger of a record that has been decoded, after some states, the last one first. -/
inductive Ledger (b : Nat) (below : List Frame) (d : Decoded (Except Fault HostValue))
    (past : List Session) (t : Session) : Prop
  /-- Something is still to be done for it. -/
  | running {owed : List Handle}
    (hp : Performing b below d.result (heardIn b below.length past) owed t)
    (hl : (past.flatMap (givenUp b below.length) ++ owed).Perm
      (past.flatMap (replied b below.length) ++ d.tasks.flatMap Task.released))
  /-- All has been done for it. -/
  | closed (hp : Performed below d.result (heardIn b below.length past) t)
    (hl : (past.flatMap (givenUp b below.length)).Perm
      (past.flatMap (replied b below.length) ++ d.tasks.flatMap Task.released))

variable {d : Decoded (Except Fault HostValue)} {past : List Session}

lemma heardIn_cons (b depth : Nat) (s : Session) (past : List Session) :
    heardIn b depth (s :: past) = heardIn b depth past ++ s.heardNext b depth := by
  rw [heardIn, heardIn, List.reverse_cons, List.flatMap_append, List.flatMap_singleton]

/-- **The ledger is kept by all that can happen before the outcome is there.** -/
theorem Ledger.goes (h : Ledger b below d past s) (hs : Orderly s) (hr : ¬ Returns below s)
    (hgo : Goes s s') : Ledger b below d (s :: past) s' := by
  cases h with
  | @running owed hp hl =>
    rcases hgo.performing hs hp with ⟨owed', hp', hperm⟩ | ⟨hsilent, rfl, hp'⟩
    · rw [← heardIn_cons] at hp'
      refine .running hp' ?_
      rw [List.flatMap_cons, List.flatMap_cons, List.perm_iff_count] at *
      intro g
      have hstep := hperm g
      have hpast := hl g
      simp only [List.count_append] at hstep hpast ⊢
      omega
    · refine .closed ?_ ?_
      · rw [heardIn_cons, hsilent.heardNext, List.append_nil]
        exact hp'
      · rw [List.flatMap_cons, List.flatMap_cons, hsilent.givenUp, hsilent.replied]
        simpa using hl
  | closed hp hl =>
    obtain ⟨hp', hsilent⟩ := hgo.performed (b := b) hp hr
    refine .closed ?_ ?_
    · rw [heardIn_cons, hsilent.heardNext, List.append_nil]
      exact hp'
    · rw [List.flatMap_cons, List.flatMap_cons, hsilent.givenUp, hsilent.replied]
      exact hl

variable {br : Bridge}

/-- The ledger of a record begins when the record is decoded. -/
lemma Goes.ledger (h : Goes s s') (hc : s.control = .decode b r) (hb : s.bridge? b = some br)
    (ht : s.tidy? = none) :
    Ledger b s.frames (decode b br.arena s.nextLease r) [s] s' := by
  have hsilent : Silent b s.frames.length s := by
    have hnone : s.replyNext? b s.frames.length = none := by
      rw [replyNext?, hc]
    refine ⟨?_, ?_, ?_⟩
    · rw [givenUp, hc]
    · rw [replied, hnone]
      rfl
    · rw [heardNext, hc, hnone]
      rfl
  have hheard : heardIn b s.frames.length [s] = [] := by
    rw [heardIn, List.reverse_singleton, List.flatMap_singleton, hsilent.heardNext]
  obtain rfl := h.eq_of_step? (step_decoded hc ht (core?_of_bridge? hb) rfl).1
  refine @Ledger.running _ _ _ _ _ ((decode b br.arena s.nextLease r).tasks.flatMap Task.released)
    ?_ ?_
  · rw [hheard]
    exact .does (.inl ⟨rfl, rfl⟩) rfl
  · rw [List.flatMap_singleton, List.flatMap_singleton, hsilent.givenUp, hsilent.replied]

/-- **The ledger of a record is kept until the outcome is there.** -/
theorem Course.ledger (h : Course s (t :: past)) (hs : Orderly s) (hc : s.control = .decode b r)
    (hb : s.bridge? b = some br) (ht : s.tidy? = none)
    (hr : ∀ u ∈ past, ¬ Returns s.frames u) :
    t :: past = [s] ∨ Ledger b s.frames (decode b br.arena s.nextLease r) past t := by
  generalize heq : t :: past = course at h
  induction h generalizing t past with
  | starts =>
    cases heq
    exact .inl rfl
  | @goes u u' older h hgo ih =>
    cases heq
    obtain ⟨hu, hr⟩ := List.forall_mem_cons.1 hr
    refine .inr ?_
    rcases ih hr rfl with hfirst | hledger
    · cases hfirst
      exact hgo.ledger hc hb ht
    · exact hledger.goes (h.orderly hs u (List.mem_cons_self ..)) hu hgo

/-- When the outcome is there, the ledger is closed. -/
lemma Ledger.of_returns (h : Ledger b below d past t) (hr : Returns below t) :
    t.control = .done (d.result.mapError fun f =>
      .operation (f.error (heardIn b below.length past))) ∧
    foreignsOfResult d.result ⊆ t.leases ∧
    (past.flatMap (givenUp b below.length)).Perm
      (past.flatMap (replied b below.length) ++ d.tasks.flatMap Task.released) := by
  obtain ⟨rfl, r, hc⟩ := hr
  have hlonger : ∀ {f : Frame} {l : List Frame}, t.frames ≠ l ++ f :: t.frames := by
    intro f l hf
    have hlength := congrArg List.length hf
    rw [List.length_append, List.length_cons] at hlength
    omega
  cases h with
  | running hp hl =>
    cases hp with
    | does hon ho =>
      rcases hon with ⟨-, hc'⟩ | ⟨l, hl⟩
      · rw [hc] at hc'
        cases hc'
      · exact absurd hl hlonger
    | reads hf he ho => exact absurd hf hlonger
  | closed hp hl =>
    rcases hp.isOn with ⟨-, hc'⟩ | ⟨l, hl⟩
    · exact ⟨hc', hp.leases, hl⟩
    · exact absurd hl hlonger

/-- The outcome of a record is what decoding has come to, once what was to be heard about thrown
objects has been heard. -/
theorem Course.closed (h : Course s (t :: past)) (hs : Orderly s) (hc : s.control = .decode b r)
    (hb : s.bridge? b = some br) (ht : s.tidy? = none)
    (hfirst : ∀ u ∈ past, ¬ Returns s.frames u) (hreturns : Returns s.frames t) :
    t.control = .done ((decode b br.arena s.nextLease r).result.mapError fun f =>
      .operation (f.error (heardIn b s.frames.length past))) ∧
    foreignsOfResult (decode b br.arena s.nextLease r).result ⊆ t.leases ∧
    (past.flatMap (givenUp b s.frames.length)).Perm
      (past.flatMap (replied b s.frames.length) ++
        (decode b br.arena s.nextLease r).tasks.flatMap Task.released) := by
  refine ((h.ledger hs hc hb ht hfirst).resolve_left fun heq => ?_).of_returns hreturns
  cases heq
  obtain ⟨-, r', hr'⟩ := hreturns
  rw [hc] at hr'
  cases hr'

/-! ### Every handle is accounted for -/

/-- Another record in the place of one that is to be decoded leaves nothing to let go of. -/
lemma tidy?_goto_decode {r₀ : Record} (hc : s.control = .decode b r₀) (ht : s.tidy? = none)
    (r : Record) : (s.goto (.decode b r)).tidy? = none := by
  have hbroadens : Broadens s (s.goto (.decode b r)) := by
    refine .of_frames (g := []) (l := []) (.of_bridges rfl) rfl rfl rfl rfl rfl nofun ?_ ?_
    · rw [hc]
      exact nofun
    · rintro c (hc' | ⟨f, hf, -⟩)
      · rw [hc] at hc'
        cases hc'
        simp [uses, goto, Control.bridge?]
      · cases hf
  exact hbroadens.tidy? ht

/-- An engine is told to give up a handle, unless it has gone. -/
lemma Goes.gives {depth : Nat} {g : Handle} (h : Goes s s') (hg : g ∈ s.givenUp b depth) :
    (∃ tasks heard result, s.control = .perform b (.release g :: tasks) heard result) ∧
    (s.engine? b = none ∨
      ∃ e, s.engine? b = some e ∧ s'.engine? b = some (e.enter (.release g))) := by
  unfold givenUp at hg
  split at hg
  · next c k tasks heard result hc =>
    split at hg
    · next hif =>
      obtain ⟨rfl, -, htidying⟩ := hif
      obtain rfl := List.mem_singleton.1 hg
      refine ⟨⟨tasks, heard, result, hc⟩, ?_⟩
      cases he : s.engine? c with
      | none => exact .inl rfl
      | some e =>
        have ht : s.tidy? = none := by
          rw [isTidying, hc] at htidying
          exact Option.isNone_iff_eq_none.1 (Option.isSome_eq_false_iff.1 htidying)
        have hproceed : s.proceed? = some (s.performStep c (.release g :: tasks) heard result) := by
          rw [proceed?, hc]
        refine .inr ⟨e, rfl, ?_⟩
        rw [h.eq_lettingGo ht (by simp [hc]) hproceed, engine?_lettingGo, performStep, he]
        exact engine?_startEngine (s := s.push _) he .nothing (.release g)
    · cases hg
  · cases hg

/-- **Decoding accounts for every handle.**  Once the outcome of a record is there, each handle in
the record is that of a lease in the value, or it has been given up, and so it is with the handles
in the replies that came when the members of thrown objects were read: each of them as often as
it is there.  The leases are new, each has a number of its own, and they are entered.  The engine
has been told to give up what was given up, unless it had gone with all its handles; for a record
of its own that was a handle in use. -/
theorem History.decoding_accounts {r₀ : Record} (h : History types setups (s :: older))
    (hc : s.control = .decode b r₀) (hb : s.bridge? b = some br) (ht : s.tidy? = none)
    (hcourse : Course (s.goto (.decode b r)) (t :: past))
    (hfirst : ∀ u ∈ past, ¬ Returns s.frames u) (hreturns : Returns s.frames t) :
    ∃ outcome, t.control = .done outcome ∧
      ((foreignsOfResult outcome).map (·.handle) ++
        past.flatMap (givenUp b s.frames.length)).Perm
          (r.handles ++ past.flatMap (replied b s.frames.length)) ∧
      ((foreignsOfResult outcome).map (·.lease)).Nodup ∧
      (∀ f ∈ foreignsOfResult outcome, f.bridge = b ∧ s.nextLease ≤ f.lease ∧ f ∈ t.leases) ∧
      ∀ u ∈ past, ∀ g ∈ u.givenUp b s.frames.length, ∀ u', Goes u u' → u.engine? b = none ∨
        ∃ e, u.engine? b = some e ∧ u'.engine? b = some (e.enter (.release g)) ∧
          (r = r₀ → (e.handles.get? g).isSome) := by
  obtain ⟨hdone, hleases, hledger⟩ :
      t.control = .done ((decode b br.arena s.nextLease r).result.mapError fun f =>
        .operation (f.error (heardIn b s.frames.length past))) ∧
      foreignsOfResult (decode b br.arena s.nextLease r).result ⊆ t.leases ∧
      (past.flatMap (givenUp b s.frames.length)).Perm (past.flatMap (replied b s.frames.length) ++
        (decode b br.arena s.nextLease r).tasks.flatMap Task.released) :=
    hcourse.closed (h.orderly.decode hc r) rfl hb (tidy?_goto_decode hc ht r) hfirst hreturns
  have hforeigns : ∀ {ε : Type} (g : Fault → ε) (res : Except Fault HostValue),
      foreignsOfResult (res.mapError g) = foreignsOfResult res := fun g res => by
    cases res <;> rfl
  have hplaces := places_decode b br.arena s.nextLease r
  have hnumbered := numbered_decode b br.arena s.nextLease r
  refine ⟨_, hdone, ?_, ?_, fun f hf => ?_, fun u hu g hg u' hgo => ?_⟩
  · rw [hforeigns, List.perm_iff_count]
    intro g
    have hrecord := hplaces.perm.count_eq g
    have hdone := hledger.count_eq g
    simp only [List.count_append] at hrecord hdone ⊢
    omega
  · rw [hforeigns]
    exact hnumbered.nodup
  · rw [hforeigns] at hf
    exact ⟨hplaces.bridge f hf, (hnumbered.bounds f hf).1, hleases hf⟩
  · obtain ⟨⟨tasks, heard, result, hperform⟩, hgone | ⟨e, he, he'⟩⟩ := hgo.gives hg
    · exact .inl hgone
    · refine .inr ⟨e, he, he', fun heq => ?_⟩
      subst heq
      have hself : s.goto (.decode b r) = s := by
        rw [← hc]
        rfl
      have hhist : History types setups (t :: past ++ older) := by
        exact hcourse.history (hself ▸ h)
      obtain ⟨x, hx, rfl⟩ := side?_isSome_of_engine? he
      have hmem : u ∈ t :: past ++ older :=
        List.mem_append_left _ (List.mem_cons_of_mem _ hu)
      have hg' : g ∈ Mark.handles (.perform (.release g :: tasks) heard result) :=
        List.mem_cons_self ..
      -- What is still to be given up is answered for.
      refine (hhist.owns hmem hx).live g
        (List.mem_append_left _ (List.mem_append_right _ (List.mem_flatMap.2 ⟨_, ?_, hg'⟩)))
      rw [← (side?_eq_some.1 hx).2, trail, hperform, Control.mark, if_pos rfl]
      exact List.mem_cons_self ..

/-- **Decoding accepts the records whose leaves all stand for values, and no others.**  The value
is then the image of the record, leaf by leaf, and nothing in the record has the type code of an
error.  Any other record fails with the flaw of its first leaf that stands for no value.  This
is what the outcome is once it is there, whatever scripts and host code do meanwhile; they
decide only what is heard about thrown objects. -/
theorem decode_accepts (bridge : Nat) (a : Arena Entry) (next : Nat) (r : Record) :
    ((∃ v, (decode bridge a next r).result = .ok v) ↔ ∀ leaf ∈ r.leaves, ¬ Barred a leaf) ∧
    (∀ v, (decode bridge a next r).result = .ok v →
      Portrays bridge a r v ∧ ∀ leaf ∈ r.leaves, leaf.isError = false) ∧
    (∀ f, (decode bridge a next r).result = .error f ↔ FirstFlaw a r.leaves f) ∧
    ∀ (s t : Session) (br : Bridge) (past : List Session), Orderly s →
      s.control = .decode bridge r → s.bridge? bridge = some br → br.arena = a →
      s.nextLease = next → s.tidy? = none → Course s (t :: past) →
      (∀ u ∈ past, ¬ Returns s.frames u) → Returns s.frames t →
      t.control = .done ((decode bridge a next r).result.mapError fun f =>
        .operation (f.error (heardIn bridge s.frames.length past))) := by
  refine ⟨exists_value_iff, fun v hv => ⟨portrays_decode hv, fun leaf hleaf => ?_⟩,
    fun f => result_eq_error_iff, ?_⟩
  · rw [← Bool.not_eq_true]
    exact fun herror => exists_value_iff.1 ⟨v, hv⟩ leaf hleaf (.failed herror)
  · rintro s t br past hs hc hb rfl rfl ht hcourse hfirst hreturns
    exact (hcourse.closed hs hc hb ht hfirst hreturns).1

/-! ### A thrown object -/

lemma Course.follow {course : List Session} (h : Course s course) (fuel : Nat) :
    Course s (follow fuel course) := by
  induction fuel generalizing course with
  | zero =>
    rw [Session.follow]
    · exact h
    · simp
  | succ fuel ih =>
    cases course with
    | nil => cases h
    | cons t older =>
      rw [Session.follow]
      split
      · next hstep => exact ih (h.goes (.steps hstep))
      · exact h

/-- Whether an outcome is there for so many frames. -/
def isBack (depth : Nat) (s : Session) : Bool :=
  match s.control with
  | .done _ => s.frames.length == depth
  | _ => false

lemma not_returns_of_isBack (h : s.isBack below.length = false) : ¬ Returns below s := by
  rintro ⟨rfl, r, hc⟩
  rw [isBack, hc, beq_self_eq_true] at h
  cases h

/-- Whether an operation of the first bridge, and nothing else, is left to do. -/
def isWithin (s : Session) : Bool :=
  match s.frames with
  | [.scope 0, .pausing, .keeping 0] => true
  | _ => false

lemma frames_of_isWithin (h : s.isWithin = true) : s.frames = [.scope 0, .pausing, .keeping 0] := by
  unfold isWithin at h
  split at h
  · assumption
  · cases h

/-- Whether a record for the first bridge is decoded next. -/
def isDecoding (s : Session) : Bool :=
  match s.control with
  | .decode 0 _ => s.tidy?.isNone && (s.bridge? 0).isSome && s.isWithin
  | _ => false

lemma exists_of_isDecoding (h : s.isDecoding = true) : ∃ r br, s.control = .decode 0 r ∧
    s.bridge? 0 = some br ∧ s.tidy? = none ∧ s.frames = [.scope 0, .pausing, .keeping 0] := by
  unfold isDecoding at h
  split at h
  · next r hc =>
    simp only [Bool.and_eq_true, Option.isNone_iff_eq_none] at h
    obtain ⟨br, hbr⟩ := Option.isSome_iff_exists.1 h.1.2
    exact ⟨r, br, hc, hbr, h.1.1, frames_of_isWithin h.2⟩
  · cases h

/-- A program in which script throws an object whose message is an object, up to where the host is
about to decode it. -/
def thrownObject : List Session :=
  follow 10 (tell 0 (.evaluate (.op .throw [.op (.object ["message"]) [.op (.object []) []]]))
    (made [] [{}]))

/-- What the program goes through until the error of the thrown object is there. -/
lemma exists_course_thrownObject : ∃ s t past older r br, History [] [{}] (s :: older) ∧
    s.control = .decode 0 r ∧ s.bridge? 0 = some br ∧ s.tidy? = none ∧ Course s (t :: past) ∧
    (∀ u ∈ past, ¬ Returns s.frames u) ∧ Returns s.frames t ∧
    (past.flatMap (givenUp 0 s.frames.length)).length = 2 := by
  have hdecoding : thrownObject.head?.map isDecoding = some true := by decide +kernel
  have hback : (follow 30 (thrownObject.take 1)).head?.map (fun t => t.isWithin && t.isBack 3) =
      some true := by decide +kernel
  have hpast : (follow 30 (thrownObject.take 1)).tail.all (fun u => !u.isBack 3) = true := by
    decide +kernel
  have hgiven : ((follow 30 (thrownObject.take 1)).tail.flatMap (givenUp 0 3)).length = 2 := by
    decide +kernel
  have h : History [] [{}] thrownObject := ((history_made (by decide +kernel)).tell ..).follow _
  generalize thrownObject = hist at hdecoding hback hpast hgiven h
  cases hist with
  | nil => cases hdecoding
  | cons s older =>
  obtain ⟨r, br, hc, hb, ht, hf⟩ := exists_of_isDecoding (Option.some.inj hdecoding)
  have hcourse : Course s (follow 30 [s]) := Course.starts.follow 30
  rw [show (s :: older).take 1 = [s] from rfl] at hback hpast hgiven
  generalize follow 30 [s] = course at hback hpast hgiven hcourse
  cases course with
  | nil => cases hback
  | cons t past =>
  rw [List.head?_cons, Option.map_some, Option.some_inj, Bool.and_eq_true] at hback
  obtain ⟨hwithin, hback⟩ := hback
  refine ⟨s, t, past, older, r, br, h, hc, hb, ht, hcourse, fun u hu => ?_, ⟨?_, ?_⟩, ?_⟩
  · have hnot := List.all_eq_true.1 hpast u hu
    rw [Bool.not_eq_true'] at hnot
    exact not_returns_of_isBack (by rw [hf]; exact hnot)
  · rw [hf, frames_of_isWithin hwithin]
  · unfold isBack at hback
    split at hback
    · exact ⟨_, by assumption⟩
    · cases hback
  · rw [hf]
    exact hgiven

/-- A thrown object and the object that is its message are given up once each. -/
theorem decoding_accounts_thrownObject : ∃ s t past r outcome, Course s (t :: past) ∧
    s.control = .decode 0 r ∧ t.control = .done outcome ∧
    (past.flatMap (givenUp 0 s.frames.length)).length = 2 ∧
    ((foreignsOfResult outcome).map (·.handle) ++
      past.flatMap (givenUp 0 s.frames.length)).Perm
        (r.handles ++ past.flatMap (replied 0 s.frames.length)) := by
  obtain ⟨s, t, past, older, r, br, h, hc, hb, ht, hcourse, hfirst, hreturns, hgiven⟩ :=
    exists_course_thrownObject
  have hself : s.goto (.decode 0 r) = s := by
    rw [← hc]
    rfl
  obtain ⟨outcome, hdone, hperm, -⟩ :=
    h.decoding_accounts hc hb ht (hself.symm ▸ hcourse) hfirst hreturns
  exact ⟨s, t, past, r, outcome, hcourse, hc, hdone, hgiven, hperm⟩

/-- The error of the thrown object is what its members said. -/
theorem decode_accepts_thrownObject : ∃ s t past r br, Course s (t :: past) ∧
    s.control = .decode 0 r ∧ s.bridge? 0 = some br ∧
    t.control = .done ((decode 0 br.arena s.nextLease r).result.mapError fun f =>
      .operation (f.error (heardIn 0 s.frames.length past))) := by
  obtain ⟨s, t, past, older, r, br, h, hc, hb, ht, hcourse, hfirst, hreturns, -⟩ :=
    exists_course_thrownObject
  exact ⟨s, t, past, r, br, hcourse, hc, hb, (decode_accepts 0 br.arena s.nextLease r).2.2.2
    s t br past h.orderly hc hb rfl rfl ht hcourse hfirst hreturns⟩

end ScriptBridge.Session
