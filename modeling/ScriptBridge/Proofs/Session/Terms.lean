/-
# Terms that both sides of a bridge keep to

An engine hands records to the host, the host hands records back, and what goes wrong comes to
light as the error of an operation.  Whoever asks something of all of these has to look at the
steps of the engines and at the two translations only.  The rest of a session passes records and
errors on as they are.
-/
import ScriptBridge.Proofs.Bridge.Skew
import ScriptBridge.Proofs.Engine.Proper
import ScriptBridge.Proofs.Session.Frames
import ScriptBridge.Proofs.Session.History

namespace ScriptBridge

open ScriptBridge.Bridge ScriptBridge.Host ScriptBridge.Table ScriptBridge.Wire

namespace Session

/-- What is asked of engines, of the records that cross a bridge and of what comes of them. -/
structure Terms where
  /-- What is asked of an engine. -/
  engine : Engine → Prop
  /-- What is asked of the records that an engine hands to the host. -/
  told : Record → Prop
  /-- What is asked of the records that the host hands to an engine. -/
  given : Record → Prop
  /-- What is asked of a record that stands for no value. -/
  fault : Fault → Prop
  /-- What is asked of the error of an operation. -/
  error : BridgeError → Prop
  /-- A new engine keeps to the terms. -/
  start (maxDepth maxLength : Nat) (maxCalls : Option Nat) :
    engine (.start maxDepth maxLength maxCalls)
  /-- So does one that is entered. -/
  enter {e : Engine} {op : Engine.Operation} (he : engine e) (ho : ∀ r ∈ op.records, given r) :
    engine (e.enter op)
  /-- So does one that is answered. -/
  answer {e : Engine} {r : Record} (he : engine e) (hr : given r) : engine (e.answer r)
  /-- The records of host values keep to the terms. -/
  encode {b : Nat} {a : Arena Entry} {v : HostValue} {r : Record}
    (h : (encode b a v).1 = .ok r) : given r
  /-- So do those of methods. -/
  method (slot : Slot) : given (.managed slot)
  /-- So do those of failures. -/
  failure (a : Arena Entry) (e : HostError) : given (failureRecord a e).1
  /-- What comes of decoding keeps to the terms. -/
  decode {b n : Nat} {a : Arena Entry} {r : Record} {f : Fault} (hr : told r)
    (h : (decode b a n r).result = .error f) : fault f
  /-- So does what an object says that was thrown. -/
  said {f : Fault} (hf : fault f) (heard : List Heard) : error (f.error heard)
  /-- So do the errors of the host's own side. -/
  own {e : BridgeError} (he : e.isOwn = true) : error e

variable {K : Terms} {s s' : Session} {b : Nat} {e : Engine} {ctl : Control} {fr : Frame}
  {types : List HostType} {setups : List Setup} {hist older : List Session}

/-- A step of an engine keeps to the terms. -/
def Terms.Keeps (K : Terms) (e : Engine) : Prop :=
  K.engine e.step.1 ∧ ∀ r ∈ e.step.2.records, K.told r

/-- What comes of a record keeps to the terms. -/
def Terms.Allows (K : Terms) (result : Except Fault HostValue) : Prop :=
  ∀ f, result = .error f → K.fault f

/-- What is about to be done keeps to the terms. -/
def Control.Meets (K : Terms) : Control → Prop
  | .done r => ∀ e, r = .error (.operation e) → K.error e
  | .decode _ r => K.told r
  | .perform _ _ _ result => K.Allows result
  | .answer _ r => ∀ record, r = .ok record → K.given record
  | _ => True

/-- What is done with the reply of an engine keeps to the terms. -/
def Purpose.Meets (K : Terms) : Purpose → Prop
  | .member _ _ _ _ result => K.Allows result
  | _ => True

/-- What waits keeps to the terms. -/
def Frame.Meets (K : Terms) : Frame → Prop
  | .interrupted ctl => ctl.Meets K
  | .running _ p => p.Meets K
  | _ => True

/-- All of a session keeps to the terms. -/
structure Meets (K : Terms) (s : Session) : Prop where
  control : s.control.Meets K
  frames : ∀ f ∈ s.frames, f.Meets K
  engines : ∀ b e, s.engine? b = some e → K.engine e

namespace Meets

lemma goto (h : s.Meets K) (hc : ctl.Meets K) : (s.goto ctl).Meets K := ⟨hc, h.frames, h.engines⟩

lemma push (h : s.Meets K) (hf : fr.Meets K) : (s.push fr).Meets K :=
  ⟨h.control, List.forall_mem_cons.2 ⟨hf, h.frames⟩, h.engines⟩

lemma interrupt (h : s.Meets K) (hc : ctl.Meets K) : (s.interrupt ctl).Meets K :=
  have hf : (Frame.interrupted s.control).Meets K := h.control
  (h.push hf).goto hc

lemma give (h : s.Meets K) (v : HostValue) : (s.give v).Meets K := h.goto nofun

lemma finish (h : s.Meets K) : s.finish.Meets K := h.goto nofun

lemma fail (h : s.Meets K) {e : BridgeError} (he : K.error e) : (s.fail e).Meets K :=
  h.goto fun _ heq => by cases heq; exact he

lemma throw (h : s.Meets K) (e : HostError) : (s.throw e).Meets K := h.goto nofun

/-- What host code has changed does not matter. -/
lemma untouched (h : s.Meets K) (hu : Untouched s s') : s'.Meets K where
  control := hu.control ▸ h.control
  frames := hu.frames ▸ h.frames
  engines b e he := h.engines b e (by rw [← he, engine?, engine?, bridge?, bridge?, hu.bridges])

/-- A bridge has changed, and its engine has proper records. -/
lemma updateBridge (h : s.Meets K) {f : Bridge → Bridge}
    (hf : ∀ br e, s.bridge? b = some br → (f br).engine = some e → K.engine e) :
    (s.updateBridge b f).Meets K where
  control := h.control
  frames := h.frames
  engines c e he := by
    rw [engine?, bridge?_updateBridge] at he
    split at he
    · next hc =>
      subst hc
      obtain ⟨br', hbr', he⟩ := Option.bind_eq_some_iff.1 he
      obtain ⟨br, hbr, rfl⟩ := Option.map_eq_some_iff.1 hbr'
      exact hf br e hbr he
    · exact h.engines c e he

/-- A bridge has changed, but not its engine. -/
lemma keepEngine (h : s.Meets K) {f : Bridge → Bridge} (hf : ∀ br, (f br).engine = br.engine) :
    (s.updateBridge b f).Meets K :=
  h.updateBridge fun br e hbr he => h.engines b e (by rw [engine?, hbr, ← he, hf]; rfl)

lemma record (h : s.Meets K) (b : Nat) (crossing : Crossing) : (s.record b crossing).Meets K :=
  h.keepEngine (f := (·.record crossing)) fun _ => rfl

lemma describe (h : s.Meets K) (b type : Nat) : (s.updateBridge b (·.describe type)).Meets K := by
  refine h.keepEngine fun br => ?_
  unfold Bridge.describe
  split <;> rfl

/-! ### Host code -/

lemma withBridge (h : s.Meets K) {n : Session → Nat → Session} (hn : ∀ b, (n s b).Meets K) :
    (s.withBridge n).Meets K := by
  unfold Session.withBridge
  split
  · exact hn _
  · exact h.throw _

lemma operateHere (h : s.Meets K) (op : Operation) : (s.operateHere op).Meets K :=
  h.withBridge fun _ => ((h.push (by trivial)).push (by trivial)).goto trivial

lemma withResult (h : s.Meets K) {α : Type} (r : Except HostError α) {n : α → Session}
    (hn : ∀ a, (n a).Meets K) : (s.withResult r n).Meets K := by
  cases r with
  | ok a => exact hn a
  | error e => exact h.throw e

lemma gotoMember (h : s.Meets K) (f : ForeignObject) (op : Operation) :
    (s.gotoMember f op).Meets K := by
  unfold Session.gotoMember
  split
  · exact h.fail (K.own rfl)
  · exact h.goto trivial

lemma useMember (h : s.Meets K) (scene : Scene) (position : Nat) (name : String)
    (access : Access Template) : (s.useMember scene position name access).Meets K :=
  h.withResult _ fun f =>
    ((h.untouched (untouched_buildAccess s access)).push (by trivial)).gotoMember f _

lemma actFirst (h : s.Meets K) (actions : List Action) (scene : Scene) {n : Session}
    (hn : n.Meets K) {frame : List Action → Frame} (hf : ∀ rest, (frame rest).Meets K) :
    (s.actFirst actions scene n frame).Meets K := by
  cases actions with
  | nil => exact hn
  | cons a rest => exact (h.push (hf rest)).goto trivial

lemma leaveBridge (h : s.Meets K) (b : Nat) : (s.leaveBridge b).Meets K := by
  unfold Session.leaveBridge
  split
  · exact h.keepEngine fun _ => rfl
  · exact h

lemma updateFields (h : s.Meets K) (o : HostObject)
    (f : List (String × HostValue) → List (String × HostValue)) : (s.updateFields o f).Meets K :=
  h.untouched ⟨rfl, rfl, rfl, rfl, rfl⟩

lemma build (h : s.Meets K) (t : Template) : (s.build t).2.Meets K :=
  h.untouched (untouched_build s t)

lemma actStep (h : s.Meets K) (a : Action) (scene : Scene) : (s.actStep a scene).Meets K := by
  cases a with
  | const t => exact (h.build t).give _
  | throw text => exact h.throw _
  | panic payload => exact h.goto nofun
  | eval script => exact h.operateHere _
  | getVariable name => exact h.operateHere _
  | setVariable name t => exact (h.build t).operateHere _
  | flush => exact h.operateHere _
  | dispose =>
    exact h.withBridge (n := fun s b => (s.push (.keeping b)).goto (.dispose b)) fun b =>
      (h.push (by trivial)).goto trivial
  | isDisposed =>
    exact h.withBridge (n := fun s b => s.give (.bool (s.engine? b).isNone)) fun b => h.give _
  | used =>
    exact h.withBridge
      (n := fun s b => s.give (.ofWide ((s.bridge? b).elim 0 fun br => br.arena.occupancy.used)))
      fun b => h.give _
  | drop register => exact ⟨nofun, h.frames, h.engines⟩
  | dropBridge => exact (h.leaveBridge _).give _
  | field name => exact h.give _
  | ident => exact h.give _
  | storeValue field kind => exact h.withResult _ fun v => (h.updateFields _ _).finish
  | sink => exact h.finish
  | echo => exact h.give _
  | label text => exact h.give _
  | arity => exact h.give _
  | arg kind position => exact h.withResult _ fun v => h.give v
  | store field kind position => exact h.withResult _ fun v => (h.updateFields _ _).finish
  | forget field => exact (h.updateFields _ _).give _
  | save register position =>
    exact h.withResult _ fun v => ⟨nofun, h.frames, h.engines⟩
  | invoke position name args => exact h.useMember scene position name (.invoke args)
  | get position name => exact h.useMember scene position name .get
  | set position name t => exact h.useMember scene position name (.set t)
  | seq actions => exact h.actFirst _ _ h.finish fun _ => trivial
  | list actions => exact h.actFirst _ _ (h.give _) fun _ => trivial
  | attempt action => exact (h.push (by trivial)).goto trivial

/-! ### Operations -/

lemma startEngine (h : s.Meets K) (he : K.engine e) {p : Purpose} (hp : p.Meets K)
    {op : Engine.Operation} (ho : ∀ r ∈ op.records, K.given r) :
    (s.startEngine b p e op).Meets K :=
  ((h.updateBridge (f := ({ · with engine := some (e.enter op) })) fun _ _ _ heq =>
    Option.some.inj heq ▸ K.enter he ho).push (by exact hp)).goto trivial

lemma call (h : s.Meets K) (b : Nat) (crossing : Crossing) {op : Engine.Operation}
    (ho : ∀ r ∈ op.records, K.given r) : (s.call b crossing op).Meets K := by
  have hopened : ((s.record b crossing).push (.scope b)).Meets K :=
    (h.record b crossing).push (by trivial)
  unfold Session.call
  dsimp only
  split
  · exact hopened.fail (K.own rfl)
  · next e he => exact hopened.startEngine (hopened.engines b e he) (by trivial) ho

lemma exchange (h : s.Meets K) (b : Nat) (crossing : Crossing) (v : HostValue)
    {op : Record → Engine.Operation} (ho : ∀ r, (op r).records = [r]) :
    (s.exchange b crossing v op).Meets K := by
  have hopened : ((s.record b crossing).push (.scope b)).Meets K :=
    (h.record b crossing).push (by trivial)
  unfold Session.exchange
  dsimp only
  split
  · exact hopened.fail (K.own rfl)
  · next br hbr =>
    split
    · exact hopened.fail (K.own rfl)
    · next e he =>
      split
      · next err a hencode =>
        exact (hopened.keepEngine (f := ({ · with arena := a })) fun _ => rfl).fail
          (K.own (isOwn_encode (congrArg Prod.fst hencode)))
      · next r a hencode =>
        refine (hopened.keepEngine (f := ({ · with arena := a })) fun _ => rfl).startEngine
          (hopened.engines b e (by rw [engine?, hbr]; exact he)) (by trivial) fun q hq => ?_
        rw [ho, List.mem_singleton] at hq
        exact hq ▸ K.encode (congrArg Prod.fst hencode)

lemma operateStep (h : s.Meets K) (b : Nat) (op : Operation) : (s.operateStep b op).Meets K := by
  cases op with
  | evaluate script => exact h.call b _ nofun
  | getVariable name =>
    unfold Session.operateStep
    dsimp only
    split
    · exact h.fail (K.own rfl)
    · exact h.call b _ nofun
  | setVariable name v =>
    unfold Session.operateStep
    dsimp only
    split
    · exact h.fail (K.own rfl)
    · exact (h.push (by trivial)).exchange b _ v fun _ => rfl
  | member target name access =>
    unfold Session.operateStep
    dsimp only
    split
    · exact h.fail (K.own rfl)
    · split
      · next herr =>
        refine h.fail (K.own ?_)
        unfold handleOf at herr
        split at herr <;> cases herr
        rfl
      · cases access with
        | get => exact (h.push (by trivial)).call b _ nofun
        | set v => exact (h.push (by trivial)).exchange b _ v fun _ => rfl
        | invoke args => exact (h.push (by trivial)).exchange b _ _ fun _ => rfl
  | flush =>
    unfold Session.operateStep
    dsimp only
    split
    · exact (h.push (by trivial)).fail (K.own rfl)
    · next e he =>
      exact (h.push (by trivial)).startEngine (h.engines b e he) (by trivial) nofun

/-! ### Replies -/

lemma decodeStep (h : s.Meets K) {r : Record} (hr : K.told r) : (s.decodeStep b r).Meets K := by
  unfold Session.decodeStep
  split
  · exact h.finish
  · exact ⟨fun f hf => K.decode hr hf, h.frames, h.engines⟩

lemma performStep (h : s.Meets K) {tasks : List Task} {heard : List Heard}
    {result : Except Fault HostValue} (hr : K.Allows result) :
    (s.performStep b tasks heard result).Meets K := by
  unfold Session.performStep
  split
  · split
    · exact ⟨nofun, h.frames, h.engines⟩
    · next f => exact h.fail (K.said (hr f rfl) heard)
  · split
    · exact h.goto hr
    · next e he => exact (h.push (by exact hr)).startEngine (h.engines b e he) (by trivial) nofun
  · split
    · exact h.goto hr
    · next e he => exact h.startEngine (h.engines b e he) (by exact hr) nofun

lemma takeReply (h : s.Meets K) {p : Purpose} (hp : p.Meets K) {r : Record}
    (hr : K.told r) : (s.takeReply b p r).Meets K := by
  cases p with
  | value => exact h.goto hr
  | nothing => exact h.finish
  | member handle name tasks heard result => exact h.goto hp

/-! ### Slots that script let go of -/

lemma unpin (h : s.Meets K) (slot : Slot) {next : Control} (hn : next.Meets K) :
    (s.unpin b slot next).Meets K := by
  unfold Session.unpin
  split
  · exact h.goto hn
  · next entry a _ =>
    exact ((h.keepEngine (f := ({ · with arena := a })) fun _ => rfl).push
      (by exact hn)).goto trivial

lemma removeSlot (h : s.Meets K) (slot : Slot) {next : Control} (hn : next.Meets K) :
    (s.removeSlot b slot next).Meets K := by
  unfold Session.removeSlot
  dsimp only
  split
  · exact ((h.record b _).keepEngine (f := (·.defer slot)) fun _ => rfl).goto hn
  · exact (h.record b _).unpin slot hn

lemma drainStep (h : s.Meets K) (b : Nat) (slots : List Slot) : (s.drainStep b slots).Meets K := by
  unfold Session.drainStep
  split
  · exact h.unpin _ trivial
  · split
    · exact h.finish
    · exact (h.keepEngine (f := ({ · with deferred := [] })) fun _ => rfl).goto trivial

lemma leaveScope (h : s.Meets K) (b : Nat) {r : Outcome} (hr : (Control.done r).Meets K) :
    (s.leaveScope b r).Meets K := by
  unfold Session.leaveScope
  split
  · exact h.goto hr
  · exact (h.push (by exact hr)).goto trivial

lemma log (h : s.Meets K) (text : String) : (s.log text).Meets K := ⟨h.control, h.frames, h.engines⟩

lemma releaseStep (h : s.Meets K) (entries : List Entry) : (s.releaseStep entries).Meets K := by
  unfold Session.releaseStep
  split
  · exact h.finish
  · next entry rest =>
    have hrest : (s.goto (.release rest)).Meets K := h.goto trivial
    dsimp only
    split
    · exact hrest
    · split
      · exact hrest
      · next o _ _ =>
        have hlogged : (if ((s.goto (.release rest)).typeOf o).logged then
            (s.goto (.release rest)).log ((s.goto (.release rest)).identOf o)
            else s.goto (.release rest)).Meets K := by
          split
          · exact hrest.log _
          · exact hrest
        split
        · exact hlogged
        · exact ((hlogged.push (by exact hlogged.control)).push (by trivial)).goto trivial

lemma disposeStep (h : s.Meets K) (b : Nat) : (s.disposeStep b).Meets K := by
  unfold Session.disposeStep
  split
  · exact h.finish
  · split
    · exact h.finish
    · exact (h.updateBridge (f := ({ · with engine := none }))
        fun _ _ _ he => by cases he).goto trivial

lemma teardownStep (h : s.Meets K) (b : Nat) (slots : List Slot) :
    (s.teardownStep b slots).Meets K := by
  unfold Session.teardownStep
  split
  · exact h.removeSlot _ trivial
  · split
    · exact h.finish
    · next br _ =>
      exact ((h.keepEngine (f := ({ · with arena := br.arena.drain.2, deferred := [] }))
        fun _ => rfl).push (by trivial)).goto trivial

/-! ### Callbacks -/

lemma refuse (h : s.Meets K) (b : Nat) (e : HostError) : (s.refuse b e).Meets K := h.goto trivial

lemma readObject (h : s.Meets K) (b : Nat) (o : HostObject) (name : String) :
    (s.readObject b o name).Meets K := by
  have hdescribed := h.describe b o.type
  unfold Session.readObject
  dsimp only
  split
  · split
    · exact hdescribed.refuse b _
    · exact (hdescribed.push (by trivial)).goto trivial
  · split
    · split
      · exact hdescribed.finish
      · next br _ =>
        refine (hdescribed.keepEngine
          (f := ({ · with arena := (pin br.arena (.method o name)).2 })) fun _ => rfl).goto ?_
        intro record hrecord
        cases hpin : (pin br.arena (.method o name)).1 with
        | error e =>
          rw [hpin] at hrecord
          cases hrecord
        | ok slot =>
          rw [hpin] at hrecord
          cases hrecord
          exact K.method slot
    · exact hdescribed.refuse b _

lemma readProperty (h : s.Meets K) (b : Nat) (slot : Slot) (name : String) :
    (s.readProperty b slot name).Meets K := by
  unfold Session.readProperty
  split
  · exact h.refuse b _
  · exact h.readObject b _ name
  · split
    · exact h.goto trivial
    · exact h.refuse b _
  · split
    · exact h.goto trivial
    · split
      · exact h.goto trivial
      · exact h.refuse b _

lemma writeProperty (h : s.Meets K) (b : Nat) (slot : Slot) (name : String) {r : Record}
    (hr : K.told r) : (s.writeProperty b slot name r).Meets K := by
  unfold Session.writeProperty
  split
  · exact h.refuse b _
  · dsimp only
    split
    · exact ((h.describe b _).push (by trivial)).goto hr
    · exact (h.describe b _).refuse b _
  · exact h.refuse b _

lemma callEntry (h : s.Meets K) (b : Nat) (slot : Slot) {r : Record} (hr : K.told r) :
    (s.callEntry b slot r).Meets K := by
  unfold Session.callEntry
  split
  · exact h.refuse b _
  · exact (h.push (by trivial)).goto hr
  · exact h.refuse b _

lemma serve (h : s.Meets K) (b : Nat) {req : Engine.Request} (hr : ∀ r ∈ req.records, K.told r) :
    (s.serve b req).Meets K := by
  cases req with
  | get slot name => exact (h.record b _).readProperty b slot name
  | set slot name r =>
    exact (h.record b _).writeProperty b slot name (hr r (List.mem_singleton_self r))
  | invoke slot r => exact (h.record b _).callEntry b slot (hr r (List.mem_singleton_self r))

lemma change (h : s.Meets K) (b : Nat) (o : HostObject) (hf : fr.Meets K) (a : Action)
    (scene : Scene) : (s.change b o fr a scene).Meets K := by
  unfold Session.change
  split
  · exact h.refuse b _
  · exact (h.push hf).goto trivial

lemma callMethod (h : s.Meets K) (b : Nat) (o : HostObject) (name : String) (v : HostValue) :
    (s.callMethod b o name v).Meets K := by
  unfold Session.callMethod
  dsimp only
  split
  · exact (h.describe b _).refuse b _
  · exact (h.describe b _).change b o (by trivial) _ _

lemma respondStep (h : s.Meets K) (b : Nat) (r : Except HostError HostValue) :
    (s.respondStep b r).Meets K := by
  unfold Session.respondStep
  split
  · exact h.goto nofun
  · next v =>
    split
    · exact h.finish
    · next br _ =>
      refine (h.keepEngine (f := ({ · with arena := (encode b br.arena v).2 }))
        fun _ => rfl).goto ?_
      intro record hrecord
      cases hres : (encode b br.arena v).1 with
      | error e =>
        rw [hres] at hrecord
        cases hrecord
      | ok q =>
        rw [hres] at hrecord
        cases hrecord
        exact K.encode hres

lemma answerStep (h : s.Meets K) (b : Nat) {r : Except HostError Record}
    (hr : (Control.answer b r).Meets K) : (s.answerStep b r).Meets K := by
  have hanswered : ∀ (q : Record) (a : Arena Entry), K.given q → ((s.updateBridge b fun br =>
      { br with arena := a, engine := br.engine.map (·.answer q) }).goto (.engine b)).Meets K := by
    intro q a hq
    refine (h.updateBridge fun br e hbr he => ?_).goto trivial
    obtain ⟨e₀, he₀, rfl⟩ := Option.map_eq_some_iff.1 he
    exact K.answer (h.engines b e₀ (by rw [engine?, hbr]; exact he₀)) hq
  unfold Session.answerStep
  split
  · exact h.finish
  · cases r with
    | ok q => exact hanswered q _ (hr q rfl)
    | error e => exact hanswered _ _ (K.failure _ e)

/-! ### Engines -/

lemma takeFinished (h : s.Meets K) (b : Nat) {r : Record} (hr : K.told r) :
    (s.takeFinished b r).Meets K := by
  unfold Session.takeFinished
  split
  · next c p rest hs =>
    have hframes := h.frames
    rw [hs] at hframes
    obtain ⟨hp, hrest⟩ := List.forall_mem_cons.1 hframes
    have hrest : ({ s with frames := rest } : Session).Meets K := ⟨h.control, hrest, h.engines⟩
    exact hrest.takeReply hp hr
  · exact h.finish

lemma engineStep (h : s.Meets K) (b : Nat) (hs : ∀ e, s.engine? b = some e → K.Keeps e) :
    (s.engineStep b).Meets K := by
  unfold Session.engineStep
  split
  · exact h.finish
  · next e he =>
    obtain ⟨hengine, hrecords⟩ := hs e he
    have hstepped : (s.updateBridge b ({ · with engine := some e.step.1 })).Meets K :=
      h.updateBridge fun _ _ _ heq => Option.some.inj heq ▸ hengine
    dsimp only
    split
    · exact hstepped
    · exact hstepped.removeSlot _ trivial
    · next hreq =>
      rw [hreq] at hrecords
      exact hstepped.serve b hrecords
    · next r hreply =>
      rw [hreply] at hrecords
      exact hstepped.takeFinished b (hrecords r (List.mem_singleton_self r))

/-! ### Letting go -/

lemma endLease (h : s.Meets K) (f : ForeignObject) : (s.endLease f).Meets K := by
  have hleft :
      ({ s with leases := s.leases.filter fun g => g.lease ≠ f.lease } : Session).Meets K :=
    ⟨h.control, h.frames, h.engines⟩
  unfold Session.endLease
  dsimp only
  split
  · exact hleft
  · next e he =>
    exact (hleft.push (by exact h.control)).startEngine (hleft.engines _ e he) (by trivial) nofun

lemma forgetObject (h : s.Meets K) (st : HostState) : (s.forgetObject st).Meets K := by
  have hleft : ∀ objects, ({ s with objects := objects } : Session).Meets K := fun _ =>
    ⟨h.control, h.frames, h.engines⟩
  unfold Session.forgetObject
  dsimp only
  split
  · exact hleft _
  · exact (hleft _).interrupt trivial

lemma tidy? (h : s.Meets K) (hs : s.tidy? = some s') : s'.Meets K := by
  unfold Session.tidy? at hs
  split at hs
  · cases hs
    exact (h.keepEngine (f := ({ · with stage := .dropped })) fun _ => rfl).interrupt trivial
  · split at hs
    · cases hs
      exact h.updateBridge (f := Bridge.vanish) fun _ _ _ he => by cases he
    · split at hs
      · cases hs
        exact h.endLease _
      · obtain ⟨st, -, rfl⟩ := Option.map_eq_some_iff.1 hs
        exact h.forgetObject st

lemma lettingGo (h : s'.Meets K) (before : Session) : (before.lettingGo s').Meets K := by
  rcases lettingGo_cases before s' with heq | ⟨vs, heq⟩ <;> rw [heq]
  · exact h
  · exact h.interrupt trivial

/-! ### Outcomes -/

lemma listStep (h : s.Meets K) (rest : List Action) (results : List HostValue) (scene : Scene) :
    (s.listStep rest results scene).Meets K :=
  h.actFirst _ _ (h.give _) fun _ => trivial

lemma doneStep (h : s.Meets K) (hf : fr.Meets K) {r : Outcome} (hr : (Control.done r).Meets K) :
    (s.doneStep fr r).Meets K := by
  cases fr with
  | interrupted ctl => exact h.goto hf
  | held | pausing | keeping | running | borrowed => exact h.goto hr
  | scope b => exact h.leaveScope b hr
  | reporting =>
    refine h.goto fun e he => ?_
    unfold reported at he
    split at he
    · cases he
    · next hne => exact absurd he (hne e)
  | getting | setting | calling => exact h.goto trivial
  | assignee b o setter =>
    cases r with
    | error e => exact h.refuse b _
    | ok v => exact h.change b o (by trivial) _ _
  | callee b o name =>
    cases r with
    | error e => exact h.refuse b _
    | ok v => exact h.callMethod b o name v
  | hook o =>
    unfold Session.doneStep
    dsimp only
    split
    · exact h.finish
    · exact (h.log _).finish
  | sequence rest last scene =>
    cases r with
    | error e => exact h.goto hr
    | ok v => exact h.actFirst _ _ (h.give v) fun _ => trivial
  | listing rest results scene =>
    cases r with
    | error e => exact h.goto hr
    | ok v => exact h.listStep rest _ scene
  | attempting =>
    unfold Session.doneStep
    dsimp only
    split
    · exact h.give _
    · exact h.give _
    · exact h.goto hr

/-! ### Steps -/

lemma proceed? (h : s.Meets K) (hsteps : ∀ b e, s.engine? b = some e → K.Keeps e)
    (hs : s.proceed? = some s') : s'.Meets K := by
  have hc := h.control
  unfold Session.proceed? at hs
  split at hs
  · next r hdone =>
    rw [hdone] at hc
    split at hs
    · cases hs
    · cases hs
    · next f rest _ hframes =>
      cases hs
      have hf := h.frames
      rw [hframes] at hf
      obtain ⟨hf, hrest⟩ := List.forall_mem_cons.1 hf
      have hpopped : ({ s with frames := rest } : Session).Meets K := ⟨h.control, hrest, h.engines⟩
      exact hpopped.doneStep hf hc
  · cases hs; exact h.actStep _ _
  · cases hs; exact h.operateStep _ _
  · next b _ => cases hs; exact h.engineStep b (hsteps b)
  · next heq => cases hs; rw [heq] at hc; exact h.decodeStep hc
  · next heq => cases hs; rw [heq] at hc; exact h.performStep hc
  · cases hs; exact h.respondStep _ _
  · next heq => cases hs; rw [heq] at hc; exact h.answerStep _ hc
  · cases hs; exact h.drainStep _ _
  · cases hs; exact h.releaseStep _
  · cases hs; exact h.disposeStep _
  · cases hs; exact h.teardownStep _ _
  · cases hs; exact (h.keepEngine (f := ({ · with described := [] })) fun _ => rfl).finish
  · cases hs; exact h.finish
  · cases hs; exact h.goto trivial

/-- **A step keeps to the terms if the engines do.** -/
theorem step? (h : s.Meets K) (hsteps : ∀ b e, s.engine? b = some e → K.Keeps e)
    (hs : s.step? = some s') : s'.Meets K := by
  unfold Session.step? at hs
  split at hs
  · next b _ =>
    cases hs
    exact h.engineStep b (hsteps b)
  · cases htidy : s.tidy? with
    | some t =>
      rw [htidy] at hs
      cases hs
      exact h.tidy? htidy
    | none =>
      rw [htidy] at hs
      obtain ⟨t, ht, rfl⟩ := Option.map_eq_some_iff.1 hs
      exact (h.proceed? hsteps ht).lettingGo s

/-! ### Commands -/

lemma start (h : s.Meets K) {c : Command} {form : Form} (hs : s.start b c = some (s', form)) :
    s'.Meets K := by
  cases c with
  | evaluate script => cases hs; exact h.goto trivial
  | getVariable name => cases hs; exact h.goto trivial
  | setVariable name t => cases hs; exact (h.build t).goto trivial
  | member direct on name access =>
    have hv := h.build on
    unfold Session.start startMember at hs
    dsimp only at hs
    split at hs
    · cases hs
      have hbuilt := hv.untouched (untouched_buildAccess _ access)
      split
      · exact (hbuilt.push (by trivial)).goto trivial
      · exact (hbuilt.push (by trivial)).gotoMember _ _
    · cases hs
  | flush => cases hs; exact h.goto trivial
  | dispose => cases hs; exact h.goto trivial
  | isDisposed => cases hs; exact h.give _
  | resetCrossings =>
    cases hs
    exact (h.keepEngine (f := ({ · with tally := .zero })) fun _ => rfl).finish
  | dropBridge => cases hs; exact (h.leaveBridge b).finish
  | make t => cases hs; exact (h.build t).give _
  | drop register => cases hs; exact ⟨nofun, h.frames, h.engines⟩
  | inspect t => cases hs; exact (h.build t).give _
  | same v w => cases hs; exact ((h.build v).build w).give _
  | evaluateHolding script on exclusive =>
    have hv := h.build on
    unfold Session.start startHolding at hs
    dsimp only at hs
    split at hs
    · split at hs <;> cases hs <;> exact (hv.push (by trivial)).goto trivial
    · cases hs

lemma begin? (h : s.Meets K) {c : Command} {form : Form} (hs : s.begin? b c = some (s', form)) :
    s'.Meets K := by
  unfold Session.begin? at hs
  obtain ⟨⟨t, form'⟩, ht, heq⟩ := Option.map_eq_some_iff.1 hs
  cases heq
  have hfresh : ({ s with disposed := [], current := b } : Session).Meets K :=
    ⟨h.control, h.frames, h.engines⟩
  have hkept : (if c.needsBridge then
      ({ s with disposed := [], current := b } : Session).push (.keeping b)
      else { s with disposed := [], current := b }).Meets K := by
    split
    · exact hfresh.push trivial
    · exact hfresh
  exact ((hkept.start ht).push (by trivial)).lettingGo _

lemma conclude (h : s.Meets K) (save : Option String) : (s.conclude save).Meets K := by
  have hresumed : s.resume.Meets K := by
    unfold Session.resume
    split
    · next rest hs =>
      have hf := h.frames
      rw [hs] at hf
      exact ⟨h.control, (List.forall_mem_cons.1 hf).2, h.engines⟩
    · exact h
  refine lettingGo ?_ s
  unfold Session.settle
  split
  · exact ⟨nofun, hresumed.frames, hresumed.engines⟩
  · exact hresumed.finish

end Meets

/-! ### Histories -/

lemma meets_of_create (h : create types setups = .ok s) : s.Meets K where
  control := by
    unfold create at h
    cases hmap : setups.mapM Bridge.create with
    | error err => rw [hmap] at h; cases h
    | ok bridges => rw [hmap] at h; cases h; exact nofun
  frames := by
    unfold create at h
    cases hmap : setups.mapM Bridge.create with
    | error err => rw [hmap] at h; cases h
    | ok bridges => rw [hmap] at h; cases h; exact nofun
  engines b e he := by
    obtain ⟨a, q, hcore⟩ := core?_of_engine? he
    obtain ⟨maxDepth, maxLength, maxCalls, policy, hx⟩ := side?_of_create h (side?_of_core? hcore)
    rw [show e = .start maxDepth maxLength maxCalls from congrArg Side.engine hx]
    exact K.start maxDepth maxLength maxCalls

/-- **A session keeps to the terms at all times if its engines do.** -/
theorem History.meets (h : History types setups hist)
    (hkeeps : ∀ s ∈ hist, ∀ b e, s.engine? b = some e → K.engine e → K.Keeps e) :
    ∀ s ∈ hist, s.Meets K := by
  induction h with
  | starts hcreate =>
    intro s hs
    obtain rfl := List.mem_singleton.1 hs
    exact meets_of_create hcreate
  | @goes s s' older h hgo ih =>
    have hbefore := ih fun t ht => hkeeps t (List.mem_cons_of_mem _ ht)
    refine List.forall_mem_cons.2 ⟨?_, hbefore⟩
    have hmeets := hbefore s (List.mem_cons_self ..)
    have hnext : ∀ b e, s.engine? b = some e → K.Keeps e := fun b e he =>
      hkeeps s (List.mem_cons_of_mem _ (List.mem_cons_self ..)) b e he (hmeets.engines b e he)
    cases hgo with
    | steps hs => exact hmeets.step? hnext hs
    | begins hr hs hb hbegin => exact hmeets.begin? hbegin
    | concludes save hr hs heq => exact heq ▸ hmeets.conclude save

end Session

end ScriptBridge
