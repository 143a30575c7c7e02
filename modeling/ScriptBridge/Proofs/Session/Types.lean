/-
# Host types

The host types of a program are given when it is made, and nothing that it does changes them.
-/
import ScriptBridge.Proofs.Session.History

namespace ScriptBridge.Session

open ScriptBridge.Bridge ScriptBridge.Host ScriptBridge.Script ScriptBridge.Wire

variable {s s' t : Session} {types : List HostType} {setups : List Setup}
  {hist : List Session}

/-! ### Letting go -/

lemma types_lettingGo (before s : Session) : (before.lettingGo s).types = s.types := by
  rcases lettingGo_eq before s with h | ⟨_, vs, _, h⟩ <;> rw [h]
  rfl

lemma types_tidy? (h : s.tidy? = some t) : t.types = s.types := by
  unfold tidy? at h
  split at h
  · cases h
    rfl
  · split at h
    · cases h
      rfl
    · split at h
      · cases h
        unfold endLease
        dsimp only
        split <;> rfl
      · obtain ⟨st, -, rfl⟩ := Option.map_eq_some_iff.1 h
        unfold forgetObject
        dsimp only
        split <;> rfl

/-! ### Host code -/

mutual
lemma types_build (s : Session) : ∀ t : Template, (s.build t).2.types = s.types
  | .plain .. => rfl
  | .array ts => types_buildItems s ts
  | .fresh _ _ fields => types_buildFields s fields
  | .register _ => rfl

lemma types_buildItems (s : Session) : ∀ ts : List Template, (s.buildItems ts).2.types = s.types
  | [] => rfl
  | t :: ts => (types_buildItems _ ts).trans (types_build s t)

lemma types_buildFields (s : Session) :
    ∀ fields : List (String × Template), (s.buildFields fields).2.types = s.types
  | [] => rfl
  | (_, t) :: rest => (types_buildFields _ rest).trans (types_build s t)
end

lemma types_buildAccess (access : Access Template) :
    (s.buildAccess access).2.types = s.types := by
  cases access with
  | get => rfl
  | set t => exact types_build s t
  | invoke ts => exact types_buildItems s ts

lemma types_gotoMember (f : ForeignObject) (op : Operation) :
    (s.gotoMember f op).types = s.types := by
  unfold gotoMember
  split <;> rfl

lemma types_withResult {α : Type} {r : Except HostError α} {next : α → Session}
    (h : ∀ a, (next a).types = s.types) : (s.withResult r next).types = s.types := by
  unfold withResult
  split
  · exact h _
  · rfl

lemma types_withBridge {next : Session → Nat → Session} (h : ∀ b, (next s b).types = s.types) :
    (s.withBridge next).types = s.types := by
  unfold withBridge
  split
  · exact h _
  · rfl

lemma types_leaveBridge (b : Nat) : (s.leaveBridge b).types = s.types := by
  unfold leaveBridge
  split <;> rfl

lemma types_useMember (scene : Scene) (position : Nat) (name : String) (access : Access Template) :
    (s.useMember scene position name access).types = s.types :=
  types_withResult fun f => (types_gotoMember f _).trans (types_buildAccess access)

lemma types_actFirst {actions : List Action} {scene : Scene} {none : Session}
    {frame : List Action → Frame} (h : none.types = s.types) :
    (s.actFirst actions scene none frame).types = s.types := by
  cases actions with
  | nil => exact h
  | cons => rfl

lemma types_actStep (a : Action) (scene : Scene) : (s.actStep a scene).types = s.types := by
  cases a with
  | const t => exact types_build s t
  | eval | getVariable | flush | dispose | isDisposed | used =>
    exact types_withBridge fun _ => rfl
  | setVariable name t => exact (types_withBridge fun _ => rfl).trans (types_build s t)
  | dropBridge => exact types_leaveBridge s.current
  | storeValue | arg | store | save => exact types_withResult fun _ => rfl
  | invoke | get | set => exact types_useMember ..
  | seq | list => exact types_actFirst rfl
  | _ => rfl

/-! ### Operations and callbacks -/

lemma types_call (b : Nat) (c : Crossing) (op : Engine.Operation) :
    (s.call b c op).types = s.types := by
  unfold call
  dsimp only
  split <;> rfl

lemma types_exchange (b : Nat) (c : Crossing) (v : HostValue) (op : Record → Engine.Operation) :
    (s.exchange b c v op).types = s.types := by
  unfold exchange
  dsimp only
  split
  · rfl
  · split
    · rfl
    · split <;> rfl

lemma types_operateStep (b : Nat) (op : Operation) : (s.operateStep b op).types = s.types := by
  cases op with
  | evaluate script => exact types_call ..
  | getVariable name =>
    unfold operateStep
    dsimp only
    split
    · rfl
    · exact types_call ..
  | setVariable name v =>
    unfold operateStep
    dsimp only
    split
    · rfl
    · exact types_exchange ..
  | member target name access =>
    unfold operateStep
    dsimp only
    split
    · rfl
    · split
      · rfl
      · cases access with
        | get => exact types_call ..
        | set => exact types_exchange ..
        | invoke => exact types_exchange ..
  | flush =>
    unfold operateStep
    dsimp only
    split <;> rfl

lemma types_decodeStep (b : Nat) (r : Record) : (s.decodeStep b r).types = s.types := by
  unfold decodeStep
  split <;> rfl

lemma types_performStep (b : Nat) (tasks : List Task) (heard : List Heard)
    (result : Except Fault HostValue) : (s.performStep b tasks heard result).types = s.types := by
  unfold performStep
  split
  · split <;> rfl
  · split <;> rfl
  · split <;> rfl

lemma types_unpin (b : Nat) (slot : Slot) (next : Control) :
    (s.unpin b slot next).types = s.types := by
  unfold unpin
  split <;> rfl

lemma types_removeSlot (b : Nat) (slot : Slot) (next : Control) :
    (s.removeSlot b slot next).types = s.types := by
  unfold removeSlot
  dsimp only
  split
  · rfl
  · exact types_unpin ..

lemma types_drainStep (b : Nat) (slots : List Slot) : (s.drainStep b slots).types = s.types := by
  unfold drainStep
  split
  · exact types_unpin ..
  · split <;> rfl

lemma types_releaseStep (entries : List Entry) : (s.releaseStep entries).types = s.types := by
  unfold releaseStep
  split
  · rfl
  · dsimp only
    split
    · rfl
    · split
      · rfl
      · split <;> split <;> rfl

lemma types_disposeStep (b : Nat) : (s.disposeStep b).types = s.types := by
  unfold disposeStep
  split
  · rfl
  · split <;> rfl

lemma types_teardownStep (b : Nat) (slots : List Slot) :
    (s.teardownStep b slots).types = s.types := by
  unfold teardownStep
  split
  · exact types_removeSlot ..
  · split <;> rfl

lemma types_change (b : Nat) (o : HostObject) (f : Frame) (a : Action) (scene : Scene) :
    (s.change b o f a scene).types = s.types := by
  unfold change
  split <;> rfl

lemma types_callMethod (b : Nat) (o : HostObject) (name : String) (v : HostValue) :
    (s.callMethod b o name v).types = s.types := by
  unfold callMethod
  dsimp only
  split
  · rfl
  · exact types_change ..

lemma types_leaveScope (b : Nat) (r : Outcome) : (s.leaveScope b r).types = s.types := by
  unfold leaveScope
  split <;> rfl

lemma types_respondStep (b : Nat) (r : Except HostError HostValue) :
    (s.respondStep b r).types = s.types := by
  unfold respondStep
  split
  · rfl
  · split <;> rfl

lemma types_answerStep (b : Nat) (r : Except HostError Record) :
    (s.answerStep b r).types = s.types := by
  unfold answerStep
  split <;> rfl

lemma types_readObject (b : Nat) (o : HostObject) (name : String) :
    (s.readObject b o name).types = s.types := by
  unfold readObject
  dsimp only
  split
  · split <;> rfl
  · split
    · split <;> rfl
    · rfl

lemma types_readProperty (b : Nat) (slot : Slot) (name : String) :
    (s.readProperty b slot name).types = s.types := by
  unfold readProperty
  split
  · rfl
  · exact types_readObject ..
  · split <;> rfl
  · split
    · rfl
    · split <;> rfl

lemma types_writeProperty (b : Nat) (slot : Slot) (name : String) (r : Record) :
    (s.writeProperty b slot name r).types = s.types := by
  unfold writeProperty
  split
  · rfl
  · dsimp only
    split <;> rfl
  · rfl

lemma types_callEntry (b : Nat) (slot : Slot) (r : Record) :
    (s.callEntry b slot r).types = s.types := by
  unfold callEntry
  split <;> rfl

lemma types_takeFinished (b : Nat) (r : Record) : (s.takeFinished b r).types = s.types := by
  unfold takeFinished
  split
  · unfold takeReply
    split <;> rfl
  · rfl

/-! ### All that happens -/

lemma types_engineStep (b : Nat) : (s.engineStep b).types = s.types := by
  unfold engineStep
  split
  · rfl
  · dsimp only
    split
    · rfl
    · exact types_removeSlot ..
    · next q _ =>
      cases q with
      | get slot name => exact types_readProperty ..
      | set slot name r => exact types_writeProperty ..
      | invoke slot r => exact types_callEntry ..
    · exact types_takeFinished ..

lemma types_doneStep (f : Frame) (r : Outcome) : (s.doneStep f r).types = s.types := by
  cases f with
  | scope b => exact types_leaveScope b r
  | assignee b o setter =>
    cases r with
    | error => rfl
    | ok v => exact types_change ..
  | callee b o name =>
    cases r with
    | error => rfl
    | ok v => exact types_callMethod ..
  | hook o =>
    unfold doneStep
    dsimp only
    split <;> rfl
  | sequence rest last scene =>
    cases r with
    | error => rfl
    | ok v => exact types_actFirst rfl
  | listing rest results scene =>
    cases r with
    | error => rfl
    | ok v => exact types_actFirst rfl
  | attempting =>
    unfold doneStep
    dsimp only
    split <;> rfl
  | _ => rfl

lemma types_proceed? (h : s.proceed? = some t) : t.types = s.types := by
  unfold proceed? at h
  split at h
  · split at h
    · cases h
    · cases h
    · cases h
      exact types_doneStep ..
  all_goals cases h
  · exact types_actStep ..
  · exact types_operateStep ..
  · exact types_engineStep _
  · exact types_decodeStep ..
  · exact types_performStep ..
  · exact types_respondStep ..
  · exact types_answerStep ..
  · exact types_drainStep ..
  · exact types_releaseStep _
  · exact types_disposeStep _
  · exact types_teardownStep ..
  · rfl
  · rfl
  · rfl

lemma types_startMember {b : Nat} {direct : Bool} {on : Template} {name : String}
    {access : Access Template} {form : Form}
    (h : s.startMember b direct on name access = some (t, form)) : t.types = s.types := by
  unfold startMember at h
  dsimp only at h
  split at h
  · cases h
    have hbuilt : ((s.build on).2.buildAccess access).2.types = s.types :=
      (types_buildAccess access).trans (types_build s on)
    split
    · exact hbuilt
    · exact (types_gotoMember ..).trans hbuilt
  · cases h

lemma types_startHolding {b : Nat} {script : Expr} {on : Template} {exclusive : Bool} {form : Form}
    (h : s.startHolding b script on exclusive = some (t, form)) : t.types = s.types := by
  unfold startHolding at h
  dsimp only at h
  split at h
  · split at h <;> cases h <;> exact types_build s on
  · cases h

lemma types_begin? {b : Nat} {c : Command} {form : Form} (h : s.begin? b c = some (t, form)) :
    t.types = s.types := by
  obtain ⟨⟨started, form⟩, hstart, heq⟩ := Option.map_eq_some_iff.1 h
  cases heq
  rw [types_lettingGo]
  change started.types = s.types
  generalize hkept : (if c.needsBridge = true then ({ s with disposed := [], current := b } :
    Session).push (.keeping b) else { s with disposed := [], current := b }) = kept at hstart
  have htypes : kept.types = s.types := by
    rw [← hkept]
    split <;> rfl
  rw [← htypes]
  cases c with
  | setVariable name v =>
    cases hstart
    exact types_build kept v
  | make v =>
    cases hstart
    exact types_build kept v
  | inspect v =>
    cases hstart
    exact types_build kept v
  | same v w =>
    cases hstart
    exact (types_build _ w).trans (types_build kept v)
  | member => exact types_startMember hstart
  | evaluateHolding => exact types_startHolding hstart
  | dropBridge =>
    cases hstart
    exact types_leaveBridge b
  | _ =>
    cases hstart
    rfl

lemma types_conclude (save : Option String) : (s.conclude save).types = s.types := by
  have hresume : s.resume.types = s.types := by
    unfold resume
    split <;> rfl
  rw [conclude, types_lettingGo]
  unfold settle
  split <;> exact hresume

/-- **Nothing that happens changes the host types.** -/
theorem Goes.types_eq (h : Goes s s') : s'.types = s.types := by
  cases h with
  | steps h =>
    unfold step? at h
    split at h
    · cases h
      exact types_engineStep _
    · cases htidy : s.tidy? with
      | some u =>
        rw [htidy] at h
        cases h
        exact types_tidy? htidy
      | none =>
        rw [htidy] at h
        obtain ⟨u, hu, rfl⟩ := Option.map_eq_some_iff.1 h
        rw [types_lettingGo, types_proceed? hu]
  | begins hr hs hb h => exact types_begin? h
  | concludes save hr hs h => exact h ▸ types_conclude save

/-- **The host types are those that a program was made with.** -/
theorem History.types_eq (h : History types setups hist) : ∀ s ∈ hist, s.types = types := by
  induction h with
  | starts hcreate =>
    refine List.forall_mem_singleton.2 ?_
    unfold create at hcreate
    cases hmap : setups.mapM Bridge.create with
    | error e =>
      rw [hmap] at hcreate
      cases hcreate
    | ok bridges =>
      rw [hmap] at hcreate
      cases hcreate
      rfl
  | goes h hgo ih =>
    exact List.forall_mem_cons.2 ⟨hgo.types_eq.trans (ih _ (List.mem_cons_self ..)), ih⟩

end ScriptBridge.Session
