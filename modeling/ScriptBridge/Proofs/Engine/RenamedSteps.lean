/-
# Steps, with other slots

Records that arrive and records that are made come to the same in an engine with other slots, and
so does every step, unless a token is called.
-/
import ScriptBridge.Proofs.Engine.RenamedCalls

namespace ScriptBridge

open ScriptBridge.Number ScriptBridge.Script ScriptBridge.Table ScriptBridge.Text ScriptBridge.Wire

namespace Engine

variable {f : Slot → Slot} {e : Engine}

/-! ### Records on their way into script -/

@[simp] lemma renameMade_allocToken (f : Slot → Slot) (e : Engine) (slot : Slot) :
    renameMade f (e.allocToken slot) = (e.rename f).allocToken (f slot) := rfl

@[simp] lemma renameMade_allocStandIn (f : Slot → Slot) (e : Engine) (slot : Slot) (token : Ref) :
    renameMade f (e.allocStandIn slot token) = (e.rename f).allocStandIn (f slot) token := rfl

@[simp] lemma renameMade_allocProxy (f : Slot → Slot) (e : Engine) (slot : Slot) :
    renameMade f (e.allocProxy slot) = (e.rename f).allocProxy (f slot) := rfl

@[simp] lemma renameMade_newHostError (f : Slot → Slot) (e : Engine) (message : Option String) :
    renameMade f (e.newHostError message) = (e.rename f).newHostError message := rfl

lemma rename_withValue {next next' : Engine → Value → Engine} (f : Slot → Slot)
    (made : Outcome × Engine)
    (hnext : ∀ e v, (next e v).rename f = next' (e.rename f) v) :
    (withValue made next).rename f = withValue (renameMade f made) next' := by
  obtain ⟨outcome, e⟩ := made
  cases outcome with
  | ok v => exact hnext e v
  | error v => rfl

@[simp] lemma renameMade_restore (f : Slot → Slot) (e : Engine) (handle : Handle) :
    renameMade f (e.restore handle) = (e.rename f).restore handle := by
  unfold restore
  rw [handles_rename]
  cases e.handles.get? handle <;> rfl

@[simp] lemma renameMade_convertLeaf (f : Slot → Slot) (e : Engine) (v : View) :
    renameMade f (e.convertLeaf v) = (e.rename f).convertLeaf (v.rename f) := by
  cases v with
  | foreignRef h => cases h <;> first | rfl | exact renameMade_restore ..
  | foreignError h => cases h <;> first | rfl | exact renameMade_restore ..
  | _ => rfl

@[simp] lemma renameMade_convertShallow (f : Slot → Slot) (e : Engine) (r : Record) :
    renameMade f (e.convertShallow r) = (e.rename f).convertShallow (r.rename f) := by
  unfold convertShallow
  rw [Record.view_rename]
  cases r.view with
  | error err => rfl
  | ok v => exact renameMade_convertLeaf ..

mutual
@[simp] theorem renameMade_convert (f : Slot → Slot) (e : Engine) :
    ∀ r : Record, renameMade f (e.convert r) = (e.rename f).convert (r.rename f)
  | .plain tag bits length => by
    have hshallow := renameMade_convertShallow f e (.plain tag bits length)
    obtain ⟨bits', heq⟩ := Record.exists_rename_plain f tag bits length
    rw [heq] at hshallow ⊢
    rw [convert, convert, hshallow]
  | .text kind bytes => by
    have hshallow := renameMade_convertShallow f e (.text kind bytes)
    rw [Record.rename_text] at hshallow ⊢
    rw [convert, convert, hshallow]
  | .array items => by
    rw [Record.rename_array, convert, convert, ← renameMade_convertItems f e items]
    obtain ⟨outcome, e'⟩ := e.convertItems items
    cases outcome <;> rfl

theorem renameMade_convertItems (f : Slot → Slot) (e : Engine) :
    ∀ rs : List Record,
      renameMade f (e.convertItems rs) = (e.rename f).convertItems (rs.map (Record.rename f))
  | [] => by
    rw [List.map_nil, convertItems, convertItems]
    rfl
  | r :: rs => by
    rw [List.map_cons, convertItems, convertItems, ← renameMade_convert f e r]
    obtain ⟨outcome, e'⟩ := e.convert r
    cases outcome with
    | error v =>
      dsimp only [renameMade, rename]
      rw [Record.slotsOfItems_rename, List.map_append]
    | ok v =>
      dsimp only [renameMade]
      rw [← renameMade_convertItems f e' rs]
      obtain ⟨outcome, e''⟩ := e'.convertItems rs
      cases outcome <;> rfl
end

@[simp] lemma takesElements_rename (f : Slot → Slot) (o : Object) :
    takesElements (o.rename f) = takesElements o := by
  obtain ⟨kind, parent, properties, entry⟩ := o
  cases kind <;> rfl

@[simp] lemma takesElementsWithin_rename (f : Slot → Slot) (h : Heap) (fuel : Nat)
    (r : Option Ref) :
    takesElementsWithin (h.rename f) fuel r = takesElementsWithin h fuel r := by
  induction fuel generalizing r with
  | zero => rfl
  | succ fuel ih =>
    cases r with
    | none => rfl
    | some r =>
      rw [takesElementsWithin, takesElementsWithin, Heap.get?_rename]
      cases h.get? r with
      | none => rfl
      | some o =>
        simp only [Option.map_some, takesElements_rename, Object.parent_rename, ih]

@[simp] lemma keepsMessage_rename (f : Slot → Slot) (e : Engine) :
    (e.rename f).keepsMessage = e.keepsMessage := by
  unfold keepsMessage
  rw [heap_rename, Heap.find_rename]
  cases e.heap.find Intrinsic.errorParent (.name "message") <;> rfl

@[simp] lemma isUnwatched_rename (f : Slot → Slot) (e : Engine) :
    (e.rename f).isUnwatched = e.isUnwatched := by
  simp only [isUnwatched, isIntact_rename, keepsMessage_rename, heap_rename,
    Heap.length_objects_rename, takesElementsWithin_rename]

@[simp] lemma rename_startStandIn (f : Slot → Slot) (e : Engine) (slot : Slot) :
    (e.startStandIn slot).rename f = (e.rename f).startStandIn (f slot) := rfl

@[simp] lemma renameMade_allocHandler (f : Slot → Slot) (e : Engine) (slot : Slot) (token : Ref) :
    renameMade f (e.allocHandler slot token) = (e.rename f).allocHandler (f slot) token := rfl

@[simp] lemma rename_takeStandInClass (f : Slot → Slot) (e : Engine) (slot : Slot) (token : Ref)
    (g : Value) :
    (e.takeStandInClass slot token g).rename f =
      (e.rename f).takeStandInClass (f slot) token g := by
  unfold takeStandInClass
  split
  · rfl
  · exact rename_construct f _ g _

@[simp] lemma rename_enterStandIn (f : Slot → Slot) (e : Engine) (slot : Slot) (v : Value) :
    (e.enterStandIn slot v).rename f = (e.rename f).enterStandIn (f slot) v := by
  cases v with
  | object r =>
    simp only [enterStandIn, rename]
    rw [Heap.update_rename (g := ({ · with entry := some slot })) fun o => rfl]
    rfl
  | _ => rfl

@[simp] lemma rename_nextItem (f : Slot → Slot) (e : Engine) (array : Ref) (index : Nat)
    (rs : List Record) :
    (e.nextItem array index rs).rename f =
      (e.rename f).nextItem array index (rs.map (Record.rename f)) := by
  cases rs <;> rfl

@[simp] lemma rename_arriveShallow (f : Slot → Slot) (e : Engine) (r : Record) :
    (e.arriveShallow r).rename f = (e.rename f).arriveShallow (r.rename f) := by
  have hshallow : (withValue (e.convertShallow r) give).rename f = _ :=
    rename_withValue f (e.convertShallow r) fun e v => rename_give ..
  rw [renameMade_convertShallow] at hshallow
  unfold arriveShallow
  rw [Record.view_rename]
  cases r.view with
  | error err => exact hshallow
  | ok v => cases v <;> first | exact hshallow | rfl

@[simp] lemma rename_arriveStep (f : Slot → Slot) (e : Engine) (r : Record) :
    (e.arriveStep r).rename f = (e.rename f).arriveStep (r.rename f) := by
  unfold arriveStep
  rw [isUnwatched_rename]
  split
  · rw [rename_withValue f _ fun e v => rename_give f e v, renameMade_convert]
  · cases r with
    | plain tag bits length =>
      have hshallow := rename_arriveShallow f e (.plain tag bits length)
      obtain ⟨bits', heq⟩ := Record.exists_rename_plain f tag bits length
      rw [heq] at hshallow ⊢
      exact hshallow
    | text kind bytes =>
      have hshallow := rename_arriveShallow f e (.text kind bytes)
      rw [Record.rename_text] at hshallow ⊢
      exact hshallow
    | array items =>
      rw [Record.rename_array]
      exact rename_nextItem f (e.allocArray []).2 e.heap.next 0 items

@[simp] lemma rename_nextSpread (f : Slot → Slot) (e : Engine) (target : Handle) (name : String)
    (array : Ref) (count : Nat) (done : List Value) :
    (e.nextSpread target name array count done).rename f =
      (e.rename f).nextSpread target name array count done := by
  unfold nextSpread
  split
  · rfl
  · rw [← renameMade_restore]
    exact rename_withValue f _ fun e v => rfl

@[simp] lemma rename_startSpread (f : Slot → Slot) (e : Engine) (target : Handle) (name : String)
    (v : Value) :
    (e.startSpread target name v).rename f = (e.rename f).startSpread target name v := by
  cases v with
  | object r =>
    simp only [startSpread, object?_rename]
    cases e.object? (.object r) with
    | none => rfl
    | some o =>
      obtain ⟨kind, -, -, -⟩ := o
      cases kind <;> first | rfl | exact rename_nextSpread ..
  | _ => rfl

/-! ### Script values as records -/

@[simp] lemma rename_nextElement (f : Slot → Slot) (e : Engine) (array : Ref)
    (depth length index : Nat) (done : List Record) :
    (e.nextElement array depth length index done).rename f =
      (e.rename f).nextElement array depth length index (done.map (Record.rename f)) := by
  unfold nextElement
  split
  · rfl
  · simp [Control.rename, List.map_reverse]

lemma rename_pin (f : Slot → Slot) (e : Engine) (r : Ref) :
    (e.rename f).pin r = (e.pin r).map fun p => (p.1, p.2.rename f) := by
  unfold pin
  rw [handles_rename, Option.map_map]
  rfl

@[simp] lemma rename_encodeInstance (f : Slot → Slot) (e : Engine) (r : Ref) (isDate : Bool) :
    (e.encodeInstance r isDate).rename f = (e.rename f).encodeInstance r isDate := by
  unfold encodeInstance
  split
  · rfl
  · rw [rename_pin]
    cases e.pin r <;> simp [Control.rename]

@[simp] lemma lineage?_rename (f : Slot → Slot) (o : Object) :
    lineage? (o.rename f) = lineage? o := by
  obtain ⟨kind, parent, properties, entry⟩ := o
  cases kind <;> rfl

@[simp] lemma isHeirWithin_rename (f : Slot → Slot) (h : Heap) (ancestor : Ref) (fuel : Nat)
    (r : Ref) :
    isHeirWithin (h.rename f) ancestor fuel r = isHeirWithin h ancestor fuel r := by
  induction fuel generalizing r with
  | zero => rfl
  | succ fuel ih =>
    rw [isHeirWithin, isHeirWithin, Heap.get?_rename]
    cases h.get? r with
    | none => rfl
    | some o => simp only [Option.map_some, Option.bind_some, lineage?_rename, ih]

@[simp] lemma isHeir_rename (f : Slot → Slot) (e : Engine) (ancestor r : Ref) :
    (e.rename f).isHeir ancestor r = e.isHeir ancestor r := by
  simp only [isHeir, heap_rename, isHeirWithin_rename, Heap.length_objects_rename]

@[simp] lemma rename_takeDateClass (f : Slot → Slot) (e : Engine) (r : Ref) (v : Value) :
    (e.takeDateClass r v).rename f = (e.rename f).takeDateClass r v := by
  unfold takeDateClass
  rw [isCallable_rename]
  split <;> rfl

@[simp] lemma rename_takeDateParent (f : Slot → Slot) (e : Engine) (r : Ref) (v : Value) :
    (e.takeDateParent r v).rename f = (e.rename f).takeDateParent r v := by
  cases v with
  | object parent =>
    simp only [takeDateParent, isHeir_rename]
    exact rename_encodeInstance ..
  | _ => rfl

@[simp] lemma rename_encodeObject (f : Slot → Slot) (e : Engine) (r : Ref) (depth : Nat) :
    (e.encodeObject r depth).rename f = (e.rename f).encodeObject r depth := by
  have hother : Engine.rename f (if e.isIntact .date then
        e.encodeInstance r (e.isHeir Intrinsic.dateParent r)
      else (e.await (.dateClass r)).goto
        (.read globalObject (.name (Intrinsic.className .date)))) =
      if (e.rename f).isIntact .date then
        (e.rename f).encodeInstance r ((e.rename f).isHeir Intrinsic.dateParent r)
      else ((e.rename f).await (.dateClass r)).goto
        (.read globalObject (.name (Intrinsic.className .date))) := by
    rw [isIntact_rename, isHeir_rename]
    split
    · exact rename_encodeInstance ..
    · rfl
  unfold encodeObject
  rw [heap_rename, Heap.get?_rename]
  cases e.heap.get? r with
  | none => exact hother
  | some o =>
    obtain ⟨kind, parent, properties, entry⟩ := o
    cases entry with
    | some slot =>
      simp only [Option.bind_some, Option.map_some, Object.rename, rename_goto, Control.rename,
        Record.rename_managed]
    | none =>
      cases kind with
      | array length =>
        simp only [Option.bind_some, Option.map_some, Option.map_none, Object.rename,
          ObjectKind.rename, maxDepth_rename, maxLength_rename, apply_ite (Engine.rename f),
          rename_goto, Control.rename, Record.rename_unknownError, Record.rename_nulls,
          rename_nextElement, List.map_nil]
        rfl
      | _ => exact hother

@[simp] lemma rename_encodeStep (f : Slot → Slot) (e : Engine) (v : Value) (depth : Nat) :
    (e.encodeStep v depth).rename f = (e.rename f).encodeStep v depth := by
  cases v with
  | string units =>
    simp only [encodeStep]
    cases units.toString <;> simp [Control.rename]
  | object r => exact rename_encodeObject ..
  | _ => simp [encodeStep, Control.rename]

@[simp] lemma rename_takeTime (f : Slot → Slot) (e : Engine) (v : Value) :
    (e.takeTime v).rename f = (e.rename f).takeTime v := by
  unfold takeTime
  rw [typeName_rename]
  cases v.asNumber <;> simp [Control.rename]

/-! ### Steps -/

@[simp] lemma rename_pendingStep (f : Slot → Slot) (e : Engine) (work : Pending) (v : Value) :
    (e.pendingStep work v).rename f = (e.rename f).pendingStep (work.rename f) v := by
  cases work with
  | instanceMade object => cases v <;> rfl
  | _ => simp [pendingStep, Pending.rename]

@[simp] lemma rename_retStep (f : Slot → Slot) (e : Engine) (frame : Frame) (v : Value) :
    (e.retStep frame v).rename f = (e.rename f).retStep (frame.rename f) v := by
  cases frame with
  | assignMember target name =>
    change _ = withValue ((e.rename f).restore target) _
    rw [← renameMade_restore]
    exact rename_withValue f _ fun e t => rfl
  | invocation target name args =>
    simp only [retStep, Frame.rename, isCallable_rename]
    split <;> rfl
  | timeMember date =>
    simp only [retStep, Frame.rename, isCallable_rename]
    split <;> rfl
  | accepting isError result held =>
    cases isError
    · rfl
    · simp [retStep, Frame.rename, Control.rename]
  | _ => simp [retStep, Frame.rename, Control.rename]

/-- A step and what happened in it, with other slots. -/
def renameStep (f : Slot → Slot) (p : Engine × Event) : Engine × Event :=
  (p.1.rename f, p.2.rename f)

lemma renameStep_encodedStep (f : Slot → Slot) (e : Engine) (frame : Frame) (r : Record) :
    renameStep f (e.encodedStep frame r) =
      (e.rename f).encodedStep (frame.rename f) (r.rename f) := by
  cases frame with
  | elements array depth length index done =>
    exact congrArg (·, Event.silent)
      (rename_nextElement f e array depth length (index + 1) (r :: done))
  | sending call result held =>
    simp [renameStep, encodedStep, Frame.rename, Event.rename, Control.rename]
  | _ => rfl

@[simp] lemma rename_settleError (f : Slot → Slot) (e : Engine) (v : Value) :
    (e.settleError v).rename f = (e.rename f).settleError v := by
  cases v with
  | object r =>
    simp only [settleError, heap_rename, Heap.get?_rename, rename_pin]
    cases e.heap.get? r with
    | none => cases e.pin r <;> simp [Control.rename, Frame.rename]
    | some o =>
      cases ho : o.entry <;> cases e.pin r <;> simp [ho, Control.rename, Frame.rename]
  | _ => simp [settleError, Control.rename]

lemma rename_throwStep (f : Slot → Slot) (e : Engine) (frame : Frame) (v : Value) :
    (e.throwStep frame v).rename f = (e.rename f).throwStep (frame.rename f) v := by
  cases frame with
  | sending call result held => simp [throwStep, Frame.rename]
  | entry c => simp [throwStep, Frame.rename]
  | items array index rest => simp [throwStep, Frame.rename, rename, Record.slotsOfItems_rename]
  | placed array index rest => simp [throwStep, Frame.rename, rename, Record.slotsOfItems_rename]
  | _ => rfl

lemma rename_refuseStep (f : Slot → Slot) (e : Engine) (frame : Frame) (text : String) :
    (e.refuseStep frame text).rename f = (e.rename f).refuseStep (frame.rename f) text := by
  cases frame <;> simp [refuseStep, Frame.rename, Control.rename]

lemma rename_replyStep (f : Slot → Slot) (e : Engine) (frame : Frame) (r : Record) :
    (e.replyStep frame r).rename f = (e.rename f).replyStep (frame.rename f) (r.rename f) := by
  cases frame <;> simp [replyStep, Frame.rename, Control.rename]

lemma rename_sweep (f : Slot → Slot) (e : Engine) : e.sweep.rename f = (e.rename f).sweep := by
  have hdead : (renameAll f e.unreachable).map Prod.fst = e.unreachable.map Prod.fst := by
    rw [renameAll, List.map_map]
    rfl
  unfold sweep
  dsimp only
  rw [unreachable_rename, hdead, slotsOf_rename]
  simp only [rename, Heap.rename, List.map_append, List.filter_map]
  rfl

lemma rename_beginStep (f : Slot → Slot) (e : Engine) (op : Operation) :
    (e.beginStep op).rename f = (e.rename f).beginStep (op.rename f) := by
  cases op with
  | getMember target name =>
    change _ = withValue ((e.rename f).restore target) _
    rw [← renameMade_restore]
    exact rename_withValue f _ fun e t => rfl
  | release handle =>
    simp only [beginStep, Operation.rename, handles_rename]
    cases e.handles.remove handle with
    | none => simp [Control.rename]
    | some p => simp [rename, Control.rename]
  | collect => simp [beginStep, Operation.rename, rename_sweep, Control.rename]
  | _ => rfl

/-- Whether an engine is about to call a token, which tells its slot. -/
def TellsSlot (e : Engine) : Prop :=
  ∃ g this args slot, e.control = .call g this args ∧
    (e.object? g).map Object.kind = some (.builtin (.token slot))

lemma renameStep_popWith (f : Slot → Slot) (e : Engine)
    {next next' : Engine → Frame → Engine × Event}
    (hnext : ∀ e frame, renameStep f (next e frame) = next' (e.rename f) (frame.rename f)) :
    renameStep f (e.popWith next) = (e.rename f).popWith next' := by
  unfold popWith
  rw [stack_rename]
  cases e.stack with
  | nil => rfl
  | cons frame rest => exact hnext { e with stack := rest } frame

/-- **What an engine does next does not depend on which slots it knows.** -/
lemma renameStep_proceed (f : Slot → Slot) (h : ¬ e.TellsSlot) :
    renameStep f e.proceed = (e.rename f).proceed := by
  unfold proceed
  rw [control_rename]
  cases hc : e.control with
  | ret v =>
    exact renameStep_popWith f e fun e frame =>
      congrArg (·, Event.silent) (rename_retStep ..)
  | throw v =>
    exact renameStep_popWith f e fun e frame =>
      congrArg (·, Event.silent) (rename_throwStep ..)
  | encoded r => exact renameStep_popWith f e fun e frame => renameStep_encodedStep ..
  | refuse text =>
    exact renameStep_popWith f e fun e frame =>
      congrArg (·, Event.silent) (rename_refuseStep ..)
  | reply r =>
    exact renameStep_popWith f e fun e frame =>
      congrArg (·, Event.silent) (rename_replyStep ..)
  | idle => rfl
  | begin op => exact congrArg (·, Event.silent) (rename_beginStep ..)
  | eval script env => exact congrArg (·, Event.silent) (rename_evalStep ..)
  | read target key => exact congrArg (·, Event.silent) (rename_readStep ..)
  | write target key v => exact congrArg (·, Event.silent) (rename_writeStep ..)
  | call g this args =>
    exact congrArg (·, Event.silent) (rename_callStep f e g this args fun slot hg =>
      h ⟨g, this, args, slot, hc, hg⟩)
  | encode v depth => exact congrArg (·, Event.silent) (rename_encodeStep ..)
  | ask r => rfl
  | convert r => exact congrArg (·, Event.silent) (rename_arriveStep ..)

lemma reportSlot_rename (f : Slot → Slot) (e : Engine) (slot : Slot) :
    (e.rename f).reportSlot (f slot) = (e.reportSlot slot).rename f := by
  unfold reportSlot
  rw [connected_rename]
  split <;> rfl

/-- **A step of an engine does not depend on which slots it knows.** -/
theorem step_rename (f : Slot → Slot) (h : ¬ e.TellsSlot) :
    (e.rename f).step = renameStep f e.step := by
  unfold step
  rw [released_rename]
  cases hr : e.released with
  | cons slot rest =>
    exact congrArg (_, ·) (reportSlot_rename f e slot)
  | nil =>
    dsimp only [List.map_nil]
    rw [unreferenced?_rename]
    cases e.unreferenced? with
    | none => exact (renameStep_proceed f h).symm
    | some p =>
      obtain ⟨r, o⟩ := p
      dsimp only [Option.map_some]
      rw [Object.slot?_rename, heap_rename, Heap.erase_rename]
      cases o.slot? with
      | none => rfl
      | some slot => exact congrArg (_, ·) (reportSlot_rename f e slot)

end Engine

end ScriptBridge
