/-
# Values given to frames as work of script

A value that is given to a frame which keeps nothing but values of script leads to more
work of script, and so does the start of an operation that brings no value from the host.
-/
import ScriptBridge.Proofs.Engine.Calls
import ScriptBridge.Proofs.Table.Handles
import ScriptBridge.Proofs.Wire.Leaves

namespace ScriptBridge.Engine

open ScriptBridge.Number ScriptBridge.Script ScriptBridge.Table ScriptBridge.Text ScriptBridge.Wire

variable {P : Prop} {e₀ e : Engine} {v w t f this object : Value} {r : Ref} {key : Key}

lemma surrogateText_ne_empty (offset : Nat) : surrogateText offset ≠ "" := fun h =>
  absurd (String.append_eq_empty_iff.1 h).1 (by decide)

lemma mismatchText_ne_empty (kind wanted : String) : mismatchText kind wanted ≠ "" := fun h =>
  absurd (String.append_eq_empty_iff.1 h).2 (by decide)

namespace Grown

/-! ### Script objects that the host refers to -/

lemma withRestored (h : Grown P e₀ e) (hh : e.Shown P e.handles.values) (handle : Handle)
    {next : Engine → Value → Engine}
    (hnext : ∀ r, e.heap.Shows P r → ScriptWork P e₀ (next e (.object r))) :
    ScriptWork P e₀ (withValue (e.restore handle) next) := by
  unfold Engine.restore
  split
  · next r hr => exact hnext r (hh r (Handles.mem_values_of_get? hr))
  · exact (h.newError _ _).works rfl (shown_newErrorOf _ _)

lemma nextSpread (h : Grown P e₀ e) (hh : e.Shown P e.handles.values) (target : Handle)
    (name : String) (hr : e.heap.Shows P r) (count : Nat) {done : List Value}
    (hd : ∀ v ∈ done, e.Shown P v.refs) (hs : AwaitsRecord e.stack) :
    ScriptWork P e₀ (e.nextSpread target name r count done) := by
  have harray : e.Shown P [r] := shown_cons.2 ⟨hr, shown_nil P e⟩
  unfold Engine.nextSpread
  split
  · refine (h.pushOn (f := .arguments target name r count done) rfl ?_ hs).works rfl harray
    simp only [Frame.refs, shown_cons, shown_flatMap]
    exact ⟨hr, hd⟩
  · refine h.withRestored hh target fun t ht => ?_
    have htarget : e.Shown P [t] := shown_cons.2 ⟨ht, shown_nil P e⟩
    refine (((h.pushOn (f := .settle) rfl (shown_nil P e) hs).push
      (f := .hold [.object r]) rfl ?_).push (f := .invocation (.object t) name done.reverse)
      rfl ?_).works rfl htarget
    · simp only [Frame.refs, shown_flatMap, List.mem_singleton, forall_eq]
      exact harray
    · simp only [Frame.refs, shown_append, shown_flatMap]
      exact ⟨htarget, shown_reverse hd⟩

lemma startSpread (h : Grown P e₀ e) (hh : e.Shown P e.handles.values) (target : Handle)
    (name : String) (hv : e.Shown P v.refs) (hs : AwaitsRecord e.stack) :
    ScriptWork P e₀ (e.startSpread target name v) := by
  unfold Engine.startSpread
  split
  · exact h.nextSpread hh target name (shown_cons.1 hv).1 _ (by simp) hs
  · exact h.throwType _

/-! ### Dates on their way to the host -/

lemma takeDateClass (h : Grown P e₀ e) (hr : e.heap.Shows P r) (hv : e.Shown P v.refs)
    (hs : AwaitsRecord e.stack) : ScriptWork P e₀ (e.takeDateClass r v) := by
  unfold Engine.takeDateClass
  split
  · exact (h.pushOn (f := .pending (.dateParent r)) rfl
      (shown_cons.2 ⟨hr, shown_nil P e⟩) hs).works rfl hv
  · exact h.throwType _

/-- Where a record is waited for, one that names nothing may be given. -/
lemma giveRecordOf (h : Grown P e₀ e) {r : Record} (hr : r.IsBare) (hspeaks : r.Speaks False)
    (hs : AwaitsRecord e.stack) : ScriptWork P e₀ (e.goto (.encoded r)) :=
  .inner (h.goto _) hr hs (shown_nil P e) (.inl hspeaks)

lemma refuse (h : Grown P e₀ e) {text : String} (ht : text ≠ "") (hs : AwaitsRecord e.stack) :
    ScriptWork P e₀ (e.goto (.refuse text)) :=
  .inner (h.goto _) trivial hs (shown_nil P e) (.inl ht)

lemma startEncode (h : Grown P e₀ e) (hv : e.Shown P v.refs) (hs : AwaitsRecord e.stack) :
    ScriptWork P e₀ (e.goto (.encode v 0)) :=
  .inner (h.goto _) trivial hs hv (.inl trivial)

lemma takeTime (h : Grown P e₀ e) (hs : AwaitsRecord e.stack) (v : Value) :
    ScriptWork P e₀ (e.takeTime v) := by
  unfold Engine.takeTime
  split
  · exact h.giveRecordOf (Record.isBare_date _) (Record.speaks_date _) hs
  · exact h.refuse (mismatchText_ne_empty _ _) hs

/-! ### Work that waits for a value -/

lemma pendingStep (h : Grown P e₀ e) {work : Pending} (hw : work.isPlain = true)
    (hr : e.Shown P work.refs) (hv : e.Shown P v.refs) :
    ScriptWork P e₀ (e.pendingStep work v) := by
  cases work with
  | conversion object asText last => exact h.callConversion hr hv asText last
  | converted object asText last => exact h.acceptConversion hr hv asText last
  | text missing => exact h.giveText hv missing
  | number => exact h.giveNumber hv
  | nearest => exact h.giveNearest hv
  | addRight right => exact h.giveSum hv hr
  | addLeft left => exact h.giveSum hr hv
  | joinMember object => exact h.arrayText hr hv
  | joinLength object separator =>
    exact h.startJoin (shown_append.1 hr).1 (shown_append.1 hr).2 _
  | joinSeparator object length => exact h.nextJoined hr _ _ _ _
  | joinElement object separator length index done => exact h.takeJoined hr hv _ _ _ _
  | joinText object separator length index done => exact h.nextJoined hr _ _ _ _
  | errorName error => exact h.describeMessage hr _
  | errorMessage name => exact h.give (shown_nil P e)
  | argumentCount f this object =>
    simp only [Pending.refs, shown_append] at hr
    exact h.takeArgumentCount hr.1.1 hr.1.2 hr.2 v
  | argument f this object count index done =>
    simp only [Pending.refs, shown_append, shown_flatMap] at hr
    exact h.nextArgument hr.1.1.1 hr.1.1.2 hr.1.2 (List.forall_mem_cons.2 ⟨hv, hr.2⟩) _ _
  | length array w => exact h.takeLength (shown_cons.1 hr).1 (shown_cons.1 hr).2 v
  | lengthAgain array w length => exact h.takeLengthAgain (shown_cons.1 hr).2 v length
  | instanceClass args => exact h.construct hv (shown_flatMap.1 hr)
  | instanceParent f args =>
    exact h.constructFrom (shown_append.1 hr).1 (shown_flatMap.1 (shown_append.1 hr).2) hv
  | instanceMade object =>
    unfold Engine.pendingStep
    dsimp only
    split
    · exact h.give hv
    · exact h.give hr
  | boxed => exact h.giveObject hv
  | bigint => exact h.giveBigint hv
  | symbol => exact h.giveSymbol _
  | errorOf className =>
    exact (h.newErrorOf className (by rintro w ⟨⟩; exact hv)).give (shown_newErrorOf className _)
  | functionName => exact h.give (shown_nil P e)
  | _ => cases hw

/-- A frame that keeps nothing but values of script takes a value, but for the parent that
dates should have. -/
lemma retStep (h : Grown P e₀ e) (hh : e.Shown P e.handles.values) {f : Frame}
    (hq : f.isQuiet = true) (hr : e.Shown P f.refs) (hs : f.Sits e.stack)
    (hd : ∀ r, f ≠ .pending (.dateParent r)) (hv : e.Shown P v.refs) :
    ScriptWork P e₀ (e.retStep f v) := by
  cases f with
  | operands op done rest env =>
    simp only [Frame.refs, shown_append, shown_flatMap] at hr
    exact h.nextOperand op (List.forall_mem_cons.2 ⟨hv, hr.1⟩) rest hr.2
  | parts rest env => exact h.nextPart rest hr
  | branch yes no env => exact h.works rfl hr
  | guard handler env => exact h.give hv
  | member name args env =>
    exact (h.push (f := .method v args env) rfl (shown_append.2 ⟨hv, hr⟩)).works rfl hv
  | method this args env =>
    refine h.nextOperand .callOn ?_ args (shown_append.1 hr).2
    simp only [List.forall_mem_cons]
    exact ⟨hv, (shown_append.1 hr).1, by simp⟩
  | define key body isSetter env => exact h.defineAccessor hv key body isSetter hr
  | hold values => exact h.give hv
  | call values => exact h.give hv
  | assigned w => exact h.give hr
  | pending work =>
    by_cases hw : work.isPlain = true
    · exact h.pendingStep hw hr hv
    · cases work with
      | dateClass object => exact h.takeDateClass (shown_cons.1 hr).1 hv hs
      | dateParent object => exact absurd rfl (hd object)
      | standInClass slot token => cases hq
      | entered slot => cases hq
      | _ => exact absurd rfl hw
  | assignGlobal name =>
    exact (h.pushOn (f := .settleUnit) rfl (shown_nil P e) hs).works rfl
      (shown_append.2 ⟨h.shown_global, hv⟩)
  | assignMember target name =>
    refine h.withRestored hh target fun t ht => ?_
    have htarget : e.Shown P [t] := shown_cons.2 ⟨ht, shown_nil P e⟩
    refine ((h.pushOn (f := .settleUnit) rfl (shown_nil P e) hs).push (f := .hold [.object t])
      rfl ?_).works rfl (shown_append.2 ⟨htarget, hv⟩)
    simp only [Frame.refs, shown_flatMap, List.mem_singleton, forall_eq]
    exact htarget
  | spread target name => exact h.startSpread hh target name hv hs
  | arguments target name array count done =>
    simp only [Frame.refs, shown_cons, shown_flatMap] at hr
    exact h.nextSpread hh target name hr.1 count (List.forall_mem_cons.2 ⟨hv, hr.2⟩) hs
  | invocation target name args =>
    simp only [Frame.refs, shown_append, shown_flatMap] at hr
    unfold Engine.retStep
    dsimp only
    split
    · exact h.works rfl (shown_call hv hr.1 hr.2)
    · exact h.throwType _
  | timeMember date =>
    unfold Engine.retStep
    dsimp only
    split
    · exact (h.pushOn (f := .time date) rfl hr hs).works rfl (shown_call hv hr (by simp))
    · exact h.throwType _
  | time date => exact h.takeTime hs v
  | accepting isError result held =>
    simp only [Frame.refs, shown_append, shown_flatMap] at hr
    unfold Engine.retStep
    dsimp only
    split
    · exact (h.markThrown v).works rfl (hv.markThrown v)
    · refine h.give ?_
      cases result with
      | none => exact hv
      | some w => exact hr.1 w (by simp)
  | printing thrown => exact h.works rfl hv
  | settle => exact h.startEncode hv hs
  | settleUnit => exact h.giveRecordOf Record.isBare_null Record.speaks_null hs
  | _ => cases hq

end Grown

end ScriptBridge.Engine
