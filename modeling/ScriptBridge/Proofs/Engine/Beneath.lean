/-
# What stays beneath

A step touches the frame on top of the stack at most.  So what waits beneath waits on, until an
outcome is given to it: a value, or an exception.
-/
import ScriptBridge.Proofs.Engine.Exceptions

namespace ScriptBridge

open ScriptBridge.Number ScriptBridge.Script ScriptBridge.Table ScriptBridge.Wire

namespace Engine

variable {P : Prop} {e e₀ e' : Engine} {base : List Frame} {f : Frame} {v : Value}

/-! ### Frames beneath -/

lemma Grown.suffix (h : Grown P e₀ e) : e₀.stack <:+ e.stack := by
  obtain ⟨fs, hstack, -⟩ := h.stack
  exact ⟨fs, hstack.symm⟩

lemma ScriptWork.suffix (h : ScriptWork P e₀ e) : e₀.stack <:+ e.stack := by
  cases h with
  | inner h => exact h.suffix
  | asks h | sends h => exact h.suffix.trans (List.suffix_cons ..)

lemma suffix_nextElement (array : Ref) (depth length index : Nat) (done : List Record) :
    e.stack <:+ (e.nextElement array depth length index done).stack := by
  unfold nextElement
  split
  · exact List.suffix_cons ..
  · exact List.suffix_refl _

lemma suffix_nextItem (array : Ref) (index : Nat) (items : List Record) :
    e.stack <:+ (e.nextItem array index items).stack := by
  cases items with
  | nil => exact List.suffix_refl _
  | cons => exact List.suffix_cons ..

lemma suffix_withValue {made : Outcome × Engine} {next : Engine → Value → Engine}
    (hmade : made.2.stack = e.stack) (h : ∀ w, made.2.stack <:+ (next made.2 w).stack) :
    e.stack <:+ (withValue made next).stack := by
  obtain ⟨w | w, e'⟩ := made
  · exact hmade ▸ List.suffix_refl _
  · exact hmade ▸ h w

/-- No step touches the frames beneath the one on top. -/
lemma Advance.tail {ev : Event} (h : Advance P e e' ev) : e.stack.tail <:+ e'.stack := by
  have hstays : e.stack.tail <:+ e.stack := List.tail_suffix _
  cases h with
  | works hc h => exact hstays.trans h.suffix
  | pops hs hf hentry hc h =>
    rw [hs]
    exact h.suffix
  | startsArray => exact hstays.trans (suffix_nextElement ..)
  | @nextElement array depth length index done rest r hs =>
    rw [hs]
    exact suffix_nextElement (e := { e with stack := rest }) ..
  | pins hb =>
    rcases hb with rfl | ⟨f, rest, hs, -, -, rfl⟩
    · exact hstays
    · rw [hs]
      exact List.suffix_refl _
  | @takes r hc =>
    rw [stack_withValue, stack_convert]
    exact hstays
  | startsItems => exact hstays.trans (suffix_nextItem (e := (e.allocArray []).2) ..)
  | startsStandIn => exact hstays.trans (List.suffix_cons ..)
  | @nextItem array index items rest v hs =>
    rw [hs]
    exact suffix_nextItem (e := { e with stack := rest }) ..
  | @takesClass slot token rest v hs hc =>
    rw [hs]
    rcases @takeStandInClass_works { e with stack := rest } slot token v with
      heq | ⟨heap, -, -, h⟩
    · rw [heq]
      exact List.suffix_refl _
    · exact (List.suffix_cons ..).trans h.suffix
  | @enters slot rest v hs =>
    rw [hs]
    cases v <;> exact List.suffix_refl _
  | begins => exact hstays.trans (List.suffix_cons ..)
  | sends hs | replies hs | places hs =>
    rw [hs]
    exact List.suffix_cons ..
  | fails hs | finishes hs =>
    rw [hs]
    exact List.suffix_refl _
  | _ => exact hstays

/-- A step lets something go, or goes on with what is about to be done. -/
lemma step_stays_or_proceeds (e : Engine) :
    e.Stays e.step.1 ∧ e.step.1.handles = e.handles ∧ e.step.2.isTurn = false ∨
      e.step = e.proceed := by
  by_cases hclean : e.Clean
  · exact .inr hclean.step_eq
  · have hturn : e.step.2.isTurn = false := by
      rw [← Bool.not_eq_true]
      exact fun h => hclean (step_eq_proceed h).1
    refine .inl ?_
    have hrest : e.Stays e.step.1 ∧ e.step.1.handles = e.handles := by
      unfold Engine.step
      split
      · exact ⟨⟨rfl, rfl⟩, rfl⟩
      · next hreleased =>
        split
        · exact ⟨⟨rfl, rfl⟩, rfl⟩
        · next hnone => exact absurd ⟨hreleased, hnone⟩ hclean
    exact ⟨hrest.1, hrest.2, hturn⟩

/-- Frames stay beneath, as long as they are not all there is. -/
lemma Shaped.suffix_step (hs : e.Shaped) (h : base <:+ e.stack) (hne : e.stack ≠ base) :
    base <:+ e.step.1.stack := by
  rcases step_stays_or_proceeds e with ⟨hstays, -, -⟩ | hp
  · rw [hstays.stack]
    exact h
  · rw [hp]
    refine .trans ?_ (proceed_advance_false hs).tail
    obtain ⟨l, hl⟩ := h
    cases l with
    | nil => exact absurd hl.symm hne
    | cons f l =>
      rw [← hl]
      exact List.suffix_append ..

/-- Whether what is about to be done is to be given to the frame on top. -/
def Control.isForFrame : Control → Bool
  | .ret _ | .throw _ | .encoded _ | .refuse _ | .reply _ => true
  | _ => false

lemma suffix_beginStep (op : Operation) : e.stack <:+ (e.beginStep op).stack := by
  cases op with
  | getMember target name =>
    refine suffix_withValue ?_ fun w => List.suffix_cons ..
    unfold restore
    split <;> rfl
  | release handle =>
    unfold beginStep
    dsimp only
    split <;> exact List.suffix_refl _
  | collect => exact List.suffix_refl _
  | _ => exact List.suffix_cons ..

lemma suffix_encodeInstance (r : Ref) (isDate : Bool) :
    e.stack <:+ (e.encodeInstance r isDate).stack := by
  unfold encodeInstance
  split
  · exact List.suffix_cons ..
  · split
    · next made hpin =>
      obtain ⟨x, -, hx⟩ := Option.map_eq_some_iff.1 hpin
      cases hx
      exact List.suffix_refl _
    · exact List.suffix_refl _

lemma suffix_encodeStep (v : Value) (depth : Nat) : e.stack <:+ (e.encodeStep v depth).stack := by
  cases v with
  | string units =>
    unfold encodeStep
    dsimp only
    split <;> exact List.suffix_refl _
  | object r =>
    unfold encodeStep encodeObject
    dsimp only
    split
    · exact List.suffix_refl _
    · (repeat' split) <;> first | exact List.suffix_refl _ | exact suffix_nextElement ..
    · split
      · exact suffix_encodeInstance ..
      · exact List.suffix_cons ..
  | _ => exact List.suffix_refl _

lemma suffix_arriveStep (r : Record) : e.stack <:+ (e.arriveStep r).stack := by
  have hshallow : (∀ items, r ≠ .array items) → e.stack <:+ (e.arriveShallow r).stack := by
    intro hr
    unfold arriveShallow
    split
    · exact (Grown.instantiate (P := False) (.refl (guarded_false e.heap)) _ (by simp)).suffix
    · exact List.suffix_cons ..
    · exact List.suffix_cons ..
    · exact List.suffix_cons ..
    · exact suffix_withValue (takes_convertShallow (P := False) (shown_false e _) hr).1.stack
        fun w => List.suffix_refl _
  unfold arriveStep
  split
  · exact suffix_withValue (stack_convert ..) fun w => List.suffix_refl _
  · cases r with
    | array items => exact suffix_nextItem (e := (e.allocArray []).2) ..
    | _ => exact hshallow (by simp)

/-- What is not given to the frame on top leaves it there. -/
lemma suffix_proceed (hc : e.control.isForFrame = false) : e.stack <:+ e.proceed.1.stack := by
  have hgrown : Grown False e e := .refl (guarded_false _)
  unfold proceed
  split
  · exact List.suffix_refl _
  · exact suffix_beginStep _
  · exact (hgrown.evalStep _ (shown_false e _)).suffix
  · exact (hgrown.readStep (shown_false e _) _).suffix
  · exact (hgrown.writeStep (shown_false e _) _ (shown_false e _)).suffix
  · exact (hgrown.callStep (shown_false e _) (shown_false e _) fun _ _ => shown_false e _).suffix
  · exact suffix_encodeStep ..
  · next h => rw [h] at hc; cases hc
  · next h => rw [h] at hc; cases hc
  · next h => rw [h] at hc; cases hc
  · next h => rw [h] at hc; cases hc
  · exact List.suffix_refl _
  · next h => rw [h] at hc; cases hc
  · exact suffix_arriveStep _

/-! ### Outcomes -/

/-- What an engine is about to do with an outcome. -/
def Control.ofOutcome : Outcome → Control
  | .ok v => .ret v
  | .error v => .throw v

/-- What becomes of an engine that gives an outcome to the frame that was on top. -/
def takeOutcome (e : Engine) (f : Frame) : Outcome → Engine
  | .ok v => e.retStep f v
  | .error v => e.throwStep f v

/-- Whether a frame waits for an outcome, and neither for a record nor for the host. -/
def Frame.awaitsOutcome : Frame → Bool
  | .elements .. | .sending .. | .awaiting .. | .entry _ => false
  | _ => true

lemma not_awaitsRecord (hf : f.awaitsOutcome = true) : ¬ AwaitsRecord (f :: base) := by
  cases f <;> first | exact id | cases hf

/-- **What waits for an outcome waits on until the outcome is there**, and then it takes it. -/
theorem Shaped.outcome_step (hs : e.Shaped) (hf : f.awaitsOutcome = true)
    (h : f :: base <:+ e.stack) :
    f :: base <:+ e.step.1.stack ∨ ∃ o, e.stack = f :: base ∧ e.control = .ofOutcome o ∧
      e.step = (({ e with stack := base } : Engine).takeOutcome f o, .silent) := by
  by_cases heq : e.stack = f :: base
  · rcases step_stays_or_proceeds e with ⟨hstays, -, -⟩ | hp
    · exact .inl (hstays.stack ▸ h)
    · by_cases hfor : e.control.isForFrame = false
      · rw [hp]
        exact .inl (heq ▸ suffix_proceed hfor)
      · have hfits := hs.fits
        rw [hp]
        obtain ⟨c, hc⟩ : ∃ c, e.control = c := ⟨_, rfl⟩
        rw [heq, hc] at hfits
        cases c with
        | ret v => exact .inr ⟨.ok v, heq, hc, proceed_ret hc heq⟩
        | throw v => exact .inr ⟨.error v, heq, hc, proceed_throw hc heq⟩
        | encoded r | refuse text => exact absurd hfits (not_awaitsRecord hf)
        | reply r =>
          obtain ⟨result, held, rest, hcons⟩ := hfits
          obtain rfl := (List.cons.inj hcons).1
          cases hf
        | _ =>
          rw [hc] at hfor
          exact absurd rfl hfor
  · exact .inl (hs.suffix_step h heq)

end Engine

end ScriptBridge
