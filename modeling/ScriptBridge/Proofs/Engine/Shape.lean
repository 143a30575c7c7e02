/-
# The shape of a stack

What an engine is about to do always goes with the frames it has, and each frame with the
frames below it: a record is given only where one is waited for, and an answer is taken
only by a call that waits for one.
-/
import ScriptBridge.Proofs.Engine.Arrival

namespace ScriptBridge.Engine

open ScriptBridge.Script ScriptBridge.Table ScriptBridge.Wire

variable {P : Prop} {e₀ e e' : Engine}

/-! ### Where nothing is hidden -/

lemma shows_false (h : Heap) (r : Ref) : h.Shows False r := False.elim

lemma shown_false (e : Engine) (refs : List Ref) : e.Shown False refs :=
  fun r _ => shows_false e.heap r

lemma guarded_false (h : Heap) : h.Guarded False where
  intrinsic := fun r _ => shows_false h r
  solid := False.elim
  linked := fun _ _ _ l _ => shows_false h l
  traps := False.elim

lemma sighted_false (e : Engine) : e.Sighted False where
  guarded := guarded_false e.heap
  control := shown_false e _
  frames := fun _ _ _ => shown_false e _
  elements := fun _ _ _ _ _ _ => shows_false e.heap _
  handles := shown_false e _

lemma proceed_advance_false (hs : e.Shaped) :
    Advance False e e.proceed.1 e.proceed.2 :=
  proceed_advance hs (sighted_false e)

/-! ### Conversions at once -/

lemma control_withValue (made : Outcome × Engine) :
    (withValue made give).control.isInner = true := by
  obtain ⟨v | v, e⟩ := made <;> rfl

lemma stack_withValue (made : Outcome × Engine) :
    (withValue made give).stack = made.2.stack := by
  obtain ⟨v | v, e⟩ := made <;> rfl

lemma stack_convert (e : Engine) (r : Record) : (e.convert r).2.stack = e.stack :=
  (takes_convert (P := False) e (shown_false e _) r).1.stack

/-! ### Shapes -/

lemma shaped_of_isInner (hc : e.control.isInner = true) (hs : Settled e.stack) : e.Shaped :=
  ⟨Control.fits_of_isInner hc _, hs⟩

lemma ScriptWork.shaped (h : ScriptWork P e₀ e) (hs : Settled e₀.stack) : e.Shaped := by
  cases h with
  | inner h hc hf hr => exact ⟨hf, h.settled hs⟩
  | asks h name hr hb => exact ⟨⟨_, _, _, rfl⟩, trivial, h.settled hs⟩
  | sends h hr hv hb => exact ⟨trivial, trivial, h.settled hs⟩

lemma shaped_nextElement {array : Ref} {depth length index : Nat} {done : List Record}
    (ha : AwaitsRecord e.stack) (hs : Settled e.stack) :
    (e.nextElement array depth length index done).Shaped := by
  unfold Engine.nextElement
  split
  · exact ⟨trivial, ha, hs⟩
  · exact ⟨ha, hs⟩

lemma shaped_nextItem {array : Ref} {index : Nat} {items : List Record}
    (hs : Settled e.stack) : (e.nextItem array index items).Shaped := by
  unfold Engine.nextItem
  split
  · exact ⟨trivial, hs⟩
  · exact ⟨trivial, trivial, hs⟩

/-- Entering what reads, writes and calls a host entry leaves all but the heap alone. -/
lemma takeStandInClass_works {slot : Slot} {token : Ref} {v : Value} :
    (e.takeStandInClass slot token v = giveNew (e.allocStandIn slot token)) ∨
    ∃ heap : Heap, (e.heap.Sound → heap.Sound) ∧
      slotsOf heap.objects = slotsOf e.heap.objects ∧
      ScriptWork False { e with heap := heap, stack := .pending (.entered slot) :: e.stack }
        (e.takeStandInClass slot token v) := by
  unfold Engine.takeStandInClass
  split
  · exact .inl rfl
  · refine .inr ⟨_, ?_, ?_, (Grown.refl (guarded_false _)).construct (shown_false _ _)
      fun w _ => shown_false _ _⟩
    · exact fun hs => ((((hs.alloc _).alloc _).alloc _).alloc _).alloc _
    · rfl

lemma Advance.shaped {ev : Event} (h : Advance P e e' ev) (hs : e.Shaped) : e'.Shaped := by
  have hfits := hs.fits
  have hsettled := hs.settled
  cases h with
  | idle hc => exact hs
  | stops hstack hc => exact ⟨.inl hstack, hsettled⟩
  | works hc h => exact h.shaped hsettled
  | pops hstack hf hentry hc h =>
    rw [hstack] at hsettled
    exact h.shaped hsettled.2
  | element hstack hc hv =>
    rw [hstack] at hsettled
    exact ⟨by rw [Engine.goto, hstack]; exact hsettled.1, hs.settled⟩
  | startsArray hc hr =>
    rw [hc] at hfits
    exact shaped_nextElement hfits hsettled
  | nextElement hstack hc ha =>
    rw [hstack] at hsettled
    exact shaped_nextElement hsettled.1 hsettled.2
  | names hc ha ho => exact ⟨ha, hsettled⟩
  | @pins base _ _ _ _ hbase hc ha hr hi hrecord ho =>
    refine ⟨ha, ?_⟩
    rcases hbase with rfl | ⟨f, rest, hstack, -, -, rfl⟩
    · exact hsettled
    · rw [hstack] at hsettled
      exact hsettled.2
  | sends hstack hc =>
    rw [hstack] at hsettled
    exact ⟨.inr ⟨_, _, _, rfl⟩, trivial, hsettled.2⟩
  | asks hc =>
    rw [hc] at hfits
    exact ⟨.inr hfits, hsettled⟩
  | finishes hstack hc =>
    rw [hstack] at hsettled
    exact ⟨hsettled.1, hsettled.2⟩
  | replies hstack hc =>
    rw [hstack] at hsettled
    exact ⟨trivial, trivial, hsettled.2⟩
  | fails hstack hf hc =>
    rw [hstack] at hsettled
    exact shaped_of_isInner (by dsimp only; rw [hc]; rfl) hsettled.2
  | takes hc =>
    refine shaped_of_isInner (control_withValue _) ?_
    rw [stack_withValue, stack_convert]
    exact hsettled
  | startsItems hc => exact shaped_nextItem (e := (e.allocArray []).2) hsettled
  | startsStandIn hc hr => exact ⟨trivial, trivial, hsettled⟩
  | places hstack hc hv =>
    rw [hstack] at hsettled
    exact ⟨trivial, trivial, hsettled.2⟩
  | nextItem hstack hc =>
    rw [hstack] at hsettled
    exact shaped_nextItem hsettled.2
  | takesClass hstack hc =>
    rw [hstack] at hsettled
    rcases takeStandInClass_works with heq | ⟨heap, -, -, h⟩
    · rw [heq]
      exact ⟨trivial, hsettled.2⟩
    · exact h.shaped ⟨trivial, hsettled.2⟩
  | enters hstack hc =>
    rw [hstack] at hsettled
    unfold Engine.enterStandIn
    split <;> exact ⟨trivial, hsettled.2⟩
  | begins hc hb =>
    rw [hc] at hfits
    obtain ⟨c, rest, hstack⟩ := hfits
    refine ⟨trivial, ?_, hsettled⟩
    cases hb <;> rw [hstack] <;> trivial
  | releases hc hr =>
    rw [hc] at hfits
    obtain ⟨c, rest, hstack⟩ := hfits
    exact ⟨by dsimp only; rw [hstack]; trivial, hsettled⟩
  | collects hc =>
    rw [hc] at hfits
    obtain ⟨c, rest, hstack⟩ := hfits
    exact ⟨by change AwaitsRecord e.stack; rw [hstack]; trivial, hsettled⟩

/-- **The shape of a stack is kept by every step.** -/
theorem Shaped.step (hs : e.Shaped) : e.step.1.Shaped := by
  unfold Engine.step
  split
  · exact ⟨hs.fits, hs.settled⟩
  · split
    · exact ⟨hs.fits, hs.settled⟩
    · exact (proceed_advance_false hs).shaped hs

lemma shaped_start (maxDepth maxLength : Nat) (maxCalls : Option Nat) :
    (start maxDepth maxLength maxCalls).Shaped :=
  ⟨.inl rfl, trivial⟩

lemma Shaped.enter (hs : e.Shaped) (op : Operation) : (e.enter op).Shaped :=
  ⟨⟨_, _, rfl⟩, hs.fits, hs.settled⟩

lemma Shaped.answer (hs : e.Shaped) {result : Option Value} {held : List Value}
    {rest : List Frame} (hstack : e.stack = .awaiting result held :: rest) (r : Record) :
    (e.answer r).Shaped :=
  ⟨⟨_, _, _, hstack⟩, hs.settled⟩

end ScriptBridge.Engine
