/-
# What an engine does by itself

Between two turns of the host an engine works by itself.  Before each piece of work it lets go
of what nothing refers to any more, one object after the other, and reports the slots that it
has released; that ends, and leaves all that can be reached as it was.  As long as an engine
only puts more on its stack, nothing goes away.
-/
import Mathlib.Logic.Relation
import ScriptBridge.Proofs.Engine.Honest
import ScriptBridge.Proofs.Script.Reach

namespace ScriptBridge.Engine

open ScriptBridge.Script ScriptBridge.Table ScriptBridge.Wire

variable {e e' : Engine} {h h' : Heap} {t : Handles Ref} {base : List Frame} {q r : Ref}

/-! ### Runs -/

/-- A step after which it is not the turn of the host. -/
def Continues (e e' : Engine) : Prop := e.step.1 = e' ∧ e.step.2.isTurn = false

/-- An engine gets from one state to another by itself. -/
abbrev Runs : Engine → Engine → Prop := Relation.ReflTransGen Continues

/-- Whether an engine is about to look for a handler. -/
def Control.isThrow : Control → Bool
  | .throw _ => true
  | _ => false

/-- An engine gets from one state to another by itself, and something holds of all states until
then. -/
abbrev RunsWhile (p : Engine → Prop) : Engine → Engine → Prop :=
  Relation.ReflTransGen fun e e' => p e ∧ Continues e e'

lemma Runs.always (hruns : Runs e e') : RunsWhile (fun _ => True) e e' :=
  hruns.lift id fun _ _ hstep => ⟨trivial, hstep⟩

lemma RunsWhile.runs {p : Engine → Prop} (hruns : RunsWhile p e e') : Runs e e' :=
  hruns.lift id fun _ _ hstep => hstep.2

lemma RunsWhile.mono {p p' : Engine → Prop} (hruns : RunsWhile p e e') (hp : ∀ e, p e → p' e) :
    RunsWhile p' e e' :=
  hruns.lift id fun _ _ hstep => ⟨hp _ hstep.1, hstep.2⟩

/-- An engine is still to do what another one is to do. -/
structure Stays (e e' : Engine) : Prop where
  control : e'.control = e.control
  stack : e'.stack = e.stack

/-- An engine gets from one state to another by itself, and until then nothing is thrown. -/
abbrev RunsSmoothly : Engine → Engine → Prop := RunsWhile (·.control.isThrow = false)

lemma RunsWhile.smoothly (hruns : RunsWhile e.Stays e e') (hc : e.control.isThrow = false) :
    RunsSmoothly e e' :=
  hruns.mono fun _ hstays => hstays.control.symm ▸ hc

lemma Clean.step_eq (hc : e.Clean) : e.step = e.proceed := by
  rw [step, hc.released]
  dsimp only
  rw [hc.unreferenced]

/-- A piece of work, where there is nothing to let go of. -/
lemma Clean.continues (hc : e.Clean) (hp : e.proceed = (e', .silent)) : Continues e e' := by
  rw [Continues, hc.step_eq, hp]
  exact ⟨rfl, rfl⟩

lemma Clean.runs (hc : e.Clean) (hp : e.proceed = (e', .silent)) : Runs e e' :=
  .single (hc.continues hp)

/-! ### What is kept -/

/-- An object is referred to by another one, by the host or by a frame, or is always there. -/
def Anchored (h : Heap) (t : Handles Ref) (base : List Frame) (r : Ref) : Prop :=
  isIntrinsic r = true ∨ r ∈ h.refs ∨ r ∈ t.values ∨ ∃ f ∈ base, r ∈ f.refs

/-- Every object is anchored. -/
def Lasting (h : Heap) (t : Handles Ref) (base : List Frame) : Prop :=
  ∀ r o, (r, o) ∈ h.objects → Anchored h t base r

lemma isReferenced_iff :
    e.isReferenced e.heap.refs r = true ↔
      r ∈ e.control.refs ∨ r ∈ e.heap.refs ∨ r ∈ e.handles.values ∨ ∃ f ∈ e.stack, r ∈ f.refs := by
  simp [isReferenced, or_assoc]

/-- An engine that is about to do nothing with its objects may put whatever it wants on its
stack. -/
lemma Clean.lasting (hc : e.Clean) (hrefs : e.control.refs = []) :
    Lasting e.heap e.handles e.stack := by
  intro r o hm
  have hnone := List.find?_eq_none.1 hc.unreferenced _ hm
  simp only [Bool.and_eq_true, Bool.not_eq_true', not_and, Bool.not_eq_false] at hnone
  by_cases hr : isIntrinsic r = true
  · exact .inl hr
  · have hreferenced := isReferenced_iff.1 (hnone (by simpa using hr))
    rw [hrefs] at hreferenced
    exact .inr (hreferenced.resolve_left (by simp))

lemma Lasting.clean {l : List Frame} (hs : Lasting e.heap e.handles base) (hr : e.released = [])
    (hstack : e.stack = l ++ base) : e.Clean := by
  refine ⟨hr, List.find?_eq_none.2 fun x hx => ?_⟩
  simp only [Bool.and_eq_true, Bool.not_eq_true', not_and, Bool.not_eq_false]
  intro hi
  refine isReferenced_iff.2 (.inr ?_)
  rcases hs x.1 x.2 hx with h | h | h | ⟨f, hf, h⟩
  · rw [h] at hi
    cases hi
  · exact .inl h
  · exact .inr (.inl h)
  · exact .inr (.inr ⟨f, by rw [hstack]; exact List.mem_append_right _ hf, h⟩)

/-! ### Letting go -/

/-- An object can be reached from what is always there, from what is to be done or from the
host. -/
def Reached (e : Engine) (r : Ref) : Prop :=
  e.heap.Reaches (List.range Intrinsic.count ++ e.roots) r

/-- Only what cannot be reached has gone from a heap. -/
structure Spares (e : Engine) (h : Heap) : Prop where
  get? : ∀ q, e.Reached q → h.get? q = e.heap.get? q
  sub : ∀ q o, h.get? q = some o → e.heap.get? q = some o
  next : h.next = e.heap.next
  sound : h.Sound

lemma isReferenced_of_reached (hr : e.Reached r) :
    isIntrinsic r = true ∨ e.isReferenced e.heap.refs r = true := by
  cases hr with
  | root hm =>
    rcases List.mem_append.1 hm with hm | hm
    · exact .inl (decide_eq_true (List.mem_range.1 hm))
    · refine .inr (isReferenced_iff.2 ?_)
      simp only [roots, List.mem_append, List.mem_flatMap] at hm
      tauto
  | step hr hg hl => exact .inr (isReferenced_iff.2 (.inr (.inl (Heap.mem_refs_of_get? hg hl))))

/-- What can be reached is not let go of. -/
lemma ne_of_unreferenced {o : Object} (hu : e.unreferenced? = some (r, o)) (hq : e.Reached q) :
    q ≠ r := by
  rintro rfl
  have hfound := List.find?_some hu
  simp only [Bool.and_eq_true, Bool.not_eq_true'] at hfound
  rcases isReferenced_of_reached hq with h | h
  · rw [h] at hfound
    cases hfound.1
  · rw [h] at hfound
    cases hfound.2

lemma reached_erase {o : Object} (hu : e.unreferenced? = some (r, o)) (hq : e.Reached q) :
    ({ e with heap := e.heap.erase r } : Engine).Reached q := by
  induction hq with
  | root hm => exact .root hm
  | @step p l o hp hg hl ih =>
    refine .step ih ?_ hl
    change (e.heap.erase r).get? p = some o
    rw [Heap.get?_erase, if_neg (ne_of_unreferenced hu hp)]
    exact hg

lemma continues_report {slot : Slot} {rest : List Slot} (hr : e.released = slot :: rest) :
    Continues e { e with released := rest } := by
  rw [Continues, step, hr]
  refine ⟨rfl, ?_⟩
  dsimp only [reportSlot]
  split <;> rfl

lemma continues_erase {o : Object} (hr : e.released = []) (hu : e.unreferenced? = some (r, o)) :
    Continues e { e with heap := e.heap.erase r } := by
  rw [Continues, step, hr]
  dsimp only
  rw [hu]
  refine ⟨rfl, ?_⟩
  dsimp only
  cases o.slot? with
  | none => rfl
  | some slot =>
    dsimp only [Option.elim, reportSlot]
    split <;> rfl

lemma Spares.of_erase {o : Object} (hu : e.unreferenced? = some (r, o))
    (hs : ({ e with heap := e.heap.erase r } : Engine).Spares h) : e.Spares h where
  get? q hq := by
    rw [hs.get? q (reached_erase hu hq)]
    exact (Heap.get?_erase ..).trans (if_neg (ne_of_unreferenced hu hq))
  sub q o hq := by
    have hget := hs.sub q o hq
    change (e.heap.erase r).get? q = some o at hget
    rw [Heap.get?_erase] at hget
    split at hget
    · cases hget
    · exact hget
  next := hs.next
  sound := hs.sound

/-- **Letting go comes to an end**, and leaves what is to be done and all that can be reached as it
was. -/
theorem exists_cleared (e : Engine) (hs : e.heap.Sound) :
    ∃ h, RunsWhile e.Stays e { e with heap := h, released := [] } ∧ e.Spares h ∧
      ({ e with heap := h, released := [] } : Engine).Clean := by
  induction hn : e.released.length + e.heap.objects.length using Nat.strongRecOn
    generalizing e with
  | ind n ih =>
    subst hn
    cases hr : e.released with
    | cons slot rest =>
      obtain ⟨h, hruns, hspares, hclean⟩ := ih _ (by rw [hr, List.length_cons]; dsimp only; omega)
        { e with released := rest } hs rfl
      exact ⟨h, .head ⟨⟨rfl, rfl⟩, continues_report hr⟩ (hruns.mono fun _ hs => ⟨hs.1, hs.2⟩),
        ⟨hspares.get?, hspares.sub, hspares.next, hspares.sound⟩, hclean⟩
    | nil =>
      cases hu : e.unreferenced? with
      | none =>
        have hself : ({ e with heap := e.heap, released := [] } : Engine) = e := by rw [← hr]
        exact ⟨e.heap, by rw [hself], ⟨fun _ _ => rfl, fun _ _ => id, rfl, hs⟩,
          by rw [hself]; exact ⟨hr, hu⟩⟩
      | some x =>
        obtain ⟨r, o⟩ := x
        have hless : (e.heap.erase r).objects.length < e.heap.objects.length :=
          List.length_filter_lt_length_iff_exists.2 ⟨(r, o), List.mem_of_find?_eq_some hu, by simp⟩
        have hsound : (e.heap.erase r).Sound := by
          rw [Heap.erase_eq_restrict]
          exact hs.restrict _
        obtain ⟨h, hruns, hspares, hclean⟩ := ih _ (Nat.add_lt_add_left hless _)
          { e with heap := e.heap.erase r } hsound rfl
        exact ⟨h, .head ⟨⟨rfl, rfl⟩, continues_erase hr hu⟩ (hruns.mono fun _ hs => ⟨hs.1, hs.2⟩),
          hspares.of_erase hu, hclean⟩

end ScriptBridge.Engine
