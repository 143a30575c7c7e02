/-
# How operations are nested

Whatever is still to be done for a bridge goes with the frames of its engine: each entry of
the engine is waited for, and beneath it lies what the engine was about to do, a callback
that is not answered yet or the end of giving up a handle.
-/
import ScriptBridge.Proofs.Session.Projection

namespace ScriptBridge.Session

open ScriptBridge.Bridge ScriptBridge.Host ScriptBridge.Table ScriptBridge.Wire

variable {T T' os : List Mark} {c c' : Engine.Control} {st st' : List Engine.Frame} {e : Engine}
  {m : Mark} {p : Purpose}

/-- Whether a callback has not been answered yet. -/
def Mark.isAwaiting : Mark → Bool
  | .serving | .respond _ | .answer _ => true
  | _ => false

/-- The slots that something is to give up or to hand to script. -/
def Mark.slots : Mark → List Slot
  | .answer r => slotsOfResult r
  | .drain slots => slots
  | _ => []

/-- The slots in a record that is still to be decoded. -/
def Mark.outgoing : Mark → List Slot
  | .decode r => r.slots
  | _ => []

/-- What is still to be done for a bridge goes with what its engine was about to do when it
was left, and with the frames it had then. -/
inductive AtRest : List Mark → Engine.Control → List Engine.Frame → Prop
  /-- Nothing is left to do. -/
  | nil : AtRest [] .idle []
  /-- Something else is done first. -/
  | other {T : List Mark} {c : Engine.Control} {st : List Engine.Frame} (h : AtRest T c st) :
    AtRest (.other :: T) c st
  /-- An operation is left. -/
  | scope {T : List Mark} {c : Engine.Control} {st : List Engine.Frame} (h : AtRest T c st) :
    AtRest (.scope :: T) c st
  /-- A record is decoded within an operation. -/
  | decode {T : List Mark} {c : Engine.Control} {st : List Engine.Frame} {r : Record}
    (hs : .scope ∈ T) (h : AtRest T c st) : AtRest (.decode r :: T) c st
  /-- What is left to do for a record is done within an operation. -/
  | perform {T : List Mark} {c : Engine.Control} {st : List Engine.Frame} {tasks : List Task}
    {heard : List Heard} {result : Except Fault HostValue} (hs : .scope ∈ T) (h : AtRest T c st) :
    AtRest (.perform tasks heard result :: T) c st
  /-- Slots are given up outside all operations. -/
  | drain {T : List Mark} {c : Engine.Control} {st : List Engine.Frame} {slots : List Slot}
    (hs : .scope ∉ T) (h : AtRest T c st) : AtRest (.drain slots :: T) c st
  /-- A callback is to be answered, within an operation. -/
  | awaits {T : List Mark} {c : Engine.Control} {st st' : List Engine.Frame} {m : Mark}
    {p : Purpose} (hm : m.isAwaiting = true) (hs : .scope ∈ T)
    (hb : Engine.below st' = some (c, st)) (h : AtRest T c st) :
    AtRest (m :: .running p :: T) .idle st'
  /-- An entry is let go of while the engine gives up a handle, outside all operations. -/
  | gives {T : List Mark} {c c' : Engine.Control} {st : List Engine.Frame} (hs : .scope ∉ T)
    (hc : c'.IsRelease) (h : AtRest T c st) :
    AtRest (.engine :: .running .nothing :: T) c' (.entry c :: st)

/-- What is still to be done for a bridge goes with the state of its engine, which may be at
work. -/
inductive Nested (e : Engine) : List Mark → Prop
  /-- The engine is not at work. -/
  | rests {T : List Mark} (h : AtRest T e.control e.stack) : Nested e T
  /-- The engine is at work.  Outside all operations it gives up a handle. -/
  | works {T : List Mark} {p : Purpose} {c : Engine.Control} {st : List Engine.Frame}
    (hb : Engine.below e.stack = some (c, st)) (h : AtRest T c st)
    (hr : .scope ∈ T ∨ p = .nothing ∧ e.control.IsRelease ∧ e.stack = .entry c :: st) :
    Nested e (.engine :: .running p :: T)

/-! ### What rests -/

namespace AtRest

lemma isResting (h : AtRest T c st) : c.IsResting := by
  induction h with
  | nil => trivial
  | other h ih => exact ih
  | scope h ih => exact ih
  | decode hs h ih => exact ih
  | perform hs h ih => exact ih
  | drain hs h ih => exact ih
  | awaits hm hs hb h => trivial
  | gives hs hc h => exact hc.isResting

lemma append (hos : Blank os) (h : AtRest T c st) : AtRest (os ++ T) c st := by
  induction os with
  | nil => exact h
  | cons m os ih =>
    obtain ⟨rfl, hos'⟩ := List.forall_mem_cons.1 hos
    exact .other (ih hos')

lemma of_other (h : AtRest (.other :: T) c st) : AtRest T c st := by
  cases h with
  | other h => exact h
  | awaits hm => cases hm

lemma of_append (hos : Blank os) (h : AtRest (os ++ T) c st) : AtRest T c st := by
  induction os with
  | nil => exact h
  | cons m os ih =>
    obtain ⟨rfl, hos'⟩ := List.forall_mem_cons.1 hos
    exact ih hos' h.of_other

lemma not_teardown : ¬ AtRest (.teardown :: T) c st := fun h => by
  cases h with
  | awaits hm => cases hm

lemma not_running : ¬ AtRest (.running p :: T) c st := fun h => by
  cases h with
  | awaits hm => cases hm

lemma of_scope (h : AtRest (.scope :: T) c st) : AtRest T c st := by
  cases h with
  | scope h => exact h
  | awaits hm => cases hm

lemma of_decode {r : Record} (h : AtRest (.decode r :: T) c st) : .scope ∈ T ∧ AtRest T c st := by
  cases h with
  | decode hs h => exact ⟨hs, h⟩
  | awaits hm => cases hm

lemma of_perform {tasks : List Task} {heard : List Heard} {result : Except Fault HostValue}
    (h : AtRest (.perform tasks heard result :: T) c st) : .scope ∈ T ∧ AtRest T c st := by
  cases h with
  | perform hs h => exact ⟨hs, h⟩
  | awaits hm => cases hm

lemma of_drain {slots : List Slot} (h : AtRest (.drain slots :: T) c st) :
    .scope ∉ T ∧ AtRest T c st := by
  cases h with
  | drain hs h => exact ⟨hs, h⟩
  | awaits hm => cases hm

/-- One stage of a callback follows the other. -/
lemma of_awaiting {m' : Mark} (h : AtRest (m :: T) c st) (hm : m.isAwaiting = true)
    (hm' : m'.isAwaiting = true) : AtRest (m' :: T) c st := by
  cases h with
  | awaits hm hs hb h => exact .awaits hm' hs hb h
  | _ => cases hm

/-- Where nothing is left to do, the engine is at rest. -/
lemma eq_of_blank (h : AtRest T c st) (hT : Blank T) : c = .idle ∧ st = [] := by
  rw [← List.append_nil T] at h
  cases h.of_append hT
  exact ⟨rfl, rfl⟩

/-- Outside all operations, no slot is on its way to the host. -/
lemma outbound (h : AtRest T c st) (hs : .scope ∉ T) :
    c.outbound = [] ∧ st.flatMap Engine.Frame.outbound = [] ∧ T.flatMap Mark.outgoing = [] := by
  induction h with
  | nil => exact ⟨rfl, rfl, rfl⟩
  | other h ih => exact ih fun hm => hs (List.mem_cons_of_mem _ hm)
  | scope h => exact absurd (List.mem_cons_self ..) hs
  | decode hm h => exact absurd (List.mem_cons_of_mem _ hm) hs
  | perform hm h => exact absurd (List.mem_cons_of_mem _ hm) hs
  | drain hm h ih => exact ih hm
  | awaits hm hs' hb h =>
    exact absurd (List.mem_cons_of_mem _ (List.mem_cons_of_mem _ hs')) hs
  | gives hs' hc h ih =>
    obtain ⟨hcontrol, hstack, htrail⟩ := ih hs'
    refine ⟨hc.isResting.outbound, ?_, htrail⟩
    rw [List.flatMap_cons, hstack, List.append_nil]
    exact hcontrol

end AtRest

/-! ### What is nested -/

namespace Nested

lemma of_engine (h : Nested e (.engine :: T)) : ∃ p T' c st, T = .running p :: T' ∧
    Engine.below e.stack = some (c, st) ∧ AtRest T' c st ∧
      (.scope ∈ T' ∨ p = .nothing ∧ e.control.IsRelease ∧ e.stack = .entry c :: st) := by
  cases h with
  | works hb h hr => exact ⟨_, _, _, _, rfl, hb, h, hr⟩
  | rests h =>
    generalize hcontrol : e.control = c at h
    generalize hstack : e.stack = st at h
    cases h with
    | awaits hm => cases hm
    | gives hs hc h => exact ⟨_, _, _, _, rfl, rfl, h, .inr ⟨rfl, hc, rfl⟩⟩

lemma atRest_of_ne (h : Nested e T) (hT : T.head? ≠ some .engine) : AtRest T e.control e.stack := by
  cases h with
  | rests h => exact h
  | works hb h hr => exact absurd rfl hT

lemma atRest_of_cons (h : Nested e (m :: T)) (hm : m ≠ .engine) :
    AtRest (m :: T) e.control e.stack :=
  h.atRest_of_ne fun heq => hm (Option.some.inj heq)

lemma not_astray (h : Nested e T) : ¬ Astray T := fun hastray => by
  cases hastray with
  | torn => exact AtRest.not_teardown (h.atRest_of_cons (by simp))
  | forlorn => exact AtRest.not_running (h.atRest_of_cons (by simp)).of_other
  | unheard hT =>
    obtain ⟨p, T', c, st, rfl, -⟩ := h.of_engine
    exact hT p T' rfl

/-- What waits for an engine at work is there. -/
lemma exists_running (h : Nested e T) (hm : .engine ∈ T) : ∃ p, .running p ∈ T := by
  have hrests : ∀ {T c st}, AtRest T c st → .engine ∈ T → ∃ p, .running p ∈ T := by
    intro T c st h hm
    have hlater : ∀ {m : Mark} {T : List Mark}, (.engine ∈ T → ∃ p, .running p ∈ T) →
        .engine ∈ T → ∃ p, .running p ∈ m :: T := fun ih hm => by
      obtain ⟨p, hp⟩ := ih hm
      exact ⟨p, List.mem_cons_of_mem _ hp⟩
    induction h with
    | nil => cases hm
    | awaits | gives => exact ⟨_, List.mem_cons_of_mem _ (List.mem_cons_self ..)⟩
    | _ =>
      rename_i ih
      exact hlater ih ((List.mem_cons.1 hm).resolve_left (by simp))
  cases h with
  | rests h => exact hrests h hm
  | works hb h hr => exact ⟨_, List.mem_cons_of_mem _ (List.mem_cons_self ..)⟩

/-- An engine at work stays so, unless it turns to the host. -/
lemma step (h : Nested e (.engine :: T)) (hs : e.Shaped) (he : e.step.2.isTurn = false) :
    Nested e.step.1 (.engine :: T) := by
  obtain ⟨p, T', c, st, rfl, hb, h, hr⟩ := h.of_engine
  have hbelow := Engine.step_below hs fun r hr => by
    rw [hr] at he
    cases he
  refine .works (hbelow.trans hb) h (hr.imp_right fun ⟨hp, hc, hstack⟩ => ?_)
  rcases Engine.step_release hc hstack with hfinished | ⟨-, hc', hstack'⟩
  · rw [hfinished] at he
    cases he
  · exact ⟨hp, hc', hstack'.trans hstack⟩

/-- An engine that asks something of the host is within an operation. -/
lemma request {req : Engine.Request} (h : Nested e (.engine :: T)) (hs : e.Shaped)
    (he : e.step.2 = .request req) (hm : m.isAwaiting = true) :
    .scope ∈ T ∧ AtRest (m :: T) e.step.1.control e.step.1.stack := by
  obtain ⟨p, T', c, st, rfl, hb, h, hr⟩ := h.of_engine
  have hscope : .scope ∈ T' := by
    rcases hr with hs | ⟨-, hc, hstack⟩
    · exact hs
    · rcases Engine.step_release hc hstack with hfinished | ⟨hturn, -⟩
      · rw [he] at hfinished
        cases hfinished
      · rw [he] at hturn
        cases hturn
  have hbelow := Engine.step_below hs fun r hr => by
    rw [he] at hr
    cases hr
  refine ⟨List.mem_cons_of_mem _ hscope, ?_⟩
  rw [(Engine.step_request hs he).2]
  exact .awaits hm hscope (hbelow.trans hb) h

/-- An engine that has ended an operation goes on with what lay beneath it. -/
lemma finished {r : Record} (h : Nested e (.engine :: .running p :: T)) (hs : e.Shaped)
    (he : e.step.2 = .finished r) :
    AtRest T e.step.1.control e.step.1.stack ∧ (.scope ∈ T ∨ p = .nothing) := by
  obtain ⟨p', T', c, st, heq, hb, h, hr⟩ := h.of_engine
  cases heq
  obtain ⟨-, -, c', st', hstack, hstep⟩ := Engine.step_finished hs he
  rw [hstack] at hb
  cases hb
  rw [hstep]
  exact ⟨h, hr.imp_right And.left⟩

/-- An engine that is at rest is entered. -/
lemma enter (h : AtRest T e.control e.stack) {w : Engine.Operation}
    (hr : .scope ∈ T ∨ p = .nothing ∧ ∃ handle, w = .release handle) :
    Nested (e.enter w) (.engine :: .running p :: T) := by
  refine .works rfl h (hr.imp_right ?_)
  rintro ⟨hp, handle, rfl⟩
  exact ⟨hp, trivial, rfl⟩

end Nested

end ScriptBridge.Session
