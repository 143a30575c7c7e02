/-
# An arena answers as a plain map would

A plain map from slots to entries, together with the slots it has ever given out, is all
that a user of an arena sees of it.  Which call gets which answer is said on plain maps;
whatever is asked of an arena, one call after the other, it answers so, and what it counts
are the slots that the plain map occupies.
-/
import ScriptBridge.Proofs.Table.FreeList

namespace ScriptBridge.Table

open ScriptBridge.Wire

variable {α : Type}

/-! ### Calls and answers -/

/-- A call on an arena. -/
inductive Call (α : Type) where
  | add (value : α)
  | get (slot : Slot)
  | contains (slot : Slot)
  | take (slot : Slot)
  | drain

/-- What a call gives back. -/
inductive Answer (α : Type) where
  /-- The slot of an entered value, unless slots have run out. -/
  | slot (slot : Option Slot)
  | value (value : Option α)
  | found (isFound : Bool)
  | values (values : List α)

namespace Arena

/-- The answer to a call, and the arena after it. -/
def serve (a : Arena α) : Call α → Answer α × Arena α
  | .add value =>
    match a.add value with
    | some (slot, a) => (.slot (some slot), a)
    | none => (.slot none, a)
  | .get slot => (.value (a.get? slot), a)
  | .contains slot => (.found (a.contains slot), a)
  | .take slot =>
    match a.take slot with
    | some (value, a) => (.value (some value), a)
    | none => (.value none, a)
  | .drain => (.values a.drain.1, a.drain.2)

/-- The answers to calls made one after the other, and the arena after them. -/
def serveAll (a : Arena α) : List (Call α) → List (Answer α) × Arena α
  | [] => ([], a)
  | call :: calls =>
    let (answer, a) := a.serve call
    let (answers, a) := a.serveAll calls
    (answer :: answers, a)

end Arena

/-! ### Plain maps -/

/-- A map from slots to entries, and the slots that were ever given out. -/
structure PlainMap (α : Type) where
  entry : Slot → Option α
  given : Slot → Prop

namespace PlainMap

/-- The map without entries, before any slot was given out. -/
def empty : PlainMap α := ⟨fun _ => none, fun _ => False⟩

/-- Whether a slot may be given out: under `monotonic` none is given out twice. -/
def IsFree (policy : SlotPolicy) (m : PlainMap α) (s : Slot) : Prop :=
  m.entry s = none ∧ (policy = .monotonic → ¬ m.given s)

/-- The map with an entry at a slot that is given out for it. -/
def enter (m : PlainMap α) (s : Slot) (v : α) : PlainMap α where
  entry t := if t = s then some v else m.entry t
  given t := t = s ∨ m.given t

/-- The map without the entry of a slot. -/
def clear (m : PlainMap α) (s : Slot) : PlainMap α :=
  { m with entry := fun t => if t = s then none else m.entry t }

/-- The map without entries that has given out the same slots. -/
def cleared (m : PlainMap α) : PlainMap α := { m with entry := fun _ => none }

/-- The occupied slots of a map, the lowest first. -/
structure Lists (m : PlainMap α) (slots : List Slot) : Prop where
  increasing : slots.Pairwise fun s t => s.index < t.index
  mem_iff : ∀ s, s ∈ slots ↔ (m.entry s).isSome

/-- Which answer a call may get, and the map after it. -/
inductive Answers (policy : SlotPolicy) :
    PlainMap α → Call α → Answer α → PlainMap α → Prop where
  | added {m : PlainMap α} {s : Slot} (v : α) (h : m.IsFree policy s) :
    Answers policy m (.add v) (.slot (some s)) (m.enter s v)
  | full {m : PlainMap α} (v : α) (h : ∀ s, ¬ m.IsFree policy s) :
    Answers policy m (.add v) (.slot none) m
  | get (m : PlainMap α) (s : Slot) : Answers policy m (.get s) (.value (m.entry s)) m
  | contains (m : PlainMap α) (s : Slot) :
    Answers policy m (.contains s) (.found (m.entry s).isSome) m
  | take (m : PlainMap α) (s : Slot) :
    Answers policy m (.take s) (.value (m.entry s)) (m.clear s)
  | drain {m : PlainMap α} {slots : List Slot} (h : m.Lists slots) :
    Answers policy m .drain (.values (slots.filterMap m.entry)) m.cleared

/-- Which answers calls may get that are made one after the other. -/
inductive AnswersAll (policy : SlotPolicy) :
    PlainMap α → List (Call α) → List (Answer α) → PlainMap α → Prop where
  | nil (m : PlainMap α) : AnswersAll policy m [] [] m
  | cons {m m₁ m₂ : PlainMap α} {call : Call α} {answer : Answer α} {calls : List (Call α)}
    {answers : List (Answer α)} (h : Answers policy m call answer m₁)
    (hs : AnswersAll policy m₁ calls answers m₂) :
    AnswersAll policy m (call :: calls) (answer :: answers) m₂

/-- Whether an arena counts rightly what a map holds. -/
def IsCounted (m : PlainMap α) (o : Occupancy) : Prop :=
  (∃ slots, m.Lists slots ∧ o.used = slots.length) ∧ o.used ≤ o.allocated ∧ o.allocated ≤ o.peak

end PlainMap

/-! ### One call -/

/-- An arena in order that holds the entries of a plain map.  Under `monotonic` the slots
given out so far are those before the end of the run of cells. -/
structure Mirrors (policy : SlotPolicy) (a : Arena α) (m : PlainMap α) : Prop where
  policy_eq : a.policy = policy
  regular : a.IsRegular
  orderly : a.IsOrderly
  entry_eq : ∀ s, m.entry s = a.get? s
  given_iff : policy = .monotonic → ∀ s, m.given s ↔ s.index < a.finish

variable {policy : SlotPolicy} {a a' : Arena α} {m : PlainMap α} {s : Slot} {v : α}

namespace Mirrors

lemma empty (policy : SlotPolicy) : Mirrors policy (Arena.empty policy : Arena α) .empty where
  policy_eq := rfl
  regular := Arena.isRegular_empty policy
  orderly := Arena.isOrderly_empty policy
  entry_eq s := (Arena.get?_empty policy s).symm
  given_iff _ _ := ⟨False.elim, fun h => absurd h (Nat.not_lt_zero _)⟩

lemma lists (h : Mirrors policy a m) : m.Lists a.occupied where
  increasing := Arena.pairwise_occupied a
  mem_iff s := by rw [Arena.mem_occupied, h.entry_eq]

lemma isCounted (h : Mirrors policy a m) : m.IsCounted a.occupancy := by
  refine ⟨⟨_, h.lists, (Arena.length_occupied h.regular).symm⟩, ?_, h.regular.length_le_peak⟩
  calc a.used = (a.cells.filterMap id).length := h.regular.used_eq
    _ ≤ a.cells.length := List.length_filterMap_le _ _

lemma isFree_of_add (h : Mirrors policy a m) (ha : a.add v = some (s, a')) :
    m.IsFree policy s := by
  refine ⟨(h.entry_eq s).trans (Arena.get?_of_add ha), fun hp hgiven => ?_⟩
  have hs := (h.orderly.finish_add (h.policy_eq.trans hp) ha).1
  exact absurd ((h.given_iff hp s).1 hgiven) (Nat.not_lt.2 (Nat.le_of_eq hs.symm))

lemma enter (h : Mirrors policy a m) (ha : a.add v = some (s, a')) :
    Mirrors policy a' (m.enter s v) where
  policy_eq := (Arena.policy_add ha).trans h.policy_eq
  regular := h.regular.add ha
  orderly := h.orderly.add ha
  entry_eq t := by
    rw [Arena.get?_add ha, ← h.entry_eq]
    rfl
  given_iff hp t := by
    obtain ⟨hs, hfinish⟩ := h.orderly.finish_add (h.policy_eq.trans hp) ha
    have hslot : t = s ↔ t.index = a.finish :=
      ⟨fun e => e ▸ hs, fun e => Slot.ext_index (e.trans hs.symm)⟩
    calc (m.enter s v).given t ↔ t = s ∨ m.given t := Iff.rfl
      _ ↔ t.index = a.finish ∨ t.index < a.finish := or_congr hslot (h.given_iff hp t)
      _ ↔ t.index < a'.finish := by omega

lemma not_isFree (h : Mirrors policy a m) (ha : a.add v = none) (s : Slot) :
    ¬ m.IsFree policy s := by
  obtain ⟨hfinish, hfull⟩ := h.orderly.add_eq_none h.regular ha
  rintro ⟨hvacant, hfresh⟩
  cases policy with
  | reuse =>
    have hoccupied := hfull h.policy_eq s
    rw [← h.entry_eq, hvacant] at hoccupied
    cases hoccupied
  | monotonic => exact hfresh rfl ((h.given_iff rfl s).2 (hfinish ▸ s.index_lt))

lemma clear (h : Mirrors policy a m) (ha : a.take s = some (v, a')) :
    Mirrors policy a' (m.clear s) where
  policy_eq := (Arena.policy_take ha).trans h.policy_eq
  regular := h.regular.take ha
  orderly := h.orderly.take ha
  entry_eq t := by
    rw [Arena.get?_take ha, ← h.entry_eq]
    rfl
  given_iff hp t := by
    rw [Arena.vacate_eq_of_take ha, Arena.finish_vacate (h.policy_eq.trans hp)]
    exact h.given_iff hp t

lemma clear_of_vacant (h : m.entry s = none) : m.clear s = m := by
  have hentry : (fun t => if t = s then none else m.entry t) = m.entry := by
    funext t
    split
    · next ht => rw [ht, h]
    · rfl
  rw [PlainMap.clear, hentry]

lemma cleared (h : Mirrors policy a m) : Mirrors policy a.drain.2 m.cleared where
  policy_eq := h.policy_eq
  regular := h.regular.drain
  orderly := h.orderly.drain
  entry_eq t := by simp [PlainMap.cleared, Arena.drain, Arena.get?, Arena.entryAt?]
  given_iff hp t := by
    rw [Arena.finish_drain (h.policy_eq.trans hp)]
    exact h.given_iff hp t

/-- Whatever one call asks of an arena, it answers as the plain map it mirrors may, and
mirrors the map after that. -/
theorem serve (h : Mirrors policy a m) (call : Call α) :
    ∃ m', PlainMap.Answers policy m call (a.serve call).1 m' ∧
      Mirrors policy (a.serve call).2 m' := by
  cases call with
  | add v =>
    cases ha : a.add v with
    | none =>
      simp only [Arena.serve, ha]
      exact ⟨m, .full v (h.not_isFree ha), h⟩
    | some r =>
      simp only [Arena.serve, ha]
      exact ⟨_, .added v (h.isFree_of_add ha), h.enter ha⟩
  | get s =>
    rw [Arena.serve, ← h.entry_eq]
    exact ⟨m, .get m s, h⟩
  | contains s =>
    rw [Arena.serve, Arena.contains, ← h.entry_eq]
    exact ⟨m, .contains m s, h⟩
  | take s =>
    have hanswer : PlainMap.Answers policy m (.take s) _ _ := .take m s
    cases ha : a.take s with
    | none =>
      have hvacant : m.entry s = none := (h.entry_eq s).trans (Arena.take_eq_none.1 ha)
      simp only [Arena.serve, ha]
      rw [hvacant, clear_of_vacant hvacant] at hanswer
      exact ⟨m, hanswer, h⟩
    | some r =>
      simp only [Arena.serve, ha]
      rw [h.entry_eq, Arena.get?_of_take ha] at hanswer
      exact ⟨_, hanswer, h.clear ha⟩
  | drain =>
    have hanswer : PlainMap.Answers policy m .drain _ _ := .drain h.lists
    rw [funext h.entry_eq, Arena.filterMap_get?_occupied h.regular] at hanswer
    exact ⟨_, hanswer, h.cleared⟩

/-! ### All calls -/

theorem serveAll (h : Mirrors policy a m) (calls : List (Call α)) :
    ∃ m', PlainMap.AnswersAll policy m calls (a.serveAll calls).1 m' ∧
      Mirrors policy (a.serveAll calls).2 m' := by
  induction calls generalizing a m with
  | nil => exact ⟨m, .nil m, h⟩
  | cons call calls ih =>
    obtain ⟨m₁, hanswer, h₁⟩ := h.serve call
    obtain ⟨m₂, hanswers, h₂⟩ := ih h₁
    exact ⟨m₂, .cons hanswer hanswers, h₂⟩

end Mirrors

/-- An arena answers all calls made of it, under either policy, as a plain map may: a value
is entered at a slot that is not occupied (and, under `monotonic`, never was), a slot that is
given up loses its entry and no other does, all entries come back the lowest slot first, and
a slot is refused only when none is free.  After any calls it holds just the entries of the
map, and its counts are right. -/
theorem serveAll_empty_answers (policy : SlotPolicy) (calls : List (Call α)) :
    ∃ m, PlainMap.AnswersAll policy .empty calls
        ((Arena.empty policy).serveAll calls).1 m ∧
      (∀ s, ((Arena.empty policy).serveAll calls).2.get? s = m.entry s) ∧
      m.IsCounted ((Arena.empty policy).serveAll calls).2.occupancy := by
  obtain ⟨m, hanswers, h⟩ := (Mirrors.empty policy).serveAll calls
  exact ⟨m, hanswers, fun s => (h.entry_eq s).symm, h.isCounted⟩

end ScriptBridge.Table
