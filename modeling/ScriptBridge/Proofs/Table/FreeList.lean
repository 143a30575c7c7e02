/-
# Which slots an arena can still give out

Under `reuse` the run of cells never leaves its start, and every vacant cell of it waits in
the free list, so a slot is refused only when all of them are occupied.  Under `monotonic`
nothing ever waits: the next slot is the one behind the run, and the run never ends earlier
than it did before, so a slot is refused only when all of them have been given out.
-/
import ScriptBridge.Proofs.Table.Arena

namespace ScriptBridge.Table.Arena

open ScriptBridge.Wire

variable {α : Type} {a a' : Arena α} {s : Slot} {v : α}

/-- An arena whose free list agrees with its policy. -/
structure IsOrderly (a : Arena α) : Prop where
  base_eq : a.policy = .reuse → a.base = 0
  listed : a.policy = .reuse → ∀ i, a.isVacant i = true → i ∈ a.free
  free_eq : a.policy = .monotonic → a.free = []

/-! ### Looking for a vacant cell -/

/-- The free list is searched from its front, and what is passed over is not vacant. -/
lemma popVacant_eq_some {free rest : List Nat} {i : Nat}
    (h : a.popVacant free = some (i, rest)) :
    ∃ passed, free = passed ++ i :: rest ∧ ∀ j ∈ passed, a.isVacant j = false := by
  induction free with
  | nil => cases h
  | cons j free ih =>
    unfold popVacant at h
    split at h
    · cases h
      exact ⟨[], rfl, by simp⟩
    · next hj =>
      obtain ⟨passed, rfl, hpassed⟩ := ih h
      refine ⟨j :: passed, rfl, ?_⟩
      simpa using ⟨by simpa using hj, hpassed⟩

lemma popVacant_eq_none {free : List Nat} (h : a.popVacant free = none) :
    ∀ j ∈ free, a.isVacant j = false := by
  induction free with
  | nil => simp
  | cons j free ih =>
    unfold popVacant at h
    split at h
    · cases h
    · next hj => simpa using ⟨by simpa using hj, ih h⟩

/-- Under `reuse`, when no free index is that of a vacant cell, there is none. -/
lemma IsOrderly.isVacant_eq_false (ha : a.IsOrderly) (hp : a.policy = .reuse)
    (h : a.popVacant a.free = none) (i : Nat) : a.isVacant i = false := by
  by_contra hi
  rw [Bool.not_eq_false] at hi
  exact Bool.eq_false_iff.1 (popVacant_eq_none h i (ha.listed hp i hi)) hi

/-! ### What is left of the run of cells -/

lemma policy_add (h : a.add v = some (s, a')) : a'.policy = a.policy := by
  obtain ⟨rest, -, rfl⟩ | ⟨-, -, rfl⟩ := add_cases h <;> rfl

@[simp] lemma policy_vacate (a : Arena α) (i : Nat) : (a.vacate i).policy = a.policy := by
  unfold vacate
  split <;> simp_all

lemma vacate_eq_of_take (h : a.take s = some (v, a')) : a' = a.vacate s.index := by
  rw [take, get?_of_take h] at h
  cases h
  rfl

lemma policy_take (h : a.take s = some (v, a')) : a'.policy = a.policy := by
  rw [vacate_eq_of_take h, policy_vacate]

/-- Under `monotonic` the run of cells ends where it did, whatever is given up. -/
lemma finish_vacate (hp : a.policy = .monotonic) (i : Nat) : (a.vacate i).finish = a.finish := by
  have hle := (List.dropWhile_sublist (l := a.cells.set (i - a.base) none)
    Option.isNone).length_le
  rw [List.length_set] at hle
  simp only [vacate, hp, finish, List.length_set]
  omega

lemma finish_vacate_le (a : Arena α) (i : Nat) : (a.vacate i).finish ≤ a.finish := by
  cases hp : a.policy with
  | reuse =>
    have hle := length_trimEnd_le (a.cells.set (i - a.base) none)
    rw [List.length_set] at hle
    simp only [vacate, hp, finish]
    omega
  | monotonic => exact Nat.le_of_eq (finish_vacate hp i)

lemma finish_drain (hp : a.policy = .monotonic) : a.drain.2.finish = a.finish := by
  simp only [drain, hp, finish, List.length_nil, Nat.add_zero]

/-! ### The operations keep the free list in order -/

lemma isOrderly_empty (policy : SlotPolicy) : (empty policy : Arena α).IsOrderly := by
  refine ⟨fun _ => rfl, fun _ i hi => ?_, fun _ => rfl⟩
  obtain ⟨hb, hf, -⟩ := isVacant_iff.1 hi
  exact absurd hf (Nat.not_lt.2 hb)

lemma IsOrderly.add (ha : a.IsOrderly) (h : a.add v = some (s, a')) : a'.IsOrderly := by
  -- a cell that is vacant afterwards was there before, or is the one behind the others
  have hbefore : ∀ j, a'.isVacant j = true → j ≠ s.index ∧ a.entryAt? j = none := by
    intro j hj
    have hje := (isVacant_iff.1 hj).2.2
    rw [entryAt?_add h] at hje
    split at hje
    · cases hje
    · next hne => exact ⟨hne, hje⟩
  obtain ⟨rest, hpop, rfl⟩ | ⟨hpop, hs, rfl⟩ := add_cases h
  · obtain ⟨passed, hfree, hpassed⟩ := popVacant_eq_some hpop
    refine ⟨ha.base_eq, fun hp j hj => ?_, fun hp => ?_⟩
    · obtain ⟨hjb, hjf, -⟩ := isVacant_iff.1 hj
      obtain ⟨hne, hje⟩ := hbefore j hj
      have hvacant : a.isVacant j = true :=
        isVacant_iff.2 ⟨hjb, by simpa [finish] using hjf, hje⟩
      have hmem := ha.listed hp j hvacant
      rw [hfree, List.mem_append, List.mem_cons] at hmem
      obtain hmem | hmem | hmem := hmem
      · exact absurd hvacant (Bool.eq_false_iff.1 (hpassed j hmem))
      · exact absurd hmem hne
      · exact hmem
    · rw [ha.free_eq hp] at hfree
      simp at hfree
  · refine ⟨ha.base_eq, fun hp j hj => ?_, fun _ => rfl⟩
    obtain ⟨hjb, hjf, -⟩ := isVacant_iff.1 hj
    obtain ⟨hne, hje⟩ := hbefore j hj
    have hlt : j < a.finish := by
      simp only [finish, List.length_append, List.length_singleton] at hjf hs ⊢
      omega
    have hvacant : a.isVacant j = true := isVacant_iff.2 ⟨hjb, hlt, hje⟩
    exact absurd hvacant (Bool.eq_false_iff.1 (ha.isVacant_eq_false hp hpop j))

lemma IsOrderly.vacate (ha : a.IsOrderly) {i : Nat} (hv : a.entryAt? i = some v) :
    (a.vacate i).IsOrderly := by
  have hb : a.base ≤ i := by
    by_contra hlt
    rw [entryAt?_of_lt (by omega)] at hv
    cases hv
  have hf : i < a.finish := by
    by_contra hle
    rw [entryAt?_of_finish_le (by omega)] at hv
    cases hv
  cases hp : a.policy with
  | monotonic =>
    refine ⟨fun h => ?_, fun h => ?_, fun _ => ?_⟩
    · rw [policy_vacate, hp] at h
      cases h
    · rw [policy_vacate, hp] at h
      cases h
    · simpa only [Arena.vacate, hp] using ha.free_eq hp
  | reuse =>
    have hbase : (a.vacate i).base = a.base := by simp only [Arena.vacate, hp]
    refine ⟨fun _ => hbase.trans (ha.base_eq hp), fun _ j hj => ?_, fun h => ?_⟩
    · obtain ⟨hjb, hjf, hje⟩ := isVacant_iff.1 hj
      have hkept : j ∈ i :: a.free := by
        rw [entryAt?_vacate hb hf] at hje
        split at hje
        · next heq => exact heq ▸ List.mem_cons_self ..
        · have hlt : j < a.finish := Nat.lt_of_lt_of_le hjf (finish_vacate_le a i)
          exact List.mem_cons_of_mem _ (ha.listed hp j (isVacant_iff.2 ⟨hbase ▸ hjb, hlt, hje⟩))
      -- what is dropped from a list grown long lies behind the run
      simp only [finish, Arena.vacate, hp] at hjf
      simp only [Arena.vacate, hp]
      split
      · exact List.mem_filter.2 ⟨hkept, by simpa using hjf⟩
      · exact hkept
    · rw [policy_vacate, hp] at h
      cases h

lemma IsOrderly.take (ha : a.IsOrderly) (h : a.take s = some (v, a')) : a'.IsOrderly :=
  vacate_eq_of_take h ▸ ha.vacate (get?_of_take h)

lemma IsOrderly.drain (ha : a.IsOrderly) : a.drain.2.IsOrderly := by
  refine ⟨fun hp => ?_, fun hp i hi => ?_, fun _ => rfl⟩
  · simp only [Arena.drain] at hp ⊢
    simpa only [hp] using ha.base_eq hp
  · obtain ⟨hb, hf, -⟩ := isVacant_iff.1 hi
    simp only [Arena.drain, finish, List.length_nil] at hb hf
    omega

/-! ### Which slots are given out -/

/-- Under `monotonic` a slot that is given out is the one behind the run, which then ends
right after it. -/
lemma IsOrderly.finish_add (ha : a.IsOrderly) (hp : a.policy = .monotonic)
    (h : a.add v = some (s, a')) : s.index = a.finish ∧ a'.finish = a.finish + 1 := by
  obtain ⟨rest, hpop, -⟩ | ⟨-, hs, rfl⟩ := add_cases h
  · rw [ha.free_eq hp] at hpop
    cases hpop
  · exact ⟨hs, by simp [finish, Nat.add_assoc]⟩

/-- A slot is refused only when the run of cells has no index left to grow by, and under
`reuse` only when, besides, all its cells are occupied. -/
theorem IsOrderly.add_eq_none (ha : a.IsOrderly) (hr : a.IsRegular) (h : a.add v = none) :
    a.finish = 0x80000000 ∧ (a.policy = .reuse → ∀ s : Slot, (a.get? s).isSome) := by
  unfold Arena.add at h
  split at h
  · next i rest hpop =>
    obtain ⟨-, hf, -⟩ := isVacant_iff.1 (isVacant_of_popVacant hpop)
    have hi : i < 0x80000000 := Nat.lt_of_lt_of_le hf hr.finish_le
    simp [Slot.ofIndex?, hi] at h
  · next hpop =>
    have hfinish : a.finish = 0x80000000 := by
      by_contra hne
      have hlt : a.finish < 0x80000000 := Nat.lt_of_le_of_ne hr.finish_le hne
      simp [Slot.ofIndex?, hlt] at h
    refine ⟨hfinish, fun hp s => ?_⟩
    have hoccupied := ha.isVacant_eq_false hp hpop s.index
    simp only [isVacant, ha.base_eq hp, hfinish, s.index_lt, Nat.zero_le, decide_true,
      Bool.true_and] at hoccupied
    rw [get?, ← Option.not_isNone, hoccupied]
    rfl

end ScriptBridge.Table.Arena
