/-
# The arena as a map from slots to entries

What each operation of an arena does is said by what is found at each slot afterwards.
Trimming the run of cells changes nothing there, since only vacant cells go; so entering
a value changes its own slot only, and so does giving a slot up.  The occupied slots are
listed too, for the entries that are counted are theirs.
-/
import Mathlib.Data.List.Basic
import ScriptBridge.Table.Arena

namespace ScriptBridge

open ScriptBridge.Wire

namespace Wire.Slot

lemma ext_index {s t : Slot} (h : s.index = t.index) : s = t := by
  cases s
  cases t
  simp_all

lemma ofIndex?_eq_some {i : Nat} {s : Slot} : Slot.ofIndex? i = some s ↔ s.index = i := by
  constructor
  · intro h
    unfold ofIndex? at h
    split at h
    · cases h
      rfl
    · cases h
  · rintro rfl
    simp [ofIndex?, s.index_lt]

lemma ofIndex?_index (s : Slot) : Slot.ofIndex? s.index = some s := ofIndex?_eq_some.2 rfl

end Wire.Slot

namespace Table.Arena

variable {α : Type} {a a' : Arena α} {s t : Slot} {v : α}

/-! ### Cells -/

lemma entryAt?_of_lt {i : Nat} (h : i < a.base) : a.entryAt? i = none := by
  simp only [entryAt?, Nat.not_le.2 h, if_false]

lemma entryAt?_of_finish_le {i : Nat} (h : a.finish ≤ i) : a.entryAt? i = none := by
  unfold entryAt? finish at *
  split
  · rw [List.getElem?_eq_none (by omega)]
    rfl
  · rfl

lemma entryAt?_add_base (a : Arena α) (i : Nat) :
    a.entryAt? (a.base + i) = (a.cells[i]?).join := by
  simp [entryAt?]

@[simp] lemma get?_empty (policy : SlotPolicy) (s : Slot) :
    (empty policy : Arena α).get? s = none := by
  simp [get?, entryAt?, empty]

/-- What is found in the cells after one of them was changed. -/
lemma join_getElem?_set {cells : List (Option α)} {i j : Nat} (hi : i < cells.length)
    (o : Option α) :
    ((cells.set i o)[j]?).join = if j = i then o else (cells[j]?).join := by
  rw [List.getElem?_set]
  by_cases h : i = j
  · subst h
    simp [hi]
  · rw [if_neg h, if_neg (Ne.symm h)]

/-- Dropping vacant cells at the near end moves the others. -/
lemma join_getElem?_dropWhile (cells : List (Option α)) (j : Nat) :
    ((cells.dropWhile Option.isNone)[j]?).join =
      (cells[j + (cells.length - (cells.dropWhile Option.isNone).length)]?).join := by
  induction cells with
  | nil => rfl
  | cons c cells ih =>
    cases c with
    | some v => simp
    | none =>
      have hle : (cells.dropWhile Option.isNone).length ≤ cells.length :=
        (List.dropWhile_sublist _).length_le
      rw [List.dropWhile_cons_of_pos rfl, ih, List.length_cons,
        show j + (cells.length + 1 - (cells.dropWhile Option.isNone).length)
          = j + (cells.length - (cells.dropWhile Option.isNone).length) + 1 by omega,
        List.getElem?_cons_succ]

/-- The cells before the first occupied one are vacant. -/
lemma join_getElem?_of_lt_dropWhile {cells : List (Option α)} {j : Nat}
    (h : j < cells.length - (cells.dropWhile Option.isNone).length) :
    (cells[j]?).join = none := by
  induction cells generalizing j with
  | nil => rfl
  | cons c cells ih =>
    cases c with
    | some v => simp at h
    | none =>
      cases j with
      | zero => rfl
      | succ j =>
        rw [List.dropWhile_cons_of_pos rfl, List.length_cons] at h
        rw [List.getElem?_cons_succ]
        exact ih (by omega)

/-- Trimming drops vacant cells only. -/
lemma eq_trimEnd_append (cells : List (Option α)) :
    ∃ n, cells = trimEnd cells ++ List.replicate n none := by
  have hvacant : ∀ c ∈ cells.reverse.takeWhile Option.isNone, c = none := fun c hc => by
    simpa using List.all_eq_true.1 List.all_takeWhile c hc
  have hsplit := congrArg List.reverse
    (List.takeWhile_append_dropWhile (p := Option.isNone) (l := cells.reverse))
  refine ⟨(cells.reverse.takeWhile Option.isNone).length, ?_⟩
  rw [List.reverse_append, List.reverse_reverse] at hsplit
  rw [← List.reverse_replicate, ← List.eq_replicate_of_mem hvacant]
  exact hsplit.symm

lemma join_getElem?_trimEnd (cells : List (Option α)) (j : Nat) :
    ((trimEnd cells)[j]?).join = (cells[j]?).join := by
  obtain ⟨n, h⟩ := eq_trimEnd_append cells
  conv_rhs => rw [h, List.getElem?_append]
  split
  · rfl
  · next hj =>
    rw [List.getElem?_eq_none (by omega), List.getElem?_replicate]
    split <;> rfl

/-! ### Giving slots out -/

lemma isVacant_iff {i : Nat} :
    a.isVacant i = true ↔ a.base ≤ i ∧ i < a.finish ∧ a.entryAt? i = none := by
  simp [isVacant, and_assoc]

/-- What is taken from the free list is the index of a vacant cell. -/
lemma isVacant_of_popVacant {free rest : List Nat} {i : Nat}
    (h : a.popVacant free = some (i, rest)) : a.isVacant i = true := by
  induction free with
  | nil => cases h
  | cons j free ih =>
    unfold popVacant at h
    split at h
    · next hj =>
      cases h
      exact hj
    · exact ih h

lemma entryAt?_set {i j : Nat} {o : Option α} (hb : a.base ≤ i) (hf : i < a.finish)
    (hbase : a'.base = a.base) (hcells : a'.cells = a.cells.set (i - a.base) o) :
    a'.entryAt? j = if j = i then o else a.entryAt? j := by
  unfold finish at hf
  by_cases hj : a.base ≤ j
  · simp only [entryAt?, hbase, hcells, if_pos hj]
    rw [join_getElem?_set (by omega)]
    exact if_congr (by omega) rfl rfl
  · rw [if_neg (by omega)]
    simp only [entryAt?, hbase, if_neg hj]

lemma entryAt?_append {j : Nat} (hbase : a'.base = a.base)
    (hcells : a'.cells = a.cells ++ [some v]) :
    a'.entryAt? j = if j = a.finish then some v else a.entryAt? j := by
  unfold finish
  by_cases hj : a.base ≤ j
  · simp only [entryAt?, hbase, hcells, if_pos hj, List.getElem?_append]
    by_cases hlt : j - a.base < a.cells.length
    · rw [if_pos hlt, if_neg (by omega)]
    · rw [if_neg hlt]
      by_cases heq : j = a.base + a.cells.length
      · subst heq
        simp
      · rw [if_neg heq, List.getElem?_eq_none (by simp only [List.length_singleton]; omega),
          List.getElem?_eq_none (by omega)]
  · rw [if_neg (by omega)]
    simp only [entryAt?, hbase, if_neg hj]

/-- A value goes into the vacant cell whose index is met first in the free list, or, when
there is none, into a cell of its own behind the others. -/
lemma add_cases (h : a.add v = some (s, a')) :
    (∃ rest, a.popVacant a.free = some (s.index, rest) ∧
      a' = { a with
        cells := a.cells.set (s.index - a.base) (some v)
        free := rest
        used := a.used + 1 }) ∨
    (a.popVacant a.free = none ∧ s.index = a.finish ∧
      a' = { a with
        cells := a.cells ++ [some v]
        free := []
        used := a.used + 1
        peak := max a.peak (a.cells.length + 1) }) := by
  unfold add at h
  split at h <;> rw [Option.map_eq_some_iff] at h <;> obtain ⟨s', hs, he⟩ := h <;> cases he
  · next i rest hp =>
    rw [← Slot.ofIndex?_eq_some.1 hs] at hp ⊢
    exact .inl ⟨rest, hp, rfl⟩
  · next hp => exact .inr ⟨hp, Slot.ofIndex?_eq_some.1 hs, rfl⟩

/-- A slot that is given out was vacant. -/
theorem get?_of_add (h : a.add v = some (s, a')) : a.get? s = none := by
  obtain ⟨rest, hp, -⟩ | ⟨-, hs, -⟩ := add_cases h
  · exact (isVacant_iff.1 (isVacant_of_popVacant hp)).2.2
  · exact entryAt?_of_finish_le (Nat.le_of_eq hs.symm)

lemma entryAt?_add (h : a.add v = some (s, a')) (i : Nat) :
    a'.entryAt? i = if i = s.index then some v else a.entryAt? i := by
  obtain ⟨rest, hp, rfl⟩ | ⟨-, hs, rfl⟩ := add_cases h
  · obtain ⟨hb, hf, -⟩ := isVacant_iff.1 (isVacant_of_popVacant hp)
    exact entryAt?_set hb hf rfl rfl
  · rw [hs]
    exact entryAt?_append rfl rfl

/-- Entering a value changes what is found at its slot and nothing else. -/
theorem get?_add (h : a.add v = some (s, a')) (t : Slot) :
    a'.get? t = if t = s then some v else a.get? t :=
  (entryAt?_add h t.index).trans (if_congr ⟨Slot.ext_index, fun e => e ▸ rfl⟩ rfl rfl)

/-! ### Giving slots up -/

lemma entryAt?_vacate {i : Nat} (hb : a.base ≤ i) (hf : i < a.finish) (j : Nat) :
    (a.vacate i).entryAt? j = if j = i then none else a.entryAt? j := by
  have hset : { a with cells := a.cells.set (i - a.base) none }.entryAt? j =
      if j = i then none else a.entryAt? j := entryAt?_set hb hf rfl rfl
  rw [← hset]
  unfold vacate
  split
  · simp only [entryAt?, join_getElem?_trimEnd]
  · simp only [entryAt?]
    set cells := a.cells.set (i - a.base) none with hcells
    set gap := cells.length - (cells.dropWhile Option.isNone).length with hgap
    by_cases hj : a.base + gap ≤ j
    · rw [if_pos hj, if_pos (by omega), join_getElem?_dropWhile, ← hgap,
        show j - (a.base + gap) + gap = j - a.base by omega]
    · rw [if_neg hj]
      split
      · exact (join_getElem?_of_lt_dropWhile (by omega)).symm
      · rfl

lemma get?_of_take (h : a.take s = some (v, a')) : a.get? s = some v := by
  unfold take at h
  rw [Option.map_eq_some_iff] at h
  obtain ⟨w, hw, he⟩ := h
  cases he
  exact hw

/-- Giving a slot up leaves nothing there and changes nothing else. -/
theorem get?_take (h : a.take s = some (v, a')) (t : Slot) :
    a'.get? t = if t = s then none else a.get? t := by
  have hs := get?_of_take h
  have hb : a.base ≤ s.index := by
    by_contra hlt
    rw [get?, entryAt?_of_lt (by omega)] at hs
    cases hs
  have hf : s.index < a.finish := by
    by_contra hle
    rw [get?, entryAt?_of_finish_le (by omega)] at hs
    cases hs
  unfold take at h
  rw [hs] at h
  cases h
  rw [get?, entryAt?_vacate hb hf]
  exact if_congr ⟨Slot.ext_index, fun e => e ▸ rfl⟩ rfl rfl

lemma take_eq_none : a.take s = none ↔ a.get? s = none := by
  simp [take]

lemma take_of_get? (h : a.get? s = some v) : ∃ a', a.take s = some (v, a') :=
  ⟨_, by rw [take, h]; rfl⟩

/-! ### The occupied slots -/

/-- The occupied slots, in the order of their indices. -/
def occupied (a : Arena α) : List Slot := a.toList.filterMap fun e => Slot.ofIndex? e.1

/-- An arena whose cells all have an index that a slot can have, and which counts them
rightly: the occupied ones, and never more cells than its peak. -/
structure IsRegular (a : Arena α) : Prop where
  finish_le : a.finish ≤ 0x80000000
  used_eq : a.used = a.values.length
  length_le_peak : a.cells.length ≤ a.peak

lemma mem_toList {i : Nat} {v : α} : (i, v) ∈ a.toList ↔ a.entryAt? i = some v := by
  simp only [toList, List.mem_filterMap, Prod.exists, Option.map_eq_some_iff, Prod.mk.injEq]
  constructor
  · rintro ⟨cell, j, hm, w, rfl, rfl, rfl⟩
    rw [List.mk_mem_zipIdx_iff_getElem?] at hm
    rw [entryAt?_add_base, hm]
    rfl
  · intro h
    have hb : a.base ≤ i := by
      by_contra hlt
      rw [entryAt?_of_lt (by omega)] at h
      cases h
    refine ⟨some v, i - a.base, ?_, v, rfl, by omega, rfl⟩
    rw [List.mk_mem_zipIdx_iff_getElem?]
    rw [← Nat.add_sub_cancel' hb, entryAt?_add_base] at h
    exact Option.join_eq_some_iff.1 h

lemma mem_occupied : s ∈ a.occupied ↔ (a.get? s).isSome := by
  simp only [occupied, List.mem_filterMap, Prod.exists, Option.isSome_iff_exists, get?]
  constructor
  · rintro ⟨i, v, hm, hs⟩
    rw [Slot.ofIndex?_eq_some.1 hs]
    exact ⟨v, mem_toList.1 hm⟩
  · rintro ⟨v, hv⟩
    exact ⟨s.index, v, mem_toList.2 hv, Slot.ofIndex?_index s⟩

lemma pairwise_toList (a : Arena α) : a.toList.Pairwise fun d e => d.1 < e.1 := by
  have hindices : a.cells.zipIdx.Pairwise fun d e => d.2 < e.2 := by
    rw [← List.pairwise_map, List.zipIdx_map_snd]
    exact List.pairwise_lt_range'
  refine List.Pairwise.filterMap _ ?_ hindices
  rintro ⟨c, i⟩ ⟨d, j⟩ hlt p hp q hq
  simp only [Option.map_eq_some_iff] at hp hq
  obtain ⟨v, -, rfl⟩ := hp
  obtain ⟨w, -, rfl⟩ := hq
  exact Nat.add_lt_add_left hlt _

lemma pairwise_occupied (a : Arena α) : a.occupied.Pairwise fun s t => s.index < t.index := by
  refine List.Pairwise.filterMap _ ?_ (pairwise_toList a)
  intro d e hlt s hs t ht
  rwa [Slot.ofIndex?_eq_some.1 hs, Slot.ofIndex?_eq_some.1 ht]

lemma nodup_occupied (a : Arena α) : a.occupied.Nodup :=
  (pairwise_occupied a).imp fun {s t} hlt (he : s = t) => Nat.lt_irrefl _ (he ▸ hlt)

lemma map_snd_toList (a : Arena α) : a.toList.map Prod.snd = a.values := by
  have key : ∀ (cells : List (Option α)) (n : Nat),
      ((cells.zipIdx n).filterMap fun p => p.1.map (a.base + p.2, ·)).map Prod.snd =
        cells.filterMap id := by
    intro cells
    induction cells with
    | nil => intro n; rfl
    | cons c cells ih =>
      intro n
      cases c with
      | none => simpa using ih (n + 1)
      | some v => simpa using ih (n + 1)
  exact key a.cells 0

lemma index_of_mem_toList (h : a.IsRegular) {e : Nat × α} (he : e ∈ a.toList) :
    ∃ s, Slot.ofIndex? e.1 = some s ∧ a.get? s = some e.2 := by
  have hentry : a.entryAt? e.1 = some e.2 := mem_toList.1 he
  have hi : e.1 < a.finish := by
    by_contra hle
    rw [entryAt?_of_finish_le (by omega)] at hentry
    cases hentry
  refine ⟨⟨e.1, Nat.lt_of_lt_of_le hi h.finish_le⟩, ?_, hentry⟩
  exact Slot.ofIndex?_eq_some.2 rfl

/-- The entries are those of the occupied slots, in the same order. -/
theorem filterMap_get?_occupied (h : a.IsRegular) : a.occupied.filterMap a.get? = a.values := by
  rw [occupied, List.filterMap_filterMap, ← map_snd_toList, ← List.filterMap_eq_map]
  refine List.filterMap_congr fun e he => ?_
  obtain ⟨s, hs, hget⟩ := index_of_mem_toList h he
  rw [hs, Option.bind_some, hget]
  rfl

/-- Each entry that is counted has a slot. -/
theorem length_occupied (h : a.IsRegular) : a.occupied.length = a.occupancy.used := by
  have hall : ∀ l : List Slot, (∀ s ∈ l, (a.get? s).isSome) →
      (l.filterMap a.get?).length = l.length := by
    intro l hl
    rw [List.length_filterMap_eq_countP, List.countP_eq_length]
    exact hl
  rw [← hall _ fun s hs => mem_occupied.1 hs, filterMap_get?_occupied h]
  exact h.used_eq.symm

/-! ### What each operation keeps -/

lemma length_values_set {cells : List (Option α)} {i : Nat} (hi : i < cells.length)
    (o : Option α) :
    ((cells.set i o).filterMap id).length + (cells[i]?).join.toList.length =
      (cells.filterMap id).length + o.toList.length := by
  induction cells generalizing i with
  | nil => cases hi
  | cons c cells ih =>
    cases i with
    | zero => cases c <;> cases o <;> simp
    | succ i =>
      have hstep := ih (Nat.lt_of_succ_lt_succ hi)
      cases c with
      | none => simpa using hstep
      | some v =>
        have hcons : ∀ l : List (Option α),
            ((some v :: l).filterMap id).length = (l.filterMap id).length + 1 := fun _ => rfl
        rw [List.set_cons_succ, List.getElem?_cons_succ, hcons, hcons]
        omega

lemma values_trimEnd (cells : List (Option α)) :
    (trimEnd cells).filterMap id = cells.filterMap id := by
  obtain ⟨n, h⟩ := eq_trimEnd_append cells
  conv_rhs => rw [h, List.filterMap_append]
  rw [List.filterMap_replicate_of_none rfl, List.append_nil]

lemma values_dropWhile (cells : List (Option α)) :
    (cells.dropWhile Option.isNone).filterMap id = cells.filterMap id := by
  induction cells with
  | nil => rfl
  | cons c cells ih =>
    cases c with
    | none => simpa using ih
    | some v => simp

lemma perm_values_set {cells : List (Option α)} {i : Nat} (h : (cells[i]?).join = some v) :
    (cells.filterMap id).Perm (v :: (cells.set i none).filterMap id) := by
  induction cells generalizing i with
  | nil => simp at h
  | cons c cells ih =>
    cases i with
    | zero =>
      obtain rfl : c = some v := by simpa using h
      exact .refl _
    | succ i =>
      rw [List.getElem?_cons_succ] at h
      cases c with
      | none => simpa using ih h
      | some w => exact ((ih h).cons w).trans (List.Perm.swap v w _)

/-- An entry whose slot is given up is no longer among the entries. -/
theorem perm_values_take (h : a.take s = some (v, a')) : a.values.Perm (v :: a'.values) := by
  have hv := get?_of_take h
  rw [take, hv] at h
  cases h
  unfold get? entryAt? at hv
  split at hv
  · have hvalues : (a.vacate s.index).values =
      (a.cells.set (s.index - a.base) none).filterMap id := by
      unfold vacate values
      cases a.policy with
      | reuse => exact values_trimEnd _
      | monotonic => exact values_dropWhile _
    rw [hvalues]
    exact perm_values_set hv
  · cases hv

lemma length_trimEnd_le (cells : List (Option α)) : (trimEnd cells).length ≤ cells.length := by
  obtain ⟨n, h⟩ := eq_trimEnd_append cells
  conv_rhs => rw [h, List.length_append]
  exact Nat.le_add_right _ _

@[simp] lemma isRegular_empty (policy : SlotPolicy) : (empty policy : Arena α).IsRegular :=
  ⟨by simp [finish, empty], rfl, Nat.le_refl _⟩

lemma IsRegular.add (hr : a.IsRegular) (h : a.add v = some (s, a')) : a'.IsRegular := by
  have hlt := s.index_lt
  obtain ⟨rest, hp, rfl⟩ | ⟨-, hs, rfl⟩ := add_cases h
  · obtain ⟨hb, hf, hvacant⟩ := isVacant_iff.1 (isVacant_of_popVacant hp)
    have hi : s.index - a.base < a.cells.length := by
      unfold finish at hf
      omega
    have hcount := length_values_set hi (some v)
    simp only [entryAt?, if_pos hb] at hvacant
    rw [hvacant] at hcount
    refine ⟨?_, ?_, ?_⟩
    · simpa [finish] using hr.finish_le
    · simpa [values, hr.used_eq] using hcount.symm
    · simpa using hr.length_le_peak
  · refine ⟨?_, ?_, ?_⟩
    · simp only [finish, List.length_append, List.length_singleton] at hs ⊢
      omega
    · simp [values, hr.used_eq]
    · simp only [List.length_append, List.length_singleton]
      exact Nat.le_max_right _ _

lemma IsRegular.vacate (hr : a.IsRegular) {i : Nat} (hv : a.entryAt? i = some v) :
    (a.vacate i).IsRegular := by
  have hb : a.base ≤ i := by
    by_contra hlt
    rw [entryAt?_of_lt (by omega)] at hv
    cases hv
  have hi : i - a.base < a.cells.length := by
    by_contra hle
    rw [entryAt?_of_finish_le (by unfold finish; omega)] at hv
    cases hv
  have hcount := length_values_set hi none
  simp only [entryAt?, if_pos hb] at hv
  rw [hv] at hcount
  have hused : a.used - 1 = ((a.cells.set (i - a.base) none).filterMap id).length := by
    rw [hr.used_eq, values]
    simp only [Option.toList, List.length_singleton, List.length_nil] at hcount
    omega
  have hfinish := hr.finish_le
  have hpeak := hr.length_le_peak
  unfold finish at hfinish
  unfold Arena.vacate
  split
  · have hle := length_trimEnd_le (a.cells.set (i - a.base) none)
    rw [List.length_set] at hle
    refine ⟨?_, ?_, Nat.le_trans hle hpeak⟩
    · simp only [finish]
      omega
    · simpa only [values, values_trimEnd] using hused
  · have hle := (List.dropWhile_sublist (l := a.cells.set (i - a.base) none)
      Option.isNone).length_le
    rw [List.length_set] at hle
    refine ⟨?_, ?_, Nat.le_trans hle hpeak⟩
    · simp only [finish, List.length_set]
      omega
    · simpa only [values, values_dropWhile] using hused

lemma IsRegular.take (hr : a.IsRegular) (h : a.take s = some (v, a')) : a'.IsRegular := by
  have hv := get?_of_take h
  rw [Arena.take, hv] at h
  cases h
  exact hr.vacate hv

lemma IsRegular.drain (hr : a.IsRegular) : a.drain.2.IsRegular := by
  refine ⟨?_, rfl, Nat.zero_le _⟩
  have hfinish := hr.finish_le
  unfold finish at hfinish ⊢
  unfold Arena.drain
  cases a.policy <;> simp only [finish, List.length_nil] <;> omega

end Table.Arena

end ScriptBridge
