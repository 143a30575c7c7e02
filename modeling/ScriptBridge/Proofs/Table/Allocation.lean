/-
# Which slot an arena gives out next

The calls made of an arena and its answers tell all that decides the next slot.  Under `reuse`
it is the one given up last among those that stand vacant between occupied ones, and the run of
cells grows only when there is none; under `monotonic` slots are given out in the order of
their indices, each once.  Either way the run of cells begins or ends at an occupied cell, so
that its length tells how far the occupied slots reach, and the peak is the greatest there
ever was.

Indices linger in the free list whose cells have been trimmed away.  They do no harm because
the run grows only when no index of the list is vacant, and the list is emptied then: up to
that moment the list names the vacant cells in the order in which they were given up.
-/
import Mathlib.Data.Set.Card
import Mathlib.Order.Bounds.Basic
import ScriptBridge.Proofs.Table.Refinement
import ScriptBridge.Proofs.Table.Tracking

namespace ScriptBridge.Table

open ScriptBridge.Wire (Slot)

variable {α : Type} {policy : SlotPolicy} {a a' : Arena α} {s : Slot} {v : α}

/-! ### What calls leave behind -/

/-- An arena after calls, the first of which was made when it was empty. -/
def after (policy : SlotPolicy) (calls : List (Call α)) : Arena α :=
  ((Arena.empty policy).serveAll calls).2

/-- The calls made of an arena, each with its answer. -/
def history (policy : SlotPolicy) (calls : List (Call α)) : List (Call α × Answer α) :=
  calls.zip ((Arena.empty policy).serveAll calls).1

/-- The slot that a call was given. -/
def grant? : Call α × Answer α → Option Slot
  | (.add _, .slot slot) => slot
  | _ => none

/-- The slot that a call gave up. -/
def release? : Call α × Answer α → Option Slot
  | (.take slot, .value (some _)) => some slot
  | _ => none

/-- The slots given out, in the order of the calls. -/
def granted (policy : SlotPolicy) (calls : List (Call α)) : List Slot :=
  (history policy calls).filterMap grant?

/-- The slots given up one by one, the last one first. -/
def released (policy : SlotPolicy) (calls : List (Call α)) : List Slot :=
  ((history policy calls).filterMap release?).reverse

/-- The indices of the occupied slots. -/
def Arena.indices (a : Arena α) : Set Nat := {i | ∃ s : Slot, s.index = i ∧ (a.get? s).isSome}

lemma Arena.serveAll_concat (a : Arena α) (calls : List (Call α)) (call : Call α) :
    a.serveAll (calls ++ [call]) =
      ((a.serveAll calls).1 ++ [((a.serveAll calls).2.serve call).1],
        ((a.serveAll calls).2.serve call).2) := by
  induction calls generalizing a with
  | nil => rfl
  | cons c calls ih =>
    simp only [List.cons_append, Arena.serveAll, ih]

lemma Arena.length_serveAll (a : Arena α) (calls : List (Call α)) :
    (a.serveAll calls).1.length = calls.length := by
  induction calls generalizing a with
  | nil => rfl
  | cons c calls ih => simp only [Arena.serveAll, List.length_cons, ih]

lemma after_concat (policy : SlotPolicy) (calls : List (Call α)) (call : Call α) :
    after policy (calls ++ [call]) = ((after policy calls).serve call).2 := by
  rw [after, Arena.serveAll_concat]
  rfl

lemma history_concat (policy : SlotPolicy) (calls : List (Call α)) (call : Call α) :
    history policy (calls ++ [call]) =
      history policy calls ++ [(call, ((after policy calls).serve call).1)] := by
  rw [history, Arena.serveAll_concat,
    List.zip_append (Arena.length_serveAll (Arena.empty policy) calls).symm]
  rfl

lemma granted_concat (policy : SlotPolicy) (calls : List (Call α)) (call : Call α) :
    granted policy (calls ++ [call]) = granted policy calls ++
      (grant? (call, ((after policy calls).serve call).1)).toList := by
  rw [granted, history_concat, List.filterMap_append, List.filterMap_cons, List.filterMap_nil]
  cases grant? (call, ((after policy calls).serve call).1) <;> rfl

lemma released_concat (policy : SlotPolicy) (calls : List (Call α)) (call : Call α) :
    released policy (calls ++ [call]) =
      (release? (call, ((after policy calls).serve call).1)).toList ++ released policy calls := by
  rw [released, history_concat, List.filterMap_append, List.filterMap_cons, List.filterMap_nil,
    List.reverse_append]
  cases release? (call, ((after policy calls).serve call).1) <;> rfl

/-- What a call can do to an arena, and which slots it then is given or gives up. -/
lemma Arena.serve_cases (a : Arena α) (call : Call α) :
    ((a.serve call).2 = a ∧ grant? (call, (a.serve call).1) = none ∧
      release? (call, (a.serve call).1) = none) ∨
    (∃ v s, a.add v = some (s, (a.serve call).2) ∧ grant? (call, (a.serve call).1) = some s ∧
      release? (call, (a.serve call).1) = none) ∨
    (∃ v s, a.take s = some (v, (a.serve call).2) ∧ grant? (call, (a.serve call).1) = none ∧
      release? (call, (a.serve call).1) = some s) ∨
    ((a.serve call).2 = a.drain.2 ∧ grant? (call, (a.serve call).1) = none ∧
      release? (call, (a.serve call).1) = none) := by
  cases call with
  | add v =>
    cases h : a.add v with
    | none => exact .inl (by simp only [serve, h, grant?, release?, and_self])
    | some r =>
      exact .inr (.inl ⟨v, r.1, by simp only [serve, h, grant?, release?, and_self]⟩)
  | get s => exact .inl ⟨rfl, rfl, rfl⟩
  | contains s => exact .inl ⟨rfl, rfl, rfl⟩
  | take s =>
    cases h : a.take s with
    | none => exact .inl (by simp only [serve, h, grant?, release?, and_self])
    | some r =>
      exact .inr (.inr (.inl ⟨r.1, s, by simp only [serve, h, grant?, release?, and_self]⟩))
  | drain => exact .inr (.inr (.inr ⟨rfl, rfl, rfl⟩))

/-! ### Trimmed arenas -/

namespace Arena

/-- The end of the run of cells where vacant ones are trimmed away. -/
def edge (a : Arena α) : Nat :=
  match a.policy with
  | .reuse => a.finish - 1
  | .monotonic => a.base

/-- The run of cells is empty or has an occupied one at its edge. -/
def IsTrimmed (a : Arena α) : Prop := a.cells ≠ [] → (a.entryAt? a.edge).isSome

lemma isTrimmed_empty (policy : SlotPolicy) : (empty policy : Arena α).IsTrimmed :=
  fun h => absurd rfl h

lemma IsTrimmed.add (ha : a.IsTrimmed) (h : a.add v = some (s, a')) : a'.IsTrimmed := by
  intro _
  rw [entryAt?_add h]
  split
  · rfl
  · next hedge =>
    obtain ⟨rest, hpop, rfl⟩ | ⟨-, hs, rfl⟩ := add_cases h
    · have hne : a.cells ≠ [] := by
        rintro hnil
        obtain ⟨hb, hf, -⟩ := isVacant_iff.1 (isVacant_of_popVacant hpop)
        simp only [finish, hnil, List.length_nil] at hf
        omega
      have hkept := ha hne
      simp only [edge, finish, List.length_set] at hkept ⊢
      exact hkept
    -- behind the others there is no cell but the new one, so the edge is where it was
    · cases hp : a.policy with
      | reuse =>
        simp only [edge, hp, finish, List.length_append, List.length_singleton] at hedge hs
        omega
      | monotonic =>
        have hne : a.cells ≠ [] := by
          rintro hnil
          simp only [edge, hp, finish, hnil, List.length_nil] at hedge hs
          omega
        have hkept := ha hne
        simp only [edge, hp] at hkept ⊢
        exact hkept

lemma isSome_getLast_trimEnd {cells : List (Option α)} (h : trimEnd cells ≠ []) :
    ((trimEnd cells).getLast h).isSome := by
  have hne : cells.reverse.dropWhile Option.isNone ≠ [] := by
    simpa [trimEnd] using h
  have hhead := List.head_dropWhile_not Option.isNone hne
  simpa [trimEnd, List.getLast_reverse] using hhead

lemma isTrimmed_vacate (a : Arena α) (i : Nat) : (a.vacate i).IsTrimmed := by
  cases hp : a.policy with
  | reuse =>
    intro hne
    have hcells : (a.vacate i).cells = trimEnd (a.cells.set (i - a.base) none) := by
      simp only [vacate, hp]
    have hlast : ((a.vacate i).cells.getLast hne).isSome := by
      simp only [hcells]
      exact isSome_getLast_trimEnd _
    have hpos := List.length_pos_iff.2 hne
    rw [edge, policy_vacate, hp]
    simp only [finish]
    rw [Nat.add_sub_assoc hpos, entryAt?_add_base, ← List.getLast?_eq_getElem?,
      List.getLast?_eq_some_getLast hne]
    simpa using hlast
  | monotonic =>
    intro hne
    have hcells : (a.vacate i).cells =
        (a.cells.set (i - a.base) none).dropWhile Option.isNone := by
      simp only [vacate, hp]
    have hhead : ((a.vacate i).cells.head hne).isSome := by
      simp only [hcells]
      simpa using List.head_dropWhile_not Option.isNone (hcells ▸ hne)
    rw [edge, policy_vacate, hp]
    have hentry := entryAt?_add_base (a.vacate i) 0
    rw [Nat.add_zero, ← List.head?_eq_getElem?, List.head?_eq_some_head hne] at hentry
    simp only [hentry]
    simpa using hhead

lemma IsTrimmed.serve (ha : a.IsTrimmed) (call : Call α) : (a.serve call).2.IsTrimmed := by
  obtain ⟨h, -⟩ | ⟨v, s, h, -⟩ | ⟨v, s, h, -⟩ | ⟨h, -⟩ := a.serve_cases call
  · rwa [h]
  · exact ha.add h
  · exact vacate_eq_of_take h ▸ isTrimmed_vacate a _
  · exact h ▸ fun hne => absurd rfl hne

lemma IsRegular.serve (ha : a.IsRegular) (call : Call α) : (a.serve call).2.IsRegular := by
  obtain ⟨h, -⟩ | ⟨v, s, h, -⟩ | ⟨v, s, h, -⟩ | ⟨h, -⟩ := a.serve_cases call
  · rwa [h]
  · exact ha.add h
  · exact ha.take h
  · exact h ▸ ha.drain

lemma IsOrderly.serve (ha : a.IsOrderly) (call : Call α) : (a.serve call).2.IsOrderly := by
  obtain ⟨h, -⟩ | ⟨v, s, h, -⟩ | ⟨v, s, h, -⟩ | ⟨h, -⟩ := a.serve_cases call
  · rwa [h]
  · exact ha.add h
  · exact ha.take h
  · exact h ▸ ha.drain

lemma policy_serve (a : Arena α) (call : Call α) : (a.serve call).2.policy = a.policy := by
  obtain ⟨h, -⟩ | ⟨v, s, h, -⟩ | ⟨v, s, h, -⟩ | ⟨h, -⟩ := a.serve_cases call
  · rw [h]
  · exact policy_add h
  · exact policy_take h
  · rw [h]
    rfl

lemma isVacant_of_add (h : a.add v = some (s, a')) {i : Nat} (hi : a'.isVacant i = true) :
    i ≠ s.index ∧ a.isVacant i = true := by
  obtain ⟨hb, hf, he⟩ := isVacant_iff.1 hi
  rw [entryAt?_add h] at he
  split at he
  · cases he
  · next hne =>
    obtain ⟨rest, -, rfl⟩ | ⟨-, hs, rfl⟩ := add_cases h
    · exact ⟨hne, isVacant_iff.2 ⟨hb, by simpa [finish] using hf, he⟩⟩
    · simp only [finish, List.length_append, List.length_singleton] at hf hs
      exact ⟨hne, isVacant_iff.2 ⟨hb, by simp only [finish]; omega, he⟩⟩

lemma entryAt?_take (h : a.take s = some (v, a')) (i : Nat) :
    a'.entryAt? i = if i = s.index then none else a.entryAt? i := by
  have hs : (a.get? s).isSome := by rw [get?_of_take h]; rfl
  have hb : a.base ≤ s.index := by
    by_contra hlt
    rw [get?, entryAt?_of_lt (Nat.lt_of_not_le hlt)] at hs
    cases hs
  rw [vacate_eq_of_take h, entryAt?_vacate hb (lt_finish_of_get? hs)]

lemma isVacant_of_take (hp : a.policy = .reuse) (h : a.take s = some (v, a')) {i : Nat}
    (hi : a'.isVacant i = true) : i = s.index ∨ a.isVacant i = true := by
  obtain ⟨hb, hf, he⟩ := isVacant_iff.1 hi
  have hbase : a'.base = a.base := by simp only [vacate_eq_of_take h, vacate, hp]
  refine or_iff_not_imp_left.2 fun hne => isVacant_iff.2 ⟨hbase ▸ hb, ?_, ?_⟩
  · exact Nat.lt_of_lt_of_le hf (finish_take_le h)
  · rwa [entryAt?_take h, if_neg hne] at he

lemma isVacant_drain (a : Arena α) (i : Nat) : a.drain.2.isVacant i = false := by
  refine Bool.eq_false_iff.2 fun hi => ?_
  obtain ⟨hb, hf, -⟩ := isVacant_iff.1 hi
  simp only [drain, finish, List.length_nil] at hb hf
  omega

/-- What is taken from a free list is the first index in it of a vacant cell. -/
lemma map_fst_popVacant (a : Arena α) (free : List Nat) :
    (a.popVacant free).map Prod.fst = free.find? a.isVacant := by
  induction free with
  | nil => rfl
  | cons i free ih =>
    rw [popVacant, List.find?_cons]
    cases a.isVacant i with
    | true => rfl
    | false => exact ih

/-- The peak rises only when the run of cells grows beyond it, which it does only when no free
index is that of a vacant cell. -/
lemma peak_serve (a : Arena α) (call : Call α) :
    (a.serve call).2.peak = a.peak ∨
    a.popVacant a.free = none ∧ a.peak < (a.serve call).2.peak ∧
      (a.serve call).2.peak = (a.serve call).2.cells.length ∧
      (a.serve call).2.cells.length = a.cells.length + 1 ∧
      (a.serve call).2.used = a.used + 1 := by
  obtain ⟨h, -⟩ | ⟨v, s, h, -⟩ | ⟨v, s, h, -⟩ | ⟨h, -⟩ := a.serve_cases call
  · exact .inl (by rw [h])
  · obtain ⟨rest, -, h⟩ | ⟨hpop, -, h⟩ := add_cases h
    · exact .inl (by rw [h])
    · obtain hle | hlt := Nat.lt_or_ge a.peak (a.cells.length + 1)
      · refine .inr ⟨hpop, ?_, ?_, ?_, ?_⟩ <;> rw [h]
        · exact Nat.lt_of_lt_of_le hle (Nat.le_max_right _ _)
        · simpa using Nat.le_of_lt_succ (Nat.lt_succ_of_lt hle)
        · exact List.length_append
      · exact .inl (by rw [h]; exact Nat.max_eq_left hlt)
  · rw [vacate_eq_of_take h]
    unfold vacate
    cases a.policy <;> exact .inl rfl
  · exact .inl (by rw [h]; rfl)

lemma peak_le_serve (a : Arena α) (call : Call α) : a.peak ≤ (a.serve call).2.peak := by
  obtain h | ⟨-, h, -⟩ := a.peak_serve call
  · exact Nat.le_of_eq h.symm
  · exact Nat.le_of_lt h

lemma IsRegular.used_eq_length (hr : a.IsRegular) (h : ∀ i, a.isVacant i = false) :
    a.used = a.cells.length := by
  rw [hr.used_eq, values, List.length_filterMap_eq_countP, List.countP_eq_length]
  intro c hc
  obtain ⟨i, hi, rfl⟩ := List.mem_iff_getElem.1 hc
  rw [id, Option.isSome_iff_ne_none]
  intro hnone
  refine Bool.eq_false_iff.1 (h (a.base + i)) (isVacant_iff.2 ⟨Nat.le_add_right _ _, ?_, ?_⟩)
  · exact Nat.add_lt_add_left hi _
  · rw [entryAt?_add_base, List.getElem?_eq_getElem hi, hnone]
    rfl

/-- Each occupied slot is counted once. -/
lemma IsRegular.ncard_eq_used (h : a.IsRegular) : {s | (a.get? s).isSome}.ncard = a.used := by
  classical
  have hset : {s | (a.get? s).isSome} = (a.occupied.toFinset : Set Slot) := by
    ext s
    simp [mem_occupied]
  rw [hset, Set.ncard_coe_finset, List.toFinset_card_of_nodup (nodup_occupied a),
    length_occupied h]
  rfl

end Arena

/-! ### Every arena in use -/

section After

variable {calls : List (Call α)}

/-- What every call keeps holds after all calls. -/
lemma after_induction {p : Arena α → Prop} (hempty : p (.empty policy))
    (hserve : ∀ a call, p a → p (a.serve call).2) (calls : List (Call α)) :
    p (after policy calls) := by
  induction calls using List.reverseRecOn with
  | nil => exact hempty
  | append_singleton calls call ih =>
    rw [after_concat]
    exact hserve _ call ih

lemma policy_after (policy : SlotPolicy) (calls : List (Call α)) :
    (after policy calls).policy = policy :=
  after_induction (p := fun a => a.policy = policy) rfl
    (fun a call h => (a.policy_serve call).trans h) calls

lemma isRegular_after (policy : SlotPolicy) (calls : List (Call α)) :
    (after policy calls).IsRegular :=
  after_induction (Arena.isRegular_empty policy) (fun _ call h => h.serve call) calls

lemma isOrderly_after (policy : SlotPolicy) (calls : List (Call α)) :
    (after policy calls).IsOrderly :=
  after_induction (Arena.isOrderly_empty policy) (fun _ call h => h.serve call) calls

lemma isTrimmed_after (policy : SlotPolicy) (calls : List (Call α)) :
    (after policy calls).IsTrimmed :=
  after_induction (Arena.isTrimmed_empty policy) (fun _ call h => h.serve call) calls

/-- The peak is the greatest value ever of what never exceeds it and attains it whenever it
rises. -/
lemma isGreatest_peak (f : Arena α → Nat) (hempty : f (.empty policy) = 0)
    (hle : ∀ calls, f (after policy calls) ≤ (after policy calls).peak)
    (hrise : ∀ calls call, (after policy (calls ++ [call])).peak = (after policy calls).peak ∨
      (after policy (calls ++ [call])).peak = f (after policy (calls ++ [call])))
    (calls : List (Call α)) :
    IsGreatest {n | ∃ earlier, earlier <+: calls ∧ f (after policy earlier) = n}
      (after policy calls).peak := by
  induction calls using List.reverseRecOn with
  | nil =>
    refine ⟨⟨[], List.prefix_rfl, hempty⟩, ?_⟩
    rintro n ⟨earlier, hearlier, rfl⟩
    rw [List.prefix_nil.1 hearlier]
    exact hle []
  | append_singleton calls call ih =>
    obtain ⟨⟨attained, hattained, heq⟩, hupper⟩ := ih
    refine ⟨?_, ?_⟩
    · obtain hsame | hnew := hrise calls call
      · exact ⟨attained, hattained.trans (List.prefix_append ..), heq.trans hsame.symm⟩
      · exact ⟨calls ++ [call], List.prefix_rfl, hnew.symm⟩
    · rintro n ⟨earlier, hearlier, rfl⟩
      obtain rfl | hearlier := List.prefix_concat_iff.1 hearlier
      · exact hle _
      · calc f (after policy earlier) ≤ (after policy calls).peak := hupper ⟨earlier, hearlier, rfl⟩
          _ ≤ (after policy (calls ++ [call])).peak := by
            rw [after_concat]
            exact Arena.peak_le_serve _ call

end After

/-! ### Slots that are used again -/

/-- An arena under `reuse` names its vacant cells in the order in which their slots were given
up, the last one first: whatever is looked for among them, it is found first where it is found
first among the slots given up. -/
def Recalls (slots : List Slot) (a : Arena α) : Prop :=
  ∀ p : Nat → Bool, (∀ i, p i = true → a.isVacant i = true) →
    (slots.map Slot.index).find? p = a.free.find? p

namespace Recalls

variable {slots : List Slot}

lemma of_not_vacant (h : ∀ i, a.isVacant i = false) : Recalls slots a := by
  intro p hp
  have hnone : ∀ l : List Nat, l.find? p = none := fun l =>
    List.find?_eq_none.2 fun i _ hi => Bool.eq_false_iff.1 (h i) (hp i hi)
  rw [hnone, hnone]

/-- What the search for a vacant cell passes over is not vacant. -/
lemma add (hr : Recalls slots a) (ho : a.IsOrderly) (hp : a.policy = .reuse)
    (h : a.add v = some (s, a')) : Recalls slots a' := by
  obtain ⟨rest, hpop, ha'⟩ | ⟨hpop, -, -⟩ := Arena.add_cases h
  · intro p hvacant
    obtain ⟨passed, hfree, hpassed⟩ := Arena.popVacant_eq_some hpop
    have hbefore : ∀ i, p i = true → i ≠ s.index ∧ a.isVacant i = true := fun i hi =>
      Arena.isVacant_of_add h (hvacant i hi)
    have hskip : (passed ++ [s.index]).find? p = none := by
      refine List.find?_eq_none.2 fun i hi hpi => ?_
      obtain hi | hi := List.mem_append.1 hi
      · exact Bool.eq_false_iff.1 (hpassed i hi) (hbefore i hpi).2
      · exact (hbefore i hpi).1 (List.mem_singleton.1 hi)
    calc (slots.map Slot.index).find? p = a.free.find? p := hr p fun i hi => (hbefore i hi).2
      _ = ((passed ++ [s.index]) ++ rest).find? p := by rw [hfree]; simp
      _ = a'.free.find? p := by rw [List.find?_append, hskip, ha']; rfl
  · refine of_not_vacant fun i => Bool.eq_false_iff.2 fun hi => ?_
    exact Bool.eq_false_iff.1 (ho.isVacant_eq_false hp hpop i) (Arena.isVacant_of_add h hi).2

/-- The slot given up comes first; what is dropped from a list grown long lies behind the
run. -/
lemma take (hr : Recalls slots a) (hp : a.policy = .reuse) (h : a.take s = some (v, a')) :
    Recalls (s :: slots) a' := by
  intro p hvacant
  have hfree : a'.free.find? p = (s.index :: a.free).find? p := by
    have hfinish : ∀ i, p i = true → i < a'.finish := fun i hi =>
      (Arena.isVacant_iff.1 (hvacant i hi)).2.1
    rw [Arena.vacate_eq_of_take h] at hfinish ⊢
    simp only [Arena.finish, Arena.vacate, hp] at hfinish ⊢
    split
    · rw [List.find?_filter]
      congr 1
      funext i
      cases hpi : p i with
      | false => simp
      | true => simpa using hfinish i hpi
    · rfl
  rw [hfree, List.map_cons, List.find?_cons, List.find?_cons]
  cases hs : p s.index with
  | true => rfl
  | false =>
    refine hr p fun i hi => (Arena.isVacant_of_take hp h (hvacant i hi)).resolve_left ?_
    rintro rfl
    rw [hs] at hi
    cases hi

end Recalls

theorem recalls_after (calls : List (Call α)) :
    Recalls (released .reuse calls) (after .reuse calls) := by
  induction calls using List.reverseRecOn with
  | nil => exact fun p hp => rfl
  | append_singleton calls call ih =>
    have hp : (after .reuse calls).policy = .reuse := policy_after .reuse calls
    rw [released_concat, after_concat]
    obtain ⟨h, -, hr⟩ | ⟨v, s, h, -, hr⟩ | ⟨v, s, h, -, hr⟩ | ⟨h, -, hr⟩ :=
      (after .reuse calls).serve_cases call
    · rw [h, hr]
      exact ih
    · rw [hr]
      exact ih.add (isOrderly_after .reuse calls) hp h
    · rw [hr]
      exact ih.take hp h
    · rw [h, hr]
      exact .of_not_vacant (Arena.isVacant_drain _)

/-- Among the vacant slots of the run of cells, the one given up last. -/
def lastVacant (calls : List (Call α)) : Option Slot :=
  (released .reuse calls).find? fun s =>
    decide (s.index < (after .reuse calls).occupancy.allocated) &&
      !(after .reuse calls).contains s

section Reuse

variable {calls : List (Call α)}

lemma base_after_reuse (calls : List (Call α)) : (after .reuse calls).base = 0 :=
  (isOrderly_after .reuse calls).base_eq (policy_after .reuse calls)

lemma finish_after_reuse (calls : List (Call α)) :
    (after .reuse calls).finish = (after .reuse calls).cells.length := by
  rw [Arena.finish, base_after_reuse, Nat.zero_add]

/-- The slot that is looked for is the one that is found. -/
lemma map_index_lastVacant (calls : List (Call α)) :
    (lastVacant calls).map Slot.index =
      ((after .reuse calls).popVacant (after .reuse calls).free).map Prod.fst := by
  have hvacant : (fun s : Slot => decide (s.index < (after .reuse calls).occupancy.allocated) &&
      !(after .reuse calls).contains s) = (after .reuse calls).isVacant ∘ Slot.index := by
    funext s
    rw [Function.comp, Arena.isVacant, base_after_reuse, finish_after_reuse, Arena.contains]
    simp only [Arena.occupancy, Arena.get?, Nat.zero_le, decide_true, Bool.true_and,
      Option.not_isSome]
    rfl
  calc (lastVacant calls).map Slot.index
      = ((released .reuse calls).map Slot.index).find? (after .reuse calls).isVacant := by
        rw [List.find?_map, ← hvacant]
        rfl
    _ = (after .reuse calls).free.find? (after .reuse calls).isVacant :=
        recalls_after calls _ fun _ hi => hi
    _ = _ := (Arena.map_fst_popVacant _ _).symm

/-- A hole is filled before the run of cells grows. -/
lemma add_of_lastVacant (h : lastVacant calls = some s) (v : α) :
    ∃ a', (after .reuse calls).add v = some (s, a') ∧
      a'.occupancy.allocated = (after .reuse calls).occupancy.allocated := by
  have hfound := map_index_lastVacant calls
  rw [h, Option.map_some, eq_comm, Option.map_eq_some_iff] at hfound
  obtain ⟨⟨i, rest⟩, hpop, hi⟩ := hfound
  obtain rfl : i = s.index := hi
  unfold Arena.add
  rw [hpop]
  dsimp only
  rw [Slot.ofIndex?_index]
  exact ⟨_, rfl, List.length_set ..⟩

/-- Without a hole all cells are occupied, and the next slot is the one behind them. -/
lemma add_of_lastVacant_eq_none (h : lastVacant calls = none) (v : α) :
    (∀ s : Slot, s.index < (after .reuse calls).occupancy.allocated →
      ((after .reuse calls).get? s).isSome) ∧
    ((∃ s a', (after .reuse calls).add v = some (s, a') ∧
        s.index = (after .reuse calls).occupancy.allocated ∧
        a'.occupancy.allocated = (after .reuse calls).occupancy.allocated + 1) ∨
      (after .reuse calls).add v = none ∧
        (after .reuse calls).occupancy.allocated = 0x80000000) := by
  have hp := policy_after .reuse calls
  have ho := isOrderly_after .reuse calls
  have hpop : (after .reuse calls).popVacant (after .reuse calls).free = none := by
    have hfound := map_index_lastVacant calls
    rwa [h, Option.map_none, eq_comm, Option.map_eq_none_iff] at hfound
  refine ⟨fun s hs => ?_, ?_⟩
  · have hoccupied := ho.isVacant_eq_false hp hpop s.index
    rw [Arena.isVacant, base_after_reuse, finish_after_reuse] at hoccupied
    rw [← Option.not_isNone]
    simpa [Arena.get?, show s.index < (after .reuse calls).cells.length from hs] using hoccupied
  · cases hadd : (after .reuse calls).add v with
    | none =>
      have hfinish := (ho.add_eq_none (isRegular_after .reuse calls) hadd).1
      exact .inr ⟨rfl, (finish_after_reuse calls).symm.trans hfinish⟩
    | some r =>
      obtain ⟨s, a'⟩ := r
      obtain ⟨rest, hsome, -⟩ | ⟨-, hs, rfl⟩ := Arena.add_cases hadd
      · rw [hpop] at hsome
        cases hsome
      · exact .inl ⟨s, _, rfl, hs.trans (finish_after_reuse calls), by simp [Arena.occupancy]⟩

lemma isGreatest_peak_reuse (calls : List (Call α)) :
    IsGreatest {n | ∃ earlier, earlier <+: calls ∧
        {s | ((after .reuse earlier).get? s).isSome}.ncard = n}
      (after .reuse calls).occupancy.peak := by
  simp only [(isRegular_after .reuse _).ncard_eq_used]
  refine isGreatest_peak Arena.used rfl (fun calls => ?_) (fun calls call => ?_) calls
  · have hr := isRegular_after .reuse calls
    calc (after .reuse calls).used = (after .reuse calls).values.length := hr.used_eq
      _ ≤ (after .reuse calls).cells.length := List.length_filterMap_le _ _
      _ ≤ (after .reuse calls).peak := hr.length_le_peak
  · rw [after_concat]
    obtain h | ⟨hpop, -, hpeak, hlength, hused⟩ := (after .reuse calls).peak_serve call
    · exact .inl h
    · have hfull := (isOrderly_after .reuse calls).isVacant_eq_false
        (policy_after .reuse calls) hpop
      rw [hpeak, hlength, hused, (isRegular_after .reuse calls).used_eq_length hfull]
      exact .inr rfl

/-- Under `reuse` the run of cells reaches just as far as the highest occupied slot. -/
lemma allocated_reuse (calls : List (Call α)) :
    (∀ i, IsGreatest (after .reuse calls).indices i →
      (after .reuse calls).occupancy.allocated = i + 1) ∧
    ((after .reuse calls).indices = ∅ → (after .reuse calls).occupancy.allocated = 0) := by
  have hr := isRegular_after .reuse calls
  -- the last cell is occupied, if there is one
  have hlast : (after .reuse calls).cells ≠ [] →
      (after .reuse calls).cells.length - 1 ∈ (after .reuse calls).indices := by
    intro hne
    have hentry := isTrimmed_after .reuse calls hne
    have hpos := List.length_pos_iff.2 hne
    have hle := hr.finish_le
    rw [Arena.edge, policy_after] at hentry
    rw [finish_after_reuse] at hentry hle
    exact ⟨⟨_, Nat.lt_of_lt_of_le (Nat.sub_one_lt_of_lt hpos) hle⟩, rfl, hentry⟩
  refine ⟨fun i hi => ?_, fun hnone => ?_⟩
  · obtain ⟨⟨s, rfl, hs⟩, hupper⟩ := hi
    have hlt := Arena.lt_finish_of_get? hs
    rw [finish_after_reuse] at hlt
    have hle := hupper (hlast (List.ne_nil_of_length_pos (Nat.zero_lt_of_lt hlt)))
    simp only [Arena.occupancy]
    omega
  · by_contra hne
    have hmem := hlast fun hnil => hne (congrArg List.length hnil)
    rw [hnone] at hmem
    exact hmem

end Reuse

/-- Under `reuse`, whatever calls are made: the run of cells ends right behind the highest
occupied slot; the next slot is, among the vacant ones before that end, the one given up last,
and only when there is none does the run grow, by the slot at its end, unless slots have run
out.  So a hole never makes the run grow, and the peak is the largest number of slots that were
ever occupied at once. -/
theorem reuse_allocation (calls : List (Call α)) :
    ((∀ i, IsGreatest (after .reuse calls).indices i →
        (after .reuse calls).occupancy.allocated = i + 1) ∧
      ((after .reuse calls).indices = ∅ → (after .reuse calls).occupancy.allocated = 0)) ∧
    (∀ v s, lastVacant calls = some s → ∃ a', (after .reuse calls).add v = some (s, a') ∧
      a'.occupancy.allocated = (after .reuse calls).occupancy.allocated) ∧
    (∀ v, lastVacant calls = none →
      (∀ s : Slot, s.index < (after .reuse calls).occupancy.allocated →
        ((after .reuse calls).get? s).isSome) ∧
      ((∃ s a', (after .reuse calls).add v = some (s, a') ∧
          s.index = (after .reuse calls).occupancy.allocated ∧
          a'.occupancy.allocated = (after .reuse calls).occupancy.allocated + 1) ∨
        (after .reuse calls).add v = none ∧
          (after .reuse calls).occupancy.allocated = 0x80000000)) ∧
    IsGreatest {n | ∃ earlier, earlier <+: calls ∧
        {s | ((after .reuse earlier).get? s).isSome}.ncard = n}
      (after .reuse calls).occupancy.peak :=
  ⟨allocated_reuse calls, fun v _ h => add_of_lastVacant h v,
    fun v h => add_of_lastVacant_eq_none h v, isGreatest_peak_reuse calls⟩

/-! ### Slots that are never used again -/

section Monotonic

variable {calls : List (Call α)}

/-- The slots given out are those before the end of the run of cells, in their order. -/
lemma map_index_granted (calls : List (Call α)) :
    (granted .monotonic calls).map Slot.index =
      List.range (after .monotonic calls).finish := by
  induction calls using List.reverseRecOn with
  | nil => rfl
  | append_singleton calls call ih =>
    have hp : (after .monotonic calls).policy = .monotonic := policy_after .monotonic calls
    rw [granted_concat, after_concat, List.map_append, ih]
    obtain ⟨h, hg, -⟩ | ⟨v, s, h, hg, -⟩ | ⟨v, s, h, hg, -⟩ | ⟨h, hg, -⟩ :=
      (after .monotonic calls).serve_cases call
    · rw [h, hg]
      simp
    · obtain ⟨hs, hfinish⟩ := (isOrderly_after .monotonic calls).finish_add hp h
      rw [hg, hfinish, List.range_succ, ← hs]
      rfl
    · rw [hg, Arena.finish_take hp h]
      simp
    · rw [h, hg, Arena.finish_drain hp]
      simp

lemma length_granted (calls : List (Call α)) :
    (granted .monotonic calls).length = (after .monotonic calls).finish := by
  rw [← List.length_map Slot.index, map_index_granted, List.length_range]

/-- A vacant slot that was given out stays vacant. -/
lemma Arena.get?_serve_of_lt (ho : a.IsOrderly) (hp : a.policy = .monotonic)
    (hs : s.index < a.finish) (h : a.get? s = none) (call : Call α) :
    s.index < (a.serve call).2.finish ∧ (a.serve call).2.get? s = none := by
  obtain ⟨hc, -⟩ | ⟨v, t, hc, -⟩ | ⟨v, t, hc, -⟩ | ⟨hc, -⟩ := a.serve_cases call
  · rw [hc]
    exact ⟨hs, h⟩
  · obtain ⟨ht, hfinish⟩ := ho.finish_add hp hc
    rw [Arena.get?_add hc, if_neg (by rintro rfl; omega)]
    exact ⟨by omega, h⟩
  · rw [Arena.finish_take hp hc, Arena.get?_take hc, h, ite_self]
    exact ⟨hs, rfl⟩
  · rw [hc, Arena.finish_drain hp, Arena.get?_drain]
    exact ⟨hs, rfl⟩

lemma get?_append_of_granted (hs : s ∈ granted .monotonic calls)
    (h : (after .monotonic calls).get? s = none) (more : List (Call α)) :
    (after .monotonic (calls ++ more)).get? s = none := by
  have hlt : s.index < (after .monotonic calls).finish := by
    rw [← List.mem_range, ← map_index_granted]
    exact List.mem_map_of_mem hs
  have hboth : s.index < (after .monotonic (calls ++ more)).finish ∧
      (after .monotonic (calls ++ more)).get? s = none := by
    induction more using List.reverseRecOn with
    | nil => rw [List.append_nil]; exact ⟨hlt, h⟩
    | append_singleton more call ih =>
      rw [← List.append_assoc, after_concat]
      exact Arena.get?_serve_of_lt (isOrderly_after ..) (policy_after ..) ih.1 ih.2 call
  exact hboth.2

/-- Under `monotonic` a slot is refused only when all indices have been given out. -/
lemma add_monotonic_eq_none_iff (calls : List (Call α)) (v : α) :
    (after .monotonic calls).add v = none ↔ (granted .monotonic calls).length = 0x80000000 := by
  have ho := isOrderly_after (α := α) .monotonic calls
  rw [length_granted]
  refine ⟨fun h => (ho.add_eq_none (isRegular_after .monotonic calls) h).1, fun hfinish => ?_⟩
  rw [Option.eq_none_iff_forall_ne_some]
  rintro ⟨s, a'⟩ hadd
  have hs := (ho.finish_add (policy_after .monotonic calls) hadd).1
  have hlt := s.index_lt
  omega

/-- Under `monotonic` the run of cells begins at the lowest occupied slot. -/
lemma allocated_monotonic (calls : List (Call α)) :
    (∀ i, IsLeast (after .monotonic calls).indices i →
      i + (after .monotonic calls).occupancy.allocated =
        (granted .monotonic calls).length) ∧
    ((after .monotonic calls).indices = ∅ →
      (after .monotonic calls).occupancy.allocated = 0) := by
  have hr := isRegular_after .monotonic calls
  -- The run is trimmed at its front, so that its first cell is occupied.
  have hfirst : (after .monotonic calls).cells ≠ [] →
      (after .monotonic calls).base ∈ (after .monotonic calls).indices := by
    intro hne
    have hentry := isTrimmed_after .monotonic calls hne
    have hpos := List.length_pos_iff.2 hne
    have hle := hr.finish_le
    rw [Arena.edge, policy_after] at hentry
    unfold Arena.finish at hle
    exact ⟨⟨(after .monotonic calls).base, by omega⟩, rfl, hentry⟩
  refine ⟨fun i hi => ?_, fun hnone => ?_⟩
  · obtain ⟨⟨s, rfl, hs⟩, hlower⟩ := hi
    have hlt := Arena.lt_finish_of_get? hs
    have hb : (after .monotonic calls).base ≤ s.index := by
      by_contra hlt
      rw [Arena.get?, Arena.entryAt?_of_lt (Nat.lt_of_not_le hlt)] at hs
      cases hs
    unfold Arena.finish at hlt
    have hle := hlower (hfirst (List.ne_nil_of_length_pos (by omega)))
    rw [length_granted, Arena.finish, Nat.le_antisymm hle hb]
    rfl
  · by_contra hne
    have hmem := hfirst fun hnil => hne (congrArg List.length hnil)
    rw [hnone] at hmem
    exact hmem

lemma isGreatest_peak_monotonic (calls : List (Call α)) :
    IsGreatest {n | ∃ earlier, earlier <+: calls ∧
        (after .monotonic earlier).occupancy.allocated = n}
      (after .monotonic calls).occupancy.peak := by
  refine isGreatest_peak (fun a => a.cells.length) rfl
    (fun calls => (isRegular_after .monotonic calls).length_le_peak) (fun calls call => ?_) calls
  rw [after_concat]
  exact ((after .monotonic calls).peak_serve call).imp_right fun h => h.2.2.1

end Monotonic

/-- Under `monotonic`, whatever calls are made: the slots given out have the indices `0`, `1`,
`2` and so on, so none is given out twice, and one is refused only when all indices have been
given out; a slot given out that is vacant is vacant ever after; the run of cells reaches from the
lowest occupied slot to the next one to be given out; and the peak is the greatest length it ever
had. -/
theorem monotonic_allocation (calls : List (Call α)) :
    (granted .monotonic calls).map Slot.index =
      List.range (granted .monotonic calls).length ∧
    (granted .monotonic calls).Nodup ∧
    (∀ v, (after .monotonic calls).add v = none ↔
      (granted .monotonic calls).length = 0x80000000) ∧
    (∀ s ∈ granted .monotonic calls, (after .monotonic calls).get? s = none →
      ∀ more, (after .monotonic (calls ++ more)).get? s = none) ∧
    ((∀ i, IsLeast (after .monotonic calls).indices i →
        i + (after .monotonic calls).occupancy.allocated =
          (granted .monotonic calls).length) ∧
      ((after .monotonic calls).indices = ∅ →
        (after .monotonic calls).occupancy.allocated = 0)) ∧
    IsGreatest {n | ∃ earlier, earlier <+: calls ∧
        (after .monotonic earlier).occupancy.allocated = n}
      (after .monotonic calls).occupancy.peak := by
  have hindices : (granted .monotonic calls).map Slot.index =
      List.range (granted .monotonic calls).length := by
    rw [length_granted, map_index_granted]
  refine ⟨hindices, .of_map Slot.index ?_, add_monotonic_eq_none_iff calls,
    fun s hs h => get?_append_of_granted hs h, allocated_monotonic calls,
      isGreatest_peak_monotonic calls⟩
  rw [hindices]
  exact List.nodup_range

end ScriptBridge.Table
