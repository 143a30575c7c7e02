/-
# What waits in the free list

Trimming the run of cells strands the indices in the free list that are now behind its end.
They stay there until the search for a vacant cell comes across them or the list has grown too
long, and they do no harm: an index enters the list when its slot is given up, so it stood for
an occupied cell before and is not in the list yet; and the run of cells grows only after the
search has gone through the whole list, so no index that waits in it gets its cell back.  What is
listed is therefore vacant or stranded, and nothing is listed twice.

The search is said here as it goes, an index taken from the list at each step and checked to be
that of a slot and that of a vacant cell.  Neither check ever refuses an index of the run.
-/
import Mathlib.Data.List.TakeWhile
import ScriptBridge.Proofs.Table.Allocation

namespace ScriptBridge.Table

open ScriptBridge.Wire (Slot)

variable {α : Type} {a a' : Arena α} {s : Slot} {v : α} {free : List Nat}

namespace Arena

/-! ### The search, step by step -/

/-- The search for a vacant cell, and what it leaves of the free list.  It ends at the first
index that is not that of a slot, should there be one, and passes over those that are not those
of vacant cells. -/
def searchFree (a : Arena α) : List Nat → Option Slot × List Nat
  | [] => (none, [])
  | index :: rest =>
    match Slot.ofIndex? index with
    | none => (none, rest)
    | some slot => if a.isVacant index then (some slot, rest) else searchFree a rest

/-- Enters a value where the search ends, or in a cell of its own behind the others.  What the
search took from the free list is gone, even if the value is refused. -/
def addSearching (a : Arena α) (value : α) : Option Slot × Arena α :=
  match a.searchFree a.free with
  | (some slot, rest) =>
    (some slot, { a with
      cells := a.cells.set (slot.index - a.base) (some value)
      free := rest
      used := a.used + 1 })
  | (none, rest) =>
    match Slot.ofIndex? a.finish with
    | some slot =>
      (some slot, { a with
        cells := a.cells ++ [some value]
        free := rest
        used := a.used + 1
        peak := max a.peak (a.cells.length + 1) })
    | none => (none, { a with free := rest })

/-- Whether an index lies behind the run of cells. -/
def isStranded (a : Arena α) (index : Nat) : Bool := decide (a.finish ≤ index)

@[simp] lemma isStranded_iff {i : Nat} : a.isStranded i = true ↔ a.finish ≤ i := decide_eq_true_iff

/-! ### Tidy free lists -/

/-- An arena whose free list holds indices of slots, each once, none of them occupied, and not
too many beside its cells. -/
structure IsTidy (a : Arena α) : Prop where
  nodup : a.free.Nodup
  vacant : ∀ i ∈ a.free, a.entryAt? i = none
  index_lt : ∀ i ∈ a.free, i < 0x80000000
  length_le : a.free.length ≤ freeLimit a.cells.length

lemma isTidy_of_free_eq_nil (h : a.free = []) : a.IsTidy := by
  refine ⟨?_, ?_, ?_, ?_⟩ <;> simp [h]

/-- What a slot that is given up does to the free list. -/
lemma free_take (hp : a.policy = .reuse) (h : a.take s = some (v, a')) :
    a'.free =
      if freeLimit a'.cells.length < a.free.length + 1 then
        (s.index :: a.free).filter fun i => decide (i < a'.finish)
      else s.index :: a.free := by
  rw [vacate_eq_of_take h]
  simp only [vacate, hp, finish, List.length_cons]

namespace IsTidy

lemma add (ha : a.IsTidy) (h : a.add v = some (s, a')) : a'.IsTidy := by
  obtain ⟨rest, hpop, ha'⟩ | ⟨-, -, rfl⟩ := add_cases h
  · obtain ⟨passed, hfree, -⟩ := popVacant_eq_some hpop
    have hrest : a'.free = rest := by rw [ha']
    have hlength : a'.cells.length = a.cells.length := by rw [ha', List.length_set]
    have hsub : (s.index :: rest).Sublist a.free := hfree ▸ List.sublist_append_right ..
    obtain ⟨hnot, hnodup⟩ := List.nodup_cons.1 (hsub.nodup ha.nodup)
    have hmem : ∀ i ∈ rest, i ∈ a.free := fun i hi =>
      hsub.subset (List.mem_cons_of_mem _ hi)
    refine ⟨hrest ▸ hnodup, fun i hi => ?_, fun i hi => ?_, ?_⟩
    · rw [hrest] at hi
      rw [entryAt?_add h, if_neg (ne_of_mem_of_not_mem hi hnot)]
      exact ha.vacant i (hmem i hi)
    · exact ha.index_lt i (hmem i (hrest ▸ hi))
    · rw [hrest, hlength]
      exact ((List.sublist_cons_self ..).trans hsub).length_le.trans ha.length_le
  · exact isTidy_of_free_eq_nil rfl

/-- The index of a slot that is given up was occupied, so it was not listed yet; what is dropped
from a list grown long is all that lies behind the run, and of the rest there is not more than
there are cells. -/
lemma take (ha : a.IsTidy) (hp : a.policy = .reuse) (hbase : a'.base = 0)
    (h : a.take s = some (v, a')) : a'.IsTidy := by
  have hnot : s.index ∉ a.free := fun hmem => by
    have hs : a.entryAt? s.index = some v := get?_of_take h
    rw [ha.vacant _ hmem] at hs
    cases hs
  have hsub : a'.free.Sublist (s.index :: a.free) := by
    rw [free_take hp h]
    split
    · exact List.filter_sublist
    · exact .refl _
  have hnodup : a'.free.Nodup := hsub.nodup (List.nodup_cons.2 ⟨hnot, ha.nodup⟩)
  refine ⟨hnodup, fun i hi => ?_, fun i hi => ?_, ?_⟩
  · rw [entryAt?_take h]
    split
    · rfl
    · next hne => exact ha.vacant i ((List.mem_cons.1 (hsub.subset hi)).resolve_left hne)
  · obtain rfl | hi := List.mem_cons.1 (hsub.subset hi)
    · exact s.index_lt
    · exact ha.index_lt i hi
  · have hfree := free_take hp h
    split at hfree
    · have hrange : a'.free ⊆ List.range a'.finish := fun i hi => by
        rw [hfree, List.mem_filter] at hi
        exact List.mem_range.2 (of_decide_eq_true hi.2)
      have hcells : a'.finish = a'.cells.length := by rw [finish, hbase, Nat.zero_add]
      calc a'.free.length ≤ (List.range a'.finish).length := hnodup.length_le_of_subset hrange
        _ = a'.cells.length := by rw [List.length_range, hcells]
        _ ≤ freeLimit a'.cells.length := by unfold freeLimit; omega
    · next hshort =>
      rw [hfree, List.length_cons]
      exact Nat.not_lt.1 hshort

/-- The first index in the list whose cell has not been trimmed away is that of a vacant cell:
it is where the search ends. -/
lemma searchFree_cases (ha : a.IsTidy) (hbase : a.base = 0) (hfree : free ⊆ a.free) :
    (∃ (s : Slot) (rest : List Nat), free.dropWhile a.isStranded = s.index :: rest ∧
      a.searchFree free = (some s, rest) ∧ a.popVacant free = some (s.index, rest)) ∨
    (free.dropWhile a.isStranded = [] ∧
      a.searchFree free = (none, []) ∧ a.popVacant free = none) := by
  induction free with
  | nil => exact .inr ⟨rfl, rfl, rfl⟩
  | cons i free ih =>
    obtain ⟨hi, hrest⟩ := List.cons_subset.1 hfree
    have hslot : Slot.ofIndex? i = some ⟨i, ha.index_lt i hi⟩ := Slot.ofIndex?_index ⟨i, _⟩
    simp only [searchFree, popVacant, hslot]
    obtain hlt | hle := Nat.lt_or_ge i a.finish
    · have hvacant : a.isVacant i = true :=
        isVacant_iff.2 ⟨hbase ▸ Nat.zero_le i, hlt, ha.vacant i hi⟩
      have hkept : ¬ a.isStranded i = true := fun h => Nat.not_lt.2 (isStranded_iff.1 h) hlt
      rw [List.dropWhile_cons_of_neg hkept, if_pos hvacant, if_pos hvacant]
      exact .inl ⟨_, free, rfl, rfl, rfl⟩
    · have hvacant : ¬ a.isVacant i = true := fun h => Nat.not_lt.2 hle (isVacant_iff.1 h).2.1
      rw [List.dropWhile_cons_of_pos (isStranded_iff.2 hle), if_neg hvacant, if_neg hvacant]
      exact ih hrest

/-- Entering a value is what the search makes of it, step by step. -/
lemma serve_add_eq (ha : a.IsTidy) (hbase : a.base = 0) (v : α) :
    a.serve (.add v) = (.slot (a.addSearching v).1, (a.addSearching v).2) := by
  obtain ⟨s, rest, -, hsearch, hpop⟩ | ⟨hstranded, hsearch, hpop⟩ :=
    ha.searchFree_cases hbase (List.Subset.refl a.free)
  · simp only [serve, Arena.add, addSearching, hsearch, hpop, Slot.ofIndex?_index,
      Option.map_some]
  · cases hslot : Slot.ofIndex? a.finish with
    | some s => simp only [serve, Arena.add, addSearching, hsearch, hpop, hslot, Option.map_some]
    | none =>
      -- a run of cells that cannot grow reaches behind all slots, so nothing is stranded
      have hfull : ∀ i ∈ a.free, ¬ a.isStranded i = true := fun i hi h => by
        have hlt : a.finish < 0x80000000 :=
          Nat.lt_of_le_of_lt (isStranded_iff.1 h) (ha.index_lt i hi)
        simp only [Slot.ofIndex?, dif_pos hlt] at hslot
        cases hslot
      have hnil : a.free = [] := List.eq_nil_iff_forall_not_mem.2 fun i hi =>
        hfull i hi (List.dropWhile_eq_nil_iff.1 hstranded i hi)
      simp only [serve, Arena.add, addSearching, hsearch, hpop, hslot, Option.map_none, ← hnil]

end IsTidy

/-- The run of cells grows only when the search has found nothing in the free list, and has
emptied it. -/
lemma finish_serve_cases (a : Arena α) (call : Call α) :
    (a.serve call).2.finish ≤ a.finish ∨
      a.popVacant a.free = none ∧ (a.serve call).2.free = [] := by
  obtain ⟨h, -⟩ | ⟨v, s, h, -⟩ | ⟨v, s, h, -⟩ | ⟨h, -⟩ := a.serve_cases call
  · exact .inl (Nat.le_of_eq (by rw [h]))
  · obtain ⟨rest, -, h⟩ | ⟨hpop, -, h⟩ := add_cases h
    · exact .inl (by rw [h, finish, finish, List.length_set])
    · exact .inr ⟨hpop, by rw [h]⟩
  · exact .inl (finish_take_le h)
  · exact .inl (h ▸ finish_drain_le a)

end Arena

/-! ### Every arena in use -/

section Reuse

variable {calls : List (Call α)}

lemma isTidy_after (calls : List (Call α)) : (after .reuse calls).IsTidy := by
  induction calls using List.reverseRecOn with
  | nil => exact Arena.isTidy_of_free_eq_nil rfl
  | append_singleton calls call ih =>
    have hbase := base_after_reuse (calls ++ [call])
    rw [after_concat] at hbase ⊢
    obtain ⟨h, -⟩ | ⟨v, s, h, -⟩ | ⟨v, s, h, -⟩ | ⟨h, -⟩ := (after .reuse calls).serve_cases call
    · rwa [h]
    · exact ih.add h
    · exact ih.take (policy_after .reuse calls) hbase h
    · exact Arena.isTidy_of_free_eq_nil (by rw [h]; rfl)

/-- Within the run of cells, what is listed is what is vacant. -/
lemma mem_free_iff {i : Nat} (hi : i < (after .reuse calls).finish) :
    i ∈ (after .reuse calls).free ↔ (after .reuse calls).isVacant i = true := by
  refine ⟨fun hmem => Arena.isVacant_iff.2 ⟨?_, hi, (isTidy_after calls).vacant i hmem⟩, ?_⟩
  · exact base_after_reuse calls ▸ Nat.zero_le i
  · exact (isOrderly_after .reuse calls).listed (policy_after .reuse calls) i

/-- What is stranded stays so for as long as it is listed. -/
lemma finish_append_le {i : Nat} (hi : (after .reuse calls).finish ≤ i) {more : List (Call α)}
    (hlisted : ∀ earlier, earlier <+: more → i ∈ (after .reuse (calls ++ earlier)).free) :
    (after .reuse (calls ++ more)).finish ≤ i := by
  induction more using List.reverseRecOn with
  | nil => rwa [List.append_nil]
  | append_singleton more call ih =>
    have hbefore := ih fun earlier h => hlisted earlier (h.trans (List.prefix_append ..))
    have hmem := hlisted (more ++ [call]) List.prefix_rfl
    rw [← List.append_assoc, after_concat] at hmem ⊢
    obtain hle | ⟨-, hnil⟩ := (after .reuse (calls ++ more)).finish_serve_cases call
    · exact hle.trans hbefore
    · rw [hnil] at hmem
      cases hmem

end Reuse

/-- Under `reuse`, whatever calls are made, the free list names each index once, its indices
within the run of cells are the vacant ones, and it is not longer than twice the run, or sixteen.
The run grows only when the search has emptied the list, so that what is stranded stays behind
the end for as long as it is listed.  All indices listed are those of slots, and the search takes
the first one that is not stranded, whichever it is; what it finds and what it leaves is what
entering a value does. -/
theorem reuse_free_list (calls : List (Call α)) :
    ((after .reuse calls).free.Nodup ∧
      (∀ i < (after .reuse calls).finish,
        i ∈ (after .reuse calls).free ↔ (after .reuse calls).isVacant i = true) ∧
      (after .reuse calls).free.length ≤ 2 * max (after .reuse calls).occupancy.allocated 8) ∧
    ((∀ call, (after .reuse calls).finish < (after .reuse (calls ++ [call])).finish →
        (after .reuse calls).searchFree (after .reuse calls).free = (none, []) ∧
        (after .reuse (calls ++ [call])).free = []) ∧
      ∀ i more, (after .reuse calls).finish ≤ i →
        (∀ earlier, earlier <+: more → i ∈ (after .reuse (calls ++ earlier)).free) →
        (after .reuse (calls ++ more)).finish ≤ i) ∧
    ((∀ i ∈ (after .reuse calls).free, ∃ s : Slot, s.index = i) ∧
      ((∃ (s : Slot) (rest : List Nat),
          (after .reuse calls).free.dropWhile (after .reuse calls).isStranded =
            s.index :: rest ∧
          (after .reuse calls).searchFree (after .reuse calls).free = (some s, rest)) ∨
        (after .reuse calls).free.dropWhile (after .reuse calls).isStranded = [] ∧
          (after .reuse calls).searchFree (after .reuse calls).free = (none, [])) ∧
      ∀ v, (after .reuse calls).serve (.add v) =
        (.slot ((after .reuse calls).addSearching v).1,
          ((after .reuse calls).addSearching v).2)) := by
  have ha := isTidy_after calls
  have hbase := base_after_reuse calls
  have hsearch := ha.searchFree_cases hbase (List.Subset.refl _)
  refine ⟨⟨ha.nodup, fun i hi => mem_free_iff hi, ha.length_le⟩,
    ⟨fun call hgrows => ?_, fun i more hi hlisted => finish_append_le hi hlisted⟩,
    fun i hi => ⟨⟨i, ha.index_lt i hi⟩, rfl⟩, ?_, ha.serve_add_eq hbase⟩
  · rw [after_concat] at hgrows ⊢
    -- The run grows only where no vacant index has been found.
    obtain hle | ⟨hpop, hnil⟩ := (after .reuse calls).finish_serve_cases call
    · exact absurd hgrows (Nat.not_lt.2 hle)
    · obtain ⟨s, rest, -, -, hfound⟩ | ⟨-, hnone, -⟩ := hsearch
      · rw [hpop] at hfound
        cases hfound
      · exact ⟨hnone, hnil⟩
  · obtain ⟨s, rest, hkept, hfound, -⟩ | ⟨hkept, hnone, -⟩ := hsearch
    · exact .inl ⟨s, rest, hkept, hfound⟩
    · exact .inr ⟨hkept, hnone⟩

/-- Three indices are stranded when the run shrinks to one cell, and all of them go when it has
to grow again. -/
example :
    let calls : List (Call Char) := [.add 'a', .add 'b', .add 'c', .add 'd',
      .take ⟨1, by decide⟩, .take ⟨3, by decide⟩, .take ⟨2, by decide⟩]
    ((after .reuse calls).finish, (after .reuse calls).free) = (1, [2, 3, 1]) ∧
      ((after .reuse (calls ++ [.add 'e'])).finish,
        (after .reuse (calls ++ [.add 'e'])).free) = (2, []) := by
  decide

end ScriptBridge.Table
