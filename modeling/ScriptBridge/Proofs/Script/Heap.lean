/-
# What is found on the heap

What each operation of a heap does is said by what is found at each place afterwards.  On a
sound heap every object is found at its place, and nothing is found past the next one.
-/
import Mathlib.Tactic.Common
import Mathlib.Data.List.Nodup
import ScriptBridge.Script.Heap

namespace ScriptBridge.Script.Heap

variable {h : Heap} {r s : Ref} {o : Object}

/-- A heap whose objects have places of their own, all of them before the next one. -/
structure Sound (h : Heap) : Prop where
  nodup : (h.objects.map Prod.fst).Nodup
  lt_next : ∀ r ∈ h.objects.map Prod.fst, r < h.next

lemma lookup_cons_eq_ite (objects : List (Ref × Object)) (t : Ref) (o : Object) (s : Ref) :
    ((t, o) :: objects).lookup s = if s = t then some o else objects.lookup s := by
  rw [List.lookup_cons]
  by_cases hs : s = t
  · rw [if_pos hs, beq_iff_eq.2 hs]
  · rw [if_neg hs, beq_eq_false_iff_ne.2 hs]

/-! ### Entering -/

lemma get?_alloc (h : Heap) (o : Object) (r : Ref) :
    (h.alloc o).2.get? r = if r = h.next then some o else h.get? r :=
  lookup_cons_eq_ite ..

lemma Sound.alloc (hs : h.Sound) (o : Object) : (h.alloc o).2.Sound := by
  refine ⟨List.nodup_cons.2 ⟨fun hm => ?_, hs.nodup⟩, fun r hr => ?_⟩
  · exact Nat.lt_irrefl _ (hs.lt_next _ hm)
  · rcases List.mem_cons.1 hr with rfl | hr
    · exact Nat.lt_succ_self _
    · exact Nat.lt_succ_of_lt (hs.lt_next r hr)

/-! ### Changing -/

lemma get?_update (h : Heap) (r : Ref) (f : Object → Object) (s : Ref) :
    (h.update r f).get? s = if s = r then (h.get? s).map f else h.get? s := by
  obtain ⟨objects, next⟩ := h
  simp only [update, get?]
  induction objects with
  | nil => simp
  | cons p objects ih =>
    obtain ⟨t, o⟩ := p
    simp only [List.map_cons]
    by_cases ht : t = r
    · subst ht
      rw [if_pos rfl, lookup_cons_eq_ite, lookup_cons_eq_ite, ih]
      split <;> rfl
    · rw [if_neg ht, lookup_cons_eq_ite, lookup_cons_eq_ite, ih]
      by_cases hs : s = t
      · rw [if_pos hs, if_pos hs, if_neg (hs ▸ ht)]
      · rw [if_neg hs, if_neg hs]

lemma map_fst_update (h : Heap) (r : Ref) (f : Object → Object) :
    (h.update r f).objects.map Prod.fst = h.objects.map Prod.fst := by
  simp only [update, List.map_map]
  refine List.map_congr_left fun p _ => ?_
  simp only [Function.comp_apply]
  split <;> rfl

lemma Sound.update (hs : h.Sound) (r : Ref) (f : Object → Object) : (h.update r f).Sound := by
  constructor
  · rw [map_fst_update]
    exact hs.nodup
  · rw [map_fst_update]
    exact hs.lt_next

/-! ### Forgetting -/

/-- What is found when only the objects at some places are kept. -/
lemma lookup_filter (p : Ref → Bool) (objects : List (Ref × Object)) (s : Ref) :
    (objects.filter fun x => p x.1).lookup s = if p s then objects.lookup s else none := by
  induction objects with
  | nil => simp
  | cons x objects ih =>
    obtain ⟨t, o⟩ := x
    by_cases hp : p t
    · rw [List.filter_cons, if_pos hp, lookup_cons_eq_ite, lookup_cons_eq_ite, ih]
      by_cases hs : s = t
      · rw [if_pos hs, if_pos hs, if_pos (hs ▸ hp)]
      · rw [if_neg hs, if_neg hs]
    · rw [List.filter_cons, if_neg hp, lookup_cons_eq_ite, ih]
      by_cases hs : s = t
      · rw [if_neg (hs ▸ hp), if_neg (hs ▸ hp)]
      · rw [if_neg hs]

/-- A heap with the objects at some places only. -/
def restrict (h : Heap) (p : Ref → Bool) : Heap :=
  { h with objects := h.objects.filter fun x => p x.1 }

lemma get?_restrict (h : Heap) (p : Ref → Bool) (s : Ref) :
    (h.restrict p).get? s = if p s then h.get? s else none := lookup_filter p h.objects s

lemma Sound.restrict (hs : h.Sound) (p : Ref → Bool) : (h.restrict p).Sound := by
  have hsub : ((h.restrict p).objects.map Prod.fst).Sublist (h.objects.map Prod.fst) :=
    List.filter_sublist.map _
  exact ⟨hs.nodup.sublist hsub, fun r hr => hs.lt_next r (hsub.subset hr)⟩

lemma erase_eq_restrict (h : Heap) (r : Ref) : h.erase r = h.restrict fun s => decide (s ≠ r) :=
  rfl

lemma get?_erase (h : Heap) (r s : Ref) :
    (h.erase r).get? s = if s = r then none else h.get? s := by
  rw [erase_eq_restrict, get?_restrict]
  by_cases hs : s = r <;> simp [hs]

/-! ### Finding -/

lemma mem_of_get? (hg : h.get? r = some o) : (r, o) ∈ h.objects := by
  obtain ⟨objects, next⟩ := h
  simp only [get?] at hg
  induction objects with
  | nil => cases hg
  | cons p objects ih =>
    obtain ⟨t, p⟩ := p
    rw [lookup_cons_eq_ite] at hg
    split at hg
    · next heq =>
      cases hg
      rw [heq]
      exact List.mem_cons_self ..
    · exact List.mem_cons_of_mem _ (ih hg)

lemma Sound.get?_of_mem (hs : h.Sound) (hm : (r, o) ∈ h.objects) : h.get? r = some o := by
  obtain ⟨objects, next⟩ := h
  have hnodup := hs.nodup
  simp only [get?] at hm hnodup ⊢
  clear hs
  induction objects with
  | nil => cases hm
  | cons p objects ih =>
    obtain ⟨t, p⟩ := p
    rw [List.map_cons, List.nodup_cons] at hnodup
    rcases List.mem_cons.1 hm with heq | hm
    · cases heq
      rw [lookup_cons_eq_ite, if_pos rfl]
    · have hne : r ≠ t := fun heq => hnodup.1 (heq ▸ List.mem_map.2 ⟨_, hm, rfl⟩)
      rw [lookup_cons_eq_ite, if_neg hne]
      exact ih hm hnodup.2

lemma Sound.mem_iff (hs : h.Sound) : (r, o) ∈ h.objects ↔ h.get? r = some o :=
  ⟨hs.get?_of_mem, mem_of_get?⟩

lemma Sound.lt_of_get? (hs : h.Sound) (hg : h.get? r = some o) : r < h.next :=
  hs.lt_next r (List.mem_map.2 ⟨_, mem_of_get? hg, rfl⟩)

lemma Sound.get?_eq_none (hs : h.Sound) (hr : h.next ≤ r) : h.get? r = none := by
  cases hg : h.get? r with
  | none => rfl
  | some o => exact absurd (hs.lt_of_get? hg) (Nat.not_lt.2 hr)

lemma mem_refs_of_get? (hg : h.get? r = some o) (hs : s ∈ o.refs) : s ∈ h.refs :=
  List.mem_flatMap.2 ⟨_, mem_of_get? hg, hs⟩

end ScriptBridge.Script.Heap
