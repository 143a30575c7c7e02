/-
# The handle table as a map from handles to values

What each operation of a table does is said by what is found at each handle afterwards.
-/
import Mathlib.Tactic.Common
import ScriptBridge.Table.Handles

namespace ScriptBridge

open ScriptBridge.Wire

namespace Wire.Handle

lemma ext_id {g h : Handle} (he : g.id = h.id) : g = h := by
  cases g
  cases h
  simp_all

lemma ofId?_eq_some {i : Nat} {h : Handle} : Handle.ofId? i = some h ↔ h.id = i := by
  constructor
  · intro he
    unfold ofId? at he
    split at he
    · cases he
      rfl
    · cases he
  · rintro rfl
    simp [ofId?, h.id_pos, h.id_lt]

end Wire.Handle

namespace Table.Handles

variable {α : Type} {t t' : Handles α} {g h : Handle} {v : α}

lemma mem_values_of_get? (hg : t.get? h = some v) : v ∈ t.values := by
  unfold get? at hg
  rw [Option.join_eq_some_iff] at hg
  exact List.mem_filterMap.2 ⟨some v, List.mem_of_getElem? hg, rfl⟩

lemma mem_values {v : α} : v ∈ t.values ↔ some v ∈ t.cells := by
  simp [values]

/-- What a table holds after a value has been entered. -/
lemma mem_values_insert (hi : t.insert v = some (h, t')) {w : α} (hw : w ∈ t'.values) :
    w = v ∨ w ∈ t.values := by
  unfold insert at hi
  split at hi <;> rw [Option.map_eq_some_iff] at hi <;> obtain ⟨h', -, he⟩ := hi <;> cases he
  · rcases List.mem_or_eq_of_mem_set (mem_values.1 hw) with hm | heq
    · exact .inr (mem_values.2 hm)
    · exact .inl (Option.some.inj heq)
  · rcases List.mem_append.1 (mem_values.1 hw) with hm | heq
    · exact .inr (mem_values.2 hm)
    · exact .inl (Option.some.inj (List.mem_singleton.1 heq))

lemma mem_values_remove (hr : t.remove h = some (v, t')) {w : α} (hw : w ∈ t'.values) :
    w ∈ t.values := by
  unfold remove at hr
  rw [Option.map_eq_some_iff] at hr
  obtain ⟨v', -, he⟩ := hr
  cases he
  rcases List.mem_or_eq_of_mem_set (mem_values.1 hw) with hm | heq
  · exact mem_values.2 hm
  · cases heq

/-! ### What is found at each handle -/

/-- Exactly vacant cells are listed as free, each of them once. -/
structure IsIndexed (t : Handles α) : Prop where
  nodup : t.free.Nodup
  vacant : ∀ i ∈ t.free, t.cells[i]? = some none

lemma isIndexed_empty : (empty : Handles α).IsIndexed := ⟨List.nodup_nil, by simp [empty]⟩

/-- A number belongs to one handle only. -/
lemma id_sub_one_ne (hne : g ≠ h) : g.id - 1 ≠ h.id - 1 := fun heq => by
  refine hne (Handle.ext_id ?_)
  have hg := g.id_pos
  have hh := h.id_pos
  omega

/-- A handle that is handed out was vacant. -/
lemma get?_of_insert (ht : t.IsIndexed) (hi : t.insert v = some (h, t')) : t.get? h = none := by
  unfold insert at hi
  split at hi <;> rw [Option.map_eq_some_iff] at hi <;> obtain ⟨g, hg, he⟩ := hi <;> cases he
  · next i rest hfree =>
    rw [get?, Handle.ofId?_eq_some.1 hg, Nat.add_sub_cancel,
      ht.vacant i (hfree ▸ List.mem_cons_self ..)]
    rfl
  · rw [get?, Handle.ofId?_eq_some.1 hg, Nat.add_sub_cancel,
      List.getElem?_eq_none (Nat.le_refl _)]
    rfl

lemma get?_insert (ht : t.IsIndexed) (hi : t.insert v = some (h, t')) (g : Handle) :
    t'.get? g = if g = h then some v else t.get? g := by
  have hid : ∀ {i : Nat}, h.id = i + 1 → (g ≠ h → i ≠ g.id - 1) ∧ h.id - 1 = i := by
    intro i hi
    refine ⟨fun hne heq => id_sub_one_ne hne ?_, ?_⟩ <;> omega
  unfold insert at hi
  split at hi <;> rw [Option.map_eq_some_iff] at hi <;> obtain ⟨h', hh, he⟩ := hi <;> cases he
  · next i rest hfree =>
    obtain ⟨hother, hsame⟩ := hid (Handle.ofId?_eq_some.1 hh)
    have hlt : i < t.cells.length :=
      (List.getElem?_eq_some_iff.1 (ht.vacant i (hfree ▸ List.mem_cons_self ..))).1
    split
    · next heq =>
      rw [get?, heq, hsame, List.getElem?_set_self hlt]
      rfl
    · next hne => rw [get?, get?, List.getElem?_set_ne (hother hne)]
  · obtain ⟨hother, hsame⟩ := hid (Handle.ofId?_eq_some.1 hh)
    split
    · next heq =>
      rw [get?, heq, hsame, List.getElem?_concat_length]
      rfl
    · next hne =>
      rw [get?, get?]
      rcases Nat.lt_or_ge (g.id - 1) t.cells.length with hlt | hge
      · rw [List.getElem?_append_left hlt]
      · have hne' := hother hne
        rw [List.getElem?_eq_none hge, List.getElem?_eq_none]
        rw [List.length_append, List.length_singleton]
        omega

lemma IsIndexed.insert (ht : t.IsIndexed) (hi : t.insert v = some (h, t')) : t'.IsIndexed := by
  unfold Handles.insert at hi
  split at hi <;> rw [Option.map_eq_some_iff] at hi <;> obtain ⟨h', hh, he⟩ := hi <;> cases he
  · next i rest hfree =>
    have hnodup := ht.nodup
    rw [hfree, List.nodup_cons] at hnodup
    refine ⟨hnodup.2, fun j hj => ?_⟩
    have hne : i ≠ j := fun heq => hnodup.1 (heq ▸ hj)
    dsimp only
    rw [List.getElem?_set_ne hne]
    exact ht.vacant j (hfree ▸ List.mem_cons_of_mem _ hj)
  · exact ⟨List.nodup_nil, by simp⟩

lemma get?_of_remove (hr : t.remove h = some (v, t')) : t.get? h = some v := by
  unfold remove at hr
  obtain ⟨w, hw, he⟩ := Option.map_eq_some_iff.1 hr
  cases he
  exact hw

lemma get?_remove (hr : t.remove h = some (v, t')) (g : Handle) :
    t'.get? g = if g = h then none else t.get? g := by
  have hlive := get?_of_remove hr
  unfold remove at hr
  obtain ⟨w, hw, he⟩ := Option.map_eq_some_iff.1 hr
  cases he
  split
  · next heq =>
    rw [get?, heq]
    by_cases hlt : h.id - 1 < t.cells.length
    · rw [List.getElem?_set_self hlt]
      rfl
    · rw [List.getElem?_eq_none (by simpa using hlt)]
      rfl
  · next hne => rw [get?, get?, List.getElem?_set_ne (id_sub_one_ne hne).symm]

lemma IsIndexed.remove (ht : t.IsIndexed) (hr : t.remove h = some (v, t')) : t'.IsIndexed := by
  have hlive := get?_of_remove hr
  unfold Handles.remove at hr
  obtain ⟨w, hw, he⟩ := Option.map_eq_some_iff.1 hr
  cases he
  have hlt : h.id - 1 < t.cells.length := by
    by_contra hge
    rw [get?, List.getElem?_eq_none (Nat.not_lt.1 hge)] at hlive
    cases hlive
  refine ⟨List.nodup_cons.2 ⟨fun hm => ?_, ht.nodup⟩, fun i hi => ?_⟩
  · rw [get?, ht.vacant _ hm] at hlive
    cases hlive
  · dsimp only
    by_cases heq : h.id - 1 = i
    · rw [← heq, List.getElem?_set_self hlt]
    · rw [List.getElem?_set_ne heq]
      exact ht.vacant i ((List.mem_cons.1 hi).resolve_left fun h => heq h.symm)

/-! ### Entering several values -/

/-- Enters values one after the other; none when the numbers run out on the way. -/
def enterAll (t : Handles α) : List α → Option (Handles α)
  | [] => some t
  | v :: vs => (t.insert v).bind fun entered => entered.2.enterAll vs

lemma enterAll_append {vs ws : List α} :
    t.enterAll (vs ++ ws) = (t.enterAll vs).bind (·.enterAll ws) := by
  induction vs generalizing t with
  | nil => rfl
  | cons v vs ih =>
    rw [List.cons_append, enterAll, enterAll, Option.bind_assoc]
    exact congrArg _ (funext fun entered => ih)

/-- What a table holds it goes on to hold when a value is entered. -/
lemma values_subset_insert (ht : t.IsIndexed) (hi : t.insert v = some (h, t')) :
    t.values ⊆ t'.values := by
  intro w hw
  rw [mem_values] at hw ⊢
  unfold Handles.insert at hi
  split at hi <;> rw [Option.map_eq_some_iff] at hi <;> obtain ⟨h', -, he⟩ := hi <;> cases he
  · next i rest hfree =>
    obtain ⟨j, hj⟩ := List.getElem?_of_mem hw
    have hvacant := ht.vacant i (hfree ▸ List.mem_cons_self ..)
    have hne : i ≠ j := by
      rintro rfl
      rw [hj] at hvacant
      cases hvacant
    exact List.mem_of_getElem? ((List.getElem?_set_ne hne).trans hj)
  · exact List.mem_append_left _ hw

/-- A table has got more values, and nothing has gone from it. -/
structure Grows (t t' : Handles α) : Prop where
  indexed : t'.IsIndexed
  get? : ∀ g v, t.get? g = some v → t'.get? g = some v
  values : t.values ⊆ t'.values

lemma grows_enterAll {vs : List α} (ht : t.IsIndexed) (h : t.enterAll vs = some t') :
    t.Grows t' := by
  induction vs generalizing t with
  | nil =>
    cases h
    exact ⟨ht, fun _ _ => id, List.Subset.refl _⟩
  | cons v vs ih =>
    obtain ⟨⟨g, t₁⟩, hi, hrest⟩ := Option.bind_eq_some_iff.1 h
    have hmore := ih (ht.insert hi) hrest
    refine ⟨hmore.indexed, fun k w hk => hmore.get? k w ?_,
      List.Subset.trans (values_subset_insert ht hi) hmore.values⟩
    rw [get?_insert ht hi, if_neg]
    · exact hk
    · rintro rfl
      rw [get?_of_insert ht hi] at hk
      cases hk

end Table.Handles

end ScriptBridge
