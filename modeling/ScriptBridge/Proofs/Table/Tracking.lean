/-
# Arenas that keep the same entries under other slots

An arena of any policy goes along with a monotonic one: whatever is entered in both or given
up in both leaves them with the same entries, each under a slot of its own.  Which slots an
arena hands out next, as long as none is given up, depends on its vacant cells only, so it
can be said before anything is entered.
-/
import Mathlib.Data.List.Nodup
import Mathlib.Data.List.Perm.Subperm
import ScriptBridge.Proofs.Table.FreeList

namespace ScriptBridge.Table.Arena

open ScriptBridge.Wire (Slot)

variable {α : Type} {a a' b b' : Arena α} {s t : Slot} {v : α} {f : Slot → Slot} {n : Nat}

/-! ### Upcoming slots -/

/-- An arena that only tells which cells are vacant. -/
def skeleton (a : Arena α) : Arena Unit :=
  ⟨a.policy, a.base, a.cells.map (Option.map fun _ => ()), a.free, a.used, a.peak⟩

/-- The slots that an arena hands out from now on, as long as none is given up. -/
def upcoming (a : Arena Unit) : Nat → Option Slot
  | 0 => (a.add ()).map Prod.fst
  | k + 1 => (a.add ()).bind fun p => upcoming p.2 k

lemma finish_skeleton (a : Arena α) : a.skeleton.finish = a.finish := by
  simp [finish, skeleton]

lemma entryAt?_skeleton (a : Arena α) (i : Nat) :
    a.skeleton.entryAt? i = (a.entryAt? i).map fun _ => () := by
  simp only [entryAt?, skeleton, List.getElem?_map]
  split
  · cases a.cells[i - a.base]? <;> rfl
  · rfl

lemma isVacant_skeleton (a : Arena α) (i : Nat) : a.skeleton.isVacant i = a.isVacant i := by
  rw [isVacant, isVacant, finish_skeleton, entryAt?_skeleton, Option.isNone_map]
  rfl

lemma popVacant_skeleton (a : Arena α) (free : List Nat) :
    a.skeleton.popVacant free = a.popVacant free := by
  induction free with
  | nil => rfl
  | cons i free ih => rw [popVacant, popVacant, isVacant_skeleton, ih]

lemma add_skeleton (a : Arena α) (v : α) :
    a.skeleton.add () = (a.add v).map fun p => (p.1, p.2.skeleton) := by
  unfold add
  rw [show a.skeleton.free = a.free from rfl, popVacant_skeleton, finish_skeleton]
  cases a.popVacant a.free with
  | some p =>
    dsimp only
    rw [Option.map_map]
    congr 1
    funext slot
    simp [skeleton, List.map_set]
  | none =>
    dsimp only
    rw [Option.map_map]
    congr 1
    funext slot
    simp [skeleton]

/-- What is handed out is the first of the upcoming slots, and the others are left. -/
lemma upcoming_of_add (h : a.add v = some (s, a')) :
    upcoming a.skeleton 0 = some s ∧ ∀ k, upcoming a.skeleton (k + 1) = upcoming a'.skeleton k := by
  have hadd := add_skeleton a v
  rw [h] at hadd
  exact ⟨by rw [upcoming, hadd]; rfl, fun k => by rw [upcoming, hadd]; rfl⟩

/-! ### Sizes -/

lemma finish_le_of_add (h : a.add v = some (s, a')) :
    a.finish ≤ a'.finish ∧ a'.finish ≤ a.finish + 1 := by
  obtain ⟨rest, -, rfl⟩ | ⟨-, -, rfl⟩ := add_cases h
  · simp [finish]
  · simp only [finish, List.length_append, List.length_singleton]
    omega

lemma used_add (h : a.add v = some (s, a')) : a'.used = a.used + 1 := by
  obtain ⟨rest, -, rfl⟩ | ⟨-, -, rfl⟩ := add_cases h <;> rfl

lemma used_take (h : a.take s = some (v, a')) : a'.used = a.used - 1 := by
  rw [vacate_eq_of_take h]
  unfold vacate
  cases a.policy <;> rfl

lemma finish_take_le (h : a.take s = some (v, a')) : a'.finish ≤ a.finish := by
  rw [vacate_eq_of_take h]
  exact finish_vacate_le a _

lemma finish_take (hp : a.policy = .monotonic) (h : a.take s = some (v, a')) :
    a'.finish = a.finish := by
  rw [vacate_eq_of_take h, finish_vacate hp]

lemma finish_drain_le (a : Arena α) : a.drain.2.finish ≤ a.finish := by
  cases hp : a.policy <;> simp [drain, hp, finish]

lemma lt_finish_of_get? (h : (a.get? s).isSome) : s.index < a.finish := by
  by_contra hle
  rw [get?, entryAt?_of_finish_le (Nat.le_of_not_lt hle)] at h
  cases h

@[simp] lemma get?_drain (a : Arena α) (s : Slot) : a.drain.2.get? s = none := by
  rw [get?, entryAt?, show a.drain.2.cells = [] from rfl, List.getElem?_nil, Option.join_none,
    ite_self]

/-- An arena that has cells left to grow by takes an entry. -/
lemma exists_add (h : a.finish < 0x80000000) (v : α) : ∃ s b, a.add v = some (s, b) := by
  unfold add
  split
  · next i rest hpop =>
    obtain ⟨-, hf, -⟩ := isVacant_iff.1 (isVacant_of_popVacant hpop)
    have hi : i < 0x80000000 := Nat.lt_trans hf h
    exact ⟨⟨i, hi⟩, _, by rw [Slot.ofIndex?, dif_pos hi]; rfl⟩
  · exact ⟨⟨a.finish, h⟩, _, by rw [Slot.ofIndex?, dif_pos h]; rfl⟩

/-! ### Arenas that go together -/

/-- An arena holds the entries of a monotonic one, under other slots. -/
structure Tracks (f : Slot → Slot) (a a' : Arena α) : Prop where
  regular : a.IsRegular
  regular' : a'.IsRegular
  orderly' : a'.IsOrderly
  monotonic : a'.policy = .monotonic
  finish_le : a.finish ≤ a'.finish
  used_eq : a.used = a'.used
  get? : ∀ s v, a'.get? s = some v → a.get? (f s) = some v
  injective : ∀ s t, (a'.get? s).isSome → (a'.get? t).isSome → f s = f t → s = t

/-- It is known which slots an arena hands out from now on, as long as none is given up, where
the monotonic one hands out the next ones, up to some index. -/
def Foresees (n : Nat) (f : Slot → Slot) (a a' : Arena α) : Prop :=
  ∀ k s, upcoming a.skeleton k = some s → ∀ t, t.index = a'.finish + k → t.index < n → f t = s

namespace Tracks

lemma empty (policy : SlotPolicy) (f : Slot → Slot) :
    Tracks f (Arena.empty policy : Arena α) (Arena.empty .monotonic) where
  regular := isRegular_empty _
  regular' := isRegular_empty _
  orderly' := isOrderly_empty _
  monotonic := rfl
  finish_le := Nat.le_refl _
  used_eq := rfl
  get? s v h := by
    rw [get?_empty] at h
    cases h
  injective s t h := by
    rw [get?_empty] at h
    cases h

/-- Only the slots that are occupied matter. -/
lemma congr {g : Slot → Slot} (h : Tracks f a a') (hg : ∀ s, (a'.get? s).isSome → g s = f s) :
    Tracks g a a' :=
  { h with
    get? := fun s v hv => by
      rw [hg s (by rw [hv]; rfl)]
      exact h.get? s v hv
    injective := fun s t hs ht heq => by
      rw [hg s hs, hg t ht] at heq
      exact h.injective s t hs ht heq }

/-- What is entered in both arenas is under slots that go together. -/
lemma add (h : Tracks f a a') (hf : Foresees n f a a') (ha : a'.add v = some (t, b'))
    (hn : b'.finish ≤ n) :
    ∃ b, a.add v = some (f t, b) ∧ Tracks f b b' ∧ Foresees n f b b' := by
  obtain ⟨hindex, hfinish⟩ := h.orderly'.finish_add h.monotonic ha
  have hroom : a.finish < 0x80000000 :=
    Nat.lt_of_le_of_lt h.finish_le (hindex ▸ t.index_lt)
  obtain ⟨s, b, hb⟩ := exists_add hroom v
  obtain ⟨hfirst, hothers⟩ := upcoming_of_add hb
  obtain rfl : f t = s := hf 0 s hfirst t (by rw [hindex, Nat.add_zero]) (by omega)
  have hfresh : a.get? (f t) = none := get?_of_add hb
  have hne : ∀ s, (a'.get? s).isSome → f s ≠ f t := fun s hs heq => by
    obtain ⟨w, hw⟩ := Option.isSome_iff_exists.1 hs
    have hold := h.get? s w hw
    rw [heq, hfresh] at hold
    cases hold
  have hold : ∀ s, s ≠ t → (b'.get? s).isSome → (a'.get? s).isSome := fun s hst hs => by
    rwa [get?_add ha, if_neg hst] at hs
  refine ⟨b, hb, ?_, fun k s hs u hu hun => hf (k + 1) s ((hothers k).trans hs) u (by omega) hun⟩
  exact {
    regular := h.regular.add hb
    regular' := h.regular'.add ha
    orderly' := h.orderly'.add ha
    monotonic := (policy_add ha).trans h.monotonic
    finish_le := by
      have := (finish_le_of_add hb).2
      have := h.finish_le
      omega
    used_eq := by rw [used_add hb, used_add ha, h.used_eq]
    get? := fun s w hw => by
      rw [get?_add ha] at hw
      rw [get?_add hb]
      split at hw
      · next heq => rw [heq, if_pos rfl, hw]
      · rw [if_neg (hne s (by rw [hw]; rfl))]
        exact h.get? s w hw
    injective := fun s u hs hu heq => by
      by_cases hst : s = t
      · by_cases hut : u = t
        · exact hst.trans hut.symm
        · exact absurd (heq.symm.trans (congrArg f hst)) (hne u (hold u hut hu))
      · by_cases hut : u = t
        · exact absurd (heq.trans (congrArg f hut)) (hne s (hold s hst hs))
        · exact h.injective s u (hold s hst hs) (hold u hut hu) heq }

/-- A slot that is given up in one arena can be given up in the other, with the same entry. -/
lemma take (h : Tracks f a a') (ha : a'.take t = some (v, b')) :
    ∃ b, a.take (f t) = some (v, b) ∧ Tracks f b b' := by
  have ht := get?_of_take ha
  obtain ⟨b, hb⟩ := take_of_get? (h.get? t v ht)
  have hne : ∀ s, s ≠ t → (a'.get? s).isSome → f s ≠ f t := fun s hst hs heq =>
    hst (h.injective s t hs (by rw [ht]; rfl) heq)
  have hold : ∀ s, (b'.get? s).isSome → s ≠ t ∧ (a'.get? s).isSome := fun s hs => by
    rw [get?_take ha] at hs
    split at hs
    · cases hs
    · next hst => exact ⟨hst, hs⟩
  refine ⟨b, hb, ?_⟩
  exact {
    regular := h.regular.take hb
    regular' := h.regular'.take ha
    orderly' := h.orderly'.take ha
    monotonic := (policy_take ha).trans h.monotonic
    finish_le := by
      rw [finish_take h.monotonic ha]
      exact Nat.le_trans (finish_take_le hb) h.finish_le
    used_eq := by rw [used_take hb, used_take ha, h.used_eq]
    get? := fun s w hw => by
      obtain ⟨hst, hs⟩ := hold s (by rw [hw]; rfl)
      rw [get?_take ha, if_neg hst] at hw
      rw [get?_take hb, if_neg (hne s hst hs)]
      exact h.get? s w hw
    injective := fun s u hs hu heq => h.injective s u (hold s hs).2 (hold u hu).2 heq }

/-- The slots of both arenas that are occupied go together. -/
lemma perm_occupied (h : Tracks f a a') : (a'.occupied.map f).Perm a.occupied := by
  have hnodup : (a'.occupied.map f).Nodup :=
    List.Nodup.map_on (fun s hs t ht => h.injective s t (mem_occupied.1 hs) (mem_occupied.1 ht))
      (nodup_occupied a')
  have hsub : a'.occupied.map f ⊆ a.occupied := fun s hs => by
    obtain ⟨t, ht, rfl⟩ := List.mem_map.1 hs
    obtain ⟨v, hv⟩ := Option.isSome_iff_exists.1 (mem_occupied.1 ht)
    exact mem_occupied.2 (by rw [h.get? t v hv]; rfl)
  refine (List.subperm_of_subset hnodup hsub).perm_of_length_le ?_
  rw [List.length_map, length_occupied h.regular, length_occupied h.regular']
  exact Nat.le_of_eq h.used_eq

/-- A slot that is occupied goes with one that is occupied in the monotonic arena. -/
lemma exists_of_get? (h : Tracks f a a') (hs : (a.get? s).isSome) :
    ∃ t, (a'.get? t).isSome ∧ f t = s := by
  obtain ⟨t, ht, heq⟩ := List.mem_map.1 (h.perm_occupied.symm.subset (mem_occupied.2 hs))
  exact ⟨t, mem_occupied.1 ht, heq⟩

/-- Both arenas hold the same entries, though not in the same order. -/
lemma perm_values (h : Tracks f a a') : a.values.Perm a'.values := by
  rw [← filterMap_get?_occupied h.regular, ← filterMap_get?_occupied h.regular']
  refine (h.perm_occupied.filterMap a.get?).symm.trans ?_
  rw [List.filterMap_map]
  refine .of_eq (List.filterMap_congr fun s hs => ?_)
  obtain ⟨v, hv⟩ := Option.isSome_iff_exists.1 (mem_occupied.1 hs)
  rw [Function.comp_apply, hv, h.get? s v hv]

/-- Where at most one entry is left, both arenas give up the same when they are drained. -/
lemma drain (h : Tracks f a a') (hused : a'.used ≤ 1) :
    a.drain.1 = a'.drain.1 ∧ Tracks f a.drain.2 a'.drain.2 := by
  refine ⟨?_, ?_⟩
  · have hperm := h.perm_values
    have hlength := h.regular'.used_eq
    change a.values = a'.values
    rcases hv : a'.values with _ | ⟨v, _ | ⟨w, rest⟩⟩
    · exact (hv ▸ hperm).eq_nil
    · exact (hv ▸ hperm).eq_singleton
    · rw [hv, List.length_cons, List.length_cons] at hlength
      omega
  · exact {
      regular := h.regular.drain
      regular' := h.regular'.drain
      orderly' := h.orderly'.drain
      monotonic := h.monotonic
      finish_le := by
        rw [finish_drain h.monotonic]
        exact Nat.le_trans (finish_drain_le a) h.finish_le
      used_eq := rfl
      get? := fun s v hv => by
        rw [get?_drain] at hv
        cases hv
      injective := fun s t hs => by
        rw [get?_drain] at hs
        cases hs }

end Tracks

/-! ### Foreseeing -/

/-- The slots of an arena that go with those of a monotonic one, those to come included. -/
def foresee (f : Slot → Slot) (a a' : Arena α) (t : Slot) : Slot :=
  if t.index < a'.finish then f t
  else (upcoming a.skeleton (t.index - a'.finish)).getD t

lemma foresee_of_lt (h : t.index < a'.finish) : foresee f a a' t = f t := if_pos h

lemma foresees_foresee {g : Slot → Slot}
    (hg : ∀ t : Slot, t.index < n → g t = foresee f a a' t) : Foresees n g a a' :=
  fun k s hs t ht hn => by
    rw [hg t hn, foresee, if_neg (by omega), show t.index - a'.finish = k by omega, hs]
    rfl

/-- Where the monotonic arena hands out no slot up to some index, there is nothing to foresee. -/
lemma foresees_of_le (h : n ≤ a'.finish) : Foresees n f a a' :=
  fun k s _ t ht hn => absurd (Nat.lt_of_lt_of_le hn h) (by omega)

end ScriptBridge.Table.Arena
