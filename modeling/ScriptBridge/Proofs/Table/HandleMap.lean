/-
# The handle table answers as a map would

A map from handles to values, together with the handles given up since it was last emptied and
the highest number handed out since then, says which answer every call on a handle table gets,
the handle of an entered value included.  The table keeps exactly its vacant cells in the free
list, each once and the one freed last first, so the list is the map's memory of what was
given up, without the handles that are live again.
-/
import Mathlib.Data.List.Find
import Mathlib.Data.Set.Card
import ScriptBridge.Proofs.Table.Arena
import ScriptBridge.Proofs.Table.Handles

namespace ScriptBridge.Table.Handles

open ScriptBridge.Wire (Handle)

variable {α : Type}

/-! ### Calls and answers -/

/-- A call on a handle table. -/
inductive Call (α : Type) where
  | insert (value : α)
  | get (handle : Handle)
  | remove (handle : Handle)
  | drain

/-- What a call gives back. -/
inductive Answer (α : Type) where
  /-- The handle of an entered value, unless the numbers have run out. -/
  | handle (handle : Option Handle)
  | value (value : Option α)
  | values (values : List α)

/-- The answer to a call, and the table after it. -/
def serve (t : Handles α) : Call α → Answer α × Handles α
  | .insert value =>
    match t.insert value with
    | some (handle, t) => (.handle (some handle), t)
    | none => (.handle none, t)
  | .get handle => (.value (t.get? handle), t)
  | .remove handle =>
    match t.remove handle with
    | some (value, t) => (.value (some value), t)
    | none => (.value none, t)
  | .drain => (.values t.drain.1, t.drain.2)

/-- The answers to calls made one after the other, and the table after them. -/
def serveAll (t : Handles α) : List (Call α) → List (Answer α) × Handles α
  | [] => ([], t)
  | call :: calls =>
    let (answer, t) := t.serve call
    let (answers, t) := t.serveAll calls
    (answer :: answers, t)

/-- A table after calls, the first of which was made when it was empty. -/
def after (calls : List (Call α)) : Handles α := ((empty : Handles α).serveAll calls).2

lemma serveAll_concat (t : Handles α) (calls : List (Call α)) (call : Call α) :
    t.serveAll (calls ++ [call]) =
      ((t.serveAll calls).1 ++ [((t.serveAll calls).2.serve call).1],
        ((t.serveAll calls).2.serve call).2) := by
  induction calls generalizing t with
  | nil => rfl
  | cons c calls ih => simp only [List.cons_append, serveAll, ih]

lemma after_concat (calls : List (Call α)) (call : Call α) :
    after (calls ++ [call]) = ((after calls).serve call).2 := by
  rw [after, serveAll_concat]
  rfl

/-! ### Maps -/

/-- A map from handles to values, and what decides which handle it hands out next. -/
structure LiveMap (α : Type) where
  entry : Handle → Option α
  /-- The handles given up since the map was last emptied, the last one first. -/
  removed : List Handle
  /-- The highest number handed out since the map was last emptied. -/
  highest : Nat

namespace LiveMap

/-- The map without values. -/
def empty : LiveMap α := ⟨fun _ => none, [], 0⟩

/-- The handle to be handed out next: the one given up last of those that are not live again,
and without one the handle after the highest. -/
def next? (m : LiveMap α) : Option Handle :=
  match m.removed.find? fun h => (m.entry h).isNone with
  | some h => some h
  | none => Handle.ofId? (m.highest + 1)

/-- The map with a value at a handle that is handed out for it. -/
def enter (m : LiveMap α) (h : Handle) (v : α) : LiveMap α where
  entry g := if g = h then some v else m.entry g
  removed := m.removed
  highest := max m.highest h.id

/-- The map without the value of a live handle; a handle that is not live changes nothing. -/
def clear (m : LiveMap α) (h : Handle) : LiveMap α :=
  if (m.entry h).isSome then
    { m with
      entry := fun g => if g = h then none else m.entry g
      removed := h :: m.removed }
  else m

/-- The live handles of a map, the lowest first. -/
structure Lists (m : LiveMap α) (handles : List Handle) : Prop where
  increasing : handles.Pairwise fun g h => g.id < h.id
  mem_iff : ∀ h, h ∈ handles ↔ (m.entry h).isSome

/-- Which answer a call may get, and the map after it. -/
inductive Answers : LiveMap α → Call α → Answer α → LiveMap α → Prop where
  | inserted {m : LiveMap α} {h : Handle} (v : α) (hdead : m.entry h = none)
    (hnext : m.next? = some h) : Answers m (.insert v) (.handle (some h)) (m.enter h v)
  | full {m : LiveMap α} (v : α) (hnext : m.next? = none) :
    Answers m (.insert v) (.handle none) m
  | get (m : LiveMap α) (h : Handle) : Answers m (.get h) (.value (m.entry h)) m
  | remove (m : LiveMap α) (h : Handle) :
    Answers m (.remove h) (.value (m.entry h)) (m.clear h)
  | drain {m : LiveMap α} {handles : List Handle} (h : m.Lists handles) :
    Answers m .drain (.values (handles.filterMap m.entry)) .empty

/-- Which answers calls may get that are made one after the other. -/
inductive AnswersAll :
    LiveMap α → List (Call α) → List (Answer α) → LiveMap α → Prop where
  | nil (m : LiveMap α) : AnswersAll m [] [] m
  | cons {m m₁ m₂ : LiveMap α} {call : Call α} {answer : Answer α} {calls : List (Call α)}
    {answers : List (Answer α)} (h : Answers m call answer m₁)
    (hs : AnswersAll m₁ calls answers m₂) :
    AnswersAll m (call :: calls) (answer :: answers) m₂

end LiveMap

/-! ### Live handles -/

variable {t t' : Handles α} {h : Handle} {v : α} {m : LiveMap α}

/-- A table whose cells all have a number that a handle can have, whose vacant cells are all in
the free list, and which has counted its values. -/
structure IsExact (t : Handles α) : Prop extends t.IsIndexed where
  listed : ∀ i, t.cells[i]? = some none → i ∈ t.free
  length_lt : t.cells.length < 0x100000000
  live_eq : t.live = t.values.length

/-- The cells of a table as those of an arena, whose indices are one less than the numbers of
the handles. -/
def asArena (t : Handles α) : Arena α :=
  ⟨.reuse, 0, t.cells, t.free, t.size, t.cells.length⟩

/-- The live handles of a table, the lowest first. -/
def handles (t : Handles α) : List Handle := t.asArena.toList.filterMap fun e =>
    Handle.ofId? (e.1 + 1)

lemma entryAt?_asArena (t : Handles α) (i : Nat) : t.asArena.entryAt? i = (t.cells[i]?).join := by
  simp [Arena.entryAt?, asArena]

lemma get?_eq_of_id {i : Nat} (hid : h.id = i + 1) : t.get? h = (t.cells[i]?).join := by
  rw [get?, hid, Nat.add_sub_cancel]

lemma lt_length_of_get? (hg : t.get? h = some v) : h.id - 1 < t.cells.length := by
  by_contra hge
  rw [get?, List.getElem?_eq_none (Nat.not_lt.1 hge)] at hg
  cases hg

lemma mem_handles : h ∈ t.handles ↔ (t.get? h).isSome := by
  simp only [handles, List.mem_filterMap, Prod.exists, Handle.ofId?_eq_some, Arena.mem_toList,
    entryAt?_asArena, Option.isSome_iff_exists]
  constructor
  · rintro ⟨i, v, hv, hid⟩
    exact ⟨v, (get?_eq_of_id hid).trans hv⟩
  · rintro ⟨v, hv⟩
    exact ⟨h.id - 1, v, hv, (Nat.sub_add_cancel h.id_pos).symm⟩

lemma pairwise_handles (t : Handles α) : t.handles.Pairwise fun g h => g.id < h.id := by
  refine List.Pairwise.filterMap _ ?_ (Arena.pairwise_toList t.asArena)
  intro d e hlt g hg h hh
  rw [Handle.ofId?_eq_some.1 hg, Handle.ofId?_eq_some.1 hh]
  exact Nat.succ_lt_succ hlt

lemma nodup_handles (t : Handles α) : t.handles.Nodup :=
  (pairwise_handles t).imp fun {g h} hlt (he : g = h) => Nat.lt_irrefl _ (he ▸ hlt)

/-- The values are those of the live handles, in the same order. -/
theorem filterMap_get?_handles (ht : t.IsExact) : t.handles.filterMap t.get? = t.values := by
  have hvalues : t.asArena.toList.map Prod.snd = t.values := Arena.map_snd_toList t.asArena
  rw [handles, List.filterMap_filterMap, ← hvalues, ← List.filterMap_eq_map]
  refine List.filterMap_congr fun e he => ?_
  have hentry := Arena.mem_toList.1 he
  rw [entryAt?_asArena] at hentry
  have hlt : e.1 < t.cells.length := by
    by_contra hge
    rw [List.getElem?_eq_none (Nat.not_lt.1 hge)] at hentry
    cases hentry
  have hbound := ht.length_lt
  have hid : Handle.ofId? (e.1 + 1) = some ⟨e.1 + 1, by omega, by omega⟩ :=
    Handle.ofId?_eq_some.2 rfl
  rw [hid, Option.bind_some, get?_eq_of_id rfl, hentry]
  rfl

/-- Each live handle is counted once. -/
theorem ncard_eq_size (ht : t.IsExact) : {h | (t.get? h).isSome}.ncard = t.size := by
  classical
  have hset : {h | (t.get? h).isSome} = (t.handles.toFinset : Set Handle) := by
    ext h
    simp [mem_handles]
  have hlength : (t.handles.filterMap t.get?).length = t.handles.length := by
    rw [List.length_filterMap_eq_countP, List.countP_eq_length]
    exact fun h hh => mem_handles.1 hh
  rw [hset, Set.ncard_coe_finset, List.toFinset_card_of_nodup (nodup_handles t), ← hlength,
    filterMap_get?_handles ht]
  exact ht.live_eq.symm

/-! ### What each operation keeps -/

/-- A value goes into the cell that was vacated last, or, when none is vacant, into a cell of
its own behind the others. -/
lemma insert_cases (hi : t.insert v = some (h, t')) :
    (∃ rest, t.free = (h.id - 1) :: rest ∧
      t' = ⟨t.cells.set (h.id - 1) (some v), rest, t.live + 1⟩) ∨
    (t.free = [] ∧ h.id = t.cells.length + 1 ∧ t' = ⟨t.cells ++ [some v], [], t.live + 1⟩) := by
  unfold insert at hi
  split at hi <;> rw [Option.map_eq_some_iff] at hi <;> obtain ⟨g, hg, he⟩ := hi <;> cases he
  · next i rest hfree =>
    rw [Handle.ofId?_eq_some.1 hg, Nat.add_sub_cancel]
    exact .inl ⟨rest, hfree, rfl⟩
  · next hfree => exact .inr ⟨hfree, Handle.ofId?_eq_some.1 hg, rfl⟩

lemma remove_eq (hr : t.remove h = some (v, t')) :
    t' = ⟨t.cells.set (h.id - 1) none, (h.id - 1) :: t.free, t.live - 1⟩ := by
  obtain ⟨w, -, he⟩ := Option.map_eq_some_iff.1 hr
  cases he
  rfl

lemma isExact_empty : (empty : Handles α).IsExact :=
  ⟨isIndexed_empty, by simp [empty], Nat.zero_lt_succ _, rfl⟩

lemma IsExact.insert (ht : t.IsExact) (hi : t.insert v = some (h, t')) : t'.IsExact := by
  refine ⟨ht.toIsIndexed.insert hi, ?_, ?_, ?_⟩
  · obtain ⟨rest, hfree, rfl⟩ | ⟨hfree, -, rfl⟩ := insert_cases hi <;> intro j hj
    · have hlt : h.id - 1 < t.cells.length :=
        (List.getElem?_eq_some_iff.1 (ht.vacant _ (hfree ▸ List.mem_cons_self ..))).1
      have hne : h.id - 1 ≠ j := by
        rintro rfl
        rw [List.getElem?_set_self hlt] at hj
        cases hj
      rw [List.getElem?_set_ne hne] at hj
      have hmem := ht.listed j hj
      rw [hfree] at hmem
      exact (List.mem_cons.1 hmem).resolve_left hne.symm
    · rcases Nat.lt_or_ge j t.cells.length with hlt | hge
      · rw [List.getElem?_append_left hlt] at hj
        exact hfree ▸ ht.listed j hj
      · rw [List.getElem?_append_right hge] at hj
        exact absurd (List.mem_of_getElem? hj) (by simp)
  · have hbound := ht.length_lt
    have hid := h.id_lt
    obtain ⟨rest, -, rfl⟩ | ⟨-, hlast, rfl⟩ := insert_cases hi
    · simpa using hbound
    · simpa [← hlast] using hid
  · obtain ⟨rest, hfree, rfl⟩ | ⟨-, -, rfl⟩ := insert_cases hi
    · obtain ⟨hlt, hvacant⟩ :=
        List.getElem?_eq_some_iff.1 (ht.vacant _ (hfree ▸ List.mem_cons_self ..))
      have hcount := Arena.length_values_set hlt (some v)
      rw [List.getElem?_eq_getElem hlt, hvacant] at hcount
      simpa [values, ht.live_eq] using hcount.symm
    · simp [values, ht.live_eq]

lemma IsExact.remove (ht : t.IsExact) (hr : t.remove h = some (v, t')) : t'.IsExact := by
  have hcell : (t.cells[h.id - 1]?).join = some v := get?_of_remove hr
  refine ⟨ht.toIsIndexed.remove hr, ?_, ?_, ?_⟩
  · rw [remove_eq hr]
    intro j hj
    by_cases heq : h.id - 1 = j
    · exact heq ▸ List.mem_cons_self ..
    · rw [List.getElem?_set_ne heq] at hj
      exact List.mem_cons_of_mem _ (ht.listed j hj)
  · rw [remove_eq hr, List.length_set]
    exact ht.length_lt
  · have hcount := Arena.length_values_set (lt_length_of_get? (get?_of_remove hr)) none
    rw [hcell] at hcount
    simp only [Option.toList, List.length_singleton, List.length_nil] at hcount
    rw [remove_eq hr, values, ht.live_eq, values]
    dsimp only
    omega

/-! ### One call -/

/-- A table that holds the values of a map and remembers the handles given up: among its vacant
cells, what is found first in the free list is found first among those handles. -/
structure Mirrors (t : Handles α) (m : LiveMap α) : Prop where
  exact : t.IsExact
  entry_eq : ∀ h, m.entry h = t.get? h
  highest_eq : m.highest = t.cells.length
  removed_le : ∀ h ∈ m.removed, h.id ≤ t.cells.length
  recalls : ∀ p : Nat → Bool, (∀ i, p i = true → i ∈ t.free) →
    (m.removed.map fun h => h.id - 1).find? p = t.free.find? p

namespace Mirrors

lemma empty : Mirrors (empty : Handles α) .empty where
  exact := isExact_empty
  entry_eq h := by simp [LiveMap.empty, get?, Handles.empty]
  highest_eq := rfl
  removed_le h hh := absurd hh List.not_mem_nil
  recalls p hp := rfl

lemma lists (ht : Mirrors t m) : m.Lists t.handles where
  increasing := pairwise_handles t
  mem_iff h := by rw [mem_handles, ht.entry_eq]

/-- A handle given up is not live again just when its cell is in the free list. -/
lemma isNone_entry (ht : Mirrors t m) (hh : h ∈ m.removed) :
    (m.entry h).isNone = decide (h.id - 1 ∈ t.free) := by
  have hle := ht.removed_le h hh
  have hpos := h.id_pos
  have hlt : h.id - 1 < t.cells.length := by omega
  rw [ht.entry_eq, get?, List.getElem?_eq_getElem hlt, Option.join_some]
  cases hc : t.cells[h.id - 1] with
  | none =>
    have hmem := ht.exact.listed (h.id - 1) (by rw [List.getElem?_eq_getElem hlt, hc])
    simp [hmem]
  | some w =>
    have hnot : h.id - 1 ∉ t.free := fun hmem => by
      have hvacant := ht.exact.vacant _ hmem
      rw [List.getElem?_eq_getElem hlt, hc] at hvacant
      cases hvacant
    simp [hnot]

/-- The table hands out the handle that the map says is next. -/
lemma map_fst_insert (ht : Mirrors t m) (v : α) : (t.insert v).map Prod.fst = m.next? := by
  -- The free list recalls what has been removed last, without what is live again.
  have hfound : (m.removed.find? fun h => (m.entry h).isNone).map (fun h => h.id - 1) =
      t.free.head? := by
    calc (m.removed.find? fun h => (m.entry h).isNone).map (fun h => h.id - 1)
        = (m.removed.find? fun h => decide (h.id - 1 ∈ t.free)).map (fun h => h.id - 1) := by
          rw [List.find?_congr fun h hh => ht.isNone_entry hh]
      _ = (m.removed.map fun h => h.id - 1).find? fun i => decide (i ∈ t.free) := by
          rw [List.find?_map]
          rfl
      _ = t.free.find? fun i => decide (i ∈ t.free) :=
          ht.recalls _ fun i hi => by simpa using hi
      _ = t.free.head? := by
          cases t.free with
          | nil => rfl
          | cons i rest => simp
  unfold insert LiveMap.next?
  cases hfree : t.free with
  | nil =>
    rw [hfree, List.head?_nil, Option.map_eq_none_iff] at hfound
    rw [hfound, ht.highest_eq]
    dsimp only
    rw [Option.map_map, Function.comp_def, Option.map_id']
  | cons i rest =>
    rw [hfree, List.head?_cons, Option.map_eq_some_iff] at hfound
    obtain ⟨h, hh, hid⟩ := hfound
    have hof : Handle.ofId? (i + 1) = some h :=
      Handle.ofId?_eq_some.2 (by have := h.id_pos; omega)
    rw [hh]
    dsimp only
    rw [hof]
    rfl

lemma enter (ht : Mirrors t m) (hi : t.insert v = some (h, t')) : Mirrors t' (m.enter h v) where
  exact := ht.exact.insert hi
  entry_eq g := by
    rw [get?_insert ht.exact.toIsIndexed hi, ← ht.entry_eq]
    rfl
  highest_eq := by
    rw [LiveMap.enter, ht.highest_eq]
    obtain ⟨rest, hfree, rfl⟩ | ⟨-, hid, rfl⟩ := insert_cases hi
    · have hlt := (List.getElem?_eq_some_iff.1
        (ht.exact.vacant _ (hfree ▸ List.mem_cons_self ..))).1
      rw [List.length_set, Nat.max_eq_left (by omega)]
    · rw [List.length_append, hid]
      exact Nat.max_eq_right (Nat.le_succ _)
  removed_le g hg := by
    have hle := ht.removed_le g hg
    obtain ⟨rest, -, rfl⟩ | ⟨-, -, rfl⟩ := insert_cases hi
    · rwa [List.length_set]
    · rw [List.length_append]
      exact Nat.le_add_right_of_le hle
  recalls p hp := by
    have hnodup := ht.exact.nodup
    obtain ⟨rest, hfree, rfl⟩ | ⟨hfree, -, rfl⟩ := insert_cases hi
    · rw [hfree, List.nodup_cons] at hnodup
      have hnot : p (h.id - 1) = false := Bool.eq_false_iff.2 fun hpi => hnodup.1 (hp _ hpi)
      calc (m.removed.map fun h => h.id - 1).find? p = t.free.find? p :=
            ht.recalls p fun i hpi => hfree ▸ List.mem_cons_of_mem _ (hp i hpi)
        _ = rest.find? p := by rw [hfree, List.find?_cons, hnot]
    · rw [← hfree]
      exact ht.recalls p fun i hpi => hfree ▸ hp i hpi

lemma clear (ht : Mirrors t m) (hr : t.remove h = some (v, t')) : Mirrors t' (m.clear h) := by
  have hlive : t.get? h = some v := get?_of_remove hr
  have hclear : m.clear h =
      { m with
        entry := fun g => if g = h then none else m.entry g
        removed := h :: m.removed } := by
    rw [LiveMap.clear, ht.entry_eq, hlive]
    rfl
  rw [hclear]
  refine ⟨ht.exact.remove hr, fun g => ?_, ?_, fun g hg => ?_, fun p hp => ?_⟩
  · rw [get?_remove hr, ← ht.entry_eq]
  · rw [remove_eq hr, List.length_set]
    exact ht.highest_eq
  · rw [remove_eq hr, List.length_set]
    obtain rfl | hg := List.mem_cons.1 hg
    · have hlt := lt_length_of_get? hlive
      omega
    · exact ht.removed_le g hg
  · rw [remove_eq hr] at hp ⊢
    rw [List.map_cons, List.find?_cons, List.find?_cons]
    cases hph : p (h.id - 1) with
    | true => rfl
    | false =>
      refine ht.recalls p fun i hpi => (List.mem_cons.1 (hp i hpi)).resolve_left ?_
      rintro rfl
      rw [hph] at hpi
      cases hpi

/-- Whatever one call asks of a table, it answers as the map it mirrors may, and mirrors the
map after that. -/
theorem serve (ht : Mirrors t m) (call : Call α) :
    ∃ m', LiveMap.Answers m call (t.serve call).1 m' ∧ Mirrors (t.serve call).2 m' := by
  cases call with
  | insert v =>
    have hnext := ht.map_fst_insert v
    cases hi : t.insert v with
    | none =>
      rw [hi] at hnext
      simp only [Handles.serve, hi]
      exact ⟨m, .full v hnext.symm, ht⟩
    | some r =>
      rw [hi] at hnext
      simp only [Handles.serve, hi]
      have hdead := get?_of_insert ht.exact.toIsIndexed hi
      exact ⟨_, .inserted v ((ht.entry_eq _).trans hdead) hnext.symm, ht.enter hi⟩
  | get h =>
    rw [Handles.serve, ← ht.entry_eq]
    exact ⟨m, .get m h, ht⟩
  | remove h =>
    have hanswer := LiveMap.Answers.remove m h
    cases hr : t.remove h with
    | none =>
      have hdead : m.entry h = none := (ht.entry_eq h).trans (Option.map_eq_none_iff.1 hr)
      simp only [Handles.serve, hr]
      rw [LiveMap.clear, hdead] at hanswer
      exact ⟨m, hanswer, ht⟩
    | some r =>
      simp only [Handles.serve, hr]
      rw [ht.entry_eq, get?_of_remove hr] at hanswer
      exact ⟨_, hanswer, ht.clear hr⟩
  | drain =>
    have hanswer := LiveMap.Answers.drain ht.lists
    rw [funext ht.entry_eq, filterMap_get?_handles ht.exact] at hanswer
    exact ⟨_, hanswer, empty⟩

/-! ### All calls -/

theorem serveAll (ht : Mirrors t m) (calls : List (Call α)) :
    ∃ m', LiveMap.AnswersAll m calls (t.serveAll calls).1 m' ∧
      Mirrors (t.serveAll calls).2 m' := by
  induction calls generalizing t m with
  | nil => exact ⟨m, .nil m, ht⟩
  | cons call calls ih =>
    obtain ⟨m₁, hanswer, h₁⟩ := ht.serve call
    obtain ⟨m₂, hanswers, h₂⟩ := ih h₁
    exact ⟨m₂, .cons hanswer hanswers, h₂⟩

end Mirrors

lemma isExact_after (calls : List (Call α)) : (after calls).IsExact := by
  obtain ⟨m, -, h⟩ := Mirrors.empty.serveAll calls
  exact h.exact

/-! ### How high the numbers rise -/

/-- The handles given out by calls with these answers. -/
def granted (answers : List (Answer α)) : List Handle :=
  answers.filterMap fun
    | .handle handle => handle
    | _ => none

/-- Without vacant cells there are as many live handles as cells. -/
lemma IsExact.size_eq (ht : t.IsExact) (hfree : t.free = []) : t.size = t.cells.length := by
  rw [size, ht.live_eq, values, List.length_filterMap_eq_countP, List.countP_eq_length]
  intro c hc
  obtain ⟨i, hi⟩ := List.getElem?_of_mem hc
  cases c with
  | some v => rfl
  | none =>
    have hmem := ht.listed i hi
    rw [hfree] at hmem
    exact absurd hmem List.not_mem_nil

/-- Only an entered value can add a cell, and then all cells are occupied. -/
lemma IsExact.length_serve (ht : t.IsExact) (call : Call α) :
    (t.serve call).2.cells.length ≤ t.cells.length ∨
      (t.serve call).2.cells.length = (t.serve call).2.size := by
  cases call with
  | insert v =>
    cases hi : t.insert v with
    | none => exact .inl (by simp only [serve, hi, Nat.le_refl])
    | some r =>
      simp only [serve, hi]
      obtain ⟨rest, -, hr⟩ | ⟨-, -, hr⟩ := insert_cases hi
      · exact .inl (by rw [hr, List.length_set])
      · exact .inr ((ht.insert hi).size_eq (by rw [hr])).symm
  | get h => exact .inl (Nat.le_refl _)
  | remove h =>
    cases hr : t.remove h with
    | none => exact .inl (by simp only [serve, hr, Nat.le_refl])
    | some r =>
      simp only [serve, hr]
      exact .inl (by rw [remove_eq hr, List.length_set])
  | drain => exact .inl (Nat.zero_le _)

/-- There never were more cells than handles live at once. -/
lemma exists_length_le_size (calls : List (Call α)) :
    ∃ earlier, earlier <+: calls ∧ (after calls).cells.length ≤ (after earlier).size := by
  induction calls using List.reverseRecOn with
  | nil => exact ⟨[], List.prefix_rfl, Nat.le_refl _⟩
  | append_singleton calls call ih =>
    obtain ⟨earlier, hearlier, hle⟩ := ih
    obtain hkept | hfull := (isExact_after calls).length_serve call <;>
      rw [← after_concat] at *
    · exact ⟨earlier, hearlier.trans (List.prefix_append ..), Nat.le_trans hkept hle⟩
    · exact ⟨calls ++ [call], List.prefix_rfl, Nat.le_of_eq hfull⟩

/-- A handle given out belongs to a cell of the table. -/
lemma id_le_length_of_serve (ht : t.IsExact) {call : Call α}
    (hh : h ∈ granted [(t.serve call).1]) : h.id ≤ (t.serve call).2.cells.length := by
  cases call with
  | insert v =>
    cases hi : t.insert v with
    | none => simp [granted, serve, hi] at hh
    | some r =>
      obtain rfl : h = r.1 := by simpa [granted, serve, hi] using hh
      simp only [serve, hi]
      obtain ⟨rest, hfree, hr⟩ | ⟨-, hid, hr⟩ := insert_cases hi
      · have hlt := (List.getElem?_eq_some_iff.1
          (ht.vacant _ (hfree ▸ List.mem_cons_self ..))).1
        rw [hr, List.length_set]
        omega
      · rw [hr, List.length_append, hid]
        exact Nat.le_refl _
  | get g => simp [granted, serve] at hh
  | remove g =>
    cases hr : t.remove g <;> simp [granted, serve, hr] at hh
  | drain => simp [granted, serve] at hh

/-- No number exceeds the largest number of handles that were live at once. -/
lemma exists_id_le_size (calls : List (Call α))
    (hh : h ∈ granted ((empty : Handles α).serveAll calls).1) :
    ∃ earlier, earlier <+: calls ∧ h.id ≤ (after earlier).size := by
  induction calls using List.reverseRecOn with
  | nil => exact absurd hh List.not_mem_nil
  | append_singleton calls call ih =>
    rw [serveAll_concat, granted, List.filterMap_append] at hh
    obtain hh | hh := List.mem_append.1 hh
    · obtain ⟨earlier, hearlier, hle⟩ := ih hh
      exact ⟨earlier, hearlier.trans (List.prefix_append ..), hle⟩
    · have hlast := id_le_length_of_serve (isExact_after calls) hh
      rw [← after_concat] at hlast
      obtain ⟨earlier, hearlier, hle⟩ := exists_length_le_size (calls ++ [call])
      exact ⟨earlier, hearlier, Nat.le_trans hlast hle⟩

/-- A handle table answers all calls made of it as a map would: a value is entered at a handle
that is not live, namely the one given up last of those not live again since the last drain, or
else the one after the highest since then; a value is found at its handle until it is removed
or drained and given back then, and no call changes anything at another handle.  After any
calls the table holds just the values of the map, its size is the number of live handles, and no
handle that was given out has a number beyond the largest size so far. -/
theorem serveAll_answers_as_map (calls : List (Call α)) :
    ∃ m, LiveMap.AnswersAll .empty calls ((empty : Handles α).serveAll calls).1 m ∧
      (∀ h, (after calls).get? h = m.entry h) ∧
      {h | (m.entry h).isSome}.ncard = (after calls).size ∧
      ∀ h ∈ granted ((empty : Handles α).serveAll calls).1,
        h.id ≠ 0 ∧ ∃ earlier, earlier <+: calls ∧ h.id ≤ (after earlier).size := by
  obtain ⟨m, hanswers, hm⟩ := Mirrors.empty.serveAll calls
  refine ⟨m, hanswers, fun h => (hm.entry_eq h).symm, ?_,
    fun h hh => ⟨Nat.ne_of_gt h.id_pos, exists_id_le_size calls hh⟩⟩
  simp only [hm.entry_eq]
  exact ncard_eq_size hm.exact

end ScriptBridge.Table.Handles
