/-
# What can be reached

A place can be reached from some others when it is one of them, or when an object that can
be reached refers to it.  The search of the heap finds such places only, and it finds all
of those that hold an object: each round that does not end it sees another object, or else
the next round ends it.
-/
import ScriptBridge.Proofs.Script.Heap

namespace ScriptBridge.Script.Heap

/-- A place can be reached from some others. -/
inductive Reaches (h : Heap) (roots : List Ref) : Ref → Prop
  | root {r : Ref} (hr : r ∈ roots) : Reaches h roots r
  | step {r l : Ref} {o : Object} (hr : Reaches h roots r) (hg : h.get? r = some o)
    (hl : l ∈ o.refs) : Reaches h roots l

variable {h : Heap} {roots seen : List Ref} {r l : Ref} {o : Object}

/-- The places that the objects at some places refer to. -/
def refsOf (h : Heap) (seen : List Ref) : List Ref :=
  h.objects.flatMap fun (r, o) => if seen.contains r then o.refs else []

lemma mem_refsOf : l ∈ h.refsOf seen ↔ ∃ r o, (r, o) ∈ h.objects ∧ r ∈ seen ∧ l ∈ o.refs := by
  simp only [refsOf, List.mem_flatMap, Prod.exists]
  refine exists_congr fun r => exists_congr fun o => and_congr_right fun _ => ?_
  by_cases hr : r ∈ seen <;> simp [hr]

/-! ### One round -/

/-- Adding places one by one. -/
lemma mem_foldl_add (more seen : List Ref) :
    l ∈ more.foldl (fun seen r => if seen.contains r then seen else r :: seen) seen ↔
      l ∈ seen ∨ l ∈ more := by
  induction more generalizing seen with
  | nil => simp
  | cons r more ih =>
    rw [List.foldl_cons, ih]
    by_cases hr : r ∈ seen
    · simp only [List.contains_eq_mem, hr, decide_true, if_true, List.mem_cons]
      constructor
      · rintro (h | h)
        · exact .inl h
        · exact .inr (.inr h)
      · rintro (h | rfl | h)
        · exact .inl h
        · exact .inl hr
        · exact .inr h
    · simp only [List.contains_eq_mem, hr, decide_false, Bool.false_eq_true, if_false,
        List.mem_cons]
      exact ⟨fun h => h.elim (fun h => h.elim (fun h => .inr (.inl h)) .inl) fun h => .inr (.inr h),
        fun h => h.elim (fun h => .inl (.inr h)) fun h => h.elim (fun h => .inl (.inl h)) .inr⟩

lemma length_foldl_add (more seen : List Ref) :
    seen.length ≤ (more.foldl (fun seen r => if seen.contains r then seen else r :: seen)
      seen).length := by
  induction more generalizing seen with
  | nil => exact Nat.le_refl _
  | cons r more ih =>
    rw [List.foldl_cons]
    refine Nat.le_trans ?_ (ih _)
    split
    · exact Nat.le_refl _
    · exact Nat.le_succ _

/-- Where no place is added, all of them were there. -/
lemma subset_of_length_foldl_add {more seen : List Ref}
    (he : (more.foldl (fun seen r => if seen.contains r then seen else r :: seen) seen).length =
      seen.length) : ∀ l ∈ more, l ∈ seen := by
  induction more generalizing seen with
  | nil => simp
  | cons r more ih =>
    rw [List.foldl_cons] at he
    by_cases hr : r ∈ seen
    · rw [if_pos (by simpa using hr)] at he
      exact List.forall_mem_cons.2 ⟨hr, ih he⟩
    · rw [if_neg (by simpa using hr)] at he
      have hle := length_foldl_add more (r :: seen)
      rw [he, List.length_cons] at hle
      omega

lemma mem_spread : l ∈ h.spread seen ↔ l ∈ seen ∨ l ∈ h.refsOf seen := mem_foldl_add _ _

/-! ### All rounds -/

lemma subset_reach (rounds : Nat) (hr : r ∈ seen) : r ∈ h.reach rounds seen := by
  induction rounds generalizing seen with
  | zero => exact hr
  | succ rounds ih =>
    unfold reach
    dsimp only
    split
    · exact hr
    · exact ih (mem_spread.2 (.inl hr))

/-- **A search finds only what can be reached.** -/
theorem reaches_of_mem_reach (hs : h.Sound) (rounds : Nat) (hseen : ∀ r ∈ seen, h.Reaches roots r)
    (hr : r ∈ h.reach rounds seen) : h.Reaches roots r := by
  induction rounds generalizing seen with
  | zero => exact hseen r hr
  | succ rounds ih =>
    unfold reach at hr
    dsimp only at hr
    split at hr
    · exact hseen r hr
    · refine ih (fun l hl => ?_) hr
      rcases mem_spread.1 hl with hl | hl
      · exact hseen l hl
      · obtain ⟨s, o, hm, hs', hl⟩ := mem_refsOf.1 hl
        exact .step (hseen s hs') (hs.get?_of_mem hm) hl

/-- Some places hold with an object all objects that it refers to. -/
def Closed (h : Heap) (seen : List Ref) : Prop :=
  ∀ r o l, h.get? r = some o → r ∈ seen → l ∈ o.refs → (h.get? l).isSome → l ∈ seen

/-- The objects that have not been seen. -/
def unseen (h : Heap) (seen : List Ref) : Nat :=
  h.objects.countP fun x => !seen.contains x.1

lemma unseen_le (hsub : ∀ r ∈ seen, r ∈ roots) : h.unseen roots ≤ h.unseen seen := by
  refine List.countP_mono_left fun x _ hx => ?_
  simp only [Bool.not_eq_true', List.contains_eq_mem, decide_eq_false_iff_not] at hx ⊢
  exact fun hm => hx (hsub _ hm)

/-- Where as many objects are unseen as before, the same ones are. -/
lemma mem_of_unseen_eq (hsub : ∀ r ∈ seen, r ∈ roots) (he : h.unseen roots = h.unseen seen)
    (hm : (r, o) ∈ h.objects) (hr : r ∈ roots) : r ∈ seen := by
  by_contra hns
  have key : ∀ objects : List (Ref × Object), (r, o) ∈ objects →
      objects.countP (fun x => !roots.contains x.1) <
        objects.countP (fun x => !seen.contains x.1) := by
    intro objects
    induction objects with
    | nil => intro hm; cases hm
    | cons x objects ih =>
      intro hm
      have hmono : objects.countP (fun x => !roots.contains x.1) ≤
          objects.countP (fun x => !seen.contains x.1) := by
        refine List.countP_mono_left fun y _ hy => ?_
        simp only [Bool.not_eq_true', List.contains_eq_mem, decide_eq_false_iff_not] at hy ⊢
        exact fun hm => hy (hsub _ hm)
      rw [List.countP_cons, List.countP_cons]
      rcases List.mem_cons.1 hm with heq | hm
      · subst heq
        rw [if_neg (by simpa using hr), if_pos (by simpa using hns)]
        omega
      · have hlt := ih hm
        have hx : (if !roots.contains x.1 then 1 else 0) ≤
            (if !seen.contains x.1 then 1 else 0) := by
          by_cases hxs : x.1 ∈ seen
          · simp [hxs, hsub _ hxs]
          · simp only [List.contains_eq_mem, hxs, decide_false, Bool.not_false, if_true]
            split <;> omega
        omega
  exact absurd he (Nat.ne_of_lt (key _ hm))

lemma closed_of_spread (hspread : ∀ l ∈ h.refsOf seen, l ∈ seen) : h.Closed seen :=
  fun r o l hg hr hl _ => hspread l (mem_refsOf.2 ⟨r, o, mem_of_get? hg, hr, hl⟩)

/-- Places whose objects refer to no other place are found to be all. -/
lemma mem_reach_of_closed (hspread : ∀ l ∈ h.refsOf seen, l ∈ seen) (rounds : Nat) :
    r ∈ h.reach rounds seen ↔ r ∈ seen := by
  have hiff : ∀ more : List Ref, (∀ r, r ∈ more ↔ r ∈ seen) →
    (r ∈ h.reach rounds more ↔ r ∈ seen) := by
    induction rounds with
    | zero => exact fun more hmore => hmore r
    | succ rounds ih =>
      intro more hmore
      unfold reach
      dsimp only
      split
      · exact hmore r
      · refine ih _ fun s => ?_
        rw [mem_spread, hmore]
        constructor
        · rintro (hs | hs)
          · exact hs
          · obtain ⟨t, o, hm, ht, hl⟩ := mem_refsOf.1 hs
            exact hspread s (mem_refsOf.2 ⟨t, o, hm, (hmore t).1 ht, hl⟩)
        · exact .inl
  exact hiff seen fun _ => Iff.rfl

lemma closed_reach (rounds : Nat) (hn : h.unseen seen ≤ rounds) :
    h.Closed (h.reach rounds seen) := by
  induction rounds generalizing seen with
  | zero =>
    intro r o l _ _ _ hl
    obtain ⟨p, hp⟩ := Option.isSome_iff_exists.1 hl
    have hnone := List.countP_eq_zero.1 (Nat.le_zero.1 hn) (l, p) (mem_of_get? hp)
    rw [reach]
    simpa using hnone
  | succ rounds ih =>
    unfold reach
    dsimp only
    split
    · next he => exact closed_of_spread (subset_of_length_foldl_add he)
    · have hsub : ∀ r ∈ seen, r ∈ h.spread seen := fun r hr => mem_spread.2 (.inl hr)
      by_cases hlt : h.unseen (h.spread seen) ≤ rounds
      · exact ih hlt
      · have he : h.unseen (h.spread seen) = h.unseen seen :=
          Nat.le_antisymm (unseen_le hsub) (by omega)
        -- No other object was seen, so what they refer to has all been added.
        have hall : ∀ l ∈ h.refsOf (h.spread seen), l ∈ h.spread seen := by
          intro l hl
          obtain ⟨r, o, hm, hr, hl⟩ := mem_refsOf.1 hl
          exact mem_spread.2 (.inr (mem_refsOf.2 ⟨r, o, hm, mem_of_unseen_eq hsub he hm hr, hl⟩))
        intro r o l hg hr hl hsome
        rw [mem_reach_of_closed hall] at hr ⊢
        exact closed_of_spread hall r o l hg hr hl hsome

/-- **A search finds every object that can be reached.** -/
theorem closed_reachable (h : Heap) (roots : List Ref) : h.Closed (h.reachable roots) :=
  closed_reach _ List.countP_le_length

end ScriptBridge.Script.Heap
