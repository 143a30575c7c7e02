/-
# Records that say what went wrong

An error that is no object crosses the wire as a text, and a text may be empty.  A record speaks if
none of the errors in it has an empty text, unless there is a reason for that.
-/
import ScriptBridge.Proofs.Wire.Leaves

namespace ScriptBridge.Wire.Record

variable {m : Prop} {r : Record} {rs : List Record} {v : View}

/-- No error in a record has an empty text, unless there is a reason. -/
def Speaks (m : Prop) (r : Record) : Prop :=
  ∀ leaf ∈ r.leaves, ∀ text, leaf.view = .ok (.unknownError (some text)) → text = "" → m

lemma Speaks.mono {m' : Prop} (h : m → m') (hr : r.Speaks m) : r.Speaks m' :=
  fun leaf hleaf text hview hempty => h (hr leaf hleaf text hview hempty)

@[simp] lemma speaks_array : (array rs).Speaks m ↔ ∀ r ∈ rs, r.Speaks m := by
  simp only [Speaks, leaves, mem_leavesOf]
  grind

lemma speaks_of_leaf (hr : ∀ items, r ≠ .array items)
    (h : ∀ text, r.view = .ok (.unknownError (some text)) → text = "" → m) : r.Speaks m := by
  rw [Speaks, leaves_of_ne hr]
  exact List.forall_mem_singleton.2 h

/-! ### Records that are built -/

lemma speaks_scalar {kind : Kind} {bits : UInt64} (h : (scalar kind bits).view = .ok v)
    (hv : ∀ text, v ≠ .unknownError (some text)) : (scalar kind bits).Speaks m :=
  speaks_of_leaf nofun fun text hview => absurd (Except.ok.inj (h.symm.trans hview)) (hv text)

lemma speaks_null : null.Speaks m := speaks_scalar view_null nofun

lemma speaks_boolean (b : Bool) : (boolean b).Speaks m := speaks_scalar (view_boolean b) nofun

lemma speaks_integer (n : Int32) : (integer n).Speaks m := speaks_scalar (view_integer n) nofun

lemma speaks_number (x : Number.Binary64) : (number x).Speaks m :=
  speaks_scalar (view_number x) nofun

lemma speaks_date (x : Number.Binary64) : (date x).Speaks m := speaks_scalar (view_date x) nofun

lemma speaks_managed (s : Slot) : (managed s).Speaks m := speaks_scalar (view_managed s) nofun

lemma speaks_managedError (s : Slot) : (managedError s).Speaks m :=
  speaks_scalar (view_managedError s) nofun

lemma speaks_foreign (h : Handle) : (foreign h).Speaks m := speaks_scalar (view_foreign h) nofun

lemma speaks_foreignError (h : Handle) : (foreignError h).Speaks m :=
  speaks_scalar (view_foreignError h) nofun

lemma speaks_string (s : String) : (string s).Speaks m := by
  refine speaks_of_leaf nofun fun text hview => ?_
  rw [view_string] at hview
  cases hview

/-- Cutting a text short leaves something of it. -/
lemma clip_eq_empty {s : String} (h : clip s = "") : s = "" := by
  unfold clip at h
  split at h
  · exact h
  · next hlong =>
    have hlist : clipChars maxLength s.toList = [] := by
      rw [← String.toList_ofList (l := clipChars maxLength s.toList), h]
      rfl
    cases hs : s.toList with
    | nil => rw [← String.ofList_toList (s := s), hs]
    | cons c rest =>
      have hroom : c.utf8Size ≤ maxLength := Nat.le_trans (Char.utf8Size_le_four c) (by decide)
      rw [hs, clipChars, if_pos hroom] at hlist
      cases hlist

lemma speaks_unknownError {text : String} (h : text = "" → m) :
    (unknownError (some text)).Speaks m := by
  refine speaks_of_leaf nofun fun said hview hempty => ?_
  rw [view_unknownError] at hview
  cases hview
  exact h (clip_eq_empty hempty)

lemma speaks_nulls (n : Nat) : (nulls n).Speaks m := by
  unfold nulls
  split
  · exact speaks_array.2 fun r hr => List.eq_of_mem_replicate hr ▸ speaks_null
  · exact speaks_unknownError nofun

end ScriptBridge.Wire.Record
