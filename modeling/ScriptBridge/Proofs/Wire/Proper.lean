/-
# Proper records

A record that comes from a peer may say anything.  A proper one can be read at every depth,
and where it names a script object it does so by a handle that is not empty.  All records
that are built are proper.
-/
import ScriptBridge.Proofs.Text.Utf8
import ScriptBridge.Proofs.Wire.Leaves

namespace ScriptBridge.Wire

/-- Whether a view is that of an empty handle. -/
def View.isVacant : View → Bool
  | .foreignRef none | .foreignError none => true
  | _ => false

namespace Record

variable {r : Record} {rs : List Record} {v : View}

mutual
/-- A record can be read at every depth and names no empty handle. -/
def IsProper : Record → Prop
  | .plain tag bits length =>
    ∃ v, (Record.plain tag bits length).view = .ok v ∧ v.isVacant = false
  | .text kind bytes => ∃ v, (Record.text kind bytes).view = .ok v ∧ v.isVacant = false
  | .array items => AreProper items

/-- Some records are proper. -/
def AreProper : List Record → Prop
  | [] => True
  | r :: rs => IsProper r ∧ AreProper rs
end

lemma areProper_iff : AreProper rs ↔ ∀ r ∈ rs, r.IsProper := by
  induction rs with
  | nil => simp [AreProper]
  | cons r rs ih => rw [AreProper, ih, List.forall_mem_cons]

@[simp] lemma isProper_array : (array rs).IsProper ↔ ∀ r ∈ rs, r.IsProper := areProper_iff

lemma isProper_of_view (hr : ∀ items, r ≠ .array items) (h : r.view = .ok v)
    (hv : v.isVacant = false) : r.IsProper := by
  cases r with
  | plain => exact ⟨v, h, hv⟩
  | text => exact ⟨v, h, hv⟩
  | array items => exact absurd rfl (hr items)

lemma IsProper.exists_view (h : r.IsProper) : ∃ v, r.view = .ok v ∧ v.isVacant = false := by
  cases r with
  | plain => exact h
  | text => exact h
  | array items => exact ⟨.array items, rfl, rfl⟩

/-! ### Records that are built -/

lemma isProper_scalar {kind : Kind} {bits : UInt64} (h : (scalar kind bits).view = .ok v)
    (hv : v.isVacant = false) : (scalar kind bits).IsProper :=
  isProper_of_view nofun h hv

lemma isProper_null : null.IsProper := isProper_scalar view_null rfl

lemma isProper_boolean (b : Bool) : (boolean b).IsProper := isProper_scalar (view_boolean b) rfl

lemma isProper_integer (n : Int32) : (integer n).IsProper := isProper_scalar (view_integer n) rfl

lemma isProper_number (x : Number.Binary64) : (number x).IsProper :=
  isProper_scalar (view_number x) rfl

lemma isProper_date (x : Number.Binary64) : (date x).IsProper := isProper_scalar (view_date x) rfl

lemma isProper_managed (s : Slot) : (managed s).IsProper := isProper_scalar (view_managed s) rfl

lemma isProper_managedError (s : Slot) : (managedError s).IsProper :=
  isProper_scalar (view_managedError s) rfl

lemma isProper_foreign (h : Handle) : (foreign h).IsProper := isProper_scalar (view_foreign h) rfl

lemma isProper_foreignError (h : Handle) : (foreignError h).IsProper :=
  isProper_scalar (view_foreignError h) rfl

lemma isProper_text (kind : TextKind) (s : String) : (text kind s.toUTF8).IsProper := by
  have hback : String.fromUTF8? s.toUTF8 = some s := Text.Utf8.fromUTF8?_eq_some.2 rfl
  cases kind with
  | string => exact ⟨.string s, by rw [view, viewText, hback], rfl⟩
  | unknownError => exact ⟨.unknownError (some s), by rw [view, viewText, hback], rfl⟩

lemma isProper_string (s : String) : (string s).IsProper := isProper_text ..

lemma isProper_unknownError (m : Option String) : (unknownError m).IsProper := by
  cases m with
  | none => exact isProper_scalar (v := .unknownError none) (view_scalar ..) rfl
  | some s => exact isProper_text ..

lemma isProper_nulls (n : Nat) : (nulls n).IsProper := by
  unfold nulls
  split
  · exact isProper_array.2 fun r hr => List.eq_of_mem_replicate hr ▸ isProper_null
  · exact isProper_unknownError _

/-! ### Records that name nothing -/

/-- A proper record names neither slots nor handles. -/
structure IsBare (r : Record) : Prop where
  slots : r.slots = []
  handles : r.handles = []
  proper : r.IsProper

lemma isBare_null : null.IsBare := ⟨slots_null, handles_null, isProper_null⟩

lemma isBare_boolean (b : Bool) : (boolean b).IsBare :=
  ⟨slots_boolean b, handles_boolean b, isProper_boolean b⟩

lemma isBare_integer (n : Int32) : (integer n).IsBare :=
  ⟨slots_integer n, handles_integer n, isProper_integer n⟩

lemma isBare_number (x : Number.Binary64) : (number x).IsBare :=
  ⟨slots_number x, handles_number x, isProper_number x⟩

lemma isBare_date (x : Number.Binary64) : (date x).IsBare :=
  ⟨slots_date x, handles_date x, isProper_date x⟩

lemma isBare_string (s : String) : (string s).IsBare :=
  ⟨slots_string s, handles_string s, isProper_string s⟩

lemma isBare_unknownError (m : Option String) : (unknownError m).IsBare :=
  ⟨slots_unknownError m, handles_unknownError m, isProper_unknownError m⟩

lemma isBare_nulls (n : Nat) : (nulls n).IsBare :=
  ⟨slots_nulls n, handles_nulls n, isProper_nulls n⟩

end Record

end ScriptBridge.Wire
