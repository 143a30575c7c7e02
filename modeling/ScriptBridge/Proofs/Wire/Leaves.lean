/-
# What built records name

Each record that is built names at most one slot or one handle, and reads back as it was
built.  So what a record names is known from the way it was made, or from its view.
-/
import ScriptBridge.Proofs.Text.Utf8
import ScriptBridge.Wire.Build
import ScriptBridge.Wire.Leaves

namespace ScriptBridge.Wire

/-! ### Payloads -/

lemma Slot.ofInt32?_toInt32 (s : Slot) : Slot.ofInt32? s.toInt32 = some s := by
  have hlt := s.index_lt
  have hint : s.toInt32.toInt = s.index := by
    rw [Slot.toInt32, Int32.toInt_ofInt_of_le (by omega) (by omega)]
  rw [Slot.ofInt32?, hint, if_neg (by omega), Int.toNat_natCast, Slot.ofIndex?, dif_pos hlt]

lemma Handle.ofInt64?_toInt64 (h : Handle) : Handle.ofInt64? h.toInt64 = some h := by
  have hlt := h.id_lt
  have hpos := h.id_pos
  have hint : h.toInt64.toInt = h.id := by
    rw [Handle.toInt64, Int64.toInt_ofInt_of_le (by omega) (by omega)]
  rw [Handle.ofInt64?, hint, if_neg (by omega), Int.toNat_natCast, Handle.ofId?,
    dif_pos ⟨hpos, hlt⟩]

lemma Handle.toUInt64_ne_zero (h : Handle) : h.toInt64.toUInt64 ≠ 0 := by
  intro hz
  have hback := Handle.ofInt64?_toInt64 h
  rw [show h.toInt64 = 0 from congrArg Int64.ofUInt64 hz] at hback
  cases hback

namespace Record

lemma readSlot_toUInt64 (kind : Kind) (s : Slot) :
    readSlot kind s.toInt32.toUInt32.toUInt64 = .ok s := by
  have hlow : lowInt32 s.toInt32.toUInt32.toUInt64 = s.toInt32 := by
    simp [lowInt32]
  rw [readSlot, hlow, Slot.ofInt32?_toInt32]

lemma readHandle_toUInt64 (kind : Kind) (h : Handle) :
    readHandle kind h.toInt64.toUInt64 = .ok (some h) := by
  have hback : h.toInt64.toUInt64.toInt64 = h.toInt64 := rfl
  rw [readHandle, if_neg h.toUInt64_ne_zero, hback, Handle.ofInt64?_toInt64]

/-! ### Views -/

lemma view_scalar (kind : Kind) (bits : UInt64) :
    (scalar kind bits).view = viewPlain kind bits 0 := by
  rw [scalar, view, Kind.ofCode?_code]

@[simp] lemma view_managed (s : Slot) : (managed s).view = .ok (.managedRef s) := by
  rw [managed, view_scalar, viewPlain, readSlot_toUInt64]
  rfl

@[simp] lemma view_managedError (s : Slot) : (managedError s).view = .ok (.managedError s) := by
  rw [managedError, view_scalar, viewPlain, readSlot_toUInt64]
  rfl

@[simp] lemma view_foreign (h : Handle) : (foreign h).view = .ok (.foreignRef (some h)) := by
  rw [foreign, view_scalar, viewPlain, readHandle_toUInt64]
  rfl

@[simp] lemma view_foreignError (h : Handle) :
    (foreignError h).view = .ok (.foreignError (some h)) := by
  rw [foreignError, view_scalar, viewPlain, readHandle_toUInt64]
  rfl

@[simp] lemma view_null : null.view = .ok .null := view_scalar ..

@[simp] lemma view_boolean (b : Bool) : (boolean b).view = .ok (.boolean b) := by
  cases b <;> exact view_scalar ..

@[simp] lemma view_integer (n : Int32) : (integer n).view = .ok (.integer n) := by
  have hlow : lowInt32 n.toUInt32.toUInt64 = n := by simp [lowInt32]
  rw [integer, view_scalar, viewPlain, hlow]

@[simp] lemma view_number (x : Number.Binary64) : (number x).view = .ok (.number x) :=
  view_scalar ..

@[simp] lemma view_date (x : Number.Binary64) : (date x).view = .ok (.date x) := view_scalar ..

lemma clip_of_le {s : String} (hs : s.utf8ByteSize ≤ maxLength) : clip s = s := if_pos hs

@[simp] lemma view_string (s : String) : (string s).view = .ok (.string (clip s)) := by
  rw [string, view, viewText, Text.Utf8.fromUTF8?_eq_some.2 rfl]

lemma view_unknownError (s : String) :
    (unknownError (some s)).view = .ok (.unknownError (some (clip s))) := by
  rw [unknownError, view, viewText, Text.Utf8.fromUTF8?_eq_some.2 rfl]

/-! ### What a view names -/

end Record

/-- The slots that a view names. -/
def View.slots : View → List Slot
  | .managedRef s | .managedError s => [s]
  | .array items => Record.slotsOfItems items
  | _ => []

/-- The handles that a view names. -/
def View.handles : View → List Handle
  | .foreignRef (some h) | .foreignError (some h) => [h]
  | .array items => Record.handlesOfItems items
  | _ => []

namespace Record

lemma view_plain_ne_array {tag : Int32} {bits : UInt64} {length : Int32} {items : List Record}
    (h : (plain tag bits length).view = .ok (.array items)) : items = [] := by
  unfold view at h
  dsimp only at h
  split at h
  · next kind _ =>
    cases kind <;> dsimp only [viewPlain, readNull, Functor.map, Except.map] at h
    case array =>
      split at h
      · cases h
      · split at h <;> cases h
        rfl
    all_goals grind
  · cases h

lemma view_text_isString {kind : TextKind} {bytes : ByteArray} {v : View}
    (h : (text kind bytes).view = .ok v) :
    (∃ s, v = .string s) ∨ ∃ s, v = .unknownError (some s) := by
  simp only [view, viewText] at h
  split at h
  · cases h
  · cases kind <;> cases h <;> simp

/-- A record names the slots that its view names. -/
theorem slots_of_view {r : Record} {v : View} (h : r.view = .ok v) : r.slots = v.slots := by
  cases r with
  | plain tag bits length =>
    rw [slots, h]
    cases v with
    | array items =>
      rw [view_plain_ne_array h]
      rfl
    | _ => rfl
  | text kind bytes =>
    rcases view_text_isString h with ⟨s, rfl⟩ | ⟨s, rfl⟩ <;> rfl
  | array items =>
    cases h
    rfl

lemma slots_of_view_error {r : Record} {e : ProtocolError} (h : r.view = .error e) :
    r.slots = [] := by
  cases r with
  | plain tag bits length => rw [slots, h]
  | text kind bytes => rfl
  | array items => cases h

/-- A record names the handles that its view names. -/
theorem handles_of_view {r : Record} {v : View} (h : r.view = .ok v) :
    r.handles = v.handles := by
  cases r with
  | plain tag bits length =>
    rw [handles, h]
    cases v with
    | array items =>
      rw [view_plain_ne_array h]
      rfl
    | foreignRef f => cases f <;> rfl
    | foreignError f => cases f <;> rfl
    | _ => rfl
  | text kind bytes =>
    rcases view_text_isString h with ⟨s, rfl⟩ | ⟨s, rfl⟩ <;> rfl
  | array items =>
    cases h
    rfl

lemma handles_of_view_error {r : Record} {e : ProtocolError} (h : r.view = .error e) :
    r.handles = [] := by
  cases r with
  | plain tag bits length => rw [handles, h]
  | text kind bytes => rfl
  | array items => cases h

/-! ### What built records name -/

@[simp] lemma slots_null : null.slots = [] := slots_of_view view_null

@[simp] lemma slots_boolean (b : Bool) : (boolean b).slots = [] :=
  slots_of_view (view_boolean b)

@[simp] lemma slots_integer (n : Int32) : (integer n).slots = [] :=
  slots_of_view (view_integer n)

@[simp] lemma slots_number (x : Number.Binary64) : (number x).slots = [] :=
  slots_of_view (view_number x)

@[simp] lemma slots_date (x : Number.Binary64) : (date x).slots = [] :=
  slots_of_view (view_date x)

@[simp] lemma slots_managed (s : Slot) : (managed s).slots = [s] :=
  slots_of_view (view_managed s)

@[simp] lemma slots_managedError (s : Slot) : (managedError s).slots = [s] :=
  slots_of_view (view_managedError s)

@[simp] lemma slots_foreign (h : Handle) : (foreign h).slots = [] :=
  slots_of_view (view_foreign h)

@[simp] lemma slots_foreignError (h : Handle) : (foreignError h).slots = [] :=
  slots_of_view (view_foreignError h)

@[simp] lemma slots_string (s : String) : (string s).slots = [] := rfl

@[simp] lemma slots_unknownError (m : Option String) : (unknownError m).slots = [] := by
  cases m with
  | none => exact slots_of_view (v := .unknownError none) (view_scalar ..)
  | some s => rfl

@[simp] lemma slots_array (items : List Record) : (array items).slots = slotsOfItems items := rfl

@[simp] lemma handles_null : null.handles = [] := handles_of_view view_null

@[simp] lemma handles_boolean (b : Bool) : (boolean b).handles = [] :=
  handles_of_view (view_boolean b)

@[simp] lemma handles_integer (n : Int32) : (integer n).handles = [] :=
  handles_of_view (view_integer n)

@[simp] lemma handles_number (x : Number.Binary64) : (number x).handles = [] :=
  handles_of_view (view_number x)

@[simp] lemma handles_date (x : Number.Binary64) : (date x).handles = [] :=
  handles_of_view (view_date x)

@[simp] lemma handles_managed (s : Slot) : (managed s).handles = [] :=
  handles_of_view (view_managed s)

@[simp] lemma handles_managedError (s : Slot) : (managedError s).handles = [] :=
  handles_of_view (view_managedError s)

@[simp] lemma handles_foreign (h : Handle) : (foreign h).handles = [h] :=
  handles_of_view (view_foreign h)

@[simp] lemma handles_foreignError (h : Handle) : (foreignError h).handles = [h] :=
  handles_of_view (view_foreignError h)

@[simp] lemma handles_string (s : String) : (string s).handles = [] := rfl

@[simp] lemma handles_unknownError (m : Option String) : (unknownError m).handles = [] := by
  cases m with
  | none => exact handles_of_view (v := .unknownError none) (view_scalar ..)
  | some s => rfl

@[simp] lemma handles_array (items : List Record) :
    (array items).handles = handlesOfItems items := rfl

/-! ### Elements -/

@[simp] lemma slotsOfItems_append (rs ts : List Record) :
    slotsOfItems (rs ++ ts) = slotsOfItems rs ++ slotsOfItems ts := by
  induction rs with
  | nil => rfl
  | cons r rs ih => simp only [List.cons_append, slotsOfItems, ih, List.append_assoc]

@[simp] lemma handlesOfItems_append (rs ts : List Record) :
    handlesOfItems (rs ++ ts) = handlesOfItems rs ++ handlesOfItems ts := by
  induction rs with
  | nil => rfl
  | cons r rs ih => simp only [List.cons_append, handlesOfItems, ih, List.append_assoc]

lemma mem_slotsOfItems {s : Slot} {rs : List Record} :
    s ∈ slotsOfItems rs ↔ ∃ r ∈ rs, s ∈ r.slots := by
  induction rs with
  | nil => simp [slotsOfItems]
  | cons r rs ih => simp [slotsOfItems, ih]

lemma mem_handlesOfItems {h : Handle} {rs : List Record} :
    h ∈ handlesOfItems rs ↔ ∃ r ∈ rs, h ∈ r.handles := by
  induction rs with
  | nil => simp [handlesOfItems]
  | cons r rs ih => simp [handlesOfItems, ih]

lemma slots_nulls (n : Nat) : (nulls n).slots = [] := by
  unfold nulls
  split
  · rw [slots_array, List.eq_nil_iff_forall_not_mem]
    intro s hs
    obtain ⟨r, hr, hs⟩ := mem_slotsOfItems.1 hs
    rw [List.eq_of_mem_replicate hr, slots_null] at hs
    cases hs
  · exact slots_unknownError _

lemma handles_nulls (n : Nat) : (nulls n).handles = [] := by
  unfold nulls
  split
  · rw [handles_array, List.eq_nil_iff_forall_not_mem]
    intro h hh
    obtain ⟨r, hr, hh⟩ := mem_handlesOfItems.1 hh
    rw [List.eq_of_mem_replicate hr, handles_null] at hh
    cases hh
  · exact handles_unknownError _

/-! ### Leaves -/

mutual
/-- The leaves of a record, from left to right: the records in it that own no elements. -/
def leaves : Record → List Record
  | .plain tag bits length => [.plain tag bits length]
  | .text kind bytes => [.text kind bytes]
  | .array items => leavesOf items

/-- The leaves of some records. -/
def leavesOf : List Record → List Record
  | [] => []
  | r :: rs => leaves r ++ leavesOf rs
end

lemma leaves_of_ne {r : Record} (hr : ∀ items, r ≠ .array items) : r.leaves = [r] := by
  cases r with
  | array items => exact absurd rfl (hr items)
  | _ => rfl

lemma mem_leavesOf {leaf : Record} {rs : List Record} :
    leaf ∈ leavesOf rs ↔ ∃ r ∈ rs, leaf ∈ r.leaves := by
  induction rs with
  | nil => simp [leavesOf]
  | cons r rs ih => simp [leavesOf, ih]

end Record

end ScriptBridge.Wire
