/-
# Reading records

What the fields of a record denote, and which faults a record can have, said bit by bit: the type
code names the kind, the payload is a whole, its low half or a buffer, and the length counts what is
in a buffer.  A record is read exactly if its code is known and it has no fault, and what is read is
then what the fields denote.
-/
import ScriptBridge.Proofs.Table.Arena
import ScriptBridge.Proofs.Table.Handles
import ScriptBridge.Proofs.Text.Utf8
import ScriptBridge.Wire.Record

namespace ScriptBridge.Wire

open ScriptBridge.Text

variable {r : Record} {kind : Kind} {bits : UInt64} {length : Int32} {slot : Slot}
  {handle : Handle} {v : View} {reason : String}

/-! ### The fields of a record -/

/-- A kind whose payload is a pointer to a buffer. -/
inductive Kind.IsBuffered : Kind → Prop
  | string : IsBuffered .string
  | unknownError : IsBuffered .unknownError
  | array : IsBuffered .array

/-- A kind whose payload is a slot, with what a record of the kind says. -/
inductive Kind.Carries (slot : Slot) : Kind → View → Prop
  | managedRef : Carries slot .managedRef (.managedRef slot)
  | managedError : Carries slot .managedError (.managedError slot)

/-- A kind whose payload is a handle, with what a record of the kind says. -/
inductive Kind.Refers (handle : Option Handle) : Kind → View → Prop
  | foreignRef : Refers handle .foreignRef (.foreignRef handle)
  | foreignError : Refers handle .foreignError (.foreignError handle)

namespace Record

/-- What the fields of a record denote.  A payload of 32 bits is the low half of the 64; what is in
the high half, and in a length that counts nothing, does not matter. -/
inductive Denotes : Record → View → Prop
  /-- Null has no payload. -/
  | null (bits : UInt64) (length : Int32) : Denotes (.plain Kind.null.code bits length) .null
  /-- A boolean is false if the low half is zero. -/
  | boolean (bits : UInt64) (length : Int32) :
    Denotes (.plain Kind.boolean.code bits length)
      (.boolean (decide (bits.toNat % 0x100000000 ≠ 0)))
  /-- An integer is the low half, with a sign. -/
  | integer {bits : UInt64} {n : Int32} (length : Int32)
    (hn : n.toInt = (bits.toNat % 0x100000000 : Nat) ∨
      n.toInt = (bits.toNat % 0x100000000 : Nat) - 0x100000000) :
    Denotes (.plain Kind.integer.code bits length) (.integer n)
  /-- A number is all 64 bits. -/
  | number (bits : UInt64) (length : Int32) :
    Denotes (.plain Kind.number.code bits length) (.number ⟨bits⟩)
  /-- A date is all 64 bits, too. -/
  | date (bits : UInt64) (length : Int32) :
    Denotes (.plain Kind.date.code bits length) (.date ⟨bits⟩)
  /-- A slot is the low half. -/
  | slot {kind : Kind} {bits : UInt64} {slot : Slot} {v : View} (length : Int32)
    (hkind : kind.Carries slot v) (hslot : bits.toNat % 0x100000000 = slot.index) :
    Denotes (.plain kind.code bits length) v
  /-- Zero is the empty handle. -/
  | noHandle {kind : Kind} {v : View} (length : Int32) (hkind : kind.Refers none v) :
    Denotes (.plain kind.code 0 length) v
  /-- Any other handle is all 64 bits. -/
  | handle {kind : Kind} {bits : UInt64} {handle : Handle} {v : View} (length : Int32)
    (hkind : kind.Refers (some handle) v) (hhandle : bits.toNat = handle.id) :
    Denotes (.plain kind.code bits length) v
  /-- A string without a buffer is empty. -/
  | noString (bits : UInt64) : Denotes (.plain Kind.string.code bits 0) (.string "")
  /-- A string is what its buffer is written for. -/
  | string (s : String) : Denotes (.text .string s.toUTF8) (.string s)
  /-- An error without a buffer has no text. -/
  | noText (bits : UInt64) : Denotes (.plain Kind.unknownError.code bits 0) (.unknownError none)
  /-- The text of an error is what its buffer is written for, be it empty. -/
  | unknownError (s : String) : Denotes (.text .unknownError s.toUTF8) (.unknownError (some s))
  /-- An array without a buffer is empty. -/
  | noItems (bits : UInt64) : Denotes (.plain Kind.array.code bits 0) (.array [])
  /-- An array is what is in its buffer. -/
  | array (items : List Record) : Denotes (.array items) (.array items)

/-- What is wrong with a record whose code is that of a kind. -/
inductive HasFault : Record → Kind → String → Prop
  /-- A length counts less than nothing. -/
  | negative {kind : Kind} {length : Int32} (bits : UInt64) (hkind : kind.IsBuffered)
    (hlength : length.toInt < 0) : HasFault (.plain kind.code bits length) kind "negative length"
  /-- A length counts something, and there is no buffer. -/
  | dangling {kind : Kind} {length : Int32} (bits : UInt64) (hkind : kind.IsBuffered)
    (hlength : 0 < length.toInt) :
    HasFault (.plain kind.code bits length) kind "null pointer with nonzero length"
  /-- A buffer is no text. -/
  | text {kind : TextKind} {bytes : ByteArray} (hbytes : ¬ Utf8.IsWellFormed bytes.data.toList) :
    HasFault (.text kind bytes) kind.kind "string is not UTF-8"
  /-- A slot is negative: the highest bit of the low half is set. -/
  | slot {kind : Kind} {bits : UInt64} (length : Int32)
    (hkind : kind = .managedRef ∨ kind = .managedError)
    (hbits : 0x80000000 ≤ bits.toNat % 0x100000000) :
    HasFault (.plain kind.code bits length) kind "negative slot index"
  /-- A handle takes more than 32 bits. -/
  | handle {kind : Kind} {bits : UInt64} (length : Int32)
    (hkind : kind = .foreignRef ∨ kind = .foreignError) (hbits : 0x100000000 ≤ bits.toNat) :
    HasFault (.plain kind.code bits length) kind "handle id out of range"

/-! ### Payloads -/

lemma toInt_lowInt32 (bits : UInt64) : (lowInt32 bits).toInt =
    if bits.toNat % 0x100000000 < 0x80000000 then ((bits.toNat % 0x100000000 : Nat) : Int)
    else (bits.toNat % 0x100000000 : Nat) - 0x100000000 := by
  have h : (lowInt32 bits).toInt = (BitVec.ofNat 32 bits.toNat).toInt := rfl
  rw [h, BitVec.toInt_eq_toNat_cond, BitVec.toNat_ofNat]
  split <;> split <;> omega

lemma toInt_toInt64 (bits : UInt64) : bits.toInt64.toInt =
    if bits.toNat < 0x8000000000000000 then (bits.toNat : Int)
    else bits.toNat - 0x10000000000000000 := by
  have h : bits.toInt64.toInt =
      if 2 * bits.toNat < 2 ^ 64 then (bits.toNat : Int) else bits.toNat - (2 ^ 64 : Nat) :=
    BitVec.toInt_eq_toNat_cond bits.toBitVec
  rw [h]
  split <;> split <;> omega

lemma lowInt32_eq_zero : lowInt32 bits = 0 ↔ bits.toNat % 0x100000000 = 0 := by
  rw [← Int32.toInt_inj, toInt_lowInt32, Int32.toInt_zero]
  split <;> omega

/-- An integer is the low half if it has its bits. -/
lemma eq_lowInt32 {n : Int32} (hn : n.toInt = (bits.toNat % 0x100000000 : Nat) ∨
    n.toInt = (bits.toNat % 0x100000000 : Nat) - 0x100000000) : n = lowInt32 bits := by
  have hlow := n.le_toInt
  have hhigh := n.toInt_lt
  rw [← Int32.toInt_inj, toInt_lowInt32]
  split <;> omega

lemma readSlot_eq_ok (hslot : bits.toNat % 0x100000000 = slot.index) :
    readSlot kind bits = .ok slot := by
  have hlt := slot.index_lt
  have hint : (lowInt32 bits).toInt = slot.index := by
    rw [toInt_lowInt32, if_pos (by omega), hslot]
  rw [readSlot, Slot.ofInt32?, hint, if_neg (by omega), Int.toNat_natCast, Slot.ofIndex?_index]

lemma readSlot_eq_error (hbits : 0x80000000 ≤ bits.toNat % 0x100000000) :
    readSlot kind bits = .error (.corruptPayload kind "negative slot index") := by
  have hint : (lowInt32 bits).toInt < 0 := by
    rw [toInt_lowInt32, if_neg (by omega)]
    omega
  rw [readSlot, Slot.ofInt32?, if_pos hint]

lemma readHandle_eq_ok (hhandle : bits.toNat = handle.id) :
    readHandle kind bits = .ok (some handle) := by
  have hpos := handle.id_pos
  have hlt := handle.id_lt
  have hne : bits ≠ 0 := by
    rintro rfl
    exact Nat.ne_of_lt hpos hhandle
  have hint : bits.toInt64.toInt = handle.id := by
    rw [toInt_toInt64, if_pos (by omega), hhandle]
  rw [readHandle, if_neg hne, Handle.ofInt64?, hint, if_neg (by omega), Int.toNat_natCast,
    Handle.ofId?_eq_some.2 rfl]

lemma readHandle_eq_error (hbits : 0x100000000 ≤ bits.toNat) :
    readHandle kind bits = .error (.corruptPayload kind "handle id out of range") := by
  have hne : bits ≠ 0 := by
    rintro rfl
    exact absurd hbits (by decide)
  have hnone : Handle.ofInt64? bits.toInt64 = none := by
    rw [Handle.ofInt64?, toInt_toInt64]
    split
    · rw [if_neg (by omega), Int.toNat_natCast, Handle.ofId?, dif_neg (by omega)]
    · have hlt := bits.toNat_lt
      rw [if_pos (by omega)]
  rw [readHandle, if_neg hne, hnone]

/-! ### Records that are read, and records that are not -/

lemma view_plain (kind : Kind) (bits : UInt64) (length : Int32) :
    (plain kind.code bits length).view = viewPlain kind bits length := by
  rw [view, Kind.ofCode?_code]

/-- What the fields of a record denote is read. -/
lemma Denotes.view_eq (h : r.Denotes v) : r.view = .ok v := by
  cases h with
  | null bits length => exact view_plain ..
  | boolean bits length =>
    rw [view_plain, viewPlain]
    simp only [ne_eq, lowInt32_eq_zero]
  | integer length hn =>
    rw [view_plain, viewPlain, eq_lowInt32 hn]
  | number bits length => exact view_plain ..
  | date bits length => exact view_plain ..
  | slot length hkind hslot =>
    cases hkind <;> rw [view_plain, viewPlain, readSlot_eq_ok hslot] <;> rfl
  | noHandle length hkind =>
    cases hkind <;> rw [view_plain, viewPlain, readHandle, if_pos rfl] <;> rfl
  | handle length hkind hhandle =>
    cases hkind <;> rw [view_plain, viewPlain, readHandle_eq_ok hhandle] <;> rfl
  | noString bits => exact view_plain ..
  | string s => rw [view, viewText, Utf8.fromUTF8?_eq_some.2 rfl]
  | noText bits => exact view_plain ..
  | unknownError s => rw [view, viewText, Utf8.fromUTF8?_eq_some.2 rfl]
  | noItems bits => exact view_plain ..
  | array items => rfl

/-- What is wrong with a record is reported. -/
lemma HasFault.view_eq (h : r.HasFault kind reason) :
    r.view = .error (.corruptPayload kind reason) := by
  cases h with
  | negative bits hkind hlength =>
    cases hkind <;> rw [view_plain, viewPlain, readNull, if_pos hlength]
  | @dangling kind length bits hkind hlength =>
    have hne : length ≠ 0 := by
      rintro rfl
      exact absurd hlength (by decide)
    cases hkind <;> rw [view_plain, viewPlain, readNull, if_neg (by omega), if_neg hne]
  | text hbytes => rw [view, viewText, Utf8.fromUTF8?_eq_none.2 hbytes]
  | slot length hkind hbits =>
    rcases hkind with rfl | rfl <;> rw [view_plain, viewPlain, readSlot_eq_error hbits] <;> rfl
  | handle length hkind hbits =>
    rcases hkind with rfl | rfl <;> rw [view_plain, viewPlain, readHandle_eq_error hbits] <;> rfl

/-- A code that no kind has is reported. -/
lemma view_of_unknown (h : ∀ k : Kind, k.code ≠ r.tag) :
    r.view = .error (.unknownDiscriminant r.tag) := by
  cases r with
  | plain tag bits length =>
    have hnone : Kind.ofCode? tag = none :=
      List.find?_eq_none.2 fun k _ => by rw [decide_eq_true_iff]; exact h k
    rw [view, hnone, Record.tag]
  | text kind bytes => exact absurd rfl (h kind.kind)
  | array items => exact absurd rfl (h .array)

/-- A length counts less than nothing, nothing, or something. -/
lemma exists_of_isBuffered (hkind : kind.IsBuffered) (bits : UInt64) (length : Int32) :
    length = 0 ∨ ∃ reason, (plain kind.code bits length).HasFault kind reason := by
  rcases Int.lt_trichotomy length.toInt 0 with h | h | h
  · exact .inr ⟨_, .negative bits hkind h⟩
  · exact .inl (Int32.toInt_inj.1 h)
  · exact .inr ⟨_, .dangling bits hkind h⟩

/-- The fields of a record whose code is known denote something, or the record has a fault. -/
lemma denotes_or_hasFault_plain (kind : Kind) (bits : UInt64) (length : Int32) :
    (∃ v, (plain kind.code bits length).Denotes v) ∨
      ∃ reason, (plain kind.code bits length).HasFault kind reason := by
  have hslot : (∃ slot : Slot, bits.toNat % 0x100000000 = slot.index) ∨
      0x80000000 ≤ bits.toNat % 0x100000000 := by
    rcases Nat.lt_or_ge (bits.toNat % 0x100000000) 0x80000000 with h | h
    · exact .inl ⟨⟨_, h⟩, rfl⟩
    · exact .inr h
  have hhandle : bits = 0 ∨ (∃ handle : Handle, bits.toNat = handle.id) ∨
      0x100000000 ≤ bits.toNat := by
    rcases Nat.eq_zero_or_pos bits.toNat with h | hpos
    · exact .inl (UInt64.toNat_inj.1 h)
    · rcases Nat.lt_or_ge bits.toNat 0x100000000 with h | h
      · exact .inr (.inl ⟨⟨_, hpos, h⟩, rfl⟩)
      · exact .inr (.inr h)
  cases kind with
  | null => exact .inl ⟨_, .null ..⟩
  | boolean => exact .inl ⟨_, .boolean ..⟩
  | integer =>
    refine .inl ⟨_, .integer (n := lowInt32 bits) length ?_⟩
    rw [toInt_lowInt32]
    split
    · exact .inl rfl
    · exact .inr rfl
  | number => exact .inl ⟨_, .number ..⟩
  | date => exact .inl ⟨_, .date ..⟩
  | string =>
    rcases exists_of_isBuffered .string bits length with rfl | h
    · exact .inl ⟨_, .noString bits⟩
    · exact .inr h
  | unknownError =>
    rcases exists_of_isBuffered .unknownError bits length with rfl | h
    · exact .inl ⟨_, .noText bits⟩
    · exact .inr h
  | array =>
    rcases exists_of_isBuffered .array bits length with rfl | h
    · exact .inl ⟨_, .noItems bits⟩
    · exact .inr h
  | managedRef =>
    rcases hslot with ⟨slot, h⟩ | h
    · exact .inl ⟨_, .slot length .managedRef h⟩
    · exact .inr ⟨_, .slot length (.inl rfl) h⟩
  | managedError =>
    rcases hslot with ⟨slot, h⟩ | h
    · exact .inl ⟨_, .slot length .managedError h⟩
    · exact .inr ⟨_, .slot length (.inr rfl) h⟩
  | foreignRef =>
    rcases hhandle with rfl | ⟨handle, h⟩ | h
    · exact .inl ⟨_, .noHandle length .foreignRef⟩
    · exact .inl ⟨_, .handle length .foreignRef h⟩
    · exact .inr ⟨_, .handle length (.inl rfl) h⟩
  | foreignError =>
    rcases hhandle with rfl | ⟨handle, h⟩ | h
    · exact .inl ⟨_, .noHandle length .foreignError⟩
    · exact .inl ⟨_, .handle length .foreignError h⟩
    · exact .inr ⟨_, .handle length (.inr rfl) h⟩

/-- A record denotes something, or it has a fault, or its code is not known. -/
lemma denotes_or_hasFault (r : Record) :
    (∃ v, r.Denotes v) ∨ (∃ kind reason, r.HasFault kind reason) ∨ ∀ k : Kind, k.code ≠ r.tag := by
  cases r with
  | plain tag bits length =>
    by_cases hk : ∃ k : Kind, k.code = tag
    · obtain ⟨k, rfl⟩ := hk
      rcases denotes_or_hasFault_plain k bits length with h | ⟨reason, h⟩
      · exact .inl h
      · exact .inr (.inl ⟨k, reason, h⟩)
    · exact .inr (.inr (not_exists.1 hk))
  | text kind bytes =>
    by_cases hbytes : Utf8.IsWellFormed bytes.data.toList
    · obtain ⟨s, rfl⟩ := Utf8.isWellFormed_iff.1 hbytes
      cases kind with
      | string => exact .inl ⟨_, .string s⟩
      | unknownError => exact .inl ⟨_, .unknownError s⟩
    · exact .inr (.inl ⟨_, _, .text hbytes⟩)
  | array items => exact .inl ⟨_, .array items⟩

/-! ### What reading comes to -/

lemma view_eq_ok : r.view = .ok v ↔ r.Denotes v := by
  refine ⟨fun h => ?_, Denotes.view_eq⟩
  rcases r.denotes_or_hasFault with ⟨w, hw⟩ | ⟨kind, reason, hfault⟩ | hunknown
  · rw [hw.view_eq, Except.ok.injEq] at h
    exact h ▸ hw
  · rw [hfault.view_eq] at h
    cases h
  · rw [view_of_unknown hunknown] at h
    cases h

lemma view_eq_corrupt : r.view = .error (.corruptPayload kind reason) ↔ r.HasFault kind reason := by
  refine ⟨fun h => ?_, HasFault.view_eq⟩
  rcases r.denotes_or_hasFault with ⟨w, hw⟩ | ⟨k, m, hfault⟩ | hunknown
  · rw [hw.view_eq] at h
    cases h
  · rw [hfault.view_eq] at h
    cases h
    exact hfault
  · rw [view_of_unknown hunknown] at h
    cases h

lemma view_eq_unknown {code : Int32} : r.view = .error (.unknownDiscriminant code) ↔
    code = r.tag ∧ ∀ k : Kind, k.code ≠ r.tag := by
  constructor
  · intro h
    rcases r.denotes_or_hasFault with ⟨w, hw⟩ | ⟨kind, reason, hfault⟩ | hunknown
    · rw [hw.view_eq] at h
      cases h
    · rw [hfault.view_eq] at h
      cases h
    · rw [view_of_unknown hunknown] at h
      cases h
      exact ⟨rfl, hunknown⟩
  · rintro ⟨rfl, hunknown⟩
    exact view_of_unknown hunknown

/-- The elements that may be written to are those that are read. -/
lemma elements?_eq_some {items : List Record} :
    r.elements? = some items ↔ r.view = .ok (.array items) := by
  rw [view_eq_ok]
  constructor
  · intro h
    cases r with
    | plain tag bits length =>
      simp only [elements?] at h
      split at h
      · next hempty =>
        obtain ⟨rfl, rfl⟩ := hempty
        cases h
        exact .noItems bits
      · cases h
    | text kind bytes => cases h
    | array items =>
      cases h
      exact .array items
  · intro h
    cases h with
    | slot _ hkind => cases hkind
    | noHandle _ hkind => cases hkind
    | handle _ hkind => cases hkind
    | noItems bits =>
      rw [elements?]
      exact if_pos ⟨rfl, rfl⟩
    | array items => rfl

lemma isError_iff : r.isError = true ↔ r.tag = -1 ∨ r.tag = -2 ∨ r.tag = -3 := by
  unfold isError
  split
  · next k hk =>
    have hcode : k.code = r.tag := by simpa using List.find?_some hk
    rw [← hcode]
    cases k <;> decide
  · next hnone =>
    have hcode : ∀ k : Kind, k.code ≠ r.tag := fun k => by
      simpa using List.find?_eq_none.1 hnone k (Kind.mem_all k)
    have h1 := hcode .unknownError
    have h2 := hcode .managedError
    have h3 := hcode .foreignError
    simp only [Bool.false_eq_true, false_iff, not_or]
    exact ⟨h1.symm, h2.symm, h3.symm⟩

/-- The codes of the twelve kinds. -/
def knownCodes : List Int32 := [0, 1, 2, 3, 4, 5, 10, 11, 12, -1, -2, -3]

lemma mem_knownCodes {code : Int32} : code ∈ knownCodes ↔ ∃ k : Kind, k.code = code := by
  have hcodes : knownCodes = Kind.all.map Kind.code := rfl
  simp only [hcodes, List.mem_map, Kind.mem_all, true_and]

/-- **The reader accepts exactly the format.**  A record whose code is none of the twelve is
reported with its code.  Any other is reported with its kind exactly if it has a fault: a length
below zero, no buffer where the length counts something, a buffer that is not UTF-8, a negative slot
or a handle of more than 32 bits.  In every other case the fields denote something, and that is what
is read.
The elements that may be written to are those that are read, and a record is an error by its code
alone, whether it can be read or not. -/
theorem reads_exactly_format (r : Record) :
    (∀ code, r.view = .error (.unknownDiscriminant code) ↔
      code = r.tag ∧ r.tag ∉ knownCodes) ∧
    (∀ kind reason, r.view = .error (.corruptPayload kind reason) ↔ r.HasFault kind reason) ∧
    (∀ v, r.view = .ok v ↔ r.Denotes v) ∧
    (r.tag ∈ knownCodes → (∀ kind reason, ¬ r.HasFault kind reason) → ∃ v, r.view = .ok v) ∧
    (∀ items, r.elements? = some items ↔ r.view = .ok (.array items)) ∧
    (r.isError = true ↔ r.tag = -1 ∨ r.tag = -2 ∨ r.tag = -3) := by
  refine ⟨fun code => ?_, fun kind reason => view_eq_corrupt, fun v => view_eq_ok,
    fun htag hno => ?_, fun items => elements?_eq_some, isError_iff⟩
  · rw [view_eq_unknown, mem_knownCodes, not_exists]
  · obtain ⟨k, hk⟩ := mem_knownCodes.1 htag
    rcases r.denotes_or_hasFault with ⟨v, hv⟩ | ⟨kind, reason, hfault⟩ | hunknown
    · exact ⟨v, hv.view_eq⟩
    · exact absurd hfault (hno kind reason)
    · exact absurd hk (hunknown k)

end Record

end ScriptBridge.Wire
