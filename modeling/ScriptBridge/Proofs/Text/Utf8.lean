/-
# Well-formed UTF-8

Which bytes are UTF-8, by the table of well-formed byte sequences: a character takes one to four
bytes, as few as it can, and no sequence stands for a surrogate or for anything beyond the last
character.  Just these are the bytes that a text is written as.
-/
import Mathlib.Tactic.Common

namespace ScriptBridge.Text.Utf8

/-- A byte that goes on with a character. -/
def IsTail (b : UInt8) : Prop := 0x80 ≤ b.toNat ∧ b.toNat ≤ 0xBF

/-- The bytes of one character. -/
inductive IsChar : List UInt8 → Prop
  /-- A character of seven bits. -/
  | one {a : UInt8} (ha : a.toNat ≤ 0x7F) : IsChar [a]
  /-- A character of up to eleven bits; `0xC0` and `0xC1` would begin one that fits seven. -/
  | two {a b : UInt8} (ha : 0xC2 ≤ a.toNat) (ha' : a.toNat ≤ 0xDF) (hb : IsTail b) : IsChar [a, b]
  /-- A character of up to sixteen bits that does not fit eleven and is no surrogate. -/
  | three {a b c : UInt8} (ha : 0xE0 ≤ a.toNat) (ha' : a.toNat ≤ 0xEF) (hb : IsTail b)
    (hc : IsTail c) (hshort : a.toNat = 0xE0 → 0xA0 ≤ b.toNat)
    (hsurrogate : a.toNat = 0xED → b.toNat ≤ 0x9F) : IsChar [a, b, c]
  /-- A character that does not fit sixteen bits, up to the last one. -/
  | four {a b c d : UInt8} (ha : 0xF0 ≤ a.toNat) (ha' : a.toNat ≤ 0xF4) (hb : IsTail b)
    (hc : IsTail c) (hd : IsTail d) (hshort : a.toNat = 0xF0 → 0x90 ≤ b.toNat)
    (hlast : a.toNat = 0xF4 → b.toNat ≤ 0x8F) : IsChar [a, b, c, d]

/-- The bytes of any number of characters. -/
inductive IsWellFormed : List UInt8 → Prop
  /-- There is no character. -/
  | nil : IsWellFormed []
  /-- There is one more character. -/
  | append {bs rest : List UInt8} (hc : IsChar bs) (h : IsWellFormed rest) :
    IsWellFormed (bs ++ rest)

variable {bs : List UInt8} {bytes : ByteArray} {s : String}

/-! ### Characters -/

/-- A character is written as the bytes of one character. -/
lemma isChar_utf8EncodeChar (c : Char) : IsChar (String.utf8EncodeChar c) := by
  have hvalid : c.val.toNat < 0xD800 ∨ 0xDFFF < c.val.toNat ∧ c.val.toNat < 0x110000 := c.valid
  fun_cases String.utf8EncodeChar c with
  | case1 v h1 =>
    refine .one ?_
    simp only [UInt8.toNat_ofNat']
    omega
  | case2 v h1 h2 =>
    refine .two ?_ ?_ ⟨?_, ?_⟩ <;> simp only [UInt8.toNat_ofNat'] <;> omega
  | case3 v h1 h2 h3 =>
    refine .three ?_ ?_ ⟨?_, ?_⟩ ⟨?_, ?_⟩ ?_ ?_ <;> simp only [UInt8.toNat_ofNat'] <;> omega
  | case4 v h1 h2 h3 =>
    refine .four ?_ ?_ ⟨?_, ?_⟩ ⟨?_, ?_⟩ ⟨?_, ?_⟩ ?_ ?_ <;> simp only [UInt8.toNat_ofNat'] <;> omega

/-- A number that is one of a character. -/
lemma exists_char {n : Nat} (hn : n < 0xD800 ∨ 0xDFFF < n ∧ n < 0x110000) :
    ∃ c : Char, c.val.toNat = n := by
  refine ⟨⟨UInt32.ofNat n, ?_⟩, ?_⟩
  · change Nat.isValidChar _
    rw [UInt32.toNat_ofNat_of_lt' (by simp only [UInt32.size]; omega)]
    exact hn
  · exact UInt32.toNat_ofNat_of_lt' (by simp only [UInt32.size]; omega)

/-- The bytes of one character are those that it is written as. -/
lemma IsChar.exists_utf8EncodeChar (h : IsChar bs) : ∃ c, String.utf8EncodeChar c = bs := by
  cases h with
  | @one a ha =>
    obtain ⟨c, hc⟩ := exists_char (n := a.toNat) (by omega)
    refine ⟨c, ?_⟩
    simp only [String.utf8EncodeChar, hc]
    rw [if_pos (by omega), UInt8.ofNat_toNat]
  | @two a b ha ha' hb =>
    obtain ⟨hb, hb'⟩ := hb
    obtain ⟨c, hc⟩ := exists_char (n := (a.toNat - 0xC0) * 64 + (b.toNat - 0x80)) (by omega)
    refine ⟨c, ?_⟩
    simp only [String.utf8EncodeChar, hc]
    rw [if_neg (by omega), if_pos (by omega)]
    simp only [List.cons.injEq, ← UInt8.toNat_inj, UInt8.toNat_ofNat', and_true]
    omega
  | @three a b c ha ha' hb hc hshort hsurrogate =>
    obtain ⟨hb, hb'⟩ := hb
    obtain ⟨hc, hc'⟩ := hc
    obtain ⟨x, hx⟩ := exists_char
      (n := (a.toNat - 0xE0) * 4096 + (b.toNat - 0x80) * 64 + (c.toNat - 0x80)) (by omega)
    refine ⟨x, ?_⟩
    simp only [String.utf8EncodeChar, hx]
    rw [if_neg (by omega), if_neg (by omega), if_pos (by omega)]
    simp only [List.cons.injEq, ← UInt8.toNat_inj, UInt8.toNat_ofNat', and_true]
    omega
  | @four a b c d ha ha' hb hc hd hshort hlast =>
    obtain ⟨hb, hb'⟩ := hb
    obtain ⟨hc, hc'⟩ := hc
    obtain ⟨hd, hd'⟩ := hd
    obtain ⟨x, hx⟩ := exists_char (n := (a.toNat - 0xF0) * 262144 + (b.toNat - 0x80) * 4096 +
      (c.toNat - 0x80) * 64 + (d.toNat - 0x80)) (by omega)
    refine ⟨x, ?_⟩
    simp only [String.utf8EncodeChar, hx]
    rw [if_neg (by omega), if_neg (by omega), if_neg (by omega)]
    simp only [List.cons.injEq, ← UInt8.toNat_inj, UInt8.toNat_ofNat', and_true]
    omega

/-! ### Texts -/

lemma isWellFormed_flatMap (cs : List Char) : IsWellFormed (cs.flatMap String.utf8EncodeChar) := by
  induction cs with
  | nil => exact .nil
  | cons c cs ih =>
    rw [List.flatMap_cons]
    exact .append (isChar_utf8EncodeChar c) ih

lemma IsWellFormed.exists_flatMap (h : IsWellFormed bs) :
    ∃ cs : List Char, cs.flatMap String.utf8EncodeChar = bs := by
  induction h with
  | nil => exact ⟨[], rfl⟩
  | append hc _ ih =>
    obtain ⟨c, rfl⟩ := hc.exists_utf8EncodeChar
    obtain ⟨cs, rfl⟩ := ih
    exact ⟨c :: cs, List.flatMap_cons ..⟩

/-- **The bytes of a text are well-formed, and well-formed bytes are those of a text.** -/
theorem isWellFormed_iff :
    IsWellFormed bytes.data.toList ↔ ∃ s : String, s.toUTF8 = bytes := by
  constructor
  · intro h
    obtain ⟨cs, hcs⟩ := h.exists_flatMap
    refine ⟨String.ofList cs, ByteArray.ext ?_⟩
    rw [← Array.toList_inj, ← hcs]
    exact List.toList_data_toByteArray
  · rintro ⟨s, rfl⟩
    obtain ⟨cs, hcs⟩ := s.isValidUTF8
    rw [String.toUTF8, hcs, List.utf8Encode, List.toList_data_toByteArray]
    exact isWellFormed_flatMap cs

/-- Bytes read as a text are those that the text is written as. -/
lemma fromUTF8?_eq_some : String.fromUTF8? bytes = some s ↔ s.toUTF8 = bytes := by
  unfold String.fromUTF8?
  constructor
  · intro h
    split at h
    · cases h
      rfl
    · cases h
  · rintro rfl
    exact dif_pos s.isValidUTF8

lemma fromUTF8?_eq_none :
    String.fromUTF8? bytes = none ↔ ¬ IsWellFormed bytes.data.toList := by
  rw [isWellFormed_iff, Option.eq_none_iff_forall_ne_some, not_exists]
  simp only [ne_eq, fromUTF8?_eq_some]

end ScriptBridge.Text.Utf8
