/-
# Host strings survive in script

A character is no surrogate, so the units of a host string hold surrogates in pairs only, and
reading them gives the string back.
-/
import Mathlib.Tactic.Common
import ScriptBridge.Text.Utf16

namespace ScriptBridge.Text.Units

variable {c : Char} {u v : UInt16}

lemma isSurrogate_iff : (isHigh u || isLow u) = true ↔ 0xD800 ≤ u.toNat ∧ u.toNat < 0xE000 := by
  simp only [isHigh, isLow, Bool.or_eq_true, Bool.and_eq_true, decide_eq_true_eq]
  omega

lemma toNat_valid (c : Char) : c.toNat < 0xD800 ∨ 0xDFFF < c.toNat ∧ c.toNat < 0x110000 := c.valid

/-- A character that takes one unit is no surrogate. -/
lemma isSurrogate_ofNat (hc : c.toNat < 0x10000) :
    (isHigh (UInt16.ofNat c.toNat) || isLow (UInt16.ofNat c.toNat)) = false := by
  rw [← Bool.not_eq_true, isSurrogate_iff, UInt16.toNat_ofNat_of_lt' hc]
  have := toNat_valid c
  omega

lemma pair_ofChar (hc : 0x10000 ≤ c.toNat) :
    pair (UInt16.ofNat (0xD800 + (c.toNat - 0x10000) / 0x400))
      (UInt16.ofNat (0xDC00 + (c.toNat - 0x10000) % 0x400)) = c := by
  have hvalid := toNat_valid c
  rw [pair, UInt16.toNat_ofNat_of_lt' (by simp only [UInt16.size]; omega),
    UInt16.toNat_ofNat_of_lt' (by simp only [UInt16.size]; omega)]
  rw [show 0x10000 + (0xD800 + (c.toNat - 0x10000) / 0x400 - 0xD800) * 0x400 +
    (0xDC00 + (c.toNat - 0x10000) % 0x400 - 0xDC00) = c.toNat by omega]
  exact Char.ofNat_toNat c

lemma isPair_ofChar (hc : 0x10000 ≤ c.toNat) :
    (isHigh (UInt16.ofNat (0xD800 + (c.toNat - 0x10000) / 0x400)) &&
      isLow (UInt16.ofNat (0xDC00 + (c.toNat - 0x10000) % 0x400))) = true := by
  have hvalid := toNat_valid c
  simp only [isHigh, isLow, Bool.and_eq_true, decide_eq_true_eq]
  rw [UInt16.toNat_ofNat_of_lt' (by simp only [UInt16.size]; omega),
    UInt16.toNat_ofNat_of_lt' (by simp only [UInt16.size]; omega)]
  omega

/-- Reading the units of characters gives the characters, whatever went before. -/
lemma toCharsFrom_ofChars (cs : List Char) (offset : Nat) :
    toCharsFrom offset (ofChars cs) = .ok cs := by
  induction cs generalizing offset with
  | nil => rfl
  | cons c cs ih =>
    rw [ofChars, List.flatMap_cons, ← ofChars, ofChar]
    split
    · next hc =>
      have hunit : Char.ofNat (UInt16.ofNat c.toNat).toNat = c := by
        rw [UInt16.toNat_ofNat_of_lt' hc, Char.ofNat_toNat]
      have hno := isSurrogate_ofNat hc
      obtain ⟨hhigh, hlow⟩ := Bool.or_eq_false_iff.1 hno
      cases hrest : ofChars cs with
      | nil =>
        have hcs := ih 0
        rw [hrest] at hcs
        cases hcs
        rw [List.singleton_append, toCharsFrom, hno, hunit]
        rfl
      | cons v rest =>
        rw [List.singleton_append, toCharsFrom, hhigh, hlow, hunit, ← hrest]
        dsimp only [Bool.false_and, Bool.or_self, Bool.false_eq_true, if_false]
        rw [ih]
        rfl
    · next hc =>
      have hc' := Nat.le_of_not_lt hc
      dsimp only
      rw [List.cons_append, List.singleton_append, toCharsFrom, isPair_ofChar hc', if_pos rfl,
        pair_ofChar hc', ih]
      rfl

/-- **A host string that becomes a script string comes back as it was.** -/
theorem toString_ofString (s : String) : (ofString s).toString = .ok s := by
  rw [toString, ofString, toCharsFrom_ofChars]
  exact congrArg Except.ok (String.ofList_toList)

lemma toNat_ofNat {n : Nat} (hn : n.isValidChar) : (Char.ofNat n).toNat = n := by
  rw [Char.ofNat, dif_pos hn]
  rfl

/-- The units of a character that is no surrogate. -/
lemma ofChar_unit (hu : (isHigh u || isLow u) = false) : ofChar (Char.ofNat u.toNat) = [u] := by
  rw [← Bool.not_eq_true, isSurrogate_iff] at hu
  have hlt := u.toNat_lt
  have hvalid : u.toNat.isValidChar := by
    simp only [Nat.isValidChar]
    omega
  rw [ofChar, toNat_ofNat hvalid, if_pos hlt, UInt16.ofNat_toNat]

/-- The units of the character of a pair. -/
lemma ofChar_pair (hu : isHigh u = true) (hv : isLow v = true) : ofChar (pair u v) = [u, v] := by
  simp only [isHigh, isLow, Bool.and_eq_true, decide_eq_true_eq] at hu hv
  have hvalid : (0x10000 + (u.toNat - 0xD800) * 0x400 + (v.toNat - 0xDC00)).isValidChar := by
    simp only [Nat.isValidChar]
    omega
  rw [ofChar, pair, toNat_ofNat hvalid, if_neg (by omega)]
  dsimp only
  rw [show 0xD800 + (0x10000 + (u.toNat - 0xD800) * 0x400 + (v.toNat - 0xDC00) - 0x10000) / 0x400 =
    u.toNat by omega, show 0xDC00 + (0x10000 + (u.toNat - 0xD800) * 0x400 +
      (v.toNat - 0xDC00) - 0x10000) % 0x400 = v.toNat by omega, UInt16.ofNat_toNat,
    UInt16.ofNat_toNat]

lemma exists_of_map_eq_ok {α β : Type} {f : α → β} {r : Except Nat α} {b : β}
    (h : f <$> r = .ok b) : ∃ a, r = .ok a ∧ f a = b := by
  cases r with
  | error offset => cases h
  | ok a => exact ⟨a, rfl, Except.ok.inj h⟩

/-- Units are those of the characters that they are read as. -/
lemma ofChars_of_toCharsFrom {offset : Nat} {units : Units} {cs : List Char}
    (h : toCharsFrom offset units = .ok cs) : ofChars cs = units := by
  induction offset, units using toCharsFrom.induct generalizing cs with
  | case1 offset =>
    cases h
    rfl
  | case2 offset u hu =>
    rw [toCharsFrom, if_pos hu] at h
    cases h
  | case3 offset u hu =>
    rw [toCharsFrom, if_neg hu] at h
    cases h
    rw [ofChars, List.flatMap_singleton, ofChar_unit (Bool.not_eq_true _ ▸ hu)]
  | case4 offset u v rest huv ih =>
    rw [toCharsFrom, if_pos huv] at h
    obtain ⟨cs, hcs, rfl⟩ := exists_of_map_eq_ok h
    obtain ⟨hu, hv⟩ := Bool.and_eq_true_iff.1 huv
    rw [ofChars, List.flatMap_cons, ofChar_pair hu hv, ← ofChars, ih hcs]
    rfl
  | case5 offset u v rest huv hu =>
    rw [toCharsFrom, if_neg huv, if_pos hu] at h
    cases h
  | case6 offset u v rest huv hu c =>
    rename_i ih
    rw [toCharsFrom, if_neg huv, if_neg hu] at h
    obtain ⟨cs, hcs, rfl⟩ := exists_of_map_eq_ok h
    rw [ofChars, List.flatMap_cons, ofChar_unit (Bool.not_eq_true _ ▸ hu), ← ofChars, ih hcs]
    rfl

/-- **A script string without lone surrogates is that of the host string it becomes.** -/
theorem ofString_of_toString {units : Units} {s : String} (h : units.toString = .ok s) :
    ofString s = units := by
  rw [toString] at h
  obtain ⟨cs, hcs, rfl⟩ := exists_of_map_eq_ok h
  rw [ofString, String.toList_ofList, ofChars_of_toCharsFrom hcs]

end ScriptBridge.Text.Units
