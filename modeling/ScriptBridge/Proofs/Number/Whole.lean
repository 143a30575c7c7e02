/-
# Whole numbers

A whole number of up to 53 bits is represented exactly, so a double that is whole and fits 32
bits equals the integer that stands for it.
-/
import Mathlib.Tactic.Common
import Mathlib.Tactic.Ring
import ScriptBridge.Script.Value

namespace ScriptBridge

namespace Number.Binary64

variable {x : Binary64} {n : Int32} {k m e : Nat}

/-! ### Bits -/

lemma magnitudeBits_ofSignMagnitude (negative : Bool) (hm : m < 0x8000000000000000) :
    (ofSignMagnitude negative m).magnitudeBits = m := by
  rw [magnitudeBits, ofSignMagnitude, UInt64.toNat_ofNat']
  cases negative <;> simp only [if_true, Bool.false_eq_true, if_false] <;> omega

lemma isNegative_ofSignMagnitude (negative : Bool) (hm : m < 0x8000000000000000) :
    (ofSignMagnitude negative m).isNegative = negative := by
  rw [isNegative, ofSignMagnitude, UInt64.toNat_ofNat']
  cases negative <;> simp only [if_true, Bool.false_eq_true, if_false, decide_eq_true_eq,
    decide_eq_false_iff_not] <;> omega

/-- A significand of 53 bits under an exponent. -/
lemma unitsOfBits_significand (hlow : 0x10000000000000 ≤ m) (hhigh : m < 0x20000000000000) :
    unitsOfBits (e * 0x10000000000000 + m) = m * 2 ^ e := by
  have hexponent : (e * 0x10000000000000 + m) / 0x10000000000000 = e + 1 := by omega
  have hfraction : 0x10000000000000 + (e * 0x10000000000000 + m) % 0x10000000000000 = m := by omega
  rw [unitsOfBits, hexponent, if_neg (Nat.succ_ne_zero e), hfraction, Nat.pow_eq,
    Nat.add_sub_cancel]

/-- Nothing is rounded where nothing is left over. -/
lemma roundEven_mul {d : Nat} (hd : 0 < d) : roundEven (m * d) d = m := by
  rw [roundEven, Nat.mul_div_cancel _ hd, Nat.mul_mod_left, if_pos hd]

/-- How many units make one, without the number being written out. -/
lemma exists_unitsPerOne : ∃ u, u = 1074 ∧ unitsPerOne = 2 ^ u := by
  unfold unitsPerOne
  generalize 1074 = u
  exact ⟨u, rfl, Nat.pow_eq⟩

lemma log2_mul_two_pow (hk : 0 < k) (j : Nat) : (k * 2 ^ j).log2 = k.log2 + j := by
  have hpos := Nat.two_pow_pos j
  refine (Nat.log2_eq_iff (Nat.mul_pos hk hpos).ne').2 ⟨?_, ?_⟩
  · rw [Nat.pow_add]
    exact Nat.mul_le_mul_right _ (Nat.log2_self_le hk.ne')
  · rw [Nat.add_right_comm, Nat.pow_add]
    exact Nat.mul_lt_mul_of_pos_right Nat.lt_log2_self hpos

/-- The significand of a whole number of up to 53 bits. -/
lemma bitsOfUnits_whole (hk : 0 < k) (hlt : k < 0x20000000000000) :
    bitsOfUnits (k * unitsPerOne) 1 =
      (k.log2 + 1022) * 0x10000000000000 + k * 2 ^ (52 - k.log2) := by
  have hlog : k.log2 ≤ 52 := Nat.lt_succ_iff.1 ((Nat.log2_lt hk.ne').2 hlt)
  obtain ⟨u, hu, hone⟩ := exists_unitsPerOne
  have hexponent : (k * unitsPerOne / 1).log2 - 52 = k.log2 + 1022 := by
    rw [Nat.div_one, hone, log2_mul_two_pow hk]
    omega
  have hsplit : k * unitsPerOne = k * 2 ^ (52 - k.log2) * (1 * 2 ^ (k.log2 + 1022)) := by
    rw [hone, Nat.one_mul, Nat.mul_assoc, ← Nat.pow_add,
      show 52 - k.log2 + (k.log2 + 1022) = u by omega]
  rw [bitsOfUnits, hexponent, Nat.pow_eq, hsplit,
    roundEven_mul (Nat.mul_pos Nat.one_pos (Nat.two_pow_pos _))]

lemma significand_bounds (hk : 0 < k) (hlt : k < 0x20000000000000) :
    0x10000000000000 ≤ k * 2 ^ (52 - k.log2) ∧ k * 2 ^ (52 - k.log2) < 0x20000000000000 := by
  have hlog : k.log2 ≤ 52 := Nat.lt_succ_iff.1 ((Nat.log2_lt hk.ne').2 hlt)
  have hlow : 2 ^ k.log2 ≤ k := Nat.log2_self_le hk.ne'
  have hhigh : k < 2 ^ (k.log2 + 1) := Nat.lt_log2_self
  have hpos := Nat.two_pow_pos (52 - k.log2)
  constructor
  · calc 0x10000000000000 = 2 ^ k.log2 * 2 ^ (52 - k.log2) := by
          rw [← Nat.pow_add, Nat.add_sub_cancel' hlog]
      _ ≤ k * 2 ^ (52 - k.log2) := Nat.mul_le_mul_right _ hlow
  · calc k * 2 ^ (52 - k.log2) < 2 ^ (k.log2 + 1) * 2 ^ (52 - k.log2) :=
          Nat.mul_lt_mul_of_pos_right hhigh hpos
      _ = 0x20000000000000 := by
          rw [← Nat.pow_add, show k.log2 + 1 + (52 - k.log2) = 53 by omega]

/-! ### Integers -/

/-- **A whole number of up to 53 bits is represented exactly.** -/
theorem value_ofInt {i : Int} (hi : i.natAbs < 0x20000000000000) :
    (ofInt i).value = i * unitsPerOne ∧ (ofInt i).isNaN = false := by
  -- The magnitude comes without rounding, and the sign is put back.
  have hmagnitude : ∃ b, min (bitsOfUnits (i.natAbs * unitsPerOne) 1) infinityBits = b ∧
      b ≤ infinityBits ∧ unitsOfBits b = i.natAbs * unitsPerOne := by
    refine ⟨_, rfl, Nat.min_le_right .., ?_⟩
    rcases Nat.eq_zero_or_pos i.natAbs with hzero | hpos
    · rw [hzero]
      decide +kernel
    · obtain ⟨hlow, hhigh⟩ := significand_bounds hpos hi
      have hlog : i.natAbs.log2 ≤ 52 := Nat.lt_succ_iff.1 ((Nat.log2_lt hpos.ne').2 hi)
      obtain ⟨u, hu, hone⟩ := exists_unitsPerOne
      rw [bitsOfUnits_whole hpos hi, Nat.min_eq_left (by rw [infinityBits]; omega),
        unitsOfBits_significand hlow hhigh, Nat.mul_assoc, ← Nat.pow_add, hone,
        show 52 - i.natAbs.log2 + (i.natAbs.log2 + 1022) = u by omega]
  obtain ⟨b, hb, hle, hunits⟩ := hmagnitude
  have hsmall : b < 0x8000000000000000 := Nat.lt_of_le_of_lt hle (by decide)
  rw [ofInt, ofUnits, hb]
  constructor
  · rw [value, units, magnitudeBits_ofSignMagnitude _ hsmall, isNegative_ofSignMagnitude _ hsmall,
      hunits]
    rw [Int.natCast_mul]
    split
    · next hneg =>
      rw [decide_eq_true_eq] at hneg
      rw [← Int.neg_mul, Int.natCast_natAbs, abs_of_neg hneg, Int.neg_neg]
    · next hpos =>
      rw [decide_eq_true_eq, not_lt] at hpos
      rw [Int.natCast_natAbs, abs_of_nonneg hpos]
  · rw [isNaN, magnitudeBits_ofSignMagnitude _ hsmall, decide_eq_false_iff_not, Nat.not_lt]
    exact hle

/-- A number that has no fraction is as many units as its integer part has. -/
lemma value_of_isIntegral (hx : x.isIntegral = true) : x.value = x.truncate * unitsPerOne := by
  rw [isIntegral, Bool.and_eq_true, decide_eq_true_iff] at hx
  obtain ⟨hfinite, hwhole⟩ := hx
  have hunits : (x.units : Int) = (x.units / unitsPerOne : Nat) * unitsPerOne := by
    rw [← Int.natCast_mul, Nat.div_mul_cancel (Nat.dvd_of_mod_eq_zero hwhole)]
  rw [value, truncate, if_pos hfinite]
  split
  · rw [Int.neg_mul, ← hunits]
  · exact hunits

/-- **A whole number that fits 32 bits equals the integer that stands for it.** -/
theorem same_ofInt_of_toInt32? (hx : x.toInt32? = some n) : x.same (.ofInt n.toInt) = true := by
  unfold toInt32? at hx
  split at hx
  · next hrange =>
    cases hx
    rw [Bool.and_eq_true, Bool.and_eq_true, decide_eq_true_iff, decide_eq_true_iff] at hrange
    obtain ⟨⟨hintegral, hlow⟩, hhigh⟩ := hrange
    have hint : (Int32.ofInt x.truncate).toInt = x.truncate :=
      Int32.toInt_ofInt_of_le hlow (by simpa using hhigh)
    have hnan : x.isNaN = false := by
      rw [isIntegral, Bool.and_eq_true, isFinite, decide_eq_true_iff] at hintegral
      rw [isNaN, decide_eq_false_iff_not]
      omega
    obtain ⟨hvalue, hnan'⟩ := value_ofInt (i := x.truncate) (by omega)
    rw [hint, same, hnan, hnan', hvalue, value_of_isIntegral hintegral]
    exact decide_eq_true rfl
  · cases hx

lemma unitsPerOne_pos : 0 < unitsPerOne := by
  obtain ⟨u, -, hone⟩ := exists_unitsPerOne
  rw [hone]
  exact Nat.two_pow_pos u

lemma natAbs_value (x : Binary64) : x.value.natAbs = x.units := by
  rw [value]
  split
  · rw [Int.natAbs_neg, Int.natAbs_natCast]
  · rw [Int.natAbs_natCast]

/-- **A number is the integer that it is equal to**, if that fits 32 bits. -/
theorem toInt32?_eq_some :
    x.toInt32? = some n ↔ x.isFinite = true ∧ x.value = n.toInt * unitsPerOne := by
  have hlow := n.le_toInt
  have hhigh := n.toInt_lt
  constructor
  · intro h
    unfold toInt32? at h
    split at h
    · next hrange =>
      simp only [Bool.and_eq_true, decide_eq_true_eq] at hrange
      obtain ⟨⟨hintegral, hlow⟩, hhigh⟩ := hrange
      have hn : n.toInt = x.truncate := by
        rw [← Option.some.inj h]
        exact Int32.toInt_ofInt_of_le hlow (by simpa using hhigh)
      rw [hn]
      exact ⟨(Bool.and_eq_true_iff.1 hintegral).1, value_of_isIntegral hintegral⟩
    · cases h
  · rintro ⟨hfinite, hvalue⟩
    have hunits : x.units = n.toInt.natAbs * unitsPerOne := by
      rw [← natAbs_value, hvalue, Int.natAbs_mul, Int.natAbs_natCast]
    have hintegral : x.isIntegral = true := by
      rw [isIntegral, hfinite, Bool.true_and, decide_eq_true_iff, hunits, Nat.mul_mod_left]
    have htruncate : x.truncate = n.toInt := by
      have h := (value_of_isIntegral hintegral).symm.trans hvalue
      exact Int.eq_of_mul_eq_mul_right (Int.natCast_ne_zero.2 unitsPerOne_pos.ne') h
    rw [toInt32?, hintegral, htruncate, Int32.ofInt_toInt, if_pos]
    simp only [Bool.true_and, Bool.and_eq_true, decide_eq_true_eq]
    exact ⟨hlow, hhigh⟩

/-- A number equals itself, unless it is none. -/
lemma same_self (hx : x.isNaN = false) : x.same x = true := by
  rw [same, hx]
  exact decide_eq_true rfl

end Number.Binary64

namespace Script.Value

open ScriptBridge.Number

/-- Strict equality of numbers, with which one that is none counts as equal to another. -/
def agrees (v w : Value) : Prop :=
  v.strictEqual w = true ∨
    ∃ x y, v.asNumber = some x ∧ w.asNumber = some y ∧ x.isNaN = true ∧ y.isNaN = true

lemma agrees_int (n : Int32) : (int n).agrees (int n) := by
  refine .inl ?_
  have hbound : n.toInt.natAbs < 0x20000000000000 := by
    have hlow := n.le_toInt
    have hhigh := n.toInt_lt
    omega
  exact Binary64.same_self (Binary64.value_ofInt hbound).2

/-- **A number equals what is made of it as a whole number.** -/
theorem agrees_ofWhole (x : Binary64) : (number x).agrees (ofWhole x) := by
  have hself : (number x).agrees (number x) := by
    cases hx : x.isNaN with
    | true => exact .inr ⟨x, x, rfl, rfl, hx, hx⟩
    | false => exact .inl (Binary64.same_self hx)
  rw [ofWhole]
  split
  · next n hn =>
    split
    · exact hself
    · exact .inl (Binary64.same_ofInt_of_toInt32? hn)
  · exact hself

end Script.Value

end ScriptBridge
