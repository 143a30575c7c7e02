/-
# Rounding whole numbers

A double has 53 significant bits.  The double nearest to a larger whole number is again whole: the
number rounded to a multiple of a power of two.  It is the number itself if no more than 53 bits of
the number are significant, and then products with other such numbers, and quotients that come out
even, are rounded just once.
-/
import ScriptBridge.Proofs.Number.Whole

namespace ScriptBridge.Number.Binary64

variable {k c d n j e m : Nat} {i : Int}

/-! ### Rounding to nearest -/

/-- Numerator and denominator may be multiplied by the same number. -/
lemma roundEven_mul_right (hc : 0 < c) : roundEven (n * c) (d * c) = roundEven n d := by
  have htwice : 2 * (n % d * c) = 2 * (n % d) * c := (Nat.mul_assoc ..).symm
  rw [roundEven, roundEven, Nat.mul_div_mul_right _ _ hc, Nat.mul_mod_mul_right]
  simp only [htwice, Nat.mul_lt_mul_right hc]

lemma bitsOfUnits_mul_right (hc : 0 < c) : bitsOfUnits (n * c) (d * c) = bitsOfUnits n d := by
  rw [bitsOfUnits, bitsOfUnits, Nat.mul_div_mul_right _ _ hc, Nat.mul_right_comm,
    roundEven_mul_right hc]

lemma roundEven_mul_of_dvd (hd : 0 < d) (h : d ∣ n) : roundEven n d * d = n := by
  obtain ⟨q, rfl⟩ := h
  rw [Nat.mul_comm d q, roundEven_mul hd]

/-- What is rounded is at most one more than the quotient. -/
lemma roundEven_bounds (n d : Nat) : n / d ≤ roundEven n d ∧ roundEven n d ≤ n / d + 1 := by
  unfold roundEven
  dsimp only
  split
  · omega
  · split <;> omega

/-- The whole number with at most 53 significant bits that is nearest to another. -/
def nearest (k : Nat) : Nat := roundEven k (2 ^ (k.log2 - 52)) * 2 ^ (k.log2 - 52)

/-- Only 53 bits of what is nearest are significant. -/
lemma exists_of_nearest (k : Nat) : ∃ j, 2 ^ j ∣ nearest k ∧ nearest k < 2 ^ (53 + j) := by
  have hpos := Nat.two_pow_pos (k.log2 - 52)
  have hquotient : k / 2 ^ (k.log2 - 52) < 2 ^ 53 := by
    rw [Nat.div_lt_iff_lt_mul hpos, ← Nat.pow_add]
    exact Nat.lt_of_lt_of_le Nat.lt_log2_self (Nat.pow_le_pow_right Nat.two_pos (by omega))
  have hle : roundEven k (2 ^ (k.log2 - 52)) ≤ 2 ^ 53 :=
    Nat.le_trans (roundEven_bounds ..).2 hquotient
  rcases Nat.lt_or_eq_of_le hle with hlt | heq
  · refine ⟨k.log2 - 52, Nat.dvd_mul_left .., ?_⟩
    rw [Nat.pow_add]
    exact Nat.mul_lt_mul_of_pos_right hlt hpos
  · -- The significand has carried into one bit more, and that is a zero.
    have hnearest : nearest k = 2 ^ (53 + (k.log2 - 52)) := by rw [nearest, heq, Nat.pow_add]
    refine ⟨k.log2 - 52 + 1, ?_, ?_⟩ <;> rw [hnearest]
    · exact Nat.pow_dvd_pow 2 (by omega)
    · exact Nat.pow_lt_pow_right Nat.one_lt_two (by omega)

/-- **What is rounded to itself**: a number that has at most 53 significant bits. -/
theorem nearest_eq_self : nearest k = k ↔ ∃ j, 2 ^ j ∣ k ∧ k < 2 ^ (53 + j) := by
  refine ⟨fun h => h ▸ exists_of_nearest k, ?_⟩
  rintro ⟨j, hdvd, hlt⟩
  rcases Nat.eq_zero_or_pos k with rfl | hpos
  · decide
  · have hlog : k.log2 < 53 + j := (Nat.log2_lt hpos.ne').2 hlt
    exact roundEven_mul_of_dvd (Nat.two_pow_pos _) ((Nat.pow_dvd_pow 2 (by omega)).trans hdvd)

/-! ### The double nearest to an integer -/

/-- A significand under an exponent, which it may carry into. -/
lemma unitsOfBits_carry (hlow : 0x10000000000000 ≤ m) (hhigh : m ≤ 0x20000000000000) :
    unitsOfBits (e * 0x10000000000000 + m) = m * 2 ^ e := by
  rcases Nat.lt_or_eq_of_le hhigh with hlt | rfl
  · exact unitsOfBits_significand hlow hlt
  · have hcarry : e * 0x10000000000000 + 0x20000000000000 =
        (e + 1) * 0x10000000000000 + 0x10000000000000 := by ring
    rw [hcarry, unitsOfBits_significand (Nat.le_refl _) (by decide), Nat.pow_succ]
    ring

/-- The significand of a whole number, rounded. -/
lemma significand_nearest (hk : 0 < k) :
    ∃ m, bitsOfUnits (k * unitsPerOne) 1 = (k.log2 + 1022) * 0x10000000000000 + m ∧
      0x10000000000000 ≤ m ∧ m ≤ 0x20000000000000 ∧
      m * 2 ^ (k.log2 + 1022) = nearest k * unitsPerOne := by
  obtain ⟨u, hu, hone⟩ := exists_unitsPerOne
  have hexponent : (k * unitsPerOne / 1).log2 - 52 = k.log2 + 1022 := by
    rw [Nat.div_one, hone, log2_mul_two_pow hk]
    omega
  refine ⟨_, by rw [bitsOfUnits, hexponent], ?_⟩
  rw [Nat.one_mul, Nat.pow_eq]
  rcases Nat.lt_or_ge k.log2 52 with hlog | hlog
  · -- Fewer bits than a significand has: nothing is rounded.
    have hlt : k < 0x20000000000000 := Nat.lt_trans ((Nat.log2_lt hk.ne').1 hlog) (by decide)
    obtain ⟨hlow, hhigh⟩ := significand_bounds hk hlt
    have hsplit : k * unitsPerOne = k * 2 ^ (52 - k.log2) * 2 ^ (k.log2 + 1022) := by
      rw [hone, Nat.mul_assoc, ← Nat.pow_add, show 52 - k.log2 + (k.log2 + 1022) = u by omega]
    have hself : nearest k = k := nearest_eq_self.2 ⟨0, Nat.one_dvd k, hlt⟩
    rw [hself, hsplit, roundEven_mul (Nat.two_pow_pos _)]
    exact ⟨hlow, hhigh.le, rfl⟩
  · have hpos := Nat.two_pow_pos (k.log2 - 52)
    -- Both sides are scaled by what the significand leaves out.
    have hscale : 2 ^ (k.log2 + 1022) = 2 ^ (k.log2 - 52) * unitsPerOne := by
      rw [hone, ← Nat.pow_add, show k.log2 - 52 + u = k.log2 + 1022 by omega]
    rw [hscale, roundEven_mul_right unitsPerOne_pos, nearest, Nat.mul_assoc]
    obtain ⟨hle, hge⟩ := roundEven_bounds k (2 ^ (k.log2 - 52))
    refine ⟨Nat.le_trans ?_ hle, Nat.le_trans hge ?_, rfl⟩
    · rw [Nat.le_div_iff_mul_le hpos, show 0x10000000000000 = 2 ^ 52 from rfl, ← Nat.pow_add,
        Nat.add_sub_cancel' hlog]
      exact Nat.log2_self_le hk.ne'
    · rw [Nat.succ_le_iff, Nat.div_lt_iff_lt_mul hpos, show 0x20000000000000 = 2 ^ 53 from rfl,
        ← Nat.pow_add, show 53 + (k.log2 - 52) = k.log2 + 1 by omega]
      exact Nat.lt_log2_self

/-- **The double nearest to an integer** is finite, has its sign, and is whole: its magnitude is
rounded to 53 significant bits. -/
theorem ofInt_spec (hi : i.natAbs < 2 ^ 64) : (ofInt i).isFinite = true ∧
    (ofInt i).isNegative = decide (i < 0) ∧ (ofInt i).units = nearest i.natAbs * unitsPerOne := by
  have hmagnitude : ∃ b, min (bitsOfUnits (i.natAbs * unitsPerOne) 1) infinityBits = b ∧
      b < infinityBits ∧ unitsOfBits b = nearest i.natAbs * unitsPerOne := by
    rcases Nat.eq_zero_or_pos i.natAbs with hzero | hpos
    · rw [hzero]
      exact ⟨0, by decide +kernel, by decide, by decide +kernel⟩
    · obtain ⟨m, hbits, hlow, hhigh, hunits⟩ := significand_nearest hpos
      have hlog : i.natAbs.log2 < 64 := (Nat.log2_lt hpos.ne').2 hi
      have hsmall : (i.natAbs.log2 + 1022) * 0x10000000000000 + m < infinityBits := by
        rw [infinityBits]
        omega
      refine ⟨_, rfl, ?_⟩
      rw [hbits, Nat.min_eq_left hsmall.le, unitsOfBits_carry hlow hhigh]
      exact ⟨hsmall, hunits⟩
  obtain ⟨b, hb, hlt, hunits⟩ := hmagnitude
  have hsmall : b < 0x8000000000000000 := Nat.lt_trans hlt (by decide)
  rw [ofInt, ofUnits, hb, isFinite, units, magnitudeBits_ofSignMagnitude _ hsmall,
    isNegative_ofSignMagnitude _ hsmall]
  exact ⟨decide_eq_true hlt, rfl, hunits⟩

lemma isNaN_of_isFinite {x : Binary64} (hx : x.isFinite = true) : x.isNaN = false := by
  rw [isFinite, decide_eq_true_iff] at hx
  rw [isNaN, decide_eq_false_iff_not]
  omega

/-! ### Arithmetic with whole numbers -/

/-- The magnitude of a whole number with its sign. -/
lemma signed_natAbs (i : Int) : (if i < 0 then -(i.natAbs : Int) else i.natAbs) = i := by
  split <;> omega

lemma units_ofInt (hi : i.natAbs < 2 ^ 64) (hexact : nearest i.natAbs = i.natAbs) :
    (ofInt i).units = i.natAbs * unitsPerOne := by
  rw [(ofInt_spec hi).2.2, hexact]

/-- The double nearest to an integer is whole. -/
lemma roundHalfAway_ofInt (hi : i.natAbs < 2 ^ 64) : (ofInt i).roundHalfAway =
    if i < 0 then -(nearest i.natAbs : Int) else nearest i.natAbs := by
  obtain ⟨hfinite, hsign, hunits⟩ := ofInt_spec hi
  have hpos := unitsPerOne_pos
  have hwhole : (2 * (ofInt i).units + unitsPerOne) / (2 * unitsPerOne) = nearest i.natAbs := by
    rw [hunits]
    generalize nearest i.natAbs = n, unitsPerOne = u at hpos
    refine Nat.div_eq_of_lt_le ?_ ?_
    · calc n * (2 * u) = 2 * (n * u) := by ring
        _ ≤ 2 * (n * u) + u := Nat.le_add_right ..
    · calc 2 * (n * u) + u < 2 * (n * u) + 2 * u := by omega
        _ = (n + 1) * (2 * u) := by ring
  rw [roundHalfAway, if_pos hfinite, hsign, hwhole]
  simp only [decide_eq_true_eq]

lemma truncate_ofInt (hi : i.natAbs < 2 ^ 64) (hexact : nearest i.natAbs = i.natAbs) :
    (ofInt i).truncate = i := by
  obtain ⟨hfinite, hsign, -⟩ := ofInt_spec hi
  rw [truncate, if_pos hfinite, hsign, units_ofInt hi hexact, Nat.mul_div_cancel _ unitsPerOne_pos]
  simp only [decide_eq_true_eq]
  exact signed_natAbs i

lemma ofUnits_mul_self (negative : Bool) (n : Nat) (hc : 0 < c) :
    ofUnits negative (n * c) c = ofUnits negative n 1 := by
  have h := bitsOfUnits_mul_right (n := n) (d := 1) hc
  rw [Nat.one_mul] at h
  rw [ofUnits, ofUnits, h]

lemma decide_neg_bne {a b : Int} (hb : 0 < b) :
    (decide (a < 0) != decide (b < 0)) = decide (a * b < 0) := by
  rw [decide_eq_false (Int.not_lt.2 hb.le), Bool.bne_false]
  refine decide_eq_decide.2 ⟨fun h => Int.mul_neg_of_neg_of_pos h hb, fun h => ?_⟩
  by_contra hge
  exact Int.not_lt.2 (Int.mul_nonneg (Int.not_lt.1 hge) hb.le) h

/-- **A product of whole numbers is rounded once.** -/
theorem mul_ofInt {a b : Int} (ha : a.natAbs < 2 ^ 64) (hb : b.natAbs < 2 ^ 64)
    (ha' : nearest a.natAbs = a.natAbs) (hb' : nearest b.natAbs = b.natAbs) (hpos : 0 < b) :
    (ofInt a).mul (ofInt b) = ofInt (a * b) := by
  obtain ⟨hfa, hsa, -⟩ := ofInt_spec ha
  obtain ⟨hfb, hsb, -⟩ := ofInt_spec hb
  have hunits : (ofInt a).units * (ofInt b).units =
      (a * b).natAbs * unitsPerOne * unitsPerOne := by
    rw [units_ofInt ha ha', units_ofInt hb hb', Int.natAbs_mul]
    ring
  rw [mul, isNaN_of_isFinite hfa, isNaN_of_isFinite hfb, hfa, hfb, hsa, hsb, decide_neg_bne hpos,
    hunits, ofUnits_mul_self _ _ unitsPerOne_pos]
  rfl

/-- **A quotient of whole numbers that comes out even is rounded once.** -/
theorem div_ofInt {q b : Int} (hq : (q * b).natAbs < 2 ^ 64) (hb : b.natAbs < 2 ^ 64)
    (hq' : nearest (q * b).natAbs = (q * b).natAbs) (hb' : nearest b.natAbs = b.natAbs)
    (hpos : 0 < b) : (ofInt (q * b)).div (ofInt b) = ofInt q := by
  obtain ⟨hfq, hsq, -⟩ := ofInt_spec hq
  obtain ⟨hfb, hsb, -⟩ := ofInt_spec hb
  have hunitsb := units_ofInt hb hb'
  have hposb : 0 < (ofInt b).units := by
    rw [hunitsb]
    exact Nat.mul_pos (Int.natAbs_pos.2 hpos.ne') unitsPerOne_pos
  have hunits : (ofInt (q * b)).units * unitsPerOne =
      q.natAbs * unitsPerOne * (ofInt b).units := by
    rw [units_ofInt hq hq', hunitsb, Int.natAbs_mul]
    ring
  have hsign : (decide (q * b < 0) != decide (b < 0)) = decide (q < 0) := by
    rw [← decide_neg_bne hpos, decide_eq_false (Int.not_lt.2 hpos.le), Bool.bne_false,
      Bool.bne_false]
  rw [div, isNaN_of_isFinite hfq, isNaN_of_isFinite hfb, hfq, hfb, hsq, hsb, hsign, hunits]
  simp only [Bool.or_self, Bool.false_eq_true, if_false, Bool.not_true, hposb.ne']
  exact ofUnits_mul_self _ _ hposb

end ScriptBridge.Number.Binary64
