/-
# Dates that come back

An instant of the host goes into script as a number of milliseconds: its microseconds, as a double,
divided.  Script cuts the number to whole milliseconds, and multiplied again it gives microseconds.
For a whole number of milliseconds the only step that can lose anything is the first one.  So the
instant comes back exactly if a double can be as many microseconds, which are eight times as many as
a double can count one by one, and for instants further from 1970 it depends.
-/
import ScriptBridge.Engine.Convert
import ScriptBridge.Proofs.Number.Rounding
import ScriptBridge.Wire.Date

namespace ScriptBridge

open ScriptBridge.Calendar ScriptBridge.Number ScriptBridge.Wire

namespace Calendar.Instant

variable {t : Instant} {n : Int}

/-- Whole milliseconds since the start of 1970, rounded down. -/
def millis (t : Instant) : Int := t.seconds * 1000 + (t.nanos / 1000000 : Nat)

lemma micros_eq_of_whole (ht : t.nanos % 1000000 = 0) : t.micros = t.millis * 1000 := by
  rw [micros, millis]
  omega

/-- The instant that so many microseconds make. -/
lemma ofMicros?_eq_some :
    ofMicros? n = some t ↔ t.inCalendar = true ∧ t.nanos % 1000 = 0 ∧ t.micros = n := by
  rw [ofMicros?]
  constructor
  · intro h
    split at h
    · next hin =>
      cases h
      refine ⟨hin, Nat.mul_mod_left .., ?_⟩
      rw [micros]
      dsimp only
      omega
    · cases h
  · rintro ⟨hin, hnanos, rfl⟩
    have hlt : t.nanos < 1000000000 := by
      simp only [inCalendar, Bool.and_eq_true, decide_eq_true_eq] at hin
      exact hin.2
    have hself : (⟨t.micros / 1000000, (t.micros % 1000000).toNat * 1000⟩ : Instant) = t := by
      rw [micros]
      cases t with
      | mk seconds nanos =>
        simp only [mk.injEq]
        dsimp only at hnanos hlt
        omega
    rw [hself, if_pos hin]

/-- The calendar ends before script's times do. -/
lemma natAbs_millis_le (ht : t.inCalendar = true) : t.millis.natAbs ≤ Engine.maxTime := by
  simp only [inCalendar, Bool.and_eq_true, decide_eq_true_eq] at ht
  rw [firstSecond, endSecond, secondsPerDay] at ht
  rw [millis, Engine.maxTime]
  omega

end Calendar.Instant

namespace Engine

open Binary64

variable {t : Instant}

/-- What the host reads of an instant that it has put into script, where script keeps the time of a
date as whole milliseconds. -/
def instantBack? (t : Instant) : Option Instant := Date.toInstant? (clipTime (Date.ofInstant t))

/-- A number of up to 53 bits is not rounded. -/
lemma nearest_of_lt {k : Nat} (hk : k < 0x20000000000000) : nearest k = k :=
  nearest_eq_self.2 ⟨0, Nat.one_dvd k, hk⟩

lemma clipTime_ofInt {m : Int} (hm : m.natAbs ≤ maxTime) : clipTime (ofInt m) = ofInt m := by
  have hlt : m.natAbs < 0x20000000000000 := Nat.lt_of_le_of_lt hm (by decide)
  have h64 : m.natAbs < 2 ^ 64 := Nat.lt_trans hlt (by decide)
  rw [clipTime, truncate_ofInt h64 (nearest_of_lt hlt), if_pos ⟨(ofInt_spec h64).1, hm⟩]

/-- The instant of whole milliseconds that script can keep. -/
lemma toInstant?_ofInt {m : Int} (hm : m.natAbs ≤ maxTime) : Date.toInstant? (ofInt m) =
    Instant.ofMicros? (ofInt (m * 1000)).roundHalfAway := by
  have hlt : m.natAbs < 0x20000000000000 := Nat.lt_of_le_of_lt hm (by decide)
  have h64 : m.natAbs < 2 ^ 64 := Nat.lt_trans hlt (by decide)
  have hproduct : (m * 1000).natAbs < 2 ^ 64 := by
    rw [maxTime] at hm
    omega
  rw [Date.toInstant?, mul_ofInt h64 (by decide) (nearest_of_lt hlt) (nearest_of_lt (by decide))
    (by decide)]
  exact if_pos (ofInt_spec hproduct).1

/-- A time that script keeps is none, or whole milliseconds. -/
lemma clipTime_cases (x : Binary64) :
    clipTime x = nan ∨ ∃ m : Int, m.natAbs ≤ maxTime ∧ clipTime x = ofInt m := by
  unfold clipTime
  split
  · next h => exact .inr ⟨_, h.2, rfl⟩
  · exact .inl rfl

/-- **An instant of whole milliseconds comes back from script exactly if no more than 53 bits of the
number of its microseconds are significant.** -/
theorem instantBack?_eq_self (ht : t.inCalendar = true) (hwhole : t.nanos % 1000000 = 0) :
    instantBack? t = some t ↔ ∃ j, 2 ^ j ∣ t.micros.natAbs ∧ t.micros.natAbs < 2 ^ (53 + j) := by
  have hmillis := Instant.natAbs_millis_le ht
  have hmicros := Instant.micros_eq_of_whole hwhole
  have h64 : t.micros.natAbs < 2 ^ 64 := by
    rw [hmicros]
    rw [maxTime] at hmillis
    omega
  rw [← nearest_eq_self, instantBack?]
  constructor
  · intro h
    rcases clipTime_cases (Date.ofInstant t) with hnan | ⟨m, hm, htime⟩
    · rw [hnan] at h
      cases h
    · -- What comes back is a double that is whole.
      rw [htime, toInstant?_ofInt hm] at h
      obtain ⟨-, -, heq⟩ := Instant.ofMicros?_eq_some.1 h
      have hproduct : (m * 1000).natAbs < 2 ^ 64 := by
        rw [maxTime] at hm
        omega
      have hnearest : t.micros.natAbs = nearest (m * 1000).natAbs := by
        rw [heq, roundHalfAway_ofInt hproduct]
        split <;> simp
      rw [hnearest]
      exact nearest_eq_self.2 (exists_of_nearest _)
  · intro h
    -- Every step is exact.
    have hdate : Date.ofInstant t = ofInt t.millis := by
      rw [Date.ofInstant, hmicros]
      rw [hmicros] at h h64
      exact div_ofInt h64 (by decide) h (nearest_of_lt (by decide)) (by decide)
    rw [hdate, clipTime_ofInt hmillis, toInstant?_ofInt hmillis, ← hmicros,
      roundHalfAway_ofInt h64, h, signed_natAbs]
    exact Instant.ofMicros?_eq_some.2 ⟨ht, by omega, rfl⟩

end Engine

end ScriptBridge
