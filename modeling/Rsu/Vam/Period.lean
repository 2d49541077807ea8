import Rsu.Rcp.Encode
import Rsu.Vam.Broadcast

/-!
# The period that follows the speed

`_cal_peroid_from_speed` divides the safety factor by the speed and bounds the
quotient. The quotient passes through 16 bits before it is bounded, so a very slow
vehicle does not get the longest period.
-/

namespace Rsu.Vam

open Rsu.Rcp

/-- The distance of the safety factor over the speed, in whole milliseconds. -/
def wholeQuotient (bsmBoardcastSaftyfactor : Byte) (speed : ℚ) : Nat :=
  ⌊(bsmBoardcastSaftyfactor.toNat * 3600 : ℚ) / speed⌋₊

/-- A period between 100 and 3000, a multiple of 10. -/
def boundedPeriod (period : Nat) : Nat := max 100 (min 3000 period) / 10 * 10

variable {bsmBoardcastSaftyfactor : Byte} {speed faster : ℚ}

/-- The cast keeps the low 16 bits of the whole part. -/
theorem castU16_toNat {x : ℚ} (nonneg : 0 ≤ x) : (castU16 x).toNat = ⌊x⌋₊ % 65536 := by
  have whole : castU16 x = BitVec.ofInt 16 (truncate x) := rfl
  rw [whole, truncate_of_nonneg nonneg, ← Int.natCast_floor_eq_floor nonneg, BitVec.toNat_ofInt]
  omega

/-- A longer period is no shorter when it is bounded. -/
theorem boundedPeriod_mono {period longer : Nat} (le : period ≤ longer) :
    boundedPeriod period ≤ boundedPeriod longer :=
  Nat.mul_le_mul_right 10 (Nat.div_le_div_right (max_le_max_left 100 (min_le_min_left 3000 le)))

/-- The longest period stands for those that are longer. -/
theorem boundedPeriod_eq_max_iff {period : Nat} : boundedPeriod period = 3000 ↔ 3000 ≤ period := by
  rw [boundedPeriod]
  omega

/-- The bounds on 16 bits. -/
theorem toNat_bounded (period : BitVec 16) :
    (if period < 100 then 100 else if period > 3000 then 3000 else period / 10 * 10).toNat =
      boundedPeriod period.toNat := by
  rw [boundedPeriod]
  by_cases short : period < 100
  · rw [if_pos short]
    bv_omega
  · by_cases long : period > 3000
    · rw [if_neg short, if_pos long]
      bv_omega
    · have low : 100 ≤ period.toNat := by bv_omega
      have high : period.toNat ≤ 3000 := by bv_omega
      have ten : (10 : BitVec 16).toNat = 10 := rfl
      rw [if_neg short, if_neg long, BitVec.toNat_mul, BitVec.toNat_udiv, ten]
      omega

/-- The bounds are put on what is left of the quotient. -/
theorem calPeroidFromSpeed_toNat (moving : 0 < speed) :
    (calPeroidFromSpeed speed bsmBoardcastSaftyfactor).toNat =
      boundedPeriod (wholeQuotient bsmBoardcastSaftyfactor speed % 65536) := by
  have nonneg : 0 ≤ (bsmBoardcastSaftyfactor.toNat * 3600 : ℚ) / speed :=
    div_nonneg (by positivity) moving.le
  have cast := castU16_toNat nonneg
  rw [calPeroidFromSpeed, if_neg moving.ne', toNat_bounded, wholeQuotient, ← cast]
  push_cast
  rfl

/-- A faster vehicle has a quotient that is not larger. -/
theorem wholeQuotient_anti (moving : 0 < speed) (le : speed ≤ faster) :
    wholeQuotient bsmBoardcastSaftyfactor faster ≤ wholeQuotient bsmBoardcastSaftyfactor speed :=
  Nat.floor_le_floor (div_le_div_of_nonneg_left (by positivity) moving le)

/-- The period is the bounded quotient, and no faster vehicle has a longer one,
exactly when the quotient fits 16 bits or what is left of it is still too long. A
vehicle at rest always has the longest period. -/
theorem period_from_speed_iff (bsmBoardcastSaftyfactor : Byte) (speed : ℚ) (moving : 0 < speed) :
    (calPeroidFromSpeed 0 bsmBoardcastSaftyfactor).toNat = 3000 ∧
      (((calPeroidFromSpeed speed bsmBoardcastSaftyfactor).toNat =
          boundedPeriod (wholeQuotient bsmBoardcastSaftyfactor speed) ∧
        ∀ faster, speed ≤ faster → (calPeroidFromSpeed faster bsmBoardcastSaftyfactor).toNat ≤
          (calPeroidFromSpeed speed bsmBoardcastSaftyfactor).toNat) ↔
      (wholeQuotient bsmBoardcastSaftyfactor speed < 65536 ∨
        3000 ≤ wholeQuotient bsmBoardcastSaftyfactor speed % 65536)) := by
  have resting : calPeroidFromSpeed 0 bsmBoardcastSaftyfactor = 3000 := by
    rw [calPeroidFromSpeed, if_pos rfl]
    decide
  refine ⟨by rw [resting]; rfl, ?_⟩
  rw [calPeroidFromSpeed_toNat moving]
  constructor
  · rintro ⟨exact, -⟩
    by_contra slow
    rw [not_or, Nat.not_lt, Nat.not_le] at slow
    have long : 3000 ≤ wholeQuotient bsmBoardcastSaftyfactor speed := by omega
    rw [boundedPeriod_eq_max_iff.2 long, boundedPeriod_eq_max_iff] at exact
    omega
  · intro fits
    have exact : boundedPeriod (wholeQuotient bsmBoardcastSaftyfactor speed % 65536) =
        boundedPeriod (wholeQuotient bsmBoardcastSaftyfactor speed) := by
      rcases fits with small | long
      · rw [Nat.mod_eq_of_lt small]
      · rw [boundedPeriod_eq_max_iff.2 long,
          boundedPeriod_eq_max_iff.2 (long.trans (Nat.mod_le _ _))]
    refine ⟨exact, fun faster le => ?_⟩
    rw [exact, calPeroidFromSpeed_toNat (moving.trans_le le)]
    calc boundedPeriod (wholeQuotient bsmBoardcastSaftyfactor faster % 65536)
        ≤ boundedPeriod (wholeQuotient bsmBoardcastSaftyfactor faster) :=
          boundedPeriod_mono (Nat.mod_le _ _)
      _ ≤ boundedPeriod (wholeQuotient bsmBoardcastSaftyfactor speed) :=
          boundedPeriod_mono (wholeQuotient_anti moving le)

/-- A vehicle in a town has its period. -/
theorem town_speed_period :
    wholeQuotient 5 50 = 360 ∧ (calPeroidFromSpeed 50 5).toNat = boundedPeriod (wholeQuotient 5 50) := by
  have quotient : wholeQuotient 5 50 = 360 := by decide +kernel
  have fits : wholeQuotient 5 50 < 65536 ∨ 3000 ≤ wholeQuotient 5 50 % 65536 := by
    rw [quotient]
    exact .inl (by decide)
  exact ⟨quotient, ((period_from_speed_iff 5 50 (by norm_num)).2.2 fits).1⟩

/-- At 0.27 km/h the quotient is 66666, and the vehicle sends every 1130 ms. -/
theorem creeping_period_wraps :
    wholeQuotient 5 (27 / 100) = 66666 ∧ (calPeroidFromSpeed (27 / 100) 5).toNat = 1130 ∧
      boundedPeriod (wholeQuotient 5 (27 / 100)) = 3000 ∧
      (calPeroidFromSpeed (27 / 100) 5).toNat < (calPeroidFromSpeed 1 5).toNat := by
  refine ⟨?_, ?_, ?_, ?_⟩ <;> decide +kernel

end Rsu.Vam
