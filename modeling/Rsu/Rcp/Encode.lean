import Mathlib.Data.Rat.Floor
import Mathlib.Tactic.Linarith
import Mathlib.Tactic.NormNum
import Mathlib.Tactic.Ring
import Rsu.Rcp.Codec

/-!
# Encoding of the fields

The encoders of `cv_vam_rcp.c`, and how close a decoded field is to the value that
was encoded. The conversion of a float that does not fit its integer type is left
open (`FloatCast`): every integer is at least one unit away from such a float, so
a field is off by less than one unit exactly if its value fits.
-/

namespace Rsu.Rcp

/-- The conversion of a float to an integer type that holds it: towards zero. -/
def truncate (x : ℚ) : Int := x.num.tdiv x.den

/-- The conversions of floats to integers; what does not fit becomes anything. -/
structure FloatCast where
  toU8 : ℚ → Byte
  toU16 : ℚ → BitVec 16
  toI32 : ℚ → BitVec 32
  toU8_fits : ∀ x : ℚ, -1 < x → x < 256 → ((toU8 x).toNat : Int) = truncate x
  toU16_fits : ∀ x : ℚ, -1 < x → x < 65536 → ((toU16 x).toNat : Int) = truncate x
  toI32_fits : ∀ x : ℚ, -2147483649 < x → x < 2147483648 → (toI32 x).toInt = truncate x

/-- `encode_longtitude`, which also encodes latitudes and accuracies. -/
def encodeLongtitude (cast : FloatCast) (x : ℚ) : BitVec 32 := cvNtohl (cast.toI32 (x * 10000000))

/-- `encode_elevation` -/
def encodeElevation (cast : FloatCast) (x : ℚ) : BitVec 16 := cvNtohs (cast.toU16 x)

/-- `encode_speed` -/
def encodeSpeed (cast : FloatCast) (x : ℚ) : BitVec 16 := cvNtohs (cast.toU16 (x * 100000 / 3600))

/-- `encode_heading` -/
def encodeHeading (cast : FloatCast) (x : ℚ) : BitVec 16 := cvNtohs (cast.toU16 (x * 80))

/-- `encode_acce_lon`, `encode_acce_lat` and `encode_acce_vert` -/
def encodeAcce (cast : FloatCast) (x : ℚ) : BitVec 16 := cvNtohs (cast.toU16 x)

/-- `encode_acce_yaw` -/
def encodeAcceYaw (cast : FloatCast) (x : ℚ) : Byte := cast.toU8 x

/-- A value that is not negative is cut to its floor. -/
theorem truncate_of_nonneg {x : ℚ} (nonneg : 0 ≤ x) : truncate x = ⌊x⌋ := by
  rw [truncate, Int.tdiv_eq_ediv_of_nonneg (Rat.num_nonneg.2 nonneg), Rat.floor_def']

/-- Cutting is symmetric. -/
theorem truncate_neg (x : ℚ) : truncate (-x) = -truncate x := by
  rw [truncate, Rat.neg_num, Rat.neg_den, Int.neg_tdiv, truncate]

/-- Cutting loses less than one unit. -/
theorem abs_truncate_sub_lt (x : ℚ) : |(truncate x : ℚ) - x| < 1 := by
  have upwards : ∀ y : ℚ, 0 ≤ y → |(truncate y : ℚ) - y| < 1 := by
    intro y nonneg
    rw [truncate_of_nonneg nonneg, abs_sub_comm, Int.self_sub_floor,
      abs_of_nonneg (Int.fract_nonneg y)]
    exact Int.fract_lt_one y
  by_cases nonneg : 0 ≤ x
  · exact upwards x nonneg
  · have mirrored := upwards (-x) (by linarith)
    rw [truncate_neg, Int.cast_neg, ← neg_sub', abs_neg] at mirrored
    exact mirrored

/-- A value above an integer that is not positive is not cut below the next one. -/
theorem le_truncate {x : ℚ} {n : Int} (negative : n ≤ 0) (above : (n : ℚ) - 1 < x) :
    n ≤ truncate x := by
  by_cases nonneg : 0 ≤ x
  · rw [truncate_of_nonneg nonneg]
    exact negative.trans (Int.floor_nonneg.2 nonneg)
  · have mirrored : truncate x = -⌊-x⌋ := by
      rw [← truncate_of_nonneg (by linarith : 0 ≤ -x), truncate_neg, neg_neg]
    have below : ⌊-x⌋ < -n + 1 := by
      rw [Int.floor_lt]
      push_cast
      linarith
    omega

/-- A value below a positive integer is not cut above the one before. -/
theorem truncate_lt {x : ℚ} {n : Int} (positive : 0 < n) (below : x < n) : truncate x < n := by
  by_cases nonneg : 0 ≤ x
  · rw [truncate_of_nonneg nonneg]
    exact Int.floor_lt.2 below
  · have mirrored : truncate x = -⌊-x⌋ := by
      rw [← truncate_of_nonneg (by linarith : 0 ≤ -x), truncate_neg, neg_neg]
    have above : 0 ≤ ⌊-x⌋ := Int.floor_nonneg.2 (by linarith)
    omega

/-- The conversions that keep the low bits of what does not fit. -/
def FloatCast.wrapping : FloatCast where
  toU8 x := BitVec.ofInt 8 (truncate x)
  toU16 x := BitVec.ofInt 16 (truncate x)
  toI32 x := BitVec.ofInt 32 (truncate x)
  toU8_fits x above below := by
    have low : 0 ≤ truncate x := le_truncate (Int.le_refl 0) (by simpa using above)
    have high : truncate x < 256 := truncate_lt (by decide) (by exact_mod_cast below)
    rw [BitVec.toNat_ofInt]
    omega
  toU16_fits x above below := by
    have low : 0 ≤ truncate x := le_truncate (Int.le_refl 0) (by simpa using above)
    have high : truncate x < 65536 := truncate_lt (by decide) (by exact_mod_cast below)
    rw [BitVec.toNat_ofInt]
    omega
  toI32_fits x above below := by
    have low : -2147483648 ≤ truncate x :=
      le_truncate (by decide) (by push_cast; linarith)
    have high : truncate x < 2147483648 := truncate_lt (by decide) (by exact_mod_cast below)
    rw [BitVec.toInt_ofInt]
    exact Int.bmod_eq_of_le (by omega) (by omega)

/-- An integer of a range is within a unit of a value exactly if the range fits the value. -/
theorem close_iff {x low high : ℚ} {n : Int} (atLeast : low + 1 ≤ n) (atMost : n ≤ high - 1)
    (fits : low < x → x < high → n = truncate x) : |(n : ℚ) - x| < 1 ↔ low < x ∧ x < high := by
  constructor
  · intro close
    obtain ⟨above, below⟩ := abs_sub_lt_iff.1 close
    constructor <;> linarith
  · rintro ⟨above, below⟩
    rw [fits above below]
    exact abs_truncate_sub_lt x

/-- A unit of a scaled field. -/
theorem scaled_iff {scale : ℚ} (positive : 0 < scale) (n x : ℚ) :
    |n / scale - x| < 1 / scale ↔ |n - x * scale| < 1 := by
  have split : n - x * scale = (n / scale - x) * scale := by
    rw [sub_mul, div_mul_cancel₀ n (ne_of_gt positive)]
  rw [split, abs_mul, abs_of_pos positive, lt_div_iff₀ positive]

namespace FloatCast

variable (cast : FloatCast) (x : ℚ)

/-- A cast to a byte is close exactly if the value is in the range. -/
theorem toU8_close_iff : |((cast.toU8 x).toNat : ℚ) - x| < 1 ↔ -1 < x ∧ x < 256 := by
  have bound : ((cast.toU8 x).toNat : ℚ) ≤ 255 := by
    exact_mod_cast Nat.le_of_lt_succ (cast.toU8 x).isLt
  have close := close_iff (n := (cast.toU8 x).toNat) (by simp) (by push_cast; linarith)
    (cast.toU8_fits x)
  simpa using close

theorem toU16_close_iff : |((cast.toU16 x).toNat : ℚ) - x| < 1 ↔ -1 < x ∧ x < 65536 := by
  have bound : ((cast.toU16 x).toNat : ℚ) ≤ 65535 := by
    exact_mod_cast Nat.le_of_lt_succ (cast.toU16 x).isLt
  have close := close_iff (n := (cast.toU16 x).toNat) (by simp) (by push_cast; linarith)
    (cast.toU16_fits x)
  simpa using close

theorem toI32_close_iff :
    |((cast.toI32 x).toInt : ℚ) - x| < 1 ↔ -2147483649 < x ∧ x < 2147483648 := by
  have lower : -2147483648 ≤ (cast.toI32 x).toInt := BitVec.le_toInt _
  have upper : (cast.toI32 x).toInt ≤ 2147483647 := Int.le_of_lt_add_one (BitVec.toInt_lt)
  have lowerRat : (-2147483648 : ℚ) ≤ (cast.toI32 x).toInt := by exact_mod_cast lower
  have upperRat : ((cast.toI32 x).toInt : ℚ) ≤ 2147483647 := by exact_mod_cast upper
  exact close_iff (by linarith) (by linarith) (cast.toI32_fits x)

end FloatCast

section Fields

variable (cast : FloatCast) (x : ℚ)

/-- Longitudes, latitudes and accuracies. -/
theorem longtitude_close_iff :
    |decodeLongtitude (encodeLongtitude cast x) - x| < 1 / 10000000 ↔
      -2147483649 < x * 10000000 ∧ x * 10000000 < 2147483648 := by
  rw [decodeLongtitude, encodeLongtitude, cvNtohl_cvNtohl, scaled_iff (by norm_num),
    cast.toI32_close_iff]

/-- An elevation comes back close exactly if it fits its field. -/
theorem elevation_close_iff :
    |decodeElevation (encodeElevation cast x) - x| < 1 ↔ -1 < x ∧ x < 65536 := by
  rw [decodeElevation, encodeElevation, cvNtohs_cvNtohs, cast.toU16_close_iff]

/-- A decoded speed in units of the encoding. -/
theorem decodeSpeed_eq (word : BitVec 16) :
    decodeSpeed word = ((cvNtohs word).toNat : ℚ) / (100000 / 3600) := by
  rw [decodeSpeed, Nat.cast_mul]
  ring

theorem speed_close_iff :
    |decodeSpeed (encodeSpeed cast x) - x| < 3600 / 100000 ↔
      -1 < x * 100000 / 3600 ∧ x * 100000 / 3600 < 65536 := by
  have unit : (3600 / 100000 : ℚ) = 1 / (100000 / 3600) := by norm_num
  rw [decodeSpeed_eq, encodeSpeed, cvNtohs_cvNtohs, unit, scaled_iff (by norm_num),
    ← mul_div_assoc, cast.toU16_close_iff]

theorem heading_close_iff :
    |decodeHeading (encodeHeading cast x) - x| < 1 / 80 ↔ -1 < x * 80 ∧ x * 80 < 65536 := by
  rw [decodeHeading, encodeHeading, cvNtohs_cvNtohs, scaled_iff (by norm_num),
    cast.toU16_close_iff]

/-- The three accelerations. -/
theorem acce_close_iff : |decodeAcce (encodeAcce cast x) - x| < 1 ↔ -1 < x ∧ x < 65536 := by
  rw [decodeAcce, encodeAcce, cvNtohs_cvNtohs, cast.toU16_close_iff]

theorem acceYaw_close_iff :
    |decodeAcceYaw (encodeAcceYaw cast x) - x| < 1 ↔ -1 < x ∧ x < 256 := by
  rw [decodeAcceYaw, encodeAcceYaw, cast.toU8_close_iff]

end Fields

section SpeedField

/-- The two bytes change places. -/
theorem cvNtohs_toNat (word : BitVec 16) :
    (cvNtohs word).toNat = word.toNat % 256 * 256 + word.toNat / 256 := by
  have bound := word.isLt
  have small : word.toNat / 256 < 2 ^ 8 := by omega
  rw [cvNtohs, BitVec.toNat_append, BitVec.extractLsb'_toNat, BitVec.extractLsb'_toNat,
    Nat.shiftRight_zero, Nat.shiftRight_eq_div_pow, Nat.mod_eq_of_lt small,
    ← Nat.shiftLeft_add_eq_or_of_lt small, Nat.shiftLeft_eq]

/-- The bit field of an alert for an encoded speed: it is assigned after the exchange of
the bytes, so the three bits it lacks are bits five to seven of the speed. -/
def speedField (speed : BitVec 16) : BitVec 13 := speed.setWidth 13

/-- The bit field of the speed loses three bits. -/
theorem speedField_toNat (word : BitVec 16) :
    (cvNtohs ((speedField (cvNtohs word)).setWidth 16)).toNat =
      word.toNat / 256 * 256 + word.toNat % 32 := by
  have bound := word.isLt
  have cut : ∀ high low, high < 256 → (low * 256 + high) % 2 ^ 13 = low % 32 * 256 + high := by
    intro high low small
    omega
  rw [cvNtohs_toNat, BitVec.toNat_setWidth, speedField, BitVec.toNat_setWidth, cvNtohs_toNat,
    cut _ _ (by omega), Nat.mod_mod_of_dvd word.toNat (show 32 ∣ 256 by decide)]
  have high : word.toNat / 256 < 256 := by omega
  have low : word.toNat % 32 < 32 := Nat.mod_lt _ (by decide)
  generalize word.toNat / 256 = high at *
  generalize word.toNat % 32 = low at *
  omega

/-- A speed that went through the bit field is close exactly if bits five to seven of
its encoding are zero. -/
theorem speedField_close_iff (cast : FloatCast) {x : ℚ} (nonneg : 0 ≤ x)
    (fits : x * 100000 / 3600 < 65536) :
    |decodeSpeed ((speedField (encodeSpeed cast x)).setWidth 16) - x| < 3600 / 100000 ↔
      truncate (x * 100000 / 3600) % 256 < 32 := by
  have unit : (3600 / 100000 : ℚ) = 1 / (100000 / 3600) := by norm_num
  have positive : -1 < x * 100000 / 3600 := by linarith
  have cut := cast.toU16_fits _ positive fits
  have close := (cast.toU16_close_iff _).2 ⟨positive, fits⟩
  rw [decodeSpeed_eq, encodeSpeed, speedField_toNat, unit, scaled_iff (by norm_num),
    ← mul_div_assoc]
  generalize x * 100000 / 3600 = units at *
  generalize cast.toU16 units = word at *
  rw [← cut]
  have low : word.toNat % 256 < 32 ↔ word.toNat / 256 * 256 + word.toNat % 32 = word.toNat := by
    omega
  constructor
  · intro near
    by_contra lost
    have gap : word.toNat / 256 * 256 + word.toNat % 32 + 32 ≤ word.toNat := by omega
    have gapRat : ((word.toNat / 256 * 256 + word.toNat % 32 : Nat) : ℚ) + 32 ≤ word.toNat := by
      exact_mod_cast gap
    obtain ⟨-, above⟩ := abs_sub_lt_iff.1 near
    obtain ⟨below, -⟩ := abs_sub_lt_iff.1 close
    linarith
  · intro kept
    rw [low.1 (by omega)]
    exact close

end SpeedField

section Layout

/-- A 32-bit field behind a prefix. -/
theorem load32_append (front rest : Frame) (offset : Nat) :
    load32 (front ++ rest) (front.length + offset) = load32 rest offset := by
  rw [load32, load32, load16_append, Nat.add_assoc, load16_append]

/-- An identifier behind a prefix. -/
theorem tempIdAt_append (front rest : Frame) (pid : TempId) :
    tempIdAt (front ++ (pid.toList ++ rest)) front.length = pid := by
  apply Vector.ext
  intro index bound
  have inside : index < pid.toList.length := by simpa using bound
  rw [tempIdAt, Vector.getElem_ofFn, byteAt_append, byteAt_append_left rest inside, byteAt]
  simp [List.getD_eq_getElem?_getD, bound]

theorem flatMap_store16_length (words : List (BitVec 16)) :
    (words.flatMap store16).length = 2 * words.length := by
  induction words with
  | nil => rfl
  | cons word words inductionHypothesis =>
      rw [List.flatMap_cons, List.length_append, inductionHypothesis, store16_length,
        List.length_cons]
      omega

/-- Words that were stored one after the other. -/
theorem load16_flatMap_store16 {words : List (BitVec 16)} {index : Nat}
    (inside : index < words.length) : load16 (words.flatMap store16) (2 * index) = words[index] := by
  induction words generalizing index with
  | nil => exact absurd inside (Nat.not_lt_zero index)
  | cons word words inductionHypothesis =>
      rw [List.flatMap_cons]
      cases index with
      | zero =>
          rw [load16_append_left _ (Nat.le_of_eq (store16_length word).symm), load16_store16]
          rfl
      | succ index =>
          have later : index < words.length := by simpa using inside
          have place : 2 * (index + 1) = (store16 word).length + 2 * index := by
            rw [store16_length]
            omega
          rw [place, load16_append, inductionHypothesis later, List.getElem_cons_succ]

end Layout

end Rsu.Rcp
