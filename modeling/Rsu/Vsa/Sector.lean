import Mathlib.Algebra.Group.ModEq
import Mathlib.Tactic.Linarith
import Mathlib.Tactic.NormNum
import Rsu.Vsa.Preprocess

/-!
# The sectors around a vehicle

`vsa_position_classify` puts a vehicle into one of eight sectors, from the angle
between the heading and the bearing in the range of a full turn. `vsm_get_pos` signs
the distance by the same angle in the range of half a turn.
-/

namespace Rsu.Vsa

open Rsu.Vam

/-- `enum VSA_TARGET_LOCATION` -/
inductive VsaTargetLocation where
  | positionError
  | aheadLeft
  | ahead
  | aheadRight
  | right
  | behindRight
  | behind
  | behindLeft
  | left
  deriving DecidableEq

namespace VsaTargetLocation

/-- The direction in the middle of a sector, clockwise from the heading. -/
def centre : VsaTargetLocation → Option ℚ
  | .positionError => none
  | .ahead => some 0
  | .aheadRight => some 45
  | .right => some 90
  | .behindRight => some 135
  | .behind => some 180
  | .behindLeft => some 225
  | .left => some 270
  | .aheadLeft => some 315

/-- The sector is to the side of the vehicle or behind it. -/
def notAhead : VsaTargetLocation → Bool
  | .right | .behindRight | .behind | .behindLeft | .left => true
  | _ => false

end VsaTargetLocation

/-- `DIRECTION_DIVIDE` -/
def directionDivide : ℚ := 45 / 2

/-- The division into eight pieces at the end of `vsa_position_classify`. -/
def dividePosition (delta : ℚ) : VsaTargetLocation :=
  if delta > 15 * directionDivide ∨ delta ≤ directionDivide then .ahead
  else if delta > directionDivide ∧ delta ≤ 3 * directionDivide then .aheadRight
  else if delta > 3 * directionDivide ∧ delta ≤ 5 * directionDivide then .right
  else if delta > 5 * directionDivide ∧ delta ≤ 7 * directionDivide then .behindRight
  else if delta > 7 * directionDivide ∧ delta ≤ 9 * directionDivide then .behind
  else if delta > 9 * directionDivide ∧ delta ≤ 11 * directionDivide then .behindLeft
  else if delta > 11 * directionDivide ∧ delta ≤ 13 * directionDivide then .left
  else if delta > 13 * directionDivide ∧ delta ≤ 15 * directionDivide then .aheadLeft
  else .positionError

/-- The angle from the heading to a bearing, clockwise. -/
def clockwise (dir angle : ℚ) : ℚ := if angle > dir then angle - dir else 360 - (dir - angle)

/-- `vsa_position_classify`: the location, and what `delta_offset` points to. -/
def vsaPositionClassify (localSta remote : VamStastatus) (posData : VamPosData)
    (deltaOffset : Option ℚ) : VsaTargetLocation × Option ℚ :=
  match posData.angle with
  -- what is not a number fails every comparison, the one that rejects it included
  | none => (.positionError, none)
  | some angle =>
      let delta := clockwise localSta.dir (northAngle localSta.pos remote.pos angle)
      if delta > 360 ∨ delta < 0 then (.positionError, deltaOffset)
      else (dividePosition delta, some delta)

/-- The position cycle keeps the offset that is stored. -/
theorem PosVisit.deltaOffset_eq (env : PosEnv) (visit : PosVisit) :
    visit.deltaOffset env =
      (vsaPositionClassify visit.localStatus visit.remoteStatus (visit.tempData env)
        visit.tempDelta).2 := by
  unfold PosVisit.deltaOffset vsaPositionClassify clockwise
  cases (visit.tempData env).angle with
  | none => rfl
  | some angle =>
      dsimp only
      rw [apply_ite Prod.snd]

/-- A corrected angle is a direction of the compass. -/
theorem northAngle_bounds (src dest : VamPosition) {angle : ℚ} (low : 0 ≤ angle)
    (high : angle ≤ 90) : 0 ≤ northAngle src dest angle ∧ northAngle src dest angle ≤ 360 := by
  unfold northAngle
  split <;> split <;> constructor <;> linarith

section Angles

variable {dir angle delta : ℚ}

/-- Two directions are at most a full turn apart. -/
theorem clockwise_bounds (dirLow : 0 ≤ dir) (dirHigh : dir ≤ 360) (low : 0 ≤ angle)
    (high : angle ≤ 360) : 0 ≤ clockwise dir angle ∧ clockwise dir angle ≤ 360 := by
  unfold clockwise
  split <;> constructor <;> linarith

/-- The angle from a heading to a bearing is their difference, up to whole turns. -/
theorem clockwise_modEq (dir angle : ℚ) :
    AddCommGroup.ModEq 360 (clockwise dir angle) (angle - dir) := by
  unfold clockwise
  split
  · rfl
  · have turn : 360 - (dir - angle) = 360 + (angle - dir) := by ring
    rw [turn]
    exact AddCommGroup.add_modEq_right.2 AddCommGroup.self_modEq_zero

/-- The angle that `vsm_get_pos` compares is the smaller one of the two ways round. -/
theorem headingDelta_eq_min (dir angle : ℚ) :
    headingDelta dir angle = min (clockwise dir angle) (360 - clockwise dir angle) := by
  unfold headingDelta clockwise
  by_cases past : angle > dir
  · simp only [if_pos past]
    split
    · rw [min_eq_right (by linarith)]
    · rw [min_eq_left (by linarith)]
  · simp only [if_neg past]
    split
    · rw [min_eq_left (by linarith)]
    · rw [min_eq_right (by linarith)]
      ring

/-- Every angle of a turn falls into a piece. -/
theorem dividePosition_ne_error (delta : ℚ) : dividePosition delta ≠ .positionError := by
  unfold dividePosition directionDivide
  grind

/-- A piece that does not reach across the full turn lies around its centre. -/
theorem dividePosition_bounds {centre : ℚ} (low : 0 ≤ delta)
    (before : delta ≤ 15 * directionDivide) (middle : (dividePosition delta).centre = some centre) :
    centre - 45 / 2 < delta ∧ delta ≤ centre + 45 / 2 := by
  unfold dividePosition directionDivide at *
  grind [VsaTargetLocation.centre]

/-- The piece an angle falls into is the sector around it. -/
theorem dividePosition_sector (low : 0 ≤ delta) (high : delta ≤ 360) :
    ∃ centre, (dividePosition delta).centre = some centre ∧
      ∃ offset ∈ Set.Ioc (centre - 45 / 2) (centre + 45 / 2),
        AddCommGroup.ModEq 360 delta offset := by
  by_cases wrapped : delta > 15 * directionDivide
  · -- the sector ahead reaches across the full turn
    refine ⟨0, by simp [dividePosition, wrapped, VsaTargetLocation.centre], delta - 360, ?_, ?_⟩
    · simp only [directionDivide] at wrapped
      constructor <;> linarith
    · exact AddCommGroup.modEq_sub_iff_add_modEq.2
        (AddCommGroup.add_modEq_left.2 AddCommGroup.self_modEq_zero)
  · obtain ⟨centre, middle⟩ : ∃ centre, (dividePosition delta).centre = some centre := by
      have located := dividePosition_ne_error delta
      cases piece : dividePosition delta with
      | positionError => exact absurd piece located
      | _ => exact ⟨_, rfl⟩
    have inside := dividePosition_bounds low (not_lt.1 wrapped) middle
    exact ⟨centre, middle, delta, inside, AddCommGroup.modEq_refl _⟩

/-- A vehicle in the sector ahead is within 45 degrees of the heading. -/
theorem delta_of_ahead (located : dividePosition delta = .ahead) :
    min delta (360 - delta) ≤ 45 := by
  unfold dividePosition directionDivide at located
  grind

/-- A vehicle in a sector that is not ahead is more than 45 degrees off the heading. -/
theorem delta_of_notAhead (located : (dividePosition delta).notAhead) :
    45 < min delta (360 - delta) := by
  unfold dividePosition directionDivide at located
  grind [VsaTargetLocation.notAhead]

end Angles

/-- The distance that `vsm_get_data` computes is one, if the mathematical library keeps
the sign of what is not negative. -/
theorem vsmGetData_distance12_nonneg {lib : Libm} (sqrt : ∀ x, 0 ≤ lib.sqrt x)
    (asin : ∀ x, 0 ≤ x → 0 ≤ lib.asin x) (src dest : VamStastatus) :
    0 ≤ (vsmGetData lib src dest).distance12 := by
  have arc := asin _ (sqrt (lib.sin ((src.pos.lat - dest.pos.lat) / 2) ^ 2 +
    lib.cos src.pos.lat * lib.cos dest.pos.lat *
      lib.sin ((src.pos.lon - dest.pos.lon) / 2) ^ 2))
  have radius : 0 ≤ earthRadius := by norm_num [earthRadius]
  exact mul_nonneg (mul_nonneg zero_le_two arc) radius

/-- A vehicle is put into the sector of its bearing, and the sign of its distance fits
the sector. -/
theorem vsaPositionClassify_sector (localSta remote : VamStastatus) {posData : VamPosData}
    {angle : ℚ} (deltaOffset : Option ℚ) (known : posData.angle = some angle)
    (low : 0 ≤ angle) (high : angle ≤ 90) (dirLow : 0 ≤ localSta.dir) (dirHigh : localSta.dir ≤ 360)
    (distance : 0 ≤ posData.distance12) :
    ∃ location delta centre,
      vsaPositionClassify localSta remote posData deltaOffset = (location, some delta) ∧
      location ≠ .positionError ∧
      AddCommGroup.ModEq 360 delta (northAngle localSta.pos remote.pos angle - localSta.dir) ∧
      location.centre = some centre ∧
      (∃ offset ∈ Set.Ioc (centre - 45 / 2) (centre + 45 / 2), AddCommGroup.ModEq 360 delta offset) ∧
      (location = .ahead → 0 ≤ vsmGetPos localSta remote posData) ∧
      (location.notAhead → vsmGetPos localSta remote posData ≤ 0) := by
  obtain ⟨northLow, northHigh⟩ := northAngle_bounds localSta.pos remote.pos low high
  obtain ⟨deltaLow, deltaHigh⟩ := clockwise_bounds dirLow dirHigh northLow northHigh
  obtain ⟨centre, middle, inside⟩ := dividePosition_sector deltaLow deltaHigh
  have congruent := clockwise_modEq localSta.dir (northAngle localSta.pos remote.pos angle)
  have nearest := headingDelta_eq_min localSta.dir (northAngle localSta.pos remote.pos angle)
  generalize turned : clockwise localSta.dir (northAngle localSta.pos remote.pos angle) = delta at *
  have signed : vsmGetPos localSta remote posData =
      if min delta (360 - delta) ≤ 45 then posData.distance12 * 1000
      else -(posData.distance12 * 1000) := by
    simp [vsmGetPos, known, nearest]
  refine ⟨dividePosition delta, delta, centre, ?_, dividePosition_ne_error delta, congruent,
    middle, inside, ?_, ?_⟩
  · have inRange : ¬ (delta > 360 ∨ delta < 0) := by
      rintro (out | out) <;> linarith
    simp [vsaPositionClassify, known, turned, inRange]
  · intro located
    rw [signed, if_pos (delta_of_ahead located)]
    positivity
  · intro located
    rw [signed, if_neg (not_le.2 (delta_of_notAhead located))]
    linarith

/-- A vehicle that heads almost north. -/
def headingNorth : VamStastatus := { VamStastatus.zero with dir := 350 }

/-- A vehicle to the north-west of it. -/
def northWest : VamStastatus := { VamStastatus.zero with pos := ⟨1 / 100, -1 / 200, 0, 0⟩ }

/-- Thirty degrees to the west of north is ahead, twenty degrees to the left. -/
theorem headingNorth_northWest :
    ∃ location delta centre,
      vsaPositionClassify headingNorth northWest ⟨1, 1, some 30⟩ none = (location, some delta) ∧
      location ≠ .positionError ∧
      AddCommGroup.ModEq 360 delta
        (northAngle headingNorth.pos northWest.pos 30 - headingNorth.dir) ∧
      location.centre = some centre ∧
      (∃ offset ∈ Set.Ioc (centre - 45 / 2) (centre + 45 / 2), AddCommGroup.ModEq 360 delta offset) ∧
      (location = .ahead → 0 ≤ vsmGetPos headingNorth northWest ⟨1, 1, some 30⟩) ∧
      (location.notAhead → vsmGetPos headingNorth northWest ⟨1, 1, some 30⟩ ≤ 0) :=
  vsaPositionClassify_sector headingNorth northWest none rfl (by norm_num) (by norm_num)
    (by norm_num [headingNorth]) (by norm_num [headingNorth]) zero_le_one

example : vsaPositionClassify headingNorth northWest ⟨1, 1, some 30⟩ none = (.ahead, some 340) := by
  decide +kernel

end Rsu.Vsa
