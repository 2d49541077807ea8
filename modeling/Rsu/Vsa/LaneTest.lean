import Mathlib.Analysis.SpecialFunctions.Trigonometric.Basic
import Rsu.Vsa.Judge
import Rsu.Vsa.Preprocess

/-!
# The lane test

`h_offset` is the product of a signed distance and the sine of the bearing offset,
a real number here, cast to an unsigned word. C leaves the cast of a number at or
below minus one undefined, so that the offset of a vehicle on the left is up to
the compiler.
-/

namespace Rsu.Vsa

/-- A cast from a float to `uint32_t`, as far as C defines it. -/
structure U32Cast where
  toU32 : ℝ → BitVec 32
  fits : ∀ value, -1 < value → value < 2 ^ 32 → toU32 value = BitVec.ofNat 32 ⌊value⌋₊

namespace U32Cast

/-- The cast of a target that keeps the low bits of the integral part. -/
noncomputable def wrapping : U32Cast where
  toU32 value := BitVec.ofInt 32 (if 0 ≤ value then ⌊value⌋ else ⌈value⌉)
  fits value above _ := by
    by_cases nonneg : 0 ≤ value
    · rw [if_pos nonneg, ← Int.natCast_floor_eq_floor nonneg, BitVec.ofInt_natCast]
    · have zero : ⌈value⌉ = 0 := Int.ceil_eq_iff.2 ⟨by simpa using above, by
        simpa using (not_le.1 nonneg).le⟩
      rw [if_neg nonneg, zero, Nat.floor_of_nonpos (not_le.1 nonneg).le]
      rfl

/-- The cast of a target that stops at the ends of the range. -/
noncomputable def saturating : U32Cast where
  toU32 value := BitVec.ofNat 32 (min ⌊value⌋₊ 0xFFFFFFFF)
  fits value _ below := by
    have bounded : ⌊value⌋₊ < 2 ^ 32 := Nat.floor_lt' (by decide) |>.2 (by exact_mod_cast below)
    rw [Nat.min_eq_left (by omega)]

/-- The cast that makes one word of every value it is free to choose for. -/
noncomputable def choosing (word : BitVec 32) : U32Cast where
  toU32 value := if -1 < value ∧ value < 2 ^ 32 then BitVec.ofNat 32 ⌊value⌋₊ else word
  fits _ above below := if_pos (And.intro above below)

end U32Cast

/-- `h_offset` for a distance and a bearing offset in degrees. -/
noncomputable def horizontalOffset (cast : U32Cast) (linearDistance : BitVec 32) (delta : ℝ) : BitVec 32 :=
  cast.toU32 (linearDistance.toInt * Real.sin (delta * Real.pi / 180))

/-- The node of a vehicle that only differs in its bearing offset. -/
noncomputable def VsaInfo.atOffset (node : VsaInfo) (cast : U32Cast) (delta : ℝ) : VsaInfo :=
  { node with hOffset := horizontalOffset cast node.linearDistance delta }

/-- What the position cycle computes for a vehicle is its node at its bearing offset. -/
theorem PosVisit.place_atOffset {env : PosEnv} {cast : U32Cast} {delta : ℚ} (param : VsaConfig)
    (visit : PosVisit) (written : visit.deltaOffset env = some delta)
    (casts : ∀ value : ℚ, env.toU32 (some value) = cast.toU32 value)
    (sine : (env.lib.sin (delta * Vam.pi / 180) : ℝ) = Real.sin (delta * Real.pi / 180)) :
    (visit.place env param).atOffset cast delta = visit.place env param := by
  have offset : horizontalOffset cast (visit.linearDistance env) delta =
      (visit.place env param).hOffset := by
    simp only [PosVisit.place, written, Option.map_some, casts, horizontalOffset]
    push_cast
    rw [sine]
  rw [VsaInfo.atOffset]
  exact congrArg (fun word => { visit.place env param with hOffset := word }) offset

namespace VsaConfig

variable (param : VsaConfig) (node : VsaInfo)

/-- The verdicts of `cfcw_judge` and `vbd_judge`. -/
def verdicts : VsaId × Bool := (param.cfcwJudge node, param.acceptsVbd node)

/-- Both judgements refuse the node, whatever its horizontal offset. -/
def refuses : Prop :=
  node.localSpeed ≤ param.dangerDetectSpeedThreshold.toNat ∨ node.flagDir.toInt < 0 ∨
    node.linearDistance.toInt ≤ 0

/-- The node is outside the lane. -/
def outside (offset : BitVec 32) : Prop := offset.toNat > param.laneDis.toNat

/-- The judgements read the horizontal offset in the lane test alone. -/
theorem verdicts_eq_iff (first second : BitVec 32) :
    param.verdicts { node with hOffset := first } = param.verdicts { node with hOffset := second } ↔
      param.refuses node ∨ (param.outside first ↔ param.outside second) := by
  unfold verdicts refuses outside
  rw [Prod.mk.injEq]
  by_cases slow : node.localSpeed ≤ param.dangerDetectSpeedThreshold.toNat
  · simp [cfcwJudge, acceptsVbd, slow]
  · by_cases opposite : node.flagDir.toInt < 0
    · simp [cfcwJudge, acceptsVbd, slow, opposite]
    · by_cases behind : node.linearDistance.toInt ≤ 0
      · simp [cfcwJudge, acceptsVbd, behind]
      · -- vbd_judge tells the two apart as soon as the lane test does
        by_cases firstOut : first.toNat > param.laneDis.toNat <;>
          by_cases secondOut : second.toNat > param.laneDis.toNat <;>
          simp [cfcwJudge, acceptsVbd, slow, opposite, behind, firstOut, secondOut]

end VsaConfig

/-- The offset of the mirrored vehicle is the same one with the other sign. -/
theorem horizontalOffset_mirror (cast : U32Cast) (linearDistance : BitVec 32) (delta : ℝ) :
    horizontalOffset cast linearDistance (360 - delta) =
      cast.toU32 (-(linearDistance.toInt * Real.sin (delta * Real.pi / 180))) := by
  have turn : (360 - delta) * Real.pi / 180 = 2 * Real.pi - delta * Real.pi / 180 := by ring
  rw [horizontalOffset, turn, Real.sin_two_pi_sub, mul_neg]

/-- A horizontal offset is shorter than the distance. -/
theorem abs_offset_lt (linearDistance : BitVec 32) (delta : ℝ) :
    |linearDistance.toInt * Real.sin (delta * Real.pi / 180)| < 2 ^ 32 := by
  have word : |linearDistance.toInt| ≤ 2 ^ 31 := by
    have low := linearDistance.le_toInt
    have high := linearDistance.toInt_lt
    rw [abs_le]
    constructor <;> omega
  have distance : |(linearDistance.toInt : ℝ)| ≤ 2 ^ 31 := by exact_mod_cast word
  have sine := Real.abs_sin_le_one (delta * Real.pi / 180)
  calc |linearDistance.toInt * Real.sin (delta * Real.pi / 180)|
      = |(linearDistance.toInt : ℝ)| * |Real.sin (delta * Real.pi / 180)| := abs_mul _ _
    _ ≤ 2 ^ 31 * 1 := by gcongr
    _ < 2 ^ 32 := by norm_num

section Casts

variable {value : ℝ}

/-- The cast of an offset to the right is its integral part. -/
theorem U32Cast.toU32_right (cast : U32Cast) (right : 0 ≤ value) (below : value < 2 ^ 32) :
    cast.toU32 value = BitVec.ofNat 32 ⌊value⌋₊ :=
  cast.fits value (by linarith) below

/-- An offset of less than a metre is none, to either side. -/
theorem U32Cast.toU32_short (cast : U32Cast) (short : |value| < 1) : cast.toU32 value = 0 := by
  obtain ⟨above, below⟩ := abs_lt.1 short
  have whole : ⌊value⌋₊ = 0 := Nat.floor_eq_zero.2 below
  rw [cast.fits value above (by linarith), whole]
  rfl

/-- The word chosen for an offset to the left. -/
theorem U32Cast.choosing_left (word : BitVec 32) (metre : 1 ≤ value) :
    (choosing word).toU32 (-value) = word :=
  if_neg fun fit => by linarith [fit.1]

/-- The low bits of an offset to the left. -/
theorem U32Cast.wrapping_left (left : 0 < value) :
    wrapping.toU32 (-value) = -BitVec.ofInt 32 ⌊value⌋ := by
  have negative : ¬ 0 ≤ -value := by linarith
  unfold wrapping
  dsimp only
  rw [if_neg negative, Int.ceil_neg, BitVec.ofInt_neg]

/-- An offset to the left ends at the low end of the range. -/
theorem U32Cast.saturating_left (left : 0 ≤ value) : saturating.toU32 (-value) = 0 := by
  have none : ⌊-value⌋₊ = 0 := Nat.floor_of_nonpos (by linarith)
  simp [saturating, none]

/-- From a metre on, a compiler can tell the two sides apart. -/
theorem VsaConfig.exists_cast (param : VsaConfig) (metre : 1 ≤ value) (below : value < 2 ^ 32) :
    ∃ cast : U32Cast,
      ¬ (param.outside (cast.toU32 value) ↔ param.outside (cast.toU32 (-value))) := by
  have lane := param.laneDis.isLt
  by_cases out : param.outside (BitVec.ofNat 32 ⌊value⌋₊)
  · refine ⟨.choosing 0, ?_⟩
    rw [U32Cast.toU32_right _ (by linarith) below, U32Cast.choosing_left 0 metre]
    simpa [outside] using out
  · refine ⟨.choosing 0xFFFFFFFF, ?_⟩
    rw [U32Cast.toU32_right _ (by linarith) below, U32Cast.choosing_left _ metre]
    have far : param.outside 0xFFFFFFFF#32 := by
      change param.laneDis.toNat < 0xFFFFFFFF
      omega
    exact fun same => out (same.2 far)

end Casts

/-- The verdicts about a vehicle and its mirror image are the same, whatever the cast
makes of a negative offset, exactly if the vehicle is refused anyway or less than a
metre beside the axis of the lane. -/
theorem VsaConfig.verdicts_mirror_iff (param : VsaConfig) (node : VsaInfo) (t : ℝ) :
    (∀ cast : U32Cast,
      param.verdicts (node.atOffset cast t) = param.verdicts (node.atOffset cast (360 - t))) ↔
      param.refuses node ∨
        |node.linearDistance.toInt * Real.sin (t * Real.pi / 180)| < 1 := by
  have bounded := abs_offset_lt node.linearDistance t
  generalize offset : node.linearDistance.toInt * Real.sin (t * Real.pi / 180) = value at bounded ⊢
  have sides (cast : U32Cast) :
      param.verdicts (node.atOffset cast t) = param.verdicts (node.atOffset cast (360 - t)) ↔
        param.refuses node ∨
          (param.outside (cast.toU32 value) ↔ param.outside (cast.toU32 (-value))) := by
    rw [VsaInfo.atOffset, VsaInfo.atOffset, param.verdicts_eq_iff, horizontalOffset_mirror,
      horizontalOffset, offset]
  simp only [sides]
  obtain ⟨above, below⟩ := abs_lt.1 bounded
  constructor
  · intro same
    by_contra neither
    obtain ⟨asked, far⟩ := not_or.1 neither
    rcases le_abs.1 (not_lt.1 far) with right | left
    · obtain ⟨cast, apart⟩ := param.exists_cast right below
      exact apart ((same cast).resolve_left asked)
    · obtain ⟨cast, apart⟩ := param.exists_cast left (by linarith)
      rw [neg_neg] at apart
      exact apart ((same cast).resolve_left asked).symm
  · rintro (refused | short) cast
    · exact .inl refused
    · right
      rw [cast.toU32_short short, cast.toU32_short (by rwa [abs_neg])]

/-- A slow vehicle ahead, and a lane of five metres. -/
def laneFive : VsaConfig := ⟨10, 5, 20, 10⟩

/-- The node of that vehicle, at a distance in metres. -/
def slowAhead (metres : BitVec 32) : VsaInfo :=
  ⟨Vector.replicate Rcp.rcpTempIdLen 7, 60, 20, 0, metres, 200, 1⟩

/-- Thirty degrees to the right, ten metres ahead: the vehicle is in the lane, and its
mirror image is not, if the cast wraps. A hundred metres ahead it is outside, and its
mirror image is not, if the cast saturates. -/
theorem laneTest_takes_sides :
    laneFive.verdicts ((slowAhead 10).atOffset .wrapping 30) = (.crd, true) ∧
      laneFive.verdicts ((slowAhead 10).atOffset .wrapping (360 - 30)) = (.none, false) ∧
      laneFive.verdicts ((slowAhead 100).atOffset .saturating 30) = (.none, false) ∧
      laneFive.verdicts ((slowAhead 100).atOffset .saturating (360 - 30)) = (.crd, true) := by
  have half : Real.sin (30 * Real.pi / 180) = 1 / 2 := by
    have turn : 30 * Real.pi / 180 = Real.pi / 6 := by ring
    rw [turn, Real.sin_pi_div_six]
  have near : ((slowAhead 10).linearDistance.toInt : ℝ) * Real.sin (30 * Real.pi / 180) = 5 := by
    have distance : (slowAhead 10).linearDistance.toInt = 10 := by decide
    rw [distance, half]
    norm_num
  have far : ((slowAhead 100).linearDistance.toInt : ℝ) * Real.sin (30 * Real.pi / 180) = 50 := by
    have distance : (slowAhead 100).linearDistance.toInt = 100 := by decide
    rw [distance, half]
    norm_num
  have five : U32Cast.wrapping.toU32 5 = 5#32 := by
    rw [U32Cast.toU32_right _ (by norm_num) (by norm_num)]
    norm_num
  have fifty : U32Cast.saturating.toU32 50 = 50#32 := by
    rw [U32Cast.toU32_right _ (by norm_num) (by norm_num)]
    norm_num
  have minusFive : U32Cast.wrapping.toU32 (-5) = -5#32 := by
    rw [U32Cast.wrapping_left (by norm_num)]
    norm_num
  have minusFifty : U32Cast.saturating.toU32 (-50) = 0 := U32Cast.saturating_left (by norm_num)
  simp only [VsaInfo.atOffset, horizontalOffset_mirror]
  simp only [horizontalOffset, near, far, five, fifty, minusFive, minusFifty]
  decide +kernel

end Rsu.Vsa
