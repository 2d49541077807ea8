import Mathlib.Tactic.Common
import Mathlib.Tactic.IntervalCases

/-!
# Base 64

Three bytes are four characters of an alphabet of 64, and a message that does not end with three
bytes is padded to four characters. What is encoded can be decoded, whatever the alphabet is.
-/

namespace Rsu.Data.Base64

universe u

/-! ### Bytes and sextets -/

/-- The first of four sextets. -/
def sextet0 (a : BitVec 8) : BitVec 6 := a.extractLsb' 2 6

/-- The second one. -/
def sextet1 (a b : BitVec 8) : BitVec 6 := (a ++ b).extractLsb' 4 6

/-- The third one. -/
def sextet2 (b c : BitVec 8) : BitVec 6 := (b ++ c).extractLsb' 6 6

/-- The last one. -/
def sextet3 (c : BitVec 8) : BitVec 6 := c.extractLsb' 0 6

/-- The first of three bytes. -/
def byte0 (w x : BitVec 6) : BitVec 8 := (w ++ x).extractLsb' 4 8

/-- The second one. -/
def byte1 (x y : BitVec 6) : BitVec 8 := (x ++ y).extractLsb' 2 8

/-- The last one. -/
def byte2 (y z : BitVec 6) : BitVec 8 := (y ++ z).extractLsb' 0 8

/-- The first byte of two sextets. -/
theorem byte0_sextets (a b : BitVec 8) : byte0 (sextet0 a) (sextet1 a b) = a := by
  apply BitVec.eq_of_getLsbD_eq
  intro i bound
  simp only [byte0, sextet0, sextet1, BitVec.getLsbD_extractLsb', BitVec.getLsbD_append]
  interval_cases i <;> rfl

/-- The second byte of three sextets. -/
theorem byte1_sextets (a b c : BitVec 8) : byte1 (sextet1 a b) (sextet2 b c) = b := by
  apply BitVec.eq_of_getLsbD_eq
  intro i bound
  simp only [byte1, sextet1, sextet2, BitVec.getLsbD_extractLsb', BitVec.getLsbD_append]
  interval_cases i <;> rfl

/-- The third byte of three sextets. -/
theorem byte2_sextets (b c : BitVec 8) : byte2 (sextet2 b c) (sextet3 c) = c := by
  apply BitVec.eq_of_getLsbD_eq
  intro i bound
  simp only [byte2, sextet2, sextet3, BitVec.getLsbD_extractLsb', BitVec.getLsbD_append]
  interval_cases i <;> rfl

/-! ### Messages -/

variable {α : Type u} [DecidableEq α]

/-- Encode a message. -/
def encode (table : BitVec 6 → α) (pad : α) : List (BitVec 8) → List α
  | [] => []
  | [a] => [table (sextet0 a), table (sextet1 a 0), pad, pad]
  | [a, b] => [table (sextet0 a), table (sextet1 a b), table (sextet2 b 0), pad]
  | a :: b :: c :: later =>
      table (sextet0 a) :: table (sextet1 a b) :: table (sextet2 b c) :: table (sextet3 c) ::
        encode table pad later

/-- Decode a message. -/
def decode (value : α → Option (BitVec 6)) (pad : α) : List α → Option (List (BitVec 8))
  | [] => some []
  | first :: second :: third :: fourth :: later =>
      match value first, value second, value third, value fourth with
      | some w, some x, some y, some z =>
          (decode value pad later).map fun rest => byte0 w x :: byte1 x y :: byte2 y z :: rest
      | some w, some x, some y, none =>
          if fourth = pad ∧ later = [] then some [byte0 w x, byte1 x y] else none
      | some w, some x, none, none =>
          if third = pad ∧ fourth = pad ∧ later = [] then some [byte0 w x] else none
      | _, _, _, _ => none
  | _ => none

variable {table : BitVec 6 → α} {value : α → Option (BitVec 6)} {pad : α}

/-- What is encoded can be decoded. -/
theorem decode_encode (inverse : ∀ sextet, value (table sextet) = some sextet)
    (padding : value pad = none) (message : List (BitVec 8)) :
    decode value pad (encode table pad message) = some message := by
  induction message using encode.induct with
  | case1 => rfl
  | case2 a => simp only [encode, decode, inverse, padding, byte0_sextets, and_self, if_true]
  | case3 a b =>
      simp only [encode, decode, inverse, padding, byte0_sextets, byte1_sextets, and_self, if_true]
  | case4 a b c later inductionHypothesis =>
      simp only [encode, decode, inverse, inductionHypothesis, byte0_sextets, byte1_sextets,
        byte2_sextets, Option.map_some]

end Rsu.Data.Base64
