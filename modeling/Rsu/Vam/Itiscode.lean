import Rsu.Vam.Transmit

/-!
# The alert codes of a message

Alerts travel as codes in nine words: the type event and the description. Reading
sets the bit of every code that occurs; writing puts the code of bit zero into the
type event and the one of bit `n + 1` into word `n` of the description.
-/

namespace Rsu.Vam

open Rsu.Data.BitMask Rsu.Rcp

/-- No code stands for two alerts. -/
theorem itiscode_nodup : itiscode.Nodup := by decide

/-- The search for a code finds its place in the table. -/
theorem findIdx_itiscode_iff (type : BitVec 16) (index : Nat) :
    itiscode.findIdx? (· = type) = some index ↔ itiscode[index]? = some type := by
  rw [List.findIdx?_eq_some_iff_getElem, List.getElem?_eq_some_iff]
  constructor
  · rintro ⟨bound, same, -⟩
    exact ⟨bound, of_decide_eq_true same⟩
  · rintro ⟨bound, same⟩
    refine ⟨bound, decide_eq_true same, fun earlier before also => ?_⟩
    have equal : itiscode[earlier] = itiscode[index] := (of_decide_eq_true also).trans same.symm
    exact absurd (itiscode_nodup.getElem_inj_iff.1 equal) (Nat.ne_of_lt before)

/-- `itiscode_2_rsa_mask` adds the bit of the code. -/
theorem itiscode2RsaMask_getLsbD (type rsaMask : BitVec 16) (index : Nat) :
    (itiscode2RsaMask type rsaMask).getLsbD index = true ↔
      rsaMask.getLsbD index = true ∨ itiscode[index]? = some type := by
  rw [itiscode2RsaMask, ← findIdx_itiscode_iff]
  cases found : itiscode.findIdx? (· = type) with
  | none => simp
  | some place =>
      have bound : place < 8 := (List.findIdx?_eq_some_iff_getElem.1 found).1
      have fits : place < 16 := by omega
      simp [Data.BitMask.set, BitVec.getLsbD_twoPow, fits]

/-- Reading further words adds the bits of their codes. -/
theorem foldl_itiscode_getLsbD (words : List (BitVec 16)) (rsaMask : BitVec 16) (index : Nat) :
    (words.foldl (fun rsaMask code => itiscode2RsaMask (cvNtohs code) rsaMask) rsaMask).getLsbD
        index = true ↔
      rsaMask.getLsbD index = true ∨ ∃ word ∈ words, itiscode[index]? = some (cvNtohs word) := by
  induction words generalizing rsaMask with
  | nil => simp
  | cons word words inductionHypothesis =>
      rw [List.foldl_cons, inductionHypothesis, itiscode2RsaMask_getLsbD, or_assoc,
        List.exists_mem_cons_iff]

/-- `decode_itiscode` sets a bit exactly if one of the words is its code. -/
theorem decodeItiscode_getLsbD (typeEvent : BitVec 16) (description : List (BitVec 16))
    (index : Nat) :
    (decodeItiscode typeEvent description).getLsbD index = true ↔
      ∃ word ∈ typeEvent :: description, itiscode[index]? = some (cvNtohs word) := by
  rw [decodeItiscode, foldl_itiscode_getLsbD, itiscode2RsaMask_getLsbD, List.exists_mem_cons_iff]
  simp

/-- The word that stands for a bit. -/
def codeWord (rsaMask : BitVec 16) (bit : Nat) : BitVec 16 :=
  if rsaMask.getLsbD bit then cvNtohs (itiscode.getD bit 0) else 0

/-- The nine words that `encode_itiscode` leaves in a message that was zero. -/
theorem encodeItiscode_words (rsaMask : BitVec 16) :
    (encodeItiscode rsaMask).1 :: (encodeItiscode rsaMask).2.map (·.getD 0) =
      (List.range 9).map (codeWord rsaMask) := by
  have words : (encodeItiscode rsaMask).2.map (·.getD 0) =
      (List.range 8).map fun index => codeWord rsaMask (index + 1) := by
    rw [encodeItiscode, List.map_map]
    apply List.map_congr_left
    intro index _
    by_cases bit : rsaMask.getLsbD (index + 1) = true <;> simp [codeWord, bit]
  rw [words, List.range_succ_eq_map, List.map_cons, List.map_map]
  rfl

/-- No type has the code zero. -/
theorem itiscode_ne_zero (index : Nat) : itiscode[index]? ≠ some 0 := fun zero =>
  absurd (List.mem_of_getElem? zero) (by decide)

/-- A word that was written is the code of one bit only. -/
theorem codeWord_iff (rsaMask : BitVec 16) (bit index : Nat) :
    itiscode[index]? = some (cvNtohs (codeWord rsaMask bit)) ↔
      rsaMask.getLsbD bit = true ∧ bit = index ∧ index < 8 := by
  by_cases present : rsaMask.getLsbD bit = true
  · rw [codeWord, if_pos present, cvNtohs_cvNtohs, List.getD_eq_getElem?_getD]
    simp only [present, true_and]
    by_cases listed : bit < itiscode.length
    · rw [List.getElem?_eq_getElem listed, Option.getD_some, List.getElem?_eq_some_iff]
      constructor
      · rintro ⟨bound, same⟩
        exact ⟨(itiscode_nodup.getElem_inj_iff.1 same).symm, bound⟩
      · rintro ⟨rfl, -⟩
        exact ⟨listed, rfl⟩
    · rw [List.getElem?_eq_none (Nat.not_lt.1 listed), Option.getD_none]
      refine iff_of_false (itiscode_ne_zero index) ?_
      rintro ⟨rfl, bound⟩
      exact listed bound
  · rw [codeWord, if_neg present]
    exact iff_of_false (itiscode_ne_zero index) fun both => present both.1

/-- What is written for a mask is read as its eight low bits. -/
theorem decodeItiscode_encodeItiscode (rsaMask : BitVec 16) :
    decodeItiscode (encodeItiscode rsaMask).1 ((encodeItiscode rsaMask).2.map (·.getD 0)) =
      rsaMask &&& 0xFF := by
  have low : ∀ index, (0xFF : BitVec 16).getLsbD index = true ↔ index < 8 := by
    intro index
    by_cases bound : index < 16
    · revert index
      decide
    · rw [BitVec.getLsbD_of_ge _ _ (Nat.not_lt.1 bound)]
      exact iff_of_false Bool.false_ne_true fun small => bound (by omega)
  apply BitVec.eq_of_getLsbD_eq
  intro index _
  rw [Bool.eq_iff_iff, decodeItiscode_getLsbD, encodeItiscode_words, BitVec.getLsbD_and,
    Bool.and_eq_true, low]
  simp only [List.mem_map, List.mem_range, exists_exists_and_eq_and, codeWord_iff]
  constructor
  · rintro ⟨bit, -, present, rfl, bound⟩
    exact ⟨present, bound⟩
  · rintro ⟨present, bound⟩
    exact ⟨index, by omega, present, rfl, bound⟩

/-- Both directions of the code list: a bit is read exactly if one of the nine words
is its code, and what is written for a mask is read as its bits zero to seven. -/
theorem alert_codes (typeEvent : BitVec 16) (description : List (BitVec 16))
    (rsaMask : BitVec 16) :
    (∀ index, (decodeItiscode typeEvent description).getLsbD index = true ↔
        ∃ word ∈ typeEvent :: description, itiscode[index]? = some (cvNtohs word)) ∧
      decodeItiscode (encodeItiscode rsaMask).1 ((encodeItiscode rsaMask).2.map (·.getD 0)) =
        rsaMask &&& 0xFF :=
  ⟨decodeItiscode_getLsbD typeEvent description, decodeItiscode_encodeItiscode rsaMask⟩

end Rsu.Vam
