import Rsu.Data.Base64
import Rsu.Rcp.Frame

/-!
# The credentials of the NTRIP client

`encode` writes user and password, separated by a colon, in base 64 into what is left of a request.
It never writes behind the buffer; what the caster decodes are the credentials, unless the colon
would be the first byte of a block and there is no password behind it.
-/

namespace Rsu.Drv

open Rsu.Rcp Rsu.Data

/-- `encodingTable` -/
def encodingTable : Vector Byte 64 :=
  #v[0x41, 0x42, 0x43, 0x44, 0x45, 0x46, 0x47, 0x48, 0x49, 0x4A, 0x4B, 0x4C, 0x4D, 0x4E, 0x4F, 0x50,
    0x51, 0x52, 0x53, 0x54, 0x55, 0x56, 0x57, 0x58, 0x59, 0x5A, 0x61, 0x62, 0x63, 0x64, 0x65, 0x66,
    0x67, 0x68, 0x69, 0x6A, 0x6B, 0x6C, 0x6D, 0x6E, 0x6F, 0x70, 0x71, 0x72, 0x73, 0x74, 0x75, 0x76,
    0x77, 0x78, 0x79, 0x7A, 0x30, 0x31, 0x32, 0x33, 0x34, 0x35, 0x36, 0x37, 0x38, 0x39, 0x2B, 0x2F]

/-- A character of the table; the numbers are less than 64. -/
def encodingChar (number : Byte) : Byte := encodingTable.toList.getD number.toNat 0

/-- `'='` -/
def padByte : Byte := 0x3D

/-- `':'` -/
def colonByte : Byte := 0x3A

namespace Credentials

/-- Write a character if there is room for it and for the zero behind it. -/
def put (size : Nat) (out : List Byte) (char : Byte) : List Byte :=
  if out.length < size - 1 then out ++ [char] else out

/-- The separator, if it is the next byte of a block. -/
def separator (user : List Byte) (sep : Bool) : List Byte :=
  if (user.take 3).length < 3 ∧ sep = false then [colonByte] else []

/-- The bytes of a block in front of the fill bytes. -/
def block (user pwd : List Byte) (sep : Bool) : List Byte :=
  user.take 3 ++ separator user sep ++
    pwd.take (3 - (user.take 3 ++ separator user sep).length)

/-- The password behind a block. -/
def pwdBehind (user pwd : List Byte) (sep : Bool) : List Byte :=
  pwd.drop (3 - (user.take 3 ++ separator user sep).length)

/-- The four characters of a block. -/
def putBlock (size fill : Nat) (inbuf0 inbuf1 inbuf2 : Byte) (out : List Byte) : List Byte :=
  let out := put size out (encodingChar ((inbuf0 &&& 0xFC) >>> 2))
  let out := put size out (encodingChar (((inbuf0 &&& 0x03) <<< 4) ||| ((inbuf1 &&& 0xF0) >>> 4)))
  let out := put size out (if fill = 2 then padByte
    else encodingChar (((inbuf1 &&& 0x0F) <<< 2) ||| ((inbuf2 &&& 0xC0) >>> 6)))
  put size out (if fill ≥ 1 then padByte else encodingChar (inbuf2 &&& 0x3F))

/-- A block takes something. -/
theorem shorter {user pwd : List Byte} (some : ¬ (user = [] ∧ pwd = [])) (sep : Bool) :
    (user.drop 3).length + (pwdBehind user pwd sep).length < user.length + pwd.length := by
  rw [pwdBehind, List.length_drop, List.length_drop]
  cases user with
  | cons char user =>
      rw [List.length_cons]
      omega
  | nil =>
      have taken : 0 < pwd.length :=
        List.length_pos_iff.2 fun none => some ⟨rfl, none⟩
      cases sep <;> simp [separator] <;> omega

/-- The loop of `encode`. -/
def encodeLoop (size : Nat) (user pwd : List Byte) (sep : Bool) (fill : Nat) (out : List Byte)
    (bytes : Nat) : List Byte × Nat :=
  if user = [] ∧ pwd = [] then (out, bytes)
  else
    let inbuf := block user pwd sep
    let added := fill + (3 - inbuf.length)
    encodeLoop size (user.drop 3) (pwdBehind user pwd sep) (sep || !(separator user sep).isEmpty)
      added (putBlock size added (inbuf.getD 0 0) (inbuf.getD 1 0) (inbuf.getD 2 0) out) (bytes + 4)
  termination_by user.length + pwd.length
  decreasing_by exact shorter (by assumption) sep

/-- `encode`: what is in the buffer in front of the zero, and the number of required bytes. -/
def encode (size : Nat) (user pwd : List Byte) : List Byte × Nat :=
  encodeLoop size user pwd false 0 [] 0

/-! ### What the blocks hold -/

/-- The bytes that are encoded. -/
def blocks (user pwd : List Byte) (sep : Bool) : List Byte :=
  if user = [] ∧ pwd = [] then []
  else
    block user pwd sep ++ blocks (user.drop 3) (pwdBehind user pwd sep)
      (sep || !(separator user sep).isEmpty)
  termination_by user.length + pwd.length
  decreasing_by exact shorter (by assumption) sep

/-- Behind the separator there is the password. -/
theorem blocks_behind (pwd : List Byte) : blocks [] pwd true = pwd := by
  induction total : pwd.length using Nat.strong_induction_on generalizing pwd with
  | _ total inductionHypothesis =>
      rw [blocks]
      split_ifs with none
      · exact none.2.symm
      · have some : 0 < pwd.length := List.length_pos_iff.2 fun empty => none ⟨rfl, empty⟩
        have later := inductionHypothesis (pwd.drop 3).length
          (by rw [List.length_drop]; omega) (pwd.drop 3) rfl
        change pwd.take 3 ++ blocks [] (pwd.drop 3) true = pwd
        rw [later, List.take_append_drop]

/-- The separator gets lost if it would begin a block with nothing behind it. -/
theorem blocks_eq (user pwd : List Byte) :
    blocks user pwd false =
      if pwd = [] ∧ user.length % 3 = 0 then user else user ++ colonByte :: pwd := by
  induction length : user.length using Nat.strong_induction_on generalizing user with
  | _ number inductionHypothesis =>
      rw [blocks]
      match user with
      | [] =>
          by_cases nothing : pwd = []
          · rw [if_pos ⟨rfl, nothing⟩, if_pos ⟨nothing, by rw [← length]; rfl⟩]
          · rw [if_neg fun none => nothing none.2, if_neg fun none => nothing none.1]
            change colonByte :: pwd.take 2 ++ blocks [] (pwd.drop 2) true = _
            rw [blocks_behind, List.cons_append, List.take_append_drop, List.nil_append]
      | [a] =>
          rw [if_neg fun none => List.cons_ne_nil _ _ none.1, if_neg (by rw [← length]; simp)]
          change a :: colonByte :: pwd.take 1 ++ blocks [] (pwd.drop 1) true = _
          rw [blocks_behind, List.cons_append, List.cons_append, List.take_append_drop]
          rfl
      | [a, b] =>
          rw [if_neg fun none => List.cons_ne_nil _ _ none.1, if_neg (by rw [← length]; simp)]
          change a :: b :: colonByte :: pwd.take 0 ++ blocks [] (pwd.drop 0) true = _
          rw [blocks_behind]
          rfl
      | a :: b :: c :: user =>
          simp only [List.length_cons] at length
          have later := inductionHypothesis user.length (by omega) user rfl
          have same : number % 3 = user.length % 3 := by omega
          rw [if_neg fun none => List.cons_ne_nil _ _ none.1, same]
          change a :: b :: c :: pwd.take 0 ++ blocks user (pwd.drop 0) false = _
          rw [List.take_zero, List.drop_zero, later]
          split_ifs <;> rfl

/-! ### Characters -/

/-- The character of a sextet. -/
def sextetChar (sextet : BitVec 6) : Byte := encodingChar (sextet.setWidth 8)

/-- The sextet of a character. -/
def sextetOf (char : Byte) : Option (BitVec 6) :=
  ((List.range 64).map (BitVec.ofNat 6)).find? fun sextet => sextetChar sextet = char

/-- A sextet is decoded from its character. -/
theorem sextetOf_sextetChar (sextet : BitVec 6) : sextetOf (sextetChar sextet) = some sextet := by
  have all : ∀ number : Fin 64, sextetOf (sextetChar (.ofFin number)) = some (.ofFin number) := by
    decide +kernel
  exact all sextet.toFin

/-- The padding is no sextet. -/
theorem sextetOf_padByte : sextetOf padByte = none := by decide +kernel

/-- The first index is the first sextet. -/
theorem char0_eq (a : Byte) : (a &&& 0xFC) >>> 2 = (Base64.sextet0 a).setWidth 8 := by
  apply BitVec.eq_of_getLsbD_eq
  intro i bound
  rw [Base64.sextet0]
  interval_cases i <;> simp

/-- The second index is the second sextet. -/
theorem char1_eq (a b : Byte) :
    ((a &&& 0x03) <<< 4) ||| ((b &&& 0xF0) >>> 4) = (Base64.sextet1 a b).setWidth 8 := by
  apply BitVec.eq_of_getLsbD_eq
  intro i bound
  simp only [Base64.sextet1, BitVec.getLsbD_setWidth, BitVec.getLsbD_extractLsb',
    BitVec.getLsbD_append]
  interval_cases i <;> simp

/-- The third index is the third sextet. -/
theorem char2_eq (b c : Byte) :
    ((b &&& 0x0F) <<< 2) ||| ((c &&& 0xC0) >>> 6) = (Base64.sextet2 b c).setWidth 8 := by
  apply BitVec.eq_of_getLsbD_eq
  intro i bound
  simp only [Base64.sextet2, BitVec.getLsbD_setWidth, BitVec.getLsbD_extractLsb',
    BitVec.getLsbD_append]
  interval_cases i <;> simp

/-- The fourth index is the fourth sextet. -/
theorem char3_eq (c : Byte) : c &&& 0x3F = (Base64.sextet3 c).setWidth 8 := by
  apply BitVec.eq_of_getLsbD_eq
  intro i bound
  rw [Base64.sextet3]
  interval_cases i <;> simp

/-- What is written of some bytes. -/
def written (bytes : List Byte) : List Byte := Base64.encode sextetChar padByte bytes

/-- A character that does not fit is left out, and so are those behind it. -/
theorem put_take (size : Nat) (full : List Byte) (char : Byte) :
    put size (full.take (size - 1)) char = (full ++ [char]).take (size - 1) := by
  rw [put, List.length_take]
  by_cases fits : full.length < size - 1
  · rw [if_pos (by omega), List.take_of_length_le fits.le, List.take_of_length_le]
    rw [List.length_append, List.length_singleton]
    exact fits
  · rw [if_neg (by omega), List.take_append_of_le_length (by omega)]

/-- The characters of a block are those of its bytes. -/
theorem putBlock_take (size : Nat) {inbuf : List Byte} (some : inbuf ≠ [])
    (few : inbuf.length ≤ 3) (full : List Byte) :
    putBlock size (3 - inbuf.length) (inbuf.getD 0 0) (inbuf.getD 1 0) (inbuf.getD 2 0)
        (full.take (size - 1)) = (full ++ written inbuf).take (size - 1) := by
  rw [putBlock, put_take, put_take, put_take, put_take, char0_eq, char1_eq, char2_eq, char3_eq,
    List.append_assoc, List.append_assoc, List.append_assoc]
  match inbuf with
  | [] => exact absurd rfl some
  | [a] => simp [written, Base64.encode, sextetChar]
  | [a, b] => simp [written, Base64.encode, sextetChar]
  | [a, b, c] => simp [written, Base64.encode, sextetChar]
  | a :: b :: c :: d :: more =>
      simp only [List.length_cons] at few
      omega

/-- Full blocks are encoded one by one. -/
theorem written_append {inbuf : List Byte} (full : inbuf.length = 3) (later : List Byte) :
    written (inbuf ++ later) = written inbuf ++ written later := by
  obtain ⟨a, b, c, rfl⟩ := List.length_eq_three.1 full
  simp [written, Base64.encode]

/-- A block is four characters. -/
theorem length_written {inbuf : List Byte} (some : inbuf ≠ []) (few : inbuf.length ≤ 3) :
    (written inbuf).length = 4 := by
  match inbuf with
  | [] => exact absurd rfl some
  | [a] => simp [written, Base64.encode]
  | [a, b] => simp [written, Base64.encode]
  | [a, b, c] => simp [written, Base64.encode]
  | a :: b :: c :: d :: more =>
      simp only [List.length_cons] at few
      omega

/-! ### What is written -/

/-- A block is not empty, and the last one if it is not full. -/
structure Cut (user pwd : List Byte) (sep : Bool) : Prop where
  some : block user pwd sep ≠ []
  few : (block user pwd sep).length ≤ 3
  last : (block user pwd sep).length < 3 → user.drop 3 = [] ∧ pwdBehind user pwd sep = []

/-- Unless nothing is left, a block is cut off. -/
theorem cut_block {user pwd : List Byte} (some : ¬ (user = [] ∧ pwd = [])) (sep : Bool) :
    Cut user pwd sep := by
  have front : (user.take 3 ++ separator user sep).length ≤ 3 := by
    rw [List.length_append, separator]
    split_ifs with room
    · exact room.1
    · exact (Nat.add_zero _).le.trans (List.length_take_le _ _)
  have users : (user.take 3).length ≤ (user.take 3 ++ separator user sep).length := by
    rw [List.length_append]
    exact Nat.le_add_right _ _
  have length : (block user pwd sep).length = (user.take 3 ++ separator user sep).length +
      min (3 - (user.take 3 ++ separator user sep).length) pwd.length := by
    rw [block, List.length_append, @List.length_take _ _ pwd]
  rw [List.length_take] at users
  refine ⟨fun empty => some ?_, by omega, fun short => ⟨?_, ?_⟩⟩
  · rw [empty, List.length_nil] at length
    exact ⟨List.length_eq_zero_iff.1 (by omega), List.length_eq_zero_iff.1 (by omega)⟩
  · exact List.drop_eq_nil_of_le (by omega)
  · exact List.drop_eq_nil_of_le (by omega)

/-- The loop writes what the blocks hold, as far as it fits. -/
theorem encodeLoop_eq (size : Nat) (user pwd : List Byte) (sep : Bool) (full : List Byte)
    (bytes : Nat) :
    encodeLoop size user pwd sep 0 (full.take (size - 1)) bytes =
      ((full ++ written (blocks user pwd sep)).take (size - 1),
        bytes + (written (blocks user pwd sep)).length) := by
  induction total : user.length + pwd.length using Nat.strong_induction_on
    generalizing user pwd sep full bytes with
  | _ total inductionHypothesis =>
      rw [encodeLoop, blocks]
      split_ifs with none
      · rw [written, Base64.encode, List.append_nil]
        rfl
      · have cut := cut_block none sep
        dsimp only
        rw [Nat.zero_add, putBlock_take size cut.some cut.few]
        rcases cut.few.lt_or_eq with short | three
        · obtain ⟨user, pwd⟩ := cut.last short
          rw [user, pwd, encodeLoop, if_pos ⟨rfl, rfl⟩, blocks, if_pos ⟨rfl, rfl⟩,
            List.append_nil, length_written cut.some cut.few]
        · have fewer := shorter none sep
          rw [total] at fewer
          rw [three, Nat.sub_self, inductionHypothesis _ fewer _ _ _ _ _ rfl,
            written_append three, List.append_assoc, List.length_append,
            length_written cut.some cut.few, Nat.add_assoc]

/-- `encode` never writes behind the buffer, and returns how much room it needs. With that much
room the caster decodes the user, a colon and the password, unless the password is empty and the
colon would begin a block. -/
theorem credentials_decoded (size : Nat) (user pwd : List Byte) :
    (encode size user pwd).1.length ≤ size - 1 ∧
      ((encode size user pwd).2 < size →
        (Base64.decode sextetOf padByte (encode size user pwd).1 =
            some (user ++ colonByte :: pwd) ↔ ¬ (pwd = [] ∧ user.length % 3 = 0))) := by
  have loop := encodeLoop_eq size user pwd false [] 0
  rw [List.take_nil, List.nil_append, Nat.zero_add] at loop
  rw [encode, loop]
  refine ⟨List.length_take_le _ _, fun room => ?_⟩
  dsimp only at room ⊢
  rw [List.take_of_length_le (by omega), written,
    Base64.decode_encode sextetOf_sextetChar sextetOf_padByte, blocks_eq, Option.some_inj]
  split_ifs with lost
  · refine iff_of_false (fun same => ?_) fun kept => kept lost
    have lengths := congrArg List.length same
    rw [List.length_append, List.length_cons] at lengths
    omega
  · exact iff_of_true rfl lost

/-- A short password. -/
theorem credentials_decoded_short : Base64.decode sextetOf padByte (encode 9 [0x75] [0x70]).1 =
    some [0x75, colonByte, 0x70] := by
  have room : (encode 9 [0x75] [0x70]).2 < 9 := by decide +kernel
  exact ((credentials_decoded 9 [0x75] [0x70]).2 room).2 (by decide)

end Credentials

end Rsu.Drv
