import Mathlib.Data.List.Basic
import Mathlib.Tactic.Common

/-!
# Frames of the remote communication protocol

A frame is the byte sequence the network layer hands over. This module holds
the parts of the packed records of `cv_rcp.h` that the multihop algorithm reads
and rewrites: the message identifier with its two bit fields, and the places of
the sender, the last forwarder and the message count in the two record kinds.
-/

namespace Rsu.Rcp

/-- `uint8_t`. -/
abbrev Byte := BitVec 8

/-- The payload of a received or transmitted buffer. -/
abbrev Frame := List Byte

/-- `RCP_TEMP_ID_LEN`. -/
abbrev rcpTempIdLen : Nat := 4

/-- A temporary identifier; `memcmp` on it is equality. -/
abbrev TempId := Vector Byte rcpTempIdLen

/-- `RCP_MSG_ID_BSM`. -/
def rcpMsgIdBsm : BitVec 5 := 2

/-- `RCP_MSG_ID_EVAM`. -/
def rcpMsgIdEvam : BitVec 5 := 5

/-- `RCP_MSG_ID_RSA`. -/
def rcpMsgIdRsa : BitVec 5 := 11

/-- The two messages that carry a sender and take part in forwarding. -/
inductive MsgKind where
  /-- `rcp_msg_basic_safty_t` -/
  | bsm
  /-- `rcp_msg_emergency_vehicle_alert_t` -/
  | evam
  deriving DecidableEq, Repr

/-- The value of `rcp_msgid_t::id` for each kind. -/
def MsgKind.msgId : MsgKind → BitVec 5
  | .bsm => rcpMsgIdBsm
  | .evam => rcpMsgIdEvam

/-- Offset of `temporary_id`. -/
def MsgKind.temporaryIdAt : MsgKind → Nat
  | .bsm => 2
  | .evam => 1

/-- Offset of `forward_id`. -/
def MsgKind.forwardIdAt : MsgKind → Nat
  | .bsm => 6
  | .evam => 5

/-- Offset of `msg_count`; an EVAM counts in its road-side alert part. -/
def MsgKind.msgCountAt : MsgKind → Nat
  | .bsm => 1
  | .evam => 10

/-- The shortest frame the parser of each kind accepts: a BSM may lack its
safety extension. -/
def MsgKind.minLength : MsgKind → Nat
  | .bsm => 42
  | .evam => 71

/-- The byte at an offset. -/
def byteAt (frame : Frame) (offset : Nat) : Byte := frame.getD offset 0

/-- The four bytes of an identifier at an offset. -/
def tempIdAt (frame : Frame) (offset : Nat) : TempId :=
  Vector.ofFn fun index => byteAt frame (offset + index)

/-- `rcp_msgid_t::hops`, the high three bits of the first byte. -/
def msgHops (frame : Frame) : BitVec 3 := (byteAt frame 0).extractLsb' 5 3

/-- `rcp_msgid_t::id`, the low five bits of the first byte. -/
def msgId (frame : Frame) : BitVec 5 := (byteAt frame 0).extractLsb' 0 5

/-- Assign to `rcp_msgid_t::hops`. -/
def setHops (frame : Frame) (hops : BitVec 3) : Frame :=
  frame.set 0 (hops ++ msgId frame)

/-- A frame that the parser of its kind accepts. -/
structure Received where
  kind : MsgKind
  frame : Frame
  idEq : msgId frame = kind.msgId
  long : kind.minLength ≤ frame.length

/-- The sender of a received frame. -/
def Received.temporaryId (rx : Received) : TempId := tempIdAt rx.frame rx.kind.temporaryIdAt

/-- `memcpy` into a frame. -/
def copyInto (frame : Frame) (offset : Nat) (bytes : List Byte) : Frame :=
  frame.take offset ++ bytes ++ frame.drop (offset + bytes.length)

@[simp] theorem setHops_length (frame : Frame) (hops : BitVec 3) :
    (setHops frame hops).length = frame.length := by
  simp [setHops]

/-- Assigning the hops field touches the first byte only. -/
theorem setHops_getElem? (frame : Frame) (hops : BitVec 3) {index : Nat} (later : 0 < index) :
    (setHops frame hops)[index]? = frame[index]? := by
  rw [setHops, List.getElem?_set_ne (by omega)]

/-- The first byte has the hops in front of the kind. -/
theorem byteAt_setHops_zero {frame : Frame} (hops : BitVec 3) (nonempty : 0 < frame.length) :
    byteAt (setHops frame hops) 0 = hops ++ msgId frame := by
  simp [byteAt, setHops, nonempty]

@[simp] theorem msgHops_setHops {frame : Frame} (hops : BitVec 3) (nonempty : 0 < frame.length) :
    msgHops (setHops frame hops) = hops := by
  rw [msgHops, byteAt_setHops_zero hops nonempty]
  exact BitVec.extractLsb'_append_eq_left

@[simp] theorem msgId_setHops {frame : Frame} (hops : BitVec 3) (nonempty : 0 < frame.length) :
    msgId (setHops frame hops) = msgId frame := by
  rw [msgId, byteAt_setHops_zero hops nonempty]
  exact BitVec.extractLsb'_append_eq_right

/-- Every kind keeps its first byte and its forwarder apart and inside the shortest frame. -/
theorem MsgKind.forwardIdAt_fits (kind : MsgKind) :
    0 < kind.forwardIdAt ∧ kind.forwardIdAt + rcpTempIdLen ≤ kind.minLength := by
  cases kind <;> decide

/-- A received frame has a place for its forwarder. -/
theorem Received.forwardId_fits (rx : Received) :
    rx.kind.forwardIdAt + rcpTempIdLen ≤ rx.frame.length :=
  Nat.le_trans rx.kind.forwardIdAt_fits.2 rx.long

/-- A received frame is not empty. -/
theorem Received.nonempty (rx : Received) : 0 < rx.frame.length :=
  Nat.lt_of_lt_of_le (Nat.add_pos_left rx.kind.forwardIdAt_fits.1 _) rx.forwardId_fits

/-- A byte of the front part of a frame. -/
theorem byteAt_append_left {front : Frame} {offset : Nat} (rest : Frame)
    (inside : offset < front.length) : byteAt (front ++ rest) offset = byteAt front offset := by
  rw [byteAt, byteAt, List.getD_eq_getElem?_getD, List.getD_eq_getElem?_getD,
    List.getElem?_append_left inside]

/-- A byte behind a prefix. -/
theorem byteAt_append (front rest : Frame) (offset : Nat) :
    byteAt (front ++ rest) (front.length + offset) = byteAt rest offset := by
  rw [byteAt, byteAt, List.getD_eq_getElem?_getD, List.getD_eq_getElem?_getD,
    List.getElem?_append_right (Nat.le_add_right ..), Nat.add_sub_cancel_left]

/-- Copying inside a frame keeps its length. -/
theorem copyInto_length {frame : Frame} {offset : Nat} {bytes : List Byte}
    (fits : offset + bytes.length ≤ frame.length) :
    (copyInto frame offset bytes).length = frame.length := by
  simp [copyInto]
  omega

/-- Copying leaves the bytes outside its target alone. -/
theorem copyInto_getElem?_outside {frame : Frame} {offset index : Nat} {bytes : List Byte}
    (fits : offset + bytes.length ≤ frame.length)
    (outside : index < offset ∨ offset + bytes.length ≤ index) :
    (copyInto frame offset bytes)[index]? = frame[index]? := by
  have front : (frame.take offset).length = offset := by
    simp
    omega
  rcases outside with before | after
  · rw [copyInto, List.append_assoc, List.getElem?_append_left (by omega)]
    simp [before]
  · have reached : (frame.take offset ++ bytes).length ≤ index := by
      simp
      omega
    rw [copyInto, List.getElem?_append_right reached, List.getElem?_drop]
    congr 1
    simp
    omega

/-- The target of a copy holds the copied bytes. -/
theorem copyInto_getElem?_inside {frame : Frame} {offset index : Nat} {bytes : List Byte}
    (fits : offset + bytes.length ≤ frame.length) (inside : index < bytes.length) :
    (copyInto frame offset bytes)[offset + index]? = bytes[index]? := by
  have front : (frame.take offset).length = offset := by
    simp
    omega
  rw [copyInto, List.append_assoc, List.getElem?_append_right (by omega), front,
    Nat.add_sub_cancel_left, List.getElem?_append_left inside]

/-- What follows the start of a copy. -/
theorem drop_copyInto {frame : Frame} {offset : Nat} (bytes : List Byte)
    (inside : offset ≤ frame.length) :
    (copyInto frame offset bytes).drop offset = bytes ++ frame.drop (offset + bytes.length) := by
  have front : (frame.take offset).length = offset := List.length_take_of_le inside
  rw [copyInto, List.append_assoc, List.drop_append, List.drop_of_length_le (by omega), front]
  simp

/-- A copy into the front part of a frame. -/
theorem copyInto_append {front : Frame} {offset : Nat} {bytes : List Byte} (rest : Frame)
    (fits : offset + bytes.length ≤ front.length) :
    copyInto (front ++ rest) offset bytes = copyInto front offset bytes ++ rest := by
  rw [copyInto, copyInto, List.take_append_of_le_length (by omega),
    List.drop_append_of_le_length fits]
  simp

/-- A copy behind the front part of a frame. -/
theorem copyInto_append_add (front rest : Frame) (offset : Nat) (bytes : List Byte) :
    copyInto (front ++ rest) (front.length + offset) bytes =
      front ++ copyInto rest offset bytes := by
  rw [copyInto, copyInto, List.take_length_add_append, Nat.add_assoc, List.drop_length_add_append]
  simp

/-- Reading back an identifier that was copied into a frame. -/
theorem tempIdAt_copyInto {frame : Frame} {offset : Nat} (pid : TempId)
    (fits : offset + rcpTempIdLen ≤ frame.length) :
    tempIdAt (copyInto frame offset pid.toList) offset = pid := by
  apply Vector.ext
  intro index bound
  have inside : index < pid.toList.length := by simpa using bound
  have copied := copyInto_getElem?_inside (by simpa using fits) inside
  simp [tempIdAt, byteAt, List.getD_eq_getElem?_getD, copied, bound]

end Rsu.Rcp
