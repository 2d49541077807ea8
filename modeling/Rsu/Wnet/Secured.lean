import Rsu.Wnet.Receive

/-!
# Secured frames

The DSMP header stands behind the security header, and behind the security
information of a frame that has one. `dsmp_recv` goes on by the length of the
security header once more for such a frame, and then takes the element id for the
highest byte of the application id.
-/

namespace Rsu.Wnet

open Rsu.Rcp Checked

/-- The parts of a frame behind the LLC header. -/
structure DsmpMessage where
  secVersion : Byte
  securityType : Byte
  reserved : Byte × Byte
  encType : Byte
  key : Byte × Byte × Byte
  version : Byte
  payload : List Byte
  /-- The length fits `dsm_length`. -/
  short : payload.length < 2 ^ 16

namespace DsmpMessage

variable (message : DsmpMessage)

/-- `security_hdr_t` -/
def securityHdr : List Byte :=
  [message.secVersion, message.securityType, message.reserved.1, message.reserved.2]

/-- `security_info_t`, if there is one. -/
def securityInfo : List Byte :=
  if message.securityType ≠ 0 then
    [message.encType, message.key.1, message.key.2.1, message.key.2.2]
  else []

/-- `dsmp_hdr_t` of a vehicle safety message. -/
def dsmpHdr : List Byte :=
  [message.version] ++ store32 (cvNtohl waveAidVehicleSafety) ++ [waveElementIdWsm] ++
    store16 (cvNtohs (BitVec.ofNat 16 message.payload.length))

/-- The whole frame. -/
def frame : Frame :=
  message.securityHdr ++ (message.securityInfo ++ (message.dsmpHdr ++ message.payload))

/-- `dsmp_recv` hands on the payload and its length, and reads nothing but the frame. -/
def Delivered : Prop :=
  ∀ (receive : Receiver) (length : Nat),
    dsmpRecv receive message.frame length =
      (do
        receive message.payload message.payload.length
        return some ⟨message.payload, message.payload.length⟩)

theorem dsmpHdr_length : message.dsmpHdr.length = dsmpHeaderLen := rfl

/-- The type of the security is the second byte. -/
theorem frame_type : byteAt message.frame 1 = message.securityType := rfl

/-- A frame without security information is delivered. -/
theorem delivered_plain (plain : message.securityType = 0) : message.Delivered := by
  intro receive length
  have info : message.securityInfo = [] := if_neg (not_not.2 plain)
  have security : dsmpHeaderAt (byteAt message.frame 1) = 4 := by
    rw [frame_type, plain]
    rfl
  have header : message.frame.drop 4 = message.dsmpHdr ++ message.payload := by
    rw [frame, info]
    rfl
  have declared : (cvNtohs (load16 (message.dsmpHdr ++ message.payload) 6)).toNat =
      message.payload.length := by
    have stored : load16 (message.dsmpHdr ++ message.payload) 6 =
        load16 (store16 (cvNtohs (BitVec.ofNat 16 message.payload.length))) 0 := rfl
    rw [stored, load16_store16, cvNtohs_cvNtohs, BitVec.toNat_ofNat,
      Nat.mod_eq_of_lt message.short]
  have aid : cvNtohl (load32 (message.dsmpHdr ++ message.payload) 1) = waveAidVehicleSafety := by
    change cvNtohl (load32 (store32 (cvNtohl waveAidVehicleSafety)) 0) = _
    decide
  have element : byteAt (message.dsmpHdr ++ message.payload) 5 = waveElementIdWsm := rfl
  have rest : (message.dsmpHdr ++ message.payload).drop dsmpHeaderLen = message.payload := rfl
  have fields : 6 + 2 ≤ (message.dsmpHdr ++ message.payload).length := by
    rw [List.length_append, dsmpHdr_length]
    exact Nat.le_add_right ..
  have type : 1 + 1 ≤ message.frame.length := by
    rw [frame, List.length_append]
    exact Nat.le_add_right_of_le (Nat.le_add_left 2 2)
  unfold dsmpRecv
  rw [readable_bind type, security, header, readable_bind (by omega), if_pos aid,
    readable_bind (by omega), if_pos element, readable_bind fields, declared, rest]

/-- The bytes of a field are those it was loaded from. -/
theorem store32_load32 (frame : Frame) (offset : Nat) :
    store32 (load32 frame offset) = [byteAt frame offset, byteAt frame (offset + 1),
      byteAt frame (offset + 2), byteAt frame (offset + 3)] := by
  rw [load32, store32_append, load16, load16, store16_append, store16_append]
  rfl

/-- A field with the application id of vehicle safety begins with a zero. -/
theorem byteAt_of_aid {frame : Frame} {offset : Nat}
    (aid : cvNtohl (load32 frame offset) = waveAidVehicleSafety) : byteAt frame offset = 0 := by
  have field : load32 frame offset = cvNtohl waveAidVehicleSafety := by
    rw [← aid, cvNtohl_cvNtohl]
  have bytes := store32_load32 frame offset
  rw [field] at bytes
  exact (List.cons.inj bytes).1.symm

/-- A frame with security information is never delivered. -/
theorem not_delivered_secured (secured : message.securityType ≠ 0) : ¬ message.Delivered := by
  intro delivered
  have info : message.securityInfo =
    [message.encType, message.key.1, message.key.2.1, message.key.2.2] := if_pos secured
  have security : dsmpHeaderAt (byteAt message.frame 1) = 12 := by
    rw [frame_type, dsmpHeaderAt, if_pos secured]
    rfl
  have header : message.frame.drop 12 = (message.dsmpHdr ++ message.payload).drop 4 := by
    rw [frame, info]
    rfl
  have element : byteAt ((message.dsmpHdr ++ message.payload).drop 4) 1 = waveElementIdWsm := rfl
  have aid : ¬ cvNtohl (load32 ((message.dsmpHdr ++ message.payload).drop 4) 1) =
      waveAidVehicleSafety := by
    intro same
    exact absurd ((byteAt_of_aid same).symm.trans element) (by decide)
  have called : dsmpRecv (fun _ _ => .ok ()) message.frame 0 =
    .ok (some ⟨message.payload, message.payload.length⟩) := delivered _ 0
  rw [← ends_eq] at called
  simp only [dsmpRecv, security, header, ends_bind, ends_readable, if_neg aid, ends_pure] at called
  cases called.2.2

/-- `dsmp_recv` hands on the payload exactly if the frame has no security information. -/
theorem delivered_iff : message.Delivered ↔ message.securityType = 0 := by
  constructor
  · intro delivered
    by_contra secured
    exact message.not_delivered_secured secured delivered
  · exact message.delivered_plain

end DsmpMessage

/-- A secured message of two bytes. -/
def securedMessage : DsmpMessage where
  secVersion := 2
  securityType := 1
  reserved := (0, 0)
  encType := 1
  key := (0xA1, 0xA2, 0xA3)
  version := 1
  payload := [0x20, 0x07]
  short := by decide

/-- The secured message is dropped, for an application id that was read elsewhere. -/
theorem securedMessage_dropped :
    dsmpRecv (fun _ _ => .ok ()) securedMessage.frame securedMessage.frame.length = .ok none ∧
      ¬ securedMessage.Delivered := by
  refine ⟨by decide, fun delivered => ?_⟩
  have called := delivered (fun _ _ => .ok ()) securedMessage.frame.length
  exact absurd called (by decide)

end Rsu.Wnet
