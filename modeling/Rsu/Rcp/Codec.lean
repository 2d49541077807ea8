import Mathlib.Data.Rat.Defs
import Rsu.Data.BitMask
import Rsu.Rcp.Frame

/-!
# Field codecs of the remote communication protocol

How `cv_vam_rcp.c` reads the fields of a frame: multi-byte fields are loaded as
the little-endian host stores them and then brought into network order. The
`float` results are exact rationals; nothing below computes with them.
-/

namespace Rsu.Rcp

open Rsu.Data.BitMask

/-- A 16-bit field as the host loads it. -/
def load16 (frame : Frame) (offset : Nat) : BitVec 16 :=
  byteAt frame (offset + 1) ++ byteAt frame offset

/-- A 32-bit field as the host loads it. -/
def load32 (frame : Frame) (offset : Nat) : BitVec 32 :=
  load16 frame (offset + 2) ++ load16 frame offset

/-- A 16-bit value as the host stores it. -/
def store16 (value : BitVec 16) : List Byte := [value.extractLsb' 0 8, value.extractLsb' 8 8]

/-- A 32-bit value as the host stores it. -/
def store32 (value : BitVec 32) : List Byte :=
  store16 (value.extractLsb' 0 16) ++ store16 (value.extractLsb' 16 16)

@[simp] theorem store16_length (value : BitVec 16) : (store16 value).length = 2 := rfl

@[simp] theorem store32_length (value : BitVec 32) : (store32 value).length = 4 := rfl

/-- `cv_ntohs`: exchange the two bytes. -/
def cvNtohs (s16 : BitVec 16) : BitVec 16 := s16.extractLsb' 0 8 ++ s16.extractLsb' 8 8

/-- `cv_ntohl`: reverse the four bytes. -/
def cvNtohl (l32 : BitVec 32) : BitVec 32 :=
  cvNtohs (l32.extractLsb' 0 16) ++ cvNtohs (l32.extractLsb' 16 16)

/-- A value that was stored is loaded again. -/
theorem load16_store16 (value : BitVec 16) : load16 (store16 value) 0 = value :=
  calc
    load16 (store16 value) 0 = value.extractLsb' 8 8 ++ value.extractLsb' 0 8 := rfl
    _ = value.extractLsb' 0 16 := BitVec.extractLsb'_append_extractLsb'_eq_extractLsb' rfl
    _ = value := BitVec.extractLsb'_eq_self

/-- A 32-bit value that was stored is loaded again. -/
theorem load32_store32 (value : BitVec 32) : load32 (store32 value) 0 = value :=
  calc
    load32 (store32 value) 0 =
        load16 (store16 (value.extractLsb' 16 16)) 0 ++
          load16 (store16 (value.extractLsb' 0 16)) 0 := rfl
    _ = value.extractLsb' 16 16 ++ value.extractLsb' 0 16 := by
      rw [load16_store16, load16_store16]
    _ = value.extractLsb' 0 32 := BitVec.extractLsb'_append_extractLsb'_eq_extractLsb' rfl
    _ = value := BitVec.extractLsb'_eq_self

/-- What was loaded is stored as it was. -/
theorem store16_append (high low : Byte) : store16 (high ++ low) = [low, high] := by
  rw [store16, BitVec.extractLsb'_append_eq_right, BitVec.extractLsb'_append_eq_left]

/-- What was loaded is stored as it was, in both halves. -/
theorem store32_append (high low : BitVec 16) :
    store32 (high ++ low) = store16 low ++ store16 high := by
  rw [store32, BitVec.extractLsb'_append_eq_right, BitVec.extractLsb'_append_eq_left]

/-- A word in front is not touched by what follows. -/
theorem load16_append_left {front : Frame} {offset : Nat} (rest : Frame)
    (inside : offset + 2 ≤ front.length) : load16 (front ++ rest) offset = load16 front offset := by
  rw [load16, load16, byteAt_append_left rest (by omega), byteAt_append_left rest (by omega)]

/-- A word behind the front is one of the rest. -/
theorem load16_append (front rest : Frame) (offset : Nat) :
    load16 (front ++ rest) (front.length + offset) = load16 rest offset := by
  rw [load16, load16, byteAt_append, Nat.add_assoc, byteAt_append]

theorem load32_append_left {front : Frame} {offset : Nat} (rest : Frame)
    (inside : offset + 4 ≤ front.length) : load32 (front ++ rest) offset = load32 front offset := by
  rw [load32, load32, load16_append_left rest (by omega), load16_append_left rest (by omega)]

/-- Two exchanges of the bytes cancel. -/
theorem cvNtohs_cvNtohs (value : BitVec 16) : cvNtohs (cvNtohs value) = value := by
  have low : (cvNtohs value).extractLsb' 0 8 = value.extractLsb' 8 8 :=
    BitVec.extractLsb'_append_eq_right
  have high : (cvNtohs value).extractLsb' 8 8 = value.extractLsb' 0 8 :=
    BitVec.extractLsb'_append_eq_left
  rw [cvNtohs, low, high]
  exact load16_store16 value

/-- Two reversals cancel. -/
theorem cvNtohl_cvNtohl (value : BitVec 32) : cvNtohl (cvNtohl value) = value := by
  have low : (cvNtohl value).extractLsb' 0 16 = cvNtohs (value.extractLsb' 16 16) :=
    BitVec.extractLsb'_append_eq_right
  have high : (cvNtohl value).extractLsb' 16 16 = cvNtohs (value.extractLsb' 0 16) :=
    BitVec.extractLsb'_append_eq_left
  rw [cvNtohl, low, high, cvNtohs_cvNtohs, cvNtohs_cvNtohs]
  exact (BitVec.extractLsb'_append_extractLsb'_eq_extractLsb' rfl).trans BitVec.extractLsb'_eq_self

/-- `decode_longtitude`, which also decodes latitudes and accuracies. -/
def decodeLongtitude (x : BitVec 32) : ℚ := (cvNtohl x).toInt / 10000000

/-- `decode_elevation` -/
def decodeElevation (x : BitVec 16) : ℚ := (cvNtohs x).toNat

/-- `decode_speed` -/
def decodeSpeed (x : BitVec 16) : ℚ := ((cvNtohs x).toNat * 3600 : Nat) / 100000

/-- `decode_heading` -/
def decodeHeading (x : BitVec 16) : ℚ := (cvNtohs x).toNat / 80

/-- `decode_acce_lon`, `decode_acce_lat` and `decode_acce_vert` -/
def decodeAcce (x : BitVec 16) : ℚ := (cvNtohs x).toNat

/-- `decode_acce_yaw` -/
def decodeAcceYaw (x : Byte) : ℚ := x.toNat

/-- `VAM_ALERT_MASK_VBD`, vehicle break down. -/
def vamAlertMaskVbd : BitVec 16 := 0x01

/-- `VAM_ALERT_MASK_EBD`, vehicle emergency brake down. -/
def vamAlertMaskEbd : BitVec 16 := 0x02

/-- `VAM_ALERT_MASK_VOT`, vehicle overturned. -/
def vamAlertMaskVot : BitVec 16 := 0x04

/-- `EventHazardLights` -/
def eventHazardLights : BitVec 16 := 0x0001

/-- `EventHardBraking` -/
def eventHardBraking : BitVec 16 := 0x0080

/-- `EventDisabledVehicle` -/
def eventDisabledVehicle : BitVec 16 := 0x0800

/-- Set `target` in a word when a test succeeded. -/
def setIf (condition : Bool) (target flags : BitVec 16) : BitVec 16 :=
  if condition then set flags target else flags

/-- `encode_vehicle_alert` -/
def encodeVehicleAlert (x : BitVec 16) : BitVec 16 :=
  cvNtohs (setIf (has x vamAlertMaskVot) eventDisabledVehicle
    (setIf (has x vamAlertMaskEbd) eventHardBraking
      (setIf (has x vamAlertMaskVbd) eventHazardLights 0)))

/-- `decode_vehicle_alert` -/
def decodeVehicleAlert (x : BitVec 16) : BitVec 16 :=
  setIf (has (cvNtohs x) eventDisabledVehicle) vamAlertMaskVot
    (setIf (has (cvNtohs x) eventHardBraking) vamAlertMaskEbd
      (setIf (has (cvNtohs x) eventHazardLights) vamAlertMaskVbd 0))

/-- The road-side alert types of `E_VAM_RSA_TYPE`, in order, with their codes. -/
def itiscode : List (BitVec 16) :=
  [0x1C07, 0x1F5A, 0x2029, 0x2025, 0x1F60, 0x1D07, 0x0A04, 0x0704]

/-- `itiscode_2_rsa_mask`: the bit of the first type with this code. -/
def itiscode2RsaMask (type rsaMask : BitVec 16) : BitVec 16 :=
  match itiscode.findIdx? (· = type) with
  | some i => set rsaMask (BitVec.twoPow 16 i)
  | none => rsaMask

/-- `decode_itiscode`; the description has eight codes. -/
def decodeItiscode (typeEvent : BitVec 16) (description : List (BitVec 16)) : BitVec 16 :=
  description.foldl (fun rsaMask code => itiscode2RsaMask (cvNtohs code) rsaMask)
    (itiscode2RsaMask (cvNtohs typeEvent) 0)

/-- `rcp_position_t` -/
structure RcpPosition where
  lat : BitVec 32
  lon : BitVec 32
  elev : BitVec 16
  accu : BitVec 32

/-- `rcp_motion_t` with its acceleration. -/
structure RcpMotion where
  speed : BitVec 16
  heading : BitVec 16
  acceLon : BitVec 16
  acceLat : BitVec 16
  acceVert : BitVec 16
  acceYaw : Byte

/-- The fields of `rcp_msg_basic_safty_t` that are read from a received frame. -/
structure RcpMsgBasicSafty where
  temporaryId : TempId
  dsecond : BitVec 16
  position : RcpPosition
  motion : RcpMotion
  events : BitVec 16

/-- The cast of a frame to `rcp_msg_basic_safty_t *`. -/
def bsmOfFrame (frame : Frame) : RcpMsgBasicSafty where
  temporaryId := tempIdAt frame 2
  dsecond := load16 frame 10
  position := ⟨load32 frame 12, load32 frame 16, load16 frame 20, load32 frame 22⟩
  motion := ⟨load16 frame 26, load16 frame 28, load16 frame 30, load16 frame 32, load16 frame 34,
    byteAt frame 36⟩
  events := load16 frame 42

/-- The fields of `rcp_msg_emergency_vehicle_alert_t` and of the road-side alert
inside it that are read from a received frame. -/
structure RcpMsgEmergencyVehicleAlert where
  temporaryId : TempId
  typeEvent : BitVec 16
  description : List (BitVec 16)
  lon : BitVec 32
  lat : BitVec 32
  elev : BitVec 16
  heading : BitVec 16
  /-- The bit field `speed`, the low thirteen bits of its word. -/
  speed : BitVec 16

/-- The cast of a frame to `rcp_msg_emergency_vehicle_alert_t *`. -/
def evamOfFrame (frame : Frame) : RcpMsgEmergencyVehicleAlert where
  temporaryId := tempIdAt frame 1
  typeEvent := load16 frame 11
  description := (List.range 8).map fun index => load16 frame (13 + 2 * index)
  lon := load32 frame 33
  lat := load32 frame 37
  elev := load16 frame 41
  heading := load16 frame 43
  speed := ((load16 frame 45).extractLsb' 0 13).setWidth 16

end Rsu.Rcp
