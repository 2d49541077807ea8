import Rsu.Oam.Frame
import Rsu.Semantics.Checked

/-!
# Requests of the management channel

The layout of `cv_sdk_msg_t`, the requests, and the table of the functions that bring
the data of a request into the other byte order. The functions are given a length and
never look at it; a `Region` says how much of the data they may touch.
-/

namespace Rsu.Oam

open Rsu.Rcp Checked

/-- A buffer of which a call may use the first `limit` bytes. -/
structure Region where
  bytes : Frame
  limit : Nat
  fits : limit ≤ bytes.length

namespace Region

variable {region : Region} {offset index : Nat} {bytes : List Byte}

/-- Load a byte. -/
def read8 (region : Region) (offset : Nat) : Checked Byte := do
  readable region.limit offset 1
  return byteAt region.bytes offset

/-- Load a 16-bit field. -/
def read16 (region : Region) (offset : Nat) : Checked (BitVec 16) := do
  readable region.limit offset 2
  return load16 region.bytes offset

/-- Load a 32-bit field. -/
def read32 (region : Region) (offset : Nat) : Checked (BitVec 32) := do
  readable region.limit offset 4
  return load32 region.bytes offset

/-- The buffer after bytes were stored inside the limit. -/
def put (region : Region) (offset : Nat) (bytes : List Byte) : Region :=
  if inside : offset + bytes.length ≤ region.limit then
    { region with
      bytes := copyInto region.bytes offset bytes
      fits := by
        rw [copyInto_length (Nat.le_trans inside region.fits)]
        exact region.fits }
  else region

/-- Store bytes. -/
def write (region : Region) (offset : Nat) (bytes : List Byte) : Checked Region := do
  writable region.limit offset bytes.length
  return region.put offset bytes

@[simp] theorem put_limit (region : Region) (offset : Nat) (bytes : List Byte) :
    (region.put offset bytes).limit = region.limit := by
  unfold put
  split <;> rfl

/-- Stores leave the bytes elsewhere alone. -/
theorem byteAt_put_of_outside (outside : index < offset ∨ offset + bytes.length ≤ index) :
    byteAt (region.put offset bytes).bytes index = byteAt region.bytes index := by
  unfold put
  split
  · next inside =>
    have kept := copyInto_getElem?_outside (Nat.le_trans inside region.fits) outside
    simp only [byteAt, List.getD_eq_getElem?_getD, kept]
  · rfl

/-- Words elsewhere are as they were. -/
theorem load16_put_of_outside (outside : index + 2 ≤ offset ∨ offset + bytes.length ≤ index) :
    load16 (region.put offset bytes).bytes index = load16 region.bytes index := by
  unfold load16
  rw [byteAt_put_of_outside (by omega), byteAt_put_of_outside (by omega)]

@[simp] theorem ends_read8 (post : Byte → Prop) :
    Ends (region.read8 offset) post ↔
      offset + 1 ≤ region.limit ∧ post (byteAt region.bytes offset) := by
  simp [read8]

@[simp] theorem ends_read16 (post : BitVec 16 → Prop) :
    Ends (region.read16 offset) post ↔
      offset + 2 ≤ region.limit ∧ post (load16 region.bytes offset) := by
  simp [read16]

@[simp] theorem ends_read32 (post : BitVec 32 → Prop) :
    Ends (region.read32 offset) post ↔
      offset + 4 ≤ region.limit ∧ post (load32 region.bytes offset) := by
  simp [read32]

@[simp] theorem ends_write (post : Region → Prop) :
    Ends (region.write offset bytes) post ↔
      offset + bytes.length ≤ region.limit ∧ post (region.put offset bytes) := by
  simp [write]

end Region

/-- The offset of `req_id` in `cv_sdk_msg_t`; `ret` is at zero. -/
def sdkReqIdAt : Nat := 4

/-- The offset of `sdk_id`. -/
def sdkIdAt : Nat := 12

/-- The offset of `len`. -/
def sdkLenAt : Nat := 14

/-- The offset of `data`, `sizeof(cv_sdk_msg_t) - 1`. -/
def sdkDataAt : Nat := 16

/-- `cs_sdk_req_type_t` without its end marker. -/
inductive CsSdkReqType where
  /-- `CV_SDK_VAM_PARAM_CFG_GET` -/
  | vamParamCfgGet
  /-- `CV_SDK_VAM_PARAM_CFG_SET` -/
  | vamParamCfgSet
  /-- `CV_SDK_VAM_BSM_TRIGGER` -/
  | vamBsmTrigger
  /-- `CV_SDK_VAM_SET_PRINT` -/
  | vamSetPrint
  deriving DecidableEq

/-- `CV_SDK_REQ_TYPE_END`, which is also `max_sdk_id` -/
def cvSdkReqTypeEnd : Nat := 4

/-- `g_sdk_xlat_table` and `g_sdk_handler_table`, both with a null entry at the end. -/
def sdkTable : List (Option CsSdkReqType) :=
  [some .vamParamCfgGet, some .vamParamCfgSet, some .vamBsmTrigger, some .vamSetPrint, none]

/-- The request with an identifier. -/
def sdkRequest (sdkId : Nat) : Option CsSdkReqType := (sdkTable[sdkId]?).join

/-- There is no request from the end marker on. -/
theorem sdkRequest_eq_none {sdkId : Nat} (undefined : cvSdkReqTypeEnd ≤ sdkId) :
    sdkRequest sdkId = none := by
  rcases Nat.eq_or_lt_of_le undefined with rfl | beyond
  · rfl
  · have outside : sdkTable.length ≤ sdkId := beyond
    rw [sdkRequest, List.getElem?_eq_none outside]
    rfl

/-- `cv_sdk_data_xlat_type` -/
inductive CvSdkDataXlatType where
  /-- `CV_SDK_DATA_HTON` -/
  | hton
  /-- `CV_SDK_DATA_NTOH` -/
  | ntoh

/-- `cv_short_byte_reverse` -/
def cvShortByteReverse (order : ByteOrder) (data : BitVec 16) : CvSdkDataXlatType → BitVec 16
  | .hton => oamHtons order data
  | .ntoh => oamNtohs order data

/-- `cv_int_byte_reverse` -/
def cvIntByteReverse (order : ByteOrder) (data : BitVec 32) : CvSdkDataXlatType → BitVec 32
  | .hton => oamHtonl order data
  | .ntoh => oamNtohl order data

/-- The offset of `bsm_boardcast_mode` in `vam_config_t`. -/
def bsmBoardcastModeAt : Nat := 1

/-- The offset of `bsm_boardcast_period`, after a byte of padding. -/
def bsmBoardcastPeriodAt : Nat := 6

/-- `sizeof(vam_config_t)` -/
def vamConfigLength : Nat := 12

/-- The offset of `cfg` in `cv_vam_cfg_set_msg_wrap_t`. -/
def cfgSetCfgAt : Nat := 4

section Xlat

variable (order : ByteOrder) (region : Region) (data : Nat) (type : CvSdkDataXlatType)

/-- Bring a 16-bit field into the other order. -/
def reverse16 : Checked Region := do
  let value ← region.read16 data
  region.write data (store16 (cvShortByteReverse order value type))

/-- Bring a 32-bit field into the other order. -/
def reverse32 : Checked Region := do
  let value ← region.read32 data
  region.write data (store32 (cvIntByteReverse order value type))

/-- `cv_oam_vam_cfg_get_byte_reverse` -/
def cvOamVamCfgGetByteReverse : Checked Region :=
  reverse16 order region (data + bsmBoardcastPeriodAt) type

/-- `cv_oam_vam_cfg_set_byte_reverse` -/
def cvOamVamCfgSetByteReverse : Checked Region := do
  let region ← reverse32 order region data type
  reverse16 order region (data + cfgSetCfgAt + bsmBoardcastPeriodAt) type

/-- `cv_oam_vam_bsm_trigger_byte_reverse`: the byte is reversed as an `int` and then cut
back to a byte. -/
def cvOamVamBsmTriggerByteReverse : Checked Region := do
  let trigger ← region.read8 data
  region.write data [(cvIntByteReverse order (trigger.setWidth 32) type).setWidth 8]

/-- `cv_oam_vam_set_print_byte_reverse` -/
def cvOamVamSetPrintByteReverse : Checked Region := reverse32 order region data type

/-- The entry of `g_sdk_xlat_table` for a request. -/
def CsSdkReqType.xlat : CsSdkReqType → Checked Region
  | .vamParamCfgGet => cvOamVamCfgGetByteReverse order region data type
  | .vamParamCfgSet => cvOamVamCfgSetByteReverse order region data type
  | .vamBsmTrigger => cvOamVamBsmTriggerByteReverse order region data type
  | .vamSetPrint => cvOamVamSetPrintByteReverse order region data type

end Xlat

/-- How far the entry for a request reaches into the data. -/
def CsSdkReqType.xlatWidth : CsSdkReqType → Nat
  | .vamParamCfgGet => bsmBoardcastPeriodAt + 2
  | .vamParamCfgSet => cfgSetCfgAt + bsmBoardcastPeriodAt + 2
  | .vamBsmTrigger => 1
  | .vamSetPrint => 4

/-- A buffer after some bytes of it from `data` on were changed. -/
structure ChangedFrom (data : Nat) (region next : Region) : Prop where
  limit : next.limit = region.limit
  before : ∀ index, index + 2 ≤ data → load16 next.bytes index = load16 region.bytes index

/-- Putting bytes behind a place leaves what is in front of it. -/
theorem ChangedFrom.put {region : Region} {data offset : Nat} (after : data ≤ offset)
    (bytes : List Byte) : ChangedFrom data region (region.put offset bytes) where
  limit := region.put_limit offset bytes
  before := fun _ inside => Region.load16_put_of_outside (.inl (by omega))

/-- Two changes behind a place. -/
theorem ChangedFrom.trans {data : Nat} {region between next : Region}
    (first : ChangedFrom data region between) (second : ChangedFrom data between next) :
    ChangedFrom data region next where
  limit := second.limit.trans first.limit
  before := fun index inside => (second.before index inside).trans (first.before index inside)

section Xlat

variable {order : ByteOrder} {region : Region} {data : Nat} {type : CvSdkDataXlatType}
  {request : CsSdkReqType}

/-- A table entry that ends stayed inside the data. -/
theorem xlat_inside {post : Region → Prop} (ends : Ends (request.xlat order region data type) post) :
    data + request.xlatWidth ≤ region.limit := by
  cases request <;>
    simp [CsSdkReqType.xlat, cvOamVamCfgGetByteReverse, cvOamVamCfgSetByteReverse,
      cvOamVamBsmTriggerByteReverse, cvOamVamSetPrintByteReverse, reverse16, reverse32] at ends <;>
    simp only [CsSdkReqType.xlatWidth] <;>
    omega

/-- Inside the data every table entry ends, and it changes nothing in front of them. -/
theorem xlat_ends (inside : data + request.xlatWidth ≤ region.limit) :
    Ends (request.xlat order region data type) (ChangedFrom data region) := by
  cases request with
  | vamParamCfgGet =>
      simp only [CsSdkReqType.xlatWidth] at inside
      simp only [CsSdkReqType.xlat, cvOamVamCfgGetByteReverse, reverse16, ends_bind,
        Region.ends_read16, Region.ends_write, store16_length]
      exact ⟨by omega, by omega, .put (by omega) _⟩
  | vamParamCfgSet =>
      simp only [CsSdkReqType.xlatWidth, cfgSetCfgAt, bsmBoardcastPeriodAt] at inside
      simp only [CsSdkReqType.xlat, cvOamVamCfgSetByteReverse, reverse16, reverse32, ends_bind,
        Region.ends_read16, Region.ends_read32, Region.ends_write, store16_length, store32_length,
        Region.put_limit, cfgSetCfgAt, bsmBoardcastPeriodAt]
      exact ⟨by omega, by omega, by omega, by omega,
        .trans (.put (Nat.le_refl _) _) (.put (by omega) _)⟩
  | vamBsmTrigger =>
      simp only [CsSdkReqType.xlatWidth] at inside
      simp only [CsSdkReqType.xlat, cvOamVamBsmTriggerByteReverse, ends_bind,
        Region.ends_read8, Region.ends_write, List.length_singleton]
      exact ⟨inside, inside, .put (Nat.le_refl _) _⟩
  | vamSetPrint =>
      simp only [CsSdkReqType.xlatWidth] at inside
      simp only [CsSdkReqType.xlat, cvOamVamSetPrintByteReverse, reverse32, ends_bind,
        Region.ends_read32, Region.ends_write, store32_length]
      exact ⟨inside, inside, .put (Nat.le_refl _) _⟩

end Xlat

end Rsu.Oam
