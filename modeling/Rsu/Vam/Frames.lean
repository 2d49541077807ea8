import Rsu.Rcp.Encode
import Rsu.Vam.Itiscode
import Rsu.Vam.Position

/-!
# The bytes of the messages sent

`rcp_send_bsm` and `rcp_send_evam` fill in a buffer that was zero: the fields of
the packed records of `cv_rcp.h`, first to last. What is not assigned stays zero.
The reader's view of such a frame is `bsmOfFrame_bytes` and `evamOfFrame_bytes`.
-/

namespace Rsu.Vam

open Rsu.Data.BitMask Rsu.Rcp

/-- Bytes that are not assigned. -/
def zeros (count : Nat) : List Byte := List.replicate count 0

/-- A forwarder, if one is assigned. -/
def forwardBytes (forwardId : Option TempId) : List Byte :=
  forwardId.elim (zeros rcpTempIdLen) Vector.toList

/-- `rcp_msg_head_t`, `forward_id` and `dsecond` of a basic safety message. -/
def TxBsm.front (bsm : TxBsm) (dsecond : BitVec 16) : Frame :=
  [bsm.hops ++ rcpMsgIdBsm, bsm.msgCount] ++ bsm.temporaryId.toList ++
    forwardBytes bsm.forwardId ++ store16 dsecond

/-- The fields `rcp_send_bsm` assigns in `position`. -/
def positionOf (cast : FloatCast) (current : VamStastatus) : RcpPosition where
  lat := encodeLongtitude cast current.pos.lat
  lon := encodeLongtitude cast current.pos.lon
  elev := encodeElevation cast current.pos.elev
  accu := encodeLongtitude cast current.pos.accu

/-- The fields `rcp_send_bsm` assigns in `motion`. -/
def motionOf (cast : FloatCast) (current : VamStastatus) : RcpMotion where
  speed := encodeSpeed cast current.speed
  heading := encodeHeading cast current.dir
  acceLon := encodeAcce cast current.acce.lon
  acceLat := encodeAcce cast current.acce.lat
  acceVert := encodeAcce cast current.acce.vert
  acceYaw := encodeAcceYaw cast current.acce.yaw

/-- `position` and `motion` as they lie in a message. -/
def statusBytes (position : RcpPosition) (motion : RcpMotion) : Frame :=
  store32 position.lat ++ store32 position.lon ++ store16 position.elev ++
    store32 position.accu ++ store16 motion.speed ++ store16 motion.heading ++
    store16 motion.acceLon ++ store16 motion.acceLat ++ store16 motion.acceVert ++
    [motion.acceYaw]

/-- The bytes of a basic safety message. The brakes and the size are not assigned, and
without an alert the safety extension is cut off. -/
def TxBsm.bytes (cast : FloatCast) (bsm : TxBsm) (current : VamStastatus)
    (dsecond : BitVec 16) : Frame :=
  bsm.front dsecond ++ (statusBytes (positionOf cast current) (motionOf cast current) ++
    (zeros 2 ++ zeros 3 ++ bsm.events.elim [] store16))

/-- An emergency vehicle alert as it is sent, without the status. -/
structure TxEvam where
  hops : BitVec 3
  msgCount : Byte
  temporaryId : TempId
  forwardId : Option TempId
  alertMask : BitVec 16
  deriving DecidableEq

/-- `msg_id`, the two identifiers, and the first three fields of `rsa`. -/
def TxEvam.front (evam : TxEvam) : Frame :=
  [evam.hops ++ rcpMsgIdEvam] ++ evam.temporaryId.toList ++ forwardBytes evam.forwardId ++
    [0, evam.msgCount] ++ store16 (encodeItiscode evam.alertMask).1

/-- `TRANS_STATE_Forward` -/
def transStateForward : BitVec 3 := 2

/-- The part of `full_position_vector_t` that is assigned. -/
def vectorBytes (lon lat : BitVec 32) (elev heading : BitVec 16) (speed : BitVec 13) : Frame :=
  store32 lon ++ store32 lat ++ store16 elev ++ store16 heading ++
    store16 (transStateForward ++ speed)

/-- The rest of the message: `priority`, `heading` and `extent` are not assigned, nor is what
follows the speed. -/
def evamStatus (cast : FloatCast) (current : VamStastatus) : Frame :=
  zeros 1 ++ zeros 2 ++ zeros 1 ++
    (vectorBytes (encodeLongtitude cast current.pos.lon) (encodeLongtitude cast current.pos.lat)
      (encodeElevation cast current.pos.elev) (encodeHeading cast current.dir)
      (speedField (encodeSpeed cast current.speed)) ++ zeros 24)

/-- The bytes of an emergency vehicle alert. -/
def TxEvam.bytes (cast : FloatCast) (evam : TxEvam) (current : VamStastatus) : Frame :=
  evam.front ++
    (((encodeItiscode evam.alertMask).2.map (·.getD 0)).flatMap store16 ++ evamStatus cast current)

namespace VamEnvar

/-- `rcp_send_evam`: the return value, the frame, and the new state. -/
def rcpSendEvam (lib : Libm) (t : BitVec 32) (vam : VamEnvar) (tx : TxEnv) :
    Int × Option TxEvam × VamEnvar :=
  if tx.txbuf then
    let param := vam.workingParam
    let current := vam.vamGetLocalCurrentStatus lib t
    (tx.sent,
      some
        { hops := param.evamHops.setWidth 3
          msgCount := vam.txEvamMsgCnt
          temporaryId := current.pid
          forwardId := if param.evamHops > 1 then some current.pid else none
          alertMask := current.alertMask },
      { vam with txEvamMsgCnt := vam.txEvamMsgCnt + 1 })
  else (-1, none, vam)

/-- The bytes `rcp_send_bsm` hands to the network layer at the system time `t`. -/
def bsmFrame (cast : FloatCast) (lib : Libm) (t : BitVec 32) (vam : VamEnvar) (tx : TxEnv) :
    Option Frame :=
  (vam.rcpSendBsm tx).2.1.map fun bsm =>
    bsm.bytes cast (vam.vamGetLocalCurrentStatus lib t) (t.setWidth 16)

/-- The bytes `rcp_send_evam` hands to the network layer at the system time `t`. -/
def evamFrame (cast : FloatCast) (lib : Libm) (t : BitVec 32) (vam : VamEnvar) (tx : TxEnv) :
    Option Frame :=
  (vam.rcpSendEvam lib t tx).2.1.map fun evam =>
    evam.bytes cast (vam.vamGetLocalCurrentStatus lib t)

end VamEnvar

section Reading

@[simp] theorem forwardBytes_length (forwardId : Option TempId) :
    (forwardBytes forwardId).length = 4 := by
  cases forwardId with
  | none => rfl
  | some pid => exact pid.length_toList

@[simp] theorem TxBsm.front_length (bsm : TxBsm) (dsecond : BitVec 16) :
    (bsm.front dsecond).length = 12 := by
  simp [TxBsm.front]

@[simp] theorem TxEvam.front_length (evam : TxEvam) : evam.front.length = 13 := by
  simp [TxEvam.front]

variable (cast : FloatCast) (current : VamStastatus)

theorem evamStatus_length : (evamStatus cast current).length = 42 := rfl

/-- A frame without the safety extension ends where it would begin. -/
theorem TxBsm.bytes_length (bsm : TxBsm) (dsecond : BitVec 16) :
    (bsm.bytes cast current dsecond).length = if bsm.events.isSome then 44 else 42 := by
  rw [TxBsm.bytes, List.length_append, TxBsm.front_length]
  cases bsm.events <;> rfl

theorem TxEvam.bytes_length (evam : TxEvam) : (evam.bytes cast current).length = 71 := by
  rw [TxEvam.bytes, List.length_append, List.length_append, evam.front_length,
    flatMap_store16_length, List.length_map, evamStatus_length]
  rfl

/-- Reading `position` and `motion` where they lie. -/
theorem read_statusBytes {position : RcpPosition} {motion : RcpMotion} {body rest : Frame}
    (layout : body = statusBytes position motion ++ rest) :
    (⟨load32 body 0, load32 body 4, load16 body 8, load32 body 10⟩ : RcpPosition) = position ∧
      (⟨load16 body 14, load16 body 16, load16 body 18, load16 body 20, load16 body 22,
        byteAt body 24⟩ : RcpMotion) = motion := by
  obtain ⟨lat, lon, elev, accu⟩ := position
  obtain ⟨speed, heading, acceLon, acceLat, acceVert, acceYaw⟩ := motion
  -- written out as single bytes, every field is found by counting
  simp only [statusBytes, store32, store16, List.cons_append, List.nil_append] at layout
  subst layout
  constructor
  · congr 1
    · exact load32_store32 lat
    · exact load32_store32 lon
    · exact load16_store16 elev
    · exact load32_store32 accu
  · congr 1
    · exact load16_store16 speed
    · exact load16_store16 heading
    · exact load16_store16 acceLon
    · exact load16_store16 acceLat
    · exact load16_store16 acceVert

/-- Reading the assigned part of a position vector. -/
theorem read_vectorBytes {lon lat : BitVec 32} {elev heading : BitVec 16} {speed : BitVec 13}
    {body rest : Frame}
    (layout : body = zeros 1 ++ zeros 2 ++ zeros 1 ++ (vectorBytes lon lat elev heading speed ++ rest)) :
    load32 body 4 = lon ∧ load32 body 8 = lat ∧ load16 body 12 = elev ∧ load16 body 14 = heading ∧
      load16 body 16 = transStateForward ++ speed := by
  simp only [vectorBytes, zeros, List.replicate, store32, store16, List.cons_append,
    List.nil_append] at layout
  subst layout
  exact ⟨load32_store32 lon, load32_store32 lat, load16_store16 elev, load16_store16 heading,
    load16_store16 (transStateForward ++ speed)⟩

/-- What the parser reads behind the first twelve bytes. -/
theorem bsmOfFrame_append {front body tail : Frame} {position : RcpPosition} {motion : RcpMotion}
    (length : front.length = 12) (layout : body = statusBytes position motion ++ tail) :
    bsmOfFrame (front ++ body) =
      { temporaryId := tempIdAt (front ++ body) 2
        dsecond := load16 (front ++ body) 10
        position := position
        motion := motion
        events := load16 body 30 } := by
  have long : ∀ offset, load32 (front ++ body) (12 + offset) = load32 body offset := by
    intro offset
    rw [← length, load32_append]
  have word : ∀ offset, load16 (front ++ body) (12 + offset) = load16 body offset := by
    intro offset
    rw [← length, load16_append]
  have byte : byteAt (front ++ body) (12 + 24) = byteAt body 24 := by
    rw [← length, byteAt_append]
  have read := read_statusBytes layout
  rw [← read.1, ← read.2, ← long 0, ← long 4, ← word 8, ← long 10, ← word 14, ← word 16, ← word 18,
    ← word 20, ← word 22, ← byte, ← word 30]
  rfl

/-- What the parser reads of a basic safety message that was sent. -/
theorem bsmOfFrame_bytes (bsm : TxBsm) (dsecond : BitVec 16) :
    bsmOfFrame (bsm.bytes cast current dsecond) =
      { temporaryId := bsm.temporaryId
        dsecond := dsecond
        position := positionOf cast current
        motion := motionOf cast current
        events := bsm.events.getD 0 } := by
  have pid : tempIdAt (bsm.bytes cast current dsecond) 2 = bsm.temporaryId := by
    rw [TxBsm.bytes, TxBsm.front]
    simp only [List.append_assoc]
    exact tempIdAt_append _ _ bsm.temporaryId
  have second : load16 (bsm.bytes cast current dsecond) 10 = dsecond := by
    have place : ([bsm.hops ++ rcpMsgIdBsm, bsm.msgCount] ++ bsm.temporaryId.toList ++
        forwardBytes bsm.forwardId).length = 10 := by simp
    rw [TxBsm.bytes, TxBsm.front, List.append_assoc, ← place]
    exact (load16_append _ _ 0).trans (load16_store16 dsecond)
  have events : load16 (statusBytes (positionOf cast current) (motionOf cast current) ++
      (zeros 2 ++ zeros 3 ++ bsm.events.elim [] store16)) 30 = bsm.events.getD 0 := by
    rw [show 30 = (statusBytes (positionOf cast current) (motionOf cast current)).length + 5 from rfl,
      load16_append]
    cases bsm.events with
    | none => rfl
    | some events => exact load16_store16 events
  rw [TxBsm.bytes] at pid second ⊢
  rw [bsmOfFrame_append (bsm.front_length dsecond) rfl, pid, second, events]

/-- What the parser reads of an emergency vehicle alert that was sent. -/
theorem evamOfFrame_bytes (evam : TxEvam) :
    evamOfFrame (evam.bytes cast current) =
      { temporaryId := evam.temporaryId
        typeEvent := (encodeItiscode evam.alertMask).1
        description := (encodeItiscode evam.alertMask).2.map (·.getD 0)
        lon := encodeLongtitude cast current.pos.lon
        lat := encodeLongtitude cast current.pos.lat
        elev := encodeElevation cast current.pos.elev
        heading := encodeHeading cast current.dir
        speed := (speedField (encodeSpeed cast current.speed)).setWidth 16 } := by
  have pid : tempIdAt (evam.bytes cast current) 1 = evam.temporaryId := by
    rw [TxEvam.bytes, TxEvam.front]
    simp only [List.append_assoc]
    exact tempIdAt_append _ _ evam.temporaryId
  have event : load16 (evam.bytes cast current) 11 = (encodeItiscode evam.alertMask).1 := by
    have place : ([evam.hops ++ rcpMsgIdEvam] ++ evam.temporaryId.toList ++
        forwardBytes evam.forwardId ++ [0, evam.msgCount]).length = 11 := by simp
    rw [TxEvam.bytes, TxEvam.front, List.append_assoc, ← place]
    exact (load16_append _ _ 0).trans (load16_store16 _)
  have codes : ((List.range 8).map fun index => load16 (evam.bytes cast current) (13 + 2 * index)) =
      (encodeItiscode evam.alertMask).2.map (·.getD 0) := by
    apply List.ext_getElem
    · simp [encodeItiscode]
    · intro index bound listed
      have inside : 2 * index + 2 ≤
          (((encodeItiscode evam.alertMask).2.map (·.getD 0)).flatMap store16).length := by
        rw [flatMap_store16_length]
        omega
      rw [List.getElem_map, List.getElem_range, TxEvam.bytes, ← evam.front_length, load16_append,
        load16_append_left _ inside, load16_flatMap_store16 listed]
  have length : (evam.front ++
      ((encodeItiscode evam.alertMask).2.map (·.getD 0)).flatMap store16).length = 29 := by
    rw [List.length_append, evam.front_length, flatMap_store16_length, List.length_map]
    rfl
  have word : ∀ offset, load16 (evam.bytes cast current) (29 + offset) =
      load16 (evamStatus cast current) offset := by
    intro offset
    rw [TxEvam.bytes, ← List.append_assoc, ← length, load16_append]
  have long : ∀ offset, load32 (evam.bytes cast current) (29 + offset) =
      load32 (evamStatus cast current) offset := by
    intro offset
    rw [TxEvam.bytes, ← List.append_assoc, ← length, load32_append]
  have layout : evamStatus cast current = zeros 1 ++ zeros 2 ++ zeros 1 ++ (_ ++ zeros 24) := rfl
  obtain ⟨lon, lat, elev, heading, speed⟩ := read_vectorBytes layout
  have field : (load16 (evam.bytes cast current) 45).extractLsb' 0 13 =
      speedField (encodeSpeed cast current.speed) := by
    rw [show 45 = 29 + 16 from rfl, word, speed]
    exact BitVec.extractLsb'_append_eq_right
  rw [evamOfFrame, pid, event, codes, (long 4).trans lon, (long 8).trans lat, (word 12).trans elev,
    (word 14).trans heading, field]

end Reading

end Rsu.Vam
