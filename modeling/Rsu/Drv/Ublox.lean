import Rsu.Data.RunningSums
import Rsu.Rcp.Codec
import Rsu.Semantics.Checked

/-!
# Configuration packets for the GPS chip

A packet carries two checksum bytes behind its body. The driver sums in 16 bits and cuts the
sums off; a receiver sums in bytes.
-/

namespace Rsu.Drv

open Rsu.Rcp Rsu.Data.RunningSums Checked

/-- The sum of all bytes. -/
def checksumA (bytes : Frame) : Nat := (bytes.map BitVec.toNat).sum % 256

/-- The sum of all partial values of `checksumA`. -/
def checksumB (bytes : Frame) : Nat :=
  ((List.range bytes.length).map fun index => checksumA (bytes.take (index + 1))).sum % 256

/-- One turn of the loop of `ubx_pkt_checknum_calc`. -/
def checknumTurn (ck : BitVec 16 × BitVec 16) (byte : Byte) : BitVec 16 × BitVec 16 :=
  let ckA := ck.1 + byte.setWidth 16
  (ckA, ck.2 + ckA)

/-- `ubx_pkt_checknum_calc` -/
def ubxPktChecknumCalc (buf : Frame) (len : Nat) : Checked (Byte × Byte) := do
  readable buf.length 0 len
  let (ckA, ckB) := (buf.take len).foldl checknumTurn (0, 0)
  return (ckA.setWidth 8, ckB.setWidth 8)

/-- `UBX_SYSN_CHAR1` -/
def ubxSysnChar1 : Byte := 0xB5

/-- `UBX_SYSN_CHAR2` -/
def ubxSysnChar2 : Byte := 0x62

/-- `gps_ubx_pkt_hdr_t` as it lies in memory. -/
def gpsUbxPktHdr (msgClass msgId : Byte) (length : BitVec 16) : Frame :=
  [ubxSysnChar1, ubxSysnChar2, msgClass, msgId] ++ store16 length

/-- `gps_ubx_cfg_msg_t` as it lies in memory; one port is switched. -/
def gpsUbxCfgMsg (nmeaClass nmeaid portOn1 : Byte) : Frame :=
  [nmeaClass, nmeaid, 0, portOn1, 0, 0, 0, 0]

/-- `ubx_cfg_msg_std_nmea`: what is written to the device. The buffer is not cleared. -/
def ubxCfgMsgStdNmea (buf : Vector Byte 20) (nmeaId : BitVec 32) (enable : Byte) :
    Checked Frame := do
  let pkt := gpsUbxPktHdr 0x06 0x01 8
  let len := pkt.length
  writable 20 0 len
  let buf := copyInto buf.toList 0 pkt
  let cfg := gpsUbxCfgMsg 0xF0 (nmeaId.setWidth 8) enable
  writable 20 len cfg.length
  let buf := copyInto buf len cfg
  let len := len + cfg.length
  let (cknumA, cknumB) ← ubxPktChecknumCalc (buf.drop 2) (len - 2)
  writable 20 len 2
  let buf := copyInto buf len [cknumA, cknumB]
  let len := len + 2
  readable 20 0 len
  return buf.take len

/-- `ubx_cfg_sbas`: what is written to the device. -/
def ubxCfgSbas (enable : Byte) : Checked Frame := do
  let cfgSbas : Frame := [0xB5, 0x62, 0x06, 0x16, 0x08, 0x00, enable, 0x01, 0x03, 0x00, 0x00, 0x00,
    0x00, 0x00, 0xAA, 0xBB]
  let (cknumA, cknumB) ← ubxPktChecknumCalc (cfgSbas.drop 2) (cfgSbas.length - 4)
  return copyInto cfgSbas (cfgSbas.length - 2) [cknumA, cknumB]

/-- What `ubx_cfg_uart_port` writes to the device. -/
def ubxCfgUartPort : Frame :=
  [0xB5, 0x62, 0x06, 0x00, 0x14, 0x00, 0x01, 0x00, 0x00, 0x00, 0xD0, 0x08, 0x00, 0x00, 0x00, 0xC2,
    0x01, 0x00, 0x03, 0x00, 0x03, 0x00, 0x00, 0x00, 0x00, 0x00, 0xBC, 0x5E]

/-- What `ubx_cfg_nmea_freq` writes to the device; it knows three rates. -/
def ubxCfgNmeaFreq (freq : Byte) : Frame :=
  let cfgPkt (low high check check' : Byte) : Frame :=
    [0xB5, 0x62, 0x06, 0x08, 0x06, 0x00, low, high, 0x01, 0x00, 0x01, 0x00, check, check']
  if freq = 1 then cfgPkt 0xE8 0x03 0x01 0x39
  else if freq = 2 then cfgPkt 0xF4 0x01 0x0B 0x77
  else if freq = 5 then cfgPkt 0xC8 0x00 0xDE 0x6A
  else cfgPkt 0xF4 0x01 0x0B 0x77

/-- What a receiver sums: class, id, length and payload. -/
def ubxBody (packet : Frame) : Frame := (packet.drop 2).take (packet.length - 4)

/-- A receiver accepts the packet: it finds the two bytes in front, as much payload as announced,
and its own sums at the end. -/
def UbxVerifies (packet : Frame) : Prop :=
  packet = [ubxSysnChar1, ubxSysnChar2] ++ ubxBody packet ++
      [BitVec.ofNat 8 (checksumA (ubxBody packet)), BitVec.ofNat 8 (checksumB (ubxBody packet))] ∧
    (ubxBody packet).length = 4 + (load16 packet 4).toNat

instance (packet : Frame) : Decidable (UbxVerifies packet) :=
  inferInstanceAs (Decidable (_ ∧ _))

@[simp] theorem gpsUbxPktHdr_length (msgClass msgId : Byte) (length : BitVec 16) :
    (gpsUbxPktHdr msgClass msgId length).length = 6 := rfl

@[simp] theorem gpsUbxCfgMsg_length (nmeaClass nmeaid portOn1 : Byte) :
    (gpsUbxCfgMsg nmeaClass nmeaid portOn1).length = 8 := rfl

/-- The sums of the loop are those of the bytes as 16-bit values. -/
theorem foldl_checknumTurn (bytes : Frame) (ck : BitVec 16 × BitVec 16) :
    bytes.foldl checknumTurn ck = (bytes.map (BitVec.setWidth 16)).foldl accumulate ck := by
  rw [List.foldl_map]
  rfl

/-- Bytes as 16-bit values are natural numbers as 16-bit values. -/
theorem map_setWidth (bytes : Frame) :
    bytes.map (BitVec.setWidth 16) = (bytes.map BitVec.toNat).map (BitVec.ofNat 16) := by
  rw [List.map_map]
  apply List.map_congr_left
  intro byte _
  apply BitVec.eq_of_toNat_eq
  simp

/-- The first sum and the sums of the beginnings, modulo 256. -/
theorem partialSums_mod (bytes : Frame) :
    (partialSums (bytes.map BitVec.toNat)).sum % 256 = checksumB bytes := by
  rw [List.sum_nat_mod, partialSums, List.map_map, List.length_map, checksumB]
  congr 3
  funext index
  rw [Function.comp_apply, checksumA, List.map_take]

/-- Overflow in 16 bits does not reach the sums of bytes. -/
theorem ubxPktChecknumCalc_eq (buf : Frame) :
    ubxPktChecknumCalc buf buf.length =
      .ok (BitVec.ofNat 8 (checksumA buf), BitVec.ofNat 8 (checksumB buf)) := by
  have sums : buf.foldl checknumTurn (0, 0) =
      ((buf.map BitVec.toNat).foldl accumulate (0, 0)).map (BitVec.ofNat 16) (BitVec.ofNat 16) := by
    rw [foldl_checknumTurn, map_setWidth, ← foldl_accumulate_map BitVec.ofNat_add]
    rfl
  have low : ∀ value : Nat, (BitVec.ofNat 16 value).setWidth 8 = BitVec.ofNat 8 (value % 256) := by
    intro value
    apply BitVec.eq_of_toNat_eq
    simp
  rw [ubxPktChecknumCalc, readable_bind (Nat.le_of_eq (Nat.zero_add _)), List.take_length, sums,
    foldl_accumulate]
  simp only [Prod.map, low, partialSums_mod]
  rfl

/-- Only the first bytes are summed. -/
theorem ubxPktChecknumCalc_append (buf rest : Frame) :
    ubxPktChecknumCalc (buf ++ rest) buf.length = ubxPktChecknumCalc buf buf.length := by
  have inside : 0 + buf.length ≤ (buf ++ rest).length := by
    simp
  rw [ubxPktChecknumCalc, ubxPktChecknumCalc, readable_bind inside,
    readable_bind (Nat.le_of_eq (Nat.zero_add _)), List.take_left, List.take_length]

/-- A receiver finds the body. -/
@[simp] theorem ubxBody_packet (body : Frame) (cknumA cknumB : Byte) :
    ubxBody ([ubxSysnChar1, ubxSysnChar2] ++ body ++ [cknumA, cknumB]) = body := by
  have count : ([ubxSysnChar1, ubxSysnChar2] ++ body ++ [cknumA, cknumB]).length - 4 =
      body.length := by
    simp
  rw [ubxBody, count, List.append_assoc]
  exact List.take_left

/-- A body with its checksum is accepted. -/
theorem ubxVerifies_of_checknum {body : Frame} (length : body.length = 4 + (load16 body 2).toNat) :
    Ends (ubxPktChecknumCalc body body.length) fun (cknumA, cknumB) =>
      UbxVerifies ([ubxSysnChar1, ubxSysnChar2] ++ body ++ [cknumA, cknumB]) := by
  have stored (cknumA cknumB : Byte) :
      load16 ([ubxSysnChar1, ubxSysnChar2] ++ body ++ [cknumA, cknumB]) 4 = load16 body 2 := by
    rw [List.append_assoc]
    exact (load16_append [ubxSysnChar1, ubxSysnChar2] _ 2).trans
      (load16_append_left _ (by omega))
  rw [ubxPktChecknumCalc_eq, ends_ok]
  constructor
  · rw [ubxBody_packet]
  · rw [ubxBody_packet, stored]
    exact length

/-- What is copied behind a front replaces what was there. -/
theorem copyInto_behind (front rest bytes : Frame) :
    copyInto (front ++ rest) front.length bytes = front ++ bytes ++ rest.drop bytes.length := by
  have behind := copyInto_append_add front rest 0 bytes
  simp only [Nat.add_zero] at behind
  rw [behind, copyInto]
  simp

/-- Class and id of the packet that `ubx_cfg_msg_std_nmea` builds, its length, and its payload. -/
def cfgMsgBody (nmeaId : BitVec 32) (enable : Byte) : Frame :=
  [0x06, 0x01] ++ store16 8 ++ gpsUbxCfgMsg 0xF0 (nmeaId.setWidth 8) enable

/-- The body of the packet is what is summed. -/
theorem ubxCfgMsgStdNmea_verifies (buf : Vector Byte 20) (nmeaId : BitVec 32) (enable : Byte) :
    Ends (ubxCfgMsgStdNmea buf nmeaId enable) fun packet =>
      UbxVerifies packet ∧ ubxBody packet = cfgMsgBody nmeaId enable := by
  let pkt := gpsUbxPktHdr 0x06 0x01 8
  let cfg := gpsUbxCfgMsg 0xF0 (nmeaId.setWidth 8) enable
  let body : Frame := pkt.drop 2 ++ cfg
  have front : pkt ++ cfg = [ubxSysnChar1, ubxSysnChar2] ++ body := rfl
  have header : copyInto buf.toList 0 pkt = pkt ++ buf.toList.drop 6 := copyInto_behind [] _ _
  have payload : copyInto (pkt ++ buf.toList.drop 6) pkt.length cfg =
      pkt ++ cfg ++ (buf.toList.drop 6).drop 8 := copyInto_behind ..
  have summed : (pkt ++ cfg ++ (buf.toList.drop 6).drop 8).drop 2 =
      body ++ (buf.toList.drop 6).drop 8 := rfl
  have checknum (cknumA cknumB : Byte) :
      (copyInto (pkt ++ cfg ++ (buf.toList.drop 6).drop 8) (pkt.length + cfg.length)
          [cknumA, cknumB]).take 16 = pkt ++ cfg ++ [cknumA, cknumB] := by
    rw [← List.length_append, copyInto_behind]
    exact List.take_left' rfl
  have stored : load16 body 2 = 8 := load16_store16 8
  have verifies : Ends (ubxPktChecknumCalc body body.length) fun (cknumA, cknumB) =>
      UbxVerifies ([ubxSysnChar1, ubxSysnChar2] ++ body ++ [cknumA, cknumB]) :=
    ubxVerifies_of_checknum (by rw [stored]; rfl)
  rw [ubxCfgMsgStdNmea, writable_bind (by decide), header,
    writable_bind (by simp), payload]
  dsimp only
  rw [summed, show pkt.length + cfg.length - 2 = body.length from rfl, ubxPktChecknumCalc_append,
    ends_bind]
  apply verifies.mono
  rintro ⟨cknumA, cknumB⟩ verifies
  rw [front] at checknum
  rw [writable_bind (by simp),
    readable_bind (by simp), ends_pure]
  have whole : UbxVerifies ([ubxSysnChar1, ubxSysnChar2] ++ body ++ [cknumA, cknumB]) ∧
      ubxBody ([ubxSysnChar1, ubxSysnChar2] ++ body ++ [cknumA, cknumB]) =
        cfgMsgBody nmeaId enable := ⟨verifies, ubxBody_packet ..⟩
  exact (checknum cknumA cknumB).symm ▸ whole

/-- The packet for the satellite augmentation verifies. -/
theorem ubxCfgSbas_verifies (enable : Byte) : Ends (ubxCfgSbas enable) UbxVerifies := by
  let body : Frame := [0x06, 0x16, 0x08, 0x00, enable, 0x01, 0x03, 0x00, 0x00, 0x00, 0x00, 0x00]
  have stored : load16 body 2 = 8 := (by decide : (0#8 ++ 8#8 : BitVec 16) = 8)
  have verifies : Ends (ubxPktChecknumCalc body body.length) fun (cknumA, cknumB) =>
      UbxVerifies ([ubxSysnChar1, ubxSysnChar2] ++ body ++ [cknumA, cknumB]) :=
    ubxVerifies_of_checknum (by rw [stored]; rfl)
  rw [← ubxPktChecknumCalc_append body [0xAA, 0xBB]] at verifies
  exact (ends_bind ..).2 (verifies.mono fun _ verified => (ends_pure ..).2 verified)

/-- The checksums in the packet for the serial port are right. -/
theorem ubxCfgUartPort_verifies : UbxVerifies ubxCfgUartPort := by
  decide

/-- The checksums in the packets for the rates are right, also that of an unknown rate. -/
theorem ubxCfgNmeaFreq_verifies (freq : Byte) : UbxVerifies (ubxCfgNmeaFreq freq) := by
  unfold ubxCfgNmeaFreq
  split
  · decide
  · split
    · decide
    · split <;> decide

/-- The checksum of a byte string of any length is that of the protocol, and every packet that
switches a message is accepted, with the class, the id, the length and the payload it is to have. -/
theorem ubx_checksum_verifies :
    (∀ buf : Frame, ubxPktChecknumCalc buf buf.length =
      .ok (BitVec.ofNat 8 (checksumA buf), BitVec.ofNat 8 (checksumB buf))) ∧
      ∀ buf nmeaId enable, Ends (ubxCfgMsgStdNmea buf nmeaId enable) fun packet =>
        UbxVerifies packet ∧ ubxBody packet = cfgMsgBody nmeaId enable :=
  ⟨ubxPktChecknumCalc_eq, ubxCfgMsgStdNmea_verifies⟩

end Rsu.Drv
