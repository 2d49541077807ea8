import Rsu.Vam.Frames
import Rsu.Vam.Neighbours

/-!
# What a receiver stores of the status that was sent

A message built from a status is parsed by another node. The fields are off by
less than one unit of their encoding except where the encoding cannot hold them:
`evam_round_trip_iff` and `bsm_round_trip_iff` say where.
-/

namespace Rsu.Vam

open Rsu.Data.BitMask Rsu.Rcp

/-- A status a vehicle can have. -/
structure VamStastatus.InRange (sta : VamStastatus) : Prop where
  lon : |sta.pos.lon| ≤ 180
  lat : |sta.pos.lat| ≤ 90
  elev : -1000 ≤ sta.pos.elev ∧ sta.pos.elev ≤ 10000
  dir : 0 ≤ sta.dir ∧ sta.dir < 360
  speed : 0 ≤ sta.speed ∧ sta.speed ≤ 300

/-- An acceleration a vehicle can have. -/
structure VamAcce.InRange (acce : VamAcce) : Prop where
  lon : |acce.lon| ≤ 2000
  lat : |acce.lat| ≤ 2000
  vert : |acce.vert| ≤ 2000
  yaw : |acce.yaw| ≤ 127

/-- The fields of an alert, each off by less than one unit of its encoding. -/
structure EvamClose (stored sent : VamStastatus) : Prop where
  alertMask : stored.alertMask = sent.alertMask
  lon : |stored.pos.lon - sent.pos.lon| < 1 / 10000000
  lat : |stored.pos.lat - sent.pos.lat| < 1 / 10000000
  elev : |stored.pos.elev - sent.pos.elev| < 1
  dir : |stored.dir - sent.dir| < 1 / 80
  speed : |stored.speed - sent.speed| < 3600 / 100000

/-- The fields of a basic safety message, each off by less than one unit of its encoding. -/
structure BsmClose (stored sent : VamStastatus) : Prop where
  lon : |stored.pos.lon - sent.pos.lon| < 1 / 10000000
  lat : |stored.pos.lat - sent.pos.lat| < 1 / 10000000
  elev : |stored.pos.elev - sent.pos.elev| < 1
  accu : |stored.pos.accu - sent.pos.accu| < 1 / 10000000
  dir : |stored.dir - sent.dir| < 1 / 80
  speed : |stored.speed - sent.speed| < 3600 / 100000
  acceLon : |stored.acce.lon - sent.acce.lon| < 1
  acceLat : |stored.acce.lat - sent.acce.lat| < 1
  acceVert : |stored.acce.vert - sent.acce.vert| < 1
  acceYaw : |stored.acce.yaw - sent.acce.yaw| < 1

section Bits

/-- A test for one bit. -/
theorem has_twoPow {w index : Nat} (flags : BitVec w) (inside : index < w) :
    has flags (BitVec.twoPow w index) = flags.getLsbD index := by
  rw [Bool.eq_iff_iff, has_iff]
  constructor
  · rintro ⟨place, inFlags, inMask⟩
    obtain ⟨-, rfl⟩ : index < w ∧ index = place := by simpa [BitVec.getLsbD_twoPow] using inMask
    exact inFlags
  · intro present
    exact ⟨index, present, by simp [inside]⟩

/-- The bits of a mask with one more flag, if the condition holds. -/
theorem setIf_getLsbD (condition : Bool) (target flags : BitVec 16) (index : Nat) :
    (setIf condition target flags).getLsbD index =
      (flags.getLsbD index || (condition && target.getLsbD index)) := by
  cases condition with
  | false => simp [setIf]
  | true => simp [setIf, Data.BitMask.set]

/-- The three vehicle alerts of a mask, one after the other. -/
theorem vehicleAlerts_eq (mask : BitVec 16) :
    mask &&& 0x7 = setIf (mask.getLsbD 2) vamAlertMaskVot
      (setIf (mask.getLsbD 1) vamAlertMaskEbd (setIf (mask.getLsbD 0) vamAlertMaskVbd 0)) := by
  apply BitVec.eq_of_getLsbD_eq
  intro index bound
  have bits : ∀ place < 16, (0x7 : BitVec 16).getLsbD place = decide (place < 3) ∧
      vamAlertMaskVot.getLsbD place = decide (place = 2) ∧
      vamAlertMaskEbd.getLsbD place = decide (place = 1) ∧
      vamAlertMaskVbd.getLsbD place = decide (place = 0) := by decide
  obtain ⟨low, vot, ebd, vbd⟩ := bits index bound
  rw [BitVec.getLsbD_and, setIf_getLsbD, setIf_getLsbD, setIf_getLsbD, low, vot, ebd, vbd]
  rcases index with _ | _ | _ | index <;> simp

/-- A mask of eight bits is kept by its low byte. -/
theorem and_low_of_lt {mask : BitVec 16} (small : mask < 0x100) : mask &&& 0xFF = mask := by
  have bound : mask.toNat < 256 := small
  apply BitVec.eq_of_toNat_eq
  rw [BitVec.toNat_and]
  exact (Nat.and_two_pow_sub_one_eq_mod mask.toNat 8).trans (Nat.mod_eq_of_lt bound)

/-- The safety extension carries the three vehicle alerts. -/
theorem decodeVehicleAlert_encodeVehicleAlert (mask : BitVec 16) :
    decodeVehicleAlert (encodeVehicleAlert mask) = mask &&& 0x7 := by
  have vbd : has mask vamAlertMaskVbd = mask.getLsbD 0 := by
    rw [show vamAlertMaskVbd = BitVec.twoPow 16 0 by decide, has_twoPow mask (by decide)]
  have ebd : has mask vamAlertMaskEbd = mask.getLsbD 1 := by
    rw [show vamAlertMaskEbd = BitVec.twoPow 16 1 by decide, has_twoPow mask (by decide)]
  have vot : has mask vamAlertMaskVot = mask.getLsbD 2 := by
    rw [show vamAlertMaskVot = BitVec.twoPow 16 2 by decide, has_twoPow mask (by decide)]
  rw [decodeVehicleAlert, encodeVehicleAlert, cvNtohs_cvNtohs, vbd, ebd, vot, vehicleAlerts_eq]
  cases mask.getLsbD 0 <;> cases mask.getLsbD 1 <;> cases mask.getLsbD 2 <;> rfl

end Bits

section Stored

/-- A parser credits a station with this pid, and what it stores there has a property. -/
def StoredAt (parse : Nat → Option RxResult) (pid : TempId) (good : VamStastatus → Prop) : Prop :=
  ∃ result slot, Returns parse result ∧ result.station = some slot ∧
    result.vam.pid slot = pid ∧ good (result.vam.remote slot).s

/-- What is stored has every weaker property. -/
theorem StoredAt.mono {parse : Nat → Option RxResult} {pid : TempId}
    {good weaker : VamStastatus → Prop} (stored : StoredAt parse pid good)
    (implies : ∀ sta, good sta → weaker sta) : StoredAt parse pid weaker := by
  obtain ⟨result, slot, returns, station, owner, holds⟩ := stored
  exact ⟨result, slot, returns, station, owner, implies _ holds⟩

/-- The table has the station, or a place for it. -/
def HasRoom (table : StaTable) (neighbours free : List Slot) (pid : TempId) : Prop :=
  (∃ slot ∈ neighbours, table.pid slot = pid) ∨ free ≠ []

variable {receiver : VamEnvar} {neighbours free : List Slot} {msg : Reception}

/-- A message is written into a station with the pid of its sender. -/
theorem Reception.stored (holds : receiver.toStaTable.Holds neighbours free)
    (reaches : msg.Reaches receiver.localSta.pid)
    (room : HasRoom receiver.toStaTable neighbours free msg.sender) :
    ∃ result slot node, Returns (msg.parse receiver) result ∧ result.station = some slot ∧
      result.vam.pid slot = msg.sender ∧ result.vam.remote slot = msg.write node := by
  have parse : msg.parse receiver (neighbours.length + 1) = receiver.withStation msg.sender
      msg.write (msg.report receiver.evtHandler) (neighbours.length + 1) := by
    rw [msg.parse_eq, if_pos reaches]
  rcases VamEnvar.withStation_cases holds msg.sender msg.write (msg.report receiver.evtHandler)
      (Nat.lt_succ_self _) with
    ⟨slot, -, owner, returned⟩ | ⟨absent, ⟨slot, rest, -, returned⟩ | ⟨empty, -⟩⟩
  · refine ⟨_, slot, receiver.remote slot, ⟨_, parse.trans returned⟩, rfl, ?_, ?_⟩
    · exact (StaTable.modify_pid _ slot msg.write_pid slot).trans owner
    · exact StaTable.modify_remote_self ..
  · refine ⟨_, slot, _, ⟨_, parse.trans returned⟩, rfl, ?_, StaTable.modify_remote_self ..⟩
    exact (StaTable.modify_pid _ slot msg.write_pid slot).trans (StaTable.seat_pid_self ..)
  · rcases room with ⟨slot, member, owner⟩ | free
    · exact absurd owner (absent slot member)
    · exact absurd empty free

/-- What is stored has a property exactly if it is written by the message. -/
theorem Reception.storedAt_iff (holds : receiver.toStaTable.Holds neighbours free)
    (reaches : msg.Reaches receiver.localSta.pid)
    (room : HasRoom receiver.toStaTable neighbours free msg.sender) {good : VamStastatus → Prop}
    {condition : Prop} (written : ∀ node, good (msg.write node).s ↔ condition) :
    StoredAt (msg.parse receiver) msg.sender good ↔ condition := by
  obtain ⟨result, slot, node, returns, station, owner, stored⟩ := msg.stored holds reaches room
  constructor
  · rintro ⟨other, place, otherReturns, otherStation, -, holds⟩
    obtain rfl := otherReturns.unique (msg.parse_persistent receiver) returns
    obtain rfl : slot = place := Option.some.inj (station.symm.trans otherStation)
    rw [stored] at holds
    exact (written node).1 holds
  · intro holds
    refine ⟨result, slot, returns, station, owner, ?_⟩
    rw [stored]
    exact (written node).2 holds

end Stored

section Close

variable {cast : FloatCast} {current : VamStastatus}

/-- Positions and headings in range always survive. -/
theorem VamStastatus.InRange.close (range : current.InRange) (cast : FloatCast) :
    |decodeLongtitude (encodeLongtitude cast current.pos.lon) - current.pos.lon| < 1 / 10000000 ∧
      |decodeLongtitude (encodeLongtitude cast current.pos.lat) - current.pos.lat| < 1 / 10000000 ∧
      |decodeHeading (encodeHeading cast current.dir) - current.dir| < 1 / 80 := by
  obtain ⟨west, east⟩ := abs_le.1 range.lon
  obtain ⟨south, north⟩ := abs_le.1 range.lat
  obtain ⟨low, high⟩ := range.dir
  refine ⟨(longtitude_close_iff cast _).2 ⟨?_, ?_⟩, (longtitude_close_iff cast _).2 ⟨?_, ?_⟩,
    (heading_close_iff cast _).2 ⟨?_, ?_⟩⟩ <;> linarith

/-- An elevation comes back close exactly if it is above -1 m. -/
theorem VamStastatus.InRange.elevation_iff (range : current.InRange) :
    |decodeElevation (encodeElevation cast current.pos.elev) - current.pos.elev| < 1 ↔
      -1 < current.pos.elev := by
  have high := range.elev.2
  rw [elevation_close_iff, and_iff_left]
  linarith

/-- A speed in range fits its field. -/
theorem VamStastatus.InRange.speed_fits (range : current.InRange) :
    -1 < current.speed * 100000 / 3600 ∧ current.speed * 100000 / 3600 < 65536 := by
  obtain ⟨low, high⟩ := range.speed
  constructor <;> linarith

/-- What is stored of an alert is close to what was sent exactly if the elevation is not
negative and bits five to seven of the speed are zero. -/
theorem evamClose_iff (range : current.InRange) (mask : current.alertMask < 0x100)
    (evam : TxEvam) (alert : evam.alertMask = current.alertMask) (now : BitVec 32)
    (node : VamStaNode) :
    EvamClose (storeEvam (evamOfFrame (evam.bytes cast current)) now node).s current ↔
      -1 < current.pos.elev ∧ truncate (current.speed * 100000 / 3600) % 256 < 32 := by
  obtain ⟨lon, lat, dir⟩ := range.close cast
  have codes : decodeItiscode (encodeItiscode evam.alertMask).1
      ((encodeItiscode evam.alertMask).2.map (·.getD 0)) = current.alertMask := by
    rw [decodeItiscode_encodeItiscode, alert, and_low_of_lt mask]
  have speed := speedField_close_iff cast range.speed.1 range.speed_fits.2
  rw [evamOfFrame_bytes]
  constructor
  · intro close
    exact ⟨range.elevation_iff.1 close.elev, speed.1 close.speed⟩
  · rintro ⟨notNegative, lowBits⟩
    exact
      { alertMask := codes
        lon := lon
        lat := lat
        elev := range.elevation_iff.2 notNegative
        dir := dir
        speed := speed.2 lowBits }

/-- When the fields of a basic safety message can be encoded. -/
structure Encodable (sta : VamStastatus) : Prop where
  elev : -1 < sta.pos.elev
  accu : -2147483649 < sta.pos.accu * 10000000 ∧ sta.pos.accu * 10000000 < 2147483648
  acceLon : -1 < sta.acce.lon
  acceLat : -1 < sta.acce.lat
  acceVert : -1 < sta.acce.vert
  acceYaw : -1 < sta.acce.yaw

/-- What is stored of a basic safety message is close to what was sent exactly if it could
be encoded. -/
theorem bsmClose_iff (range : current.InRange) (acce : current.acce.InRange) (bsm : TxBsm)
    (dsecond : BitVec 16) (now : BitVec 32) (node : VamStaNode) :
    BsmClose (storeBsm (bsmOfFrame (bsm.bytes cast current dsecond)) now node).s current ↔
      Encodable current := by
  obtain ⟨lon, lat, dir⟩ := range.close cast
  have speed := (speed_close_iff cast current.speed).2 range.speed_fits
  have accu := longtitude_close_iff cast current.pos.accu
  have small : ∀ {x bound : ℚ}, |x| ≤ bound → bound < 65536 →
      (|decodeAcce (encodeAcce cast x) - x| < 1 ↔ -1 < x) := by
    intro x bound within below
    rw [acce_close_iff, and_iff_left (lt_of_le_of_lt ((le_abs_self x).trans within) below)]
  have acceLon := small acce.lon (by norm_num)
  have acceLat := small acce.lat (by norm_num)
  have acceVert := small acce.vert (by norm_num)
  have yaw : |decodeAcceYaw (encodeAcceYaw cast current.acce.yaw) - current.acce.yaw| < 1 ↔
      -1 < current.acce.yaw := by
    have below := (le_abs_self _).trans acce.yaw
    rw [acceYaw_close_iff, and_iff_left (by linarith)]
  rw [bsmOfFrame_bytes]
  constructor
  · intro close
    exact
      { elev := range.elevation_iff.1 close.elev
        accu := accu.1 close.accu
        acceLon := acceLon.1 close.acceLon
        acceLat := acceLat.1 close.acceLat
        acceVert := acceVert.1 close.acceVert
        acceYaw := yaw.1 close.acceYaw }
  · intro encodable
    exact
      { lon := lon
        lat := lat
        elev := range.elevation_iff.2 encodable.elev
        accu := accu.2 encodable.accu
        dir := dir
        speed := speed
        acceLon := acceLon.2 encodable.acceLon
        acceLat := acceLat.2 encodable.acceLat
        acceVert := acceVert.2 encodable.acceVert
        acceYaw := yaw.2 encodable.acceYaw }

/-- The alerts are stored apart from the other fields. -/
theorem bsmClose_storeAlert (alertMask : BitVec 16) (node : VamStaNode) (sent : VamStastatus) :
    BsmClose (storeAlert alertMask node).s sent ↔ BsmClose node.s sent := by
  constructor
  · rintro ⟨lon, lat, elev, accu, dir, speed, acceLon, acceLat, acceVert, acceYaw⟩
    exact ⟨lon, lat, elev, accu, dir, speed, acceLon, acceLat, acceVert, acceYaw⟩
  · rintro ⟨lon, lat, elev, accu, dir, speed, acceLon, acceLat, acceVert, acceYaw⟩
    exact ⟨lon, lat, elev, accu, dir, speed, acceLon, acceLat, acceVert, acceYaw⟩

end Close

section RoundTrip

variable {cast : FloatCast} {lib : Libm} {t : BitVec 32} {vam receiver : VamEnvar} {tx : TxEnv}
  {frame : Frame} {current : VamStastatus} {neighbours free : List Slot}

/-- The alert behind the bytes handed to the network layer. -/
theorem VamEnvar.of_evamFrame (sent : vam.evamFrame cast lib t tx = some frame) :
    ∃ evam : TxEvam, frame = evam.bytes cast (vam.vamGetLocalCurrentStatus lib t) ∧
      evam.temporaryId = (vam.vamGetLocalCurrentStatus lib t).pid ∧
      evam.alertMask = (vam.vamGetLocalCurrentStatus lib t).alertMask := by
  obtain ⟨evam, prepared, rfl⟩ := Option.map_eq_some_iff.1 sent
  unfold rcpSendEvam at prepared
  split at prepared
  · obtain rfl := Option.some.inj prepared
    exact ⟨_, rfl, rfl, rfl⟩
  · cases prepared

/-- The basic safety message behind the bytes handed to the network layer. -/
theorem VamEnvar.of_bsmFrame (sent : vam.bsmFrame cast lib t tx = some frame) :
    ∃ bsm : TxBsm,
      frame = bsm.bytes cast (vam.vamGetLocalCurrentStatus lib t) (t.setWidth 16) ∧
      bsm.temporaryId = vam.localSta.pid ∧ bsm.events = vam.bsmEvents := by
  obtain ⟨bsm, prepared, rfl⟩ := Option.map_eq_some_iff.1 sent
  unfold rcpSendBsm at prepared
  split at prepared
  · obtain rfl := Option.some.inj prepared
    exact ⟨_, rfl, rfl, rfl⟩
  · cases prepared

/-- What a receiver stores of the bytes of an alert. -/
theorem TxEvam.storedAt_iff (evam : TxEvam) (now : BitVec 32)
    (sender : evam.temporaryId = current.pid) (alert : evam.alertMask = current.alertMask)
    (range : current.InRange)
    (mask : current.alertMask < 0x100) (holds : receiver.toStaTable.Holds neighbours free)
    (foreign : current.pid ≠ receiver.localSta.pid)
    (room : HasRoom receiver.toStaTable neighbours free current.pid) :
    StoredAt (receiver.rcpParseEvam (evam.bytes cast current) now) current.pid
        (EvamClose · current) ↔
      -1 < current.pos.elev ∧ truncate (current.speed * 100000 / 3600) % 256 < 32 := by
  have read : (⟨.evam, evam.bytes cast current, now⟩ : Reception).sender = current.pid := by
    have fields := congrArg RcpMsgEmergencyVehicleAlert.temporaryId
      (evamOfFrame_bytes cast current evam)
    exact fields.trans sender
  have accepted : MsgKind.evam.minLength ≤ (evam.bytes cast current).length :=
    Nat.le_of_eq (evam.bytes_length cast current).symm
  rw [← read] at foreign room ⊢
  exact Reception.storedAt_iff holds ⟨accepted, foreign⟩ room
    (evamClose_iff range mask evam alert now)

/-- What a receiver stores of the bytes of a basic safety message. -/
theorem TxBsm.storedAt_iff (bsm : TxBsm) (dsecond : BitVec 16) (now : BitVec 32)
    (sender : bsm.temporaryId = current.pid) (range : current.InRange)
    (acce : current.acce.InRange) (holds : receiver.toStaTable.Holds neighbours free)
    (foreign : current.pid ≠ receiver.localSta.pid)
    (room : HasRoom receiver.toStaTable neighbours free current.pid) (alertMask : BitVec 16)
    (carried : ∀ events ∈ bsm.events, events = encodeVehicleAlert alertMask) :
    StoredAt (receiver.rcpParseBsm (bsm.bytes cast current dsecond) now) current.pid
        (fun stored => BsmClose stored current ∧
          (bsm.events.isSome = true → stored.alertMask = alertMask)) ↔
      Encodable current ∧ (bsm.events.isSome = true → alertMask &&& 0x7 = alertMask) := by
  have fields := bsmOfFrame_bytes cast current bsm dsecond
  have length := bsm.bytes_length cast current dsecond
  have read : (⟨.bsm, bsm.bytes cast current dsecond, now⟩ : Reception).sender = current.pid :=
    (congrArg RcpMsgBasicSafty.temporaryId fields).trans sender
  have accepted : MsgKind.bsm.minLength ≤ (bsm.bytes cast current dsecond).length := by
    rw [length]
    split
    · decide
    · decide
  have close : ∀ node, BsmClose (storeBsm (bsmOfFrame (bsm.bytes cast current dsecond)) now node).s
      current ↔ Encodable current := bsmClose_iff range acce bsm dsecond now
  rw [← read] at foreign room ⊢
  refine Reception.storedAt_iff holds ⟨accepted, foreign⟩ room fun node => ?_
  cases sent : bsm.events with
  | none =>
      have short : ¬ 42 < (bsm.bytes cast current dsecond).length := by simp [length, sent]
      simp only [Reception.write, short, if_false, Option.isSome_none, Bool.false_eq_true,
        false_implies, and_true]
      exact close node
  | some events =>
      have long : 42 < (bsm.bytes cast current dsecond).length := by simp [length, sent]
      have mask : decodeVehicleAlert (bsmOfFrame (bsm.bytes cast current dsecond)).events =
          alertMask &&& 0x7 := by
        rw [fields, sent, Option.getD_some, carried events sent]
        exact decodeVehicleAlert_encodeVehicleAlert alertMask
      simp only [Reception.write, long, if_true, Option.isSome_some, true_implies, mask]
      exact and_congr ((bsmClose_storeAlert _ _ current).trans (close node)) Iff.rfl

/-- An emergency vehicle alert comes back with its alerts, and its position, heading and
speed to within a unit of the encoding, exactly if the elevation is above minus one and
bits five to seven of the encoded speed are zero. -/
theorem evam_round_trip_iff (now : BitVec 32)
    (sent : vam.evamFrame cast lib t tx = some frame)
    (status : vam.vamGetLocalCurrentStatus lib t = current) (range : current.InRange)
    (mask : current.alertMask < 0x100) (holds : receiver.toStaTable.Holds neighbours free)
    (foreign : current.pid ≠ receiver.localSta.pid)
    (room : HasRoom receiver.toStaTable neighbours free current.pid) :
    StoredAt (receiver.rcpParseEvam frame now) current.pid (EvamClose · current) ↔
      -1 < current.pos.elev ∧ truncate (current.speed * 100000 / 3600) % 256 < 32 := by
  obtain ⟨evam, rfl, sender, alert⟩ := VamEnvar.of_evamFrame sent
  rw [status] at sender alert ⊢
  exact evam.storedAt_iff now sender alert range mask holds foreign room

/-- A basic safety message comes back to within a unit of the encoding, and with its alerts
if it carries any, exactly if its fields can be encoded and the alerts are those of a
vehicle. -/
theorem bsm_round_trip_iff (now : BitVec 32)
    (sent : vam.bsmFrame cast lib t tx = some frame)
    (status : vam.vamGetLocalCurrentStatus lib t = current) (range : current.InRange)
    (acce : current.acce.InRange) (holds : receiver.toStaTable.Holds neighbours free)
    (foreign : current.pid ≠ receiver.localSta.pid)
    (room : HasRoom receiver.toStaTable neighbours free current.pid) :
    StoredAt (receiver.rcpParseBsm frame now) current.pid (fun stored =>
        BsmClose stored current ∧
          (has vam.flag vamFlagTxBsmAlert = true → stored.alertMask = vam.localSta.alertMask)) ↔
      Encodable current ∧
        (has vam.flag vamFlagTxBsmAlert = true →
          vam.localSta.alertMask &&& 0x7 = vam.localSta.alertMask) := by
  obtain ⟨bsm, rfl, sender, events⟩ := VamEnvar.of_bsmFrame sent
  have own : vam.localSta.pid = current.pid := by
    rw [← status]
    exact (vsmGetDrCurrent_pid lib t vam.localSta).symm
  have carried : ∀ word ∈ bsm.events, word = encodeVehicleAlert vam.localSta.alertMask := by
    rw [events, VamEnvar.bsmEvents]
    split <;> simp
  have extended : bsm.events.isSome = has vam.flag vamFlagTxBsmAlert := by
    rw [events, VamEnvar.bsmEvents]
    cases has vam.flag vamFlagTxBsmAlert <;> rfl
  rw [status, ← extended]
  exact bsm.storedAt_iff _ now (sender.trans own) range acce holds foreign room _ carried

end RoundTrip

section Cases

/-- A mathematical library that is not used: a status of this moment is not estimated. -/
def noMath : Libm where
  sin _ := 0
  cos _ := 0
  asin _ := 0
  acos _ := none
  atan2 _ _ := 0
  sqrt _ := 0

/-- A vehicle on the equator. -/
def vehicle (elev speed acceLon : ℚ) : VamStastatus :=
  { VamStastatus.zero with
    pid := loadDefaultPid
    pos.elev := elev
    speed := speed
    acce.lon := acceLon }

/-- A node that is ready to send its status. -/
def sending (sta : VamStastatus) : VamEnvar :=
  { vamInit ⟨fun _ => .staFreeList, fun _ => .staFreeList⟩ loadDefaultParam loadDefaultPid
      fun _ => false with localSta := sta }

/-- A node with another pid and an empty table. -/
def listening : VamEnvar :=
  vamInit ⟨fun _ => .staFreeList, fun _ => .staFreeList⟩ loadDefaultParam
    (Vector.replicate rcpTempIdLen 0) fun _ => false

/-- The listener has no neighbours. -/
theorem listening_holds : listening.toStaTable.Holds [] (List.finRange vamNeighbourMaxnum) :=
  (StaTable.init_consistent _).holds

/-- It has room for any. -/
theorem listening_room (pid : TempId) :
    HasRoom listening.toStaTable [] (List.finRange vamNeighbourMaxnum) pid :=
  .inr (by decide)

/-- The status of the sender is that of its vehicle. -/
theorem sending_current (elev speed acceLon : ℚ) :
    (sending (vehicle elev speed acceLon)).vamGetLocalCurrentStatus noMath 0 =
      vehicle elev speed acceLon :=
  vsmGetDrCurrent_now noMath (vehicle elev speed acceLon)

/-- Such a vehicle is in range. -/
theorem vehicle_inRange {elev speed : ℚ} (acceLon : ℚ) (height : -1000 ≤ elev ∧ elev ≤ 10000)
    (slow : 0 ≤ speed ∧ speed ≤ 300) : (vehicle elev speed acceLon).InRange where
  lon := by norm_num [vehicle, VamStastatus.zero]
  lat := by norm_num [vehicle, VamStastatus.zero]
  elev := height
  dir := by norm_num [vehicle, VamStastatus.zero]
  speed := slow

theorem vehicle_acce_inRange {acceLon : ℚ} (elev speed : ℚ) (gentle : |acceLon| ≤ 2000) :
    (vehicle elev speed acceLon).acce.InRange where
  lon := gentle
  lat := by norm_num [vehicle, VamStastatus.zero]
  vert := by norm_num [vehicle, VamStastatus.zero]
  yaw := by norm_num [vehicle, VamStastatus.zero]

/-- With a buffer there is a frame. -/
theorem sends (vam : VamEnvar) :
    (∃ frame, vam.evamFrame .wrapping noMath 0 ⟨true, 0⟩ = some frame) ∧
      ∃ frame, vam.bsmFrame .wrapping noMath 0 ⟨true, 0⟩ = some frame :=
  ⟨⟨_, rfl⟩, ⟨_, rfl⟩⟩

/-- A vehicle that drives north-east of the origin at 27.9 km/h, with two alerts. -/
def alarmed : VamStastatus :=
  { vehicle 12 (279 / 10) 1 with
    pos.lon := 1163 / 10
    pos.lat := 399 / 10
    dir := 45
    alertMask := 0x3 }

/-- The alarmed vehicle is in range. -/
theorem alarmed_inRange : alarmed.InRange := by
  constructor <;> norm_num [alarmed, vehicle, abs_le]

/-- Its node, which adds the safety extension to its messages. -/
def alarming : VamEnvar := { sending alarmed with flag := vamFlagTxBsmAlert }

/-- The alerts of a moving vehicle come back. -/
theorem moving_alert_returns :
    ∃ frame, alarming.evamFrame .wrapping noMath 0 ⟨true, 0⟩ = some frame ∧
      StoredAt (listening.rcpParseEvam frame 0) loadDefaultPid (EvamClose · alarmed) := by
  obtain ⟨frame, sent⟩ := (sends alarming).1
  have exact := evam_round_trip_iff 0 sent (vsmGetDrCurrent_now noMath alarmed) alarmed_inRange
    (by decide) listening_holds (by decide) (listening_room _)
  exact ⟨frame, sent, exact.2 ⟨by norm_num [alarmed, vehicle], by decide +kernel⟩⟩

/-- At sixty kilometres per hour the speed of an alert comes back wrong. -/
theorem city_speed_lost :
    ∃ frame, (sending (vehicle 0 60 0)).evamFrame .wrapping noMath 0 ⟨true, 0⟩ = some frame ∧
      (vehicle 0 60 0).InRange ∧ (vehicle 0 60 0).alertMask < 0x100 ∧
      ¬ StoredAt (listening.rcpParseEvam frame 0) loadDefaultPid
          (EvamClose · (vehicle 0 60 0)) := by
  obtain ⟨frame, sent⟩ := (sends (sending (vehicle 0 60 0))).1
  have range : (vehicle 0 60 0).InRange := vehicle_inRange 0 (by norm_num) (by norm_num)
  refine ⟨frame, sent, range, by decide, ?_⟩
  obtain ⟨evam, rfl, sender, alert⟩ := VamEnvar.of_evamFrame sent
  rw [sending_current] at sender alert ⊢
  intro stored
  have lowBits : truncate ((60 : ℚ) * 100000 / 3600) % 256 < 32 :=
    ((evam.storedAt_iff 0 sender alert range (by decide) listening_holds (by decide)
      (listening_room _)).1 stored).2
  have units : truncate ((60 : ℚ) * 100000 / 3600) = 1666 := by decide +kernel
  rw [units] at lowBits
  exact absurd lowBits (by decide)

/-- The basic safety message of a moving vehicle comes back, and its alerts with it. -/
theorem moving_bsm_returns :
    has alarming.flag vamFlagTxBsmAlert = true ∧
      ∃ frame, alarming.bsmFrame .wrapping noMath 0 ⟨true, 0⟩ = some frame ∧
        StoredAt (listening.rcpParseBsm frame 0) loadDefaultPid (fun stored =>
          BsmClose stored alarmed ∧ (has alarming.flag vamFlagTxBsmAlert = true →
            stored.alertMask = alarming.localSta.alertMask)) := by
  obtain ⟨frame, sent⟩ := (sends alarming).2
  have acce : alarmed.acce.InRange := vehicle_acce_inRange 12 (279 / 10) (by norm_num)
  have exact := bsm_round_trip_iff 0 sent (vsmGetDrCurrent_now noMath alarmed) alarmed_inRange acce
    listening_holds (by decide) (listening_room _)
  refine ⟨by decide, frame, sent, exact.2 ⟨?_, fun _ => by decide⟩⟩
  constructor <;> norm_num [alarmed, vehicle, VamStastatus.zero]

/-- The deceleration of a braking vehicle comes back wrong. -/
theorem braking_lost :
    ∃ frame, (sending (vehicle 0 60 (-3))).bsmFrame .wrapping noMath 0 ⟨true, 0⟩ = some frame ∧
      (vehicle 0 60 (-3)).InRange ∧ (vehicle 0 60 (-3)).acce.InRange ∧
      ¬ StoredAt (listening.rcpParseBsm frame 0) loadDefaultPid
          (BsmClose · (vehicle 0 60 (-3))) := by
  obtain ⟨frame, sent⟩ := (sends (sending (vehicle 0 60 (-3)))).2
  have range : (vehicle 0 60 (-3)).InRange := vehicle_inRange (-3) (by norm_num) (by norm_num)
  have acce : (vehicle 0 60 (-3)).acce.InRange := vehicle_acce_inRange 0 60 (by norm_num)
  refine ⟨frame, sent, range, acce, ?_⟩
  obtain ⟨bsm, rfl, sender, events⟩ := VamEnvar.of_bsmFrame sent
  have own : bsm.temporaryId = (vehicle 0 60 (-3)).pid := sender
  have plain : bsm.events = none := events.trans rfl
  rw [sending_current]
  intro stored
  have encodable := (bsm.storedAt_iff _ 0 own range acce listening_holds (by decide)
    (listening_room _) 0 (by simp [plain])).1 (stored.mono (by simp [plain]))
  have forward : (-1 : ℚ) < -3 := encodable.1.acceLon
  exact absurd forward (by norm_num)

end Cases

end Rsu.Vam
