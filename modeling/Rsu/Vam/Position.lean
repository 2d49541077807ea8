import Mathlib.Algebra.Order.Ring.Rat
import Rsu.Rcp.Encode
import Rsu.Vam.StaTable

/-!
# Where stations are

The formulas of `cv_vam_util.c` and the functions of `cv_vam_api.c` that apply
them. The mathematical library is an argument, and so are the clock and what the
status buffers on the stack of a caller hold: a lookup that finds no station
writes to none of them.
-/

namespace Rsu.Vam

open Rsu.Rcp

/-- The functions of `math.h` that positions are computed with. -/
structure Libm where
  sin : ℚ → ℚ
  cos : ℚ → ℚ
  asin : ℚ → ℚ
  /-- `none` is not a number. -/
  acos : ℚ → Option ℚ
  atan2 : ℚ → ℚ → ℚ
  sqrt : ℚ → ℚ

/-- `EARTH_RADIUS`, in kilometres. -/
def earthRadius : ℚ := 6371004 / 1000

/-- `PI` -/
def pi : ℚ := 31415926 / 10000000

/-- `RAD` -/
def rad (d : ℚ) : ℚ := d * pi / 180

/-- `getDistanceVer2`, in kilometres; the arguments are in radians. -/
def getDistanceVer2 (lib : Libm) (lat1 lng1 lat2 lng2 : ℚ) : ℚ :=
  let a := lat1 - lat2
  let b := lng1 - lng2
  2 * lib.asin (lib.sqrt
    (lib.sin (a / 2) ^ 2 + lib.cos lat1 * lib.cos lat2 * lib.sin (b / 2) ^ 2)) * earthRadius

/-- The angle against north, clockwise, from the one in its quadrant. -/
def northAngle (src dest : VamPosition) (angle : ℚ) : ℚ :=
  if dest.lat ≥ src.lat then
    if dest.lon ≥ src.lon then angle else 360 - angle
  else
    if dest.lon ≥ src.lon then 180 - angle else 180 + angle

/-- The angle between a heading and a direction. -/
def headingDelta (dir angle : ℚ) : ℚ :=
  let delta := if angle > dir then angle - dir else dir - angle
  if delta > 180 then 360 - delta else delta

/-- `vsm_get_relative_pos`: the distance in metres, negative unless the other
station is ahead. The quotient of two zeros is not a number, and then no
comparison succeeds. -/
def vsmGetRelativePos (lib : Libm) (src dest : VamStastatus) : ℚ :=
  let distance12 := getDistanceVer2 lib src.pos.lat src.pos.lon dest.pos.lat dest.pos.lon
  let distance23 := getDistanceVer2 lib dest.pos.lat dest.pos.lon src.pos.lat dest.pos.lon
  let angle := if distance12 = 0 then none else lib.acos (distance23 / distance12)
  let ahead := angle.any fun angle =>
    headingDelta src.dir (northAngle src.pos dest.pos (angle * 180 / pi)) ≤ 45
  if ahead then distance12 * 1000 else -(distance12 * 1000)

/-- The milliseconds that `vsm_get_dr_current` takes a status to be old. -/
def elapsedTime (t last : BitVec 32) : BitVec 32 :=
  if t ≥ last then t - last else t + 0xFFFFFFFF - last

/-- `vsm_get_dr_current` at the system time `t`: dead reckoning once a status is
older than twenty seconds. -/
def vsmGetDrCurrent (lib : Libm) (t : BitVec 32) (last : VamStastatus) : VamStastatus :=
  let deltaT : ℚ := (elapsedTime t last.time).toNat / 1000
  if deltaT ≤ 20 ∨ last.speed < 10 then last
  else
    let dir := rad last.dir
    let v := last.speed / (36 / 10)
    let dR := v * deltaT / earthRadius / 1000
    let lat := lib.asin (lib.sin last.pos.lat * lib.cos dR +
      lib.cos last.pos.lat * lib.sin dR * lib.cos dir)
    let lon := last.pos.lon + lib.atan2 (lib.sin dir * lib.sin dR * lib.cos last.pos.lat)
      (lib.cos dR - lib.sin last.pos.lat * lib.sin lat)
    { last with time := t, pos := { last.pos with lat := lat, lon := lon } }

/-- Dead reckoning moves a station, and does not change which one it is. -/
@[simp] theorem vsmGetDrCurrent_pid (lib : Libm) (t : BitVec 32) (last : VamStastatus) :
    (vsmGetDrCurrent lib t last).pid = last.pid := by
  unfold vsmGetDrCurrent
  dsimp only
  rw [apply_ite VamStastatus.pid, ite_self]

/-- A status of this very moment stays as it is. -/
theorem vsmGetDrCurrent_now (lib : Libm) (last : VamStastatus) :
    vsmGetDrCurrent lib last.time last = last := by
  unfold vsmGetDrCurrent elapsedTime
  simp

namespace StaTable

/-- A call of `vam_get_peer_status`: the value returned, and the buffer afterwards. -/
def peerStatusInto (table : StaTable) (pid : TempId) (buffer : VamStastatus) (fuel : Nat) :
    Option (Int × VamStastatus) :=
  (table.vamGetPeerStatus pid fuel).map fun found => (0, found.getD buffer)

/-- A call of `vam_get_peer_current_status`. -/
def peerCurrentStatusInto (lib : Libm) (t : BitVec 32) (table : StaTable) (pid : TempId)
    (buffer : VamStastatus) (fuel : Nat) : Option (Int × VamStastatus) :=
  (table.vamGetPeerStatus pid fuel).map fun found =>
    (0, (found.map (vsmGetDrCurrent lib t)).getD buffer)

variable {table : StaTable} {neighbours free : List Slot} {pid : TempId}

/-- The lookups find a station that is listed. -/
theorem Holds.find_listed (holds : table.Holds neighbours free) {slot : Slot}
    (apart : ∀ other ∈ neighbours, table.pid other = table.pid slot → other = slot)
    (member : slot ∈ neighbours) :
    Returns (table.vamGetPeerStatus (table.pid slot)) (some (table.remote slot).s) := by
  refine ⟨neighbours.length + 1, ?_⟩
  rw [vamGetPeerStatus, holds.find_eq _ (Nat.lt_succ_self _)]
  cases found : neighbours.find? fun other => table.pid other = table.pid slot with
  | none =>
      have absent := List.find?_eq_none.1 found slot member
      simp at absent
  | some other =>
      have same : table.pid other = table.pid slot := by simpa using List.find?_some found
      rw [apart other (List.mem_of_find?_eq_some found) same]
      rfl

/-- The lookups find no station that is absent. -/
theorem Holds.find_absent (holds : table.Holds neighbours free)
    (absent : ∀ slot ∈ neighbours, table.pid slot ≠ pid) :
    Returns (table.vamGetPeerStatus pid) none := by
  refine ⟨neighbours.length + 1, ?_⟩
  have missing : (neighbours.find? fun slot => table.pid slot = pid) = none := by
    simpa using absent
  rw [vamGetPeerStatus, holds.find_eq pid (Nat.lt_succ_self _), missing]
  rfl

end StaTable

namespace VamEnvar

/-- `vam_get_local_current_status` -/
def vamGetLocalCurrentStatus (lib : Libm) (t : BitVec 32) (vam : VamEnvar) : VamStastatus :=
  vsmGetDrCurrent lib t vam.localSta

/-- `vam_get_peer_relative_pos`; `sta` and `local` hold what the stack holds. -/
def vamGetPeerRelativePos (lib : Libm) (t : BitVec 32) (vam : VamEnvar) (pid : TempId)
    (flag : Byte) (sta localSta : VamStastatus) (fuel : Nat) : Option Int :=
  let position (localSta : VamStastatus) (filled : Int × VamStastatus) : Int :=
    truncate (vsmGetRelativePos lib localSta filled.2)
  if flag = 0 then
    (vam.peerStatusInto pid sta fuel).map (position vam.localSta)
  else if flag = 1 then
    (vam.peerStatusInto pid sta fuel).map (position (vam.vamGetLocalCurrentStatus lib t))
  else if flag = 2 then
    (vam.peerCurrentStatusInto lib t pid sta fuel).map (position (vam.vamGetLocalCurrentStatus lib t))
  else some (position localSta (0, sta))

/-- The local status that a relative position starts from. -/
def reference (lib : Libm) (t : BitVec 32) (vam : VamEnvar) (flag : Byte)
    (localSta : VamStastatus) : VamStastatus :=
  if flag = 0 then vam.localSta
  else if flag = 1 ∨ flag = 2 then vam.vamGetLocalCurrentStatus lib t
  else localSta

/-- A position that is returned does not depend on the iterations granted. -/
theorem relativePos_persistent (lib : Libm) (t : BitVec 32) (vam : VamEnvar) (pid : TempId)
    (flag : Byte) (sta localSta : VamStastatus) :
    Persistent (vam.vamGetPeerRelativePos lib t pid flag sta localSta) := by
  have search : Persistent (vam.vamGetPeerStatus pid) :=
    (StaTable.find_persistent vam.toStaTable pid).map _
  unfold vamGetPeerRelativePos
  split
  · exact (search.map _).map _
  · split
    · exact (search.map _).map _
    · split
      · exact (search.map _).map _
      · exact persistent_const _

end VamEnvar

end Rsu.Vam
