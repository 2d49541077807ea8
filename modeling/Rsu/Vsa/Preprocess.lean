import Rsu.Vam.Position
import Rsu.Vsa.Envar

/-!
# The position cycle

`vsa_preprocess_pos` asks for the pids of all neighbours, and then for the status
of one after the other; from each it fills the next node of the position table.
The buffer for the status and the angle of the last classification are variables
of the loop, and keep what they hold when a call writes nothing to them. Of a
node only the fields are kept that a judgement reads.
-/

namespace Rsu.Vam

open Rsu.Rcp

/-- `vam_pos_data`; an angle that is not a number is `none`. -/
structure VamPosData where
  distance12 : ℚ
  distance23 : ℚ
  angle : Option ℚ

/-- `vsm_get_data` -/
def vsmGetData (lib : Libm) (src dest : VamStastatus) : VamPosData :=
  let distance12 := getDistanceVer2 lib src.pos.lat src.pos.lon dest.pos.lat dest.pos.lon
  let distance23 := getDistanceVer2 lib dest.pos.lat dest.pos.lon src.pos.lat dest.pos.lon
  let angle := if distance12 = 0 then none else lib.acos (distance23 / distance12)
  ⟨distance12, distance23, angle.map fun angle => angle * 180 / pi⟩

/-- `vsm_get_pos` -/
def vsmGetPos (src dest : VamStastatus) (posData : VamPosData) : ℚ :=
  let ahead := posData.angle.any fun angle =>
    headingDelta src.dir (northAngle src.pos dest.pos angle) ≤ 45
  if ahead then posData.distance12 * 1000 else -(posData.distance12 * 1000)

/-- `vam_get_peer_relative_dir` -/
def vamGetPeerRelativeDir (cast : FloatCast) (localSta remote : VamStastatus) : Int :=
  let delta := (cast.toI32 (headingDelta localSta.dir remote.dir)).toInt
  if delta ≤ 10 ∨ localSta.speed < 1 ∨ remote.speed < 1 then 1 else -1

namespace StaTable

/-- The loop body of `vam_get_all_peer_pid`: the pids, and `count`. -/
def collectPid (table : StaTable) (maxitem : Nat) (pos : StaEntry) (pids : List TempId × Nat) :
    ForInStep (List TempId × Nat) :=
  match pos with
  | .remote slot =>
      .yield (if pids.2 < maxitem then pids.1 ++ [table.pid slot] else pids.1, pids.2 + 1)
  | _ => .yield pids

/-- `vam_get_all_peer_pid`: the pids it stores, and their number. -/
def vamGetAllPeerPid (table : StaTable) (maxitem fuel : Nat) : Option (List TempId × Nat) :=
  forEach (fun _ => table.list) .neighbourList (table.collectPid maxitem) fuel
    (table.list.next .neighbourList) ([], 0)

variable {table : StaTable} {neighbours free : List Slot}

/-- The loop stores the pids in order, while there is room. -/
theorem foldBreak_collectPid (table : StaTable) (maxitem : Nat) (slots : List Slot)
    (pids : List TempId) (room : pids.length + slots.length ≤ maxitem) :
    foldBreak (table.collectPid maxitem) (slots.map .remote) (pids, pids.length) =
      (pids ++ slots.map table.pid, pids.length + slots.length) := by
  induction slots generalizing pids with
  | nil => simp [foldBreak]
  | cons slot rest inductionHypothesis =>
      rw [List.length_cons] at room
      have here : pids.length < maxitem := by omega
      have longer : (pids ++ [table.pid slot]).length = pids.length + 1 := by simp
      have next := inductionHypothesis (pids ++ [table.pid slot]) (by omega)
      rw [longer] at next
      simp only [List.map_cons, foldBreak, collectPid, if_pos here]
      rw [next, List.append_assoc, List.singleton_append, List.length_cons, Nat.add_assoc,
        Nat.add_comm 1]

/-- All pids of the table fit the array of the caller. -/
theorem Holds.vamGetAllPeerPid_eq (holds : table.Holds neighbours free) {fuel : Nat}
    (enough : neighbours.length < fuel) :
    table.vamGetAllPeerPid vamNeighbourMaxnum fuel =
      some (neighbours.map table.pid, neighbours.length) := by
  let links := fun _ : List TempId × Nat => table.list
  have ring : (links ([], 0)).Ring .neighbourList (neighbours.map .remote) := holds.rings.left
  have keeps : ∀ {pos before after}, table.collectPid vamNeighbourMaxnum pos before = .yield after →
      links after = links before := fun _ => rfl
  have stored := table.foldBreak_collectPid vamNeighbourMaxnum neighbours []
    (by simpa using holds.length_le)
  rw [vamGetAllPeerPid, forEach_eq_foldBreak keeps ring (by simpa using enough)]
  simpa using stored

end StaTable

end Rsu.Vam

namespace Rsu.Vsa

open Rsu.Rcp Rsu.Vam

/-- What the position cycle computes with: the mathematical library, the conversions
of floats, and a parameter no judgement reads. -/
structure PosEnv where
  lib : Libm
  cast : FloatCast
  /-- The conversion to `uint32_t`, also of what is not a number. -/
  toU32 : Option ℚ → BitVec 32
  crdSaftyfactor : Byte

/-- One round of the loop, once the status was asked for. -/
structure PosVisit where
  localStatus : VamStastatus
  remoteStatus : VamStastatus
  tempDelta : Option ℚ

namespace PosVisit

variable (env : PosEnv) (param : VsaConfig) (visit : PosVisit)

/-- `temp_data` -/
def tempData : VamPosData := vsmGetData env.lib visit.localStatus visit.remoteStatus

/-- `temp_delta` after `vsa_position_classify`, which does not write it when the angle
is out of range; what is not a number is in no range, and is written. -/
def deltaOffset : Option ℚ :=
  match (visit.tempData env).angle with
  | none => none
  | some angle =>
      let north := northAngle visit.localStatus.pos visit.remoteStatus.pos angle
      let dir := visit.localStatus.dir
      let delta := if north > dir then north - dir else 360 - (dir - north)
      if delta > 360 ∨ delta < 0 then visit.tempDelta else some delta

/-- `linear_distance` -/
def linearDistance : BitVec 32 :=
  env.cast.toI32 (vsmGetPos visit.localStatus visit.remoteStatus (visit.tempData env))

/-- `vsa_safe_distance` -/
def vsaSafeDistance : BitVec 32 :=
  if (visit.linearDistance env).toInt < 0 then param.crdRearDistance.setWidth 32
  else if visit.localStatus.speed > visit.remoteStatus.speed then
    env.cast.toI32 ((visit.localStatus.speed * 2 - visit.remoteStatus.speed) *
      env.crdSaftyfactor.toNat * 1000 / 3600)
  else 0

/-- What is computed for the status. -/
def place : VsaInfo where
  pid := visit.remoteStatus.pid
  localSpeed := visit.localStatus.speed
  remoteSpeed := visit.remoteStatus.speed
  hOffset := env.toU32 ((visit.deltaOffset env).map fun delta =>
    (visit.linearDistance env).toInt * env.lib.sin (delta * pi / 180))
  linearDistance := visit.linearDistance env
  safeDistance := visit.vsaSafeDistance env param
  flagDir := BitVec.ofInt 8
    (vamGetPeerRelativeDir env.cast visit.localStatus visit.remoteStatus)

/-- The round computes, instead of only counting down. -/
def computes : Bool := visit.remoteStatus.cnt = 0

/-- What the round makes of a node: a station that counts down gets its pid only. -/
def write (node : VsaInfo) : VsaInfo :=
  if visit.computes then visit.place env param else { node with pid := visit.remoteStatus.pid }

/-- `remote_status.cnt` at the end of the round; `vsa_set_period` clears it. -/
def cnt : Byte := if visit.computes then 0 else visit.remoteStatus.cnt - 1

/-- `temp_delta` at the end of the round. -/
def delta : Option ℚ := if visit.computes then visit.deltaOffset env else visit.tempDelta

/-- The node of a round has the pid of its status. -/
@[simp] theorem write_pid (node : VsaInfo) :
    (visit.write env param node).pid = visit.remoteStatus.pid := by
  rw [write]
  split <;> rfl

end PosVisit

/-- The variables of `vsa_preprocess_pos` in its loop, with the pids still to come. -/
structure PosCycle where
  localStatus : VamStastatus
  remoteStatus : VamStastatus
  tempDelta : Option ℚ
  i : Nat
  peerPid : List TempId

namespace PosCycle

/-- The round with the status in the buffer. -/
def visit (cycle : PosCycle) (remoteStatus : VamStastatus) : PosVisit :=
  ⟨cycle.localStatus, remoteStatus, cycle.tempDelta⟩

/-- The variables after a round. -/
def next (cycle : PosCycle) (env : PosEnv) (visit : PosVisit) (peerPid : List TempId) :
    PosCycle where
  localStatus := cycle.localStatus
  remoteStatus := { visit.remoteStatus with cnt := visit.cnt }
  tempDelta := visit.delta env
  i := cycle.i + 1
  peerPid := peerPid

end PosCycle

namespace VsaEnvar

/-- Write to `position_node[i]`. -/
def writeNode (vsa : VsaEnvar) (i : Nat) (write : VsaInfo → VsaInfo) : VsaEnvar :=
  { vsa with
    positionNode := fun slot =>
      if slot.val = i then write (vsa.positionNode slot) else vsa.positionNode slot }

end VsaEnvar

end Rsu.Vsa
