import Mathlib.Algebra.Order.Field.Basic
import Mathlib.Data.Rat.Sqrt
import Mathlib.Tactic.NormNum
import Mathlib.Tactic.Ring
import Rsu.Mda.Handle
import Rsu.Vam.Neighbours
import Rsu.Vam.Position

/-!
# Messages from unknown forwarders

`alg_farest_node` asks for the position of the last forwarder. When that station
is not in the neighbour table the answer is computed from what the stack happens
to hold, and nothing tells the caller: `unknown_station_unreported`.
-/

namespace Rsu.Mda

open Rsu.Data Rsu.Data.Links Rsu.Rcp Rsu.Vam

universe u

namespace MdaEnvar

variable {Buf : Type u} [DecidableEq Buf]

/-- What `mda_handle` decides with the neighbour table at hand; `sta` and `localSta`
are the stack of `vam_get_peer_relative_pos`. -/
def decideHeard (lib : Libm) (rangeDelay : Int → Int) (t : BitVec 32) (vam : VamEnvar)
    (mda : MdaEnvar Buf) (srcSta : MdaMsgInfo) (msgData : Frame) (txbuf : Option Buf)
    (sta localSta : VamStastatus) (fuel : Nat) :
    Option (Decision Buf × MdaEnvar Buf × Frame) :=
  (vam.vamGetPeerRelativePos lib t srcSta.forwardId 0 sta localSta fuel).map fun dis =>
    mda.mdaDecide rangeDelay srcSta msgData dis txbuf

end MdaEnvar

/-- An absent station is reported as an error, no stack shows in its position, and it
yields no forwarding delay. -/
structure Reported (lib : Libm) (rangeDelay : Int → Int) (t : BitVec 32) (vam : VamEnvar)
    (pid : TempId) : Prop where
  error : ∀ buffer {result after}, Returns (vam.peerStatusInto pid buffer) (result, after) →
    result ≠ 0
  position : ∀ flag sta localSta other otherLocal {dis otherDis},
    Returns (vam.vamGetPeerRelativePos lib t pid flag sta localSta) dis →
    Returns (vam.vamGetPeerRelativePos lib t pid flag other otherLocal) otherDis → dis = otherDis
  delay : ∀ flag sta localSta {dis},
    Returns (vam.vamGetPeerRelativePos lib t pid flag sta localSta) dis →
    algFarestNode rangeDelay dis = -1

section Absent

variable {lib : Libm} {rangeDelay : Int → Int} {t : BitVec 32} {vam : VamEnvar}
  {neighbours free : List Slot} {pid : TempId}

/-- A lookup of an absent station leaves the buffer alone and returns zero. -/
theorem peerStatusInto_absent (holds : vam.toStaTable.Holds neighbours free)
    (absent : ∀ slot ∈ neighbours, vam.pid slot ≠ pid) (buffer : VamStastatus) :
    Returns (vam.peerStatusInto pid buffer) (0, buffer) := by
  obtain ⟨fuel, missing⟩ := holds.find_absent absent
  exact ⟨fuel, by rw [StaTable.peerStatusInto, missing]; rfl⟩

/-- The position of an absent station is that of the stack. -/
theorem relativePos_absent (holds : vam.toStaTable.Holds neighbours free)
    (absent : ∀ slot ∈ neighbours, vam.pid slot ≠ pid) (flag : Byte)
    (sta localSta : VamStastatus) :
    Returns (vam.vamGetPeerRelativePos lib t pid flag sta localSta)
      (truncate (vsmGetRelativePos lib (vam.reference lib t flag localSta) sta)) := by
  obtain ⟨fuel, missing⟩ := holds.find_absent absent
  refine ⟨fuel, ?_⟩
  have status : vam.peerStatusInto pid sta fuel = some (0, sta) := by
    rw [StaTable.peerStatusInto, missing]
    rfl
  have current : vam.peerCurrentStatusInto lib t pid sta fuel = some (0, sta) := by
    rw [StaTable.peerCurrentStatusInto, missing]
    rfl
  rw [VamEnvar.vamGetPeerRelativePos, VamEnvar.reference, status, current]
  by_cases stored : flag = 0
  · simp [stored]
  · by_cases estimated : flag = 1
    · simp [estimated]
    · by_cases both : flag = 2
      · simp [both]
      · simp only [stored, estimated, both, if_false, or_self]

/-- An absent station is never reported: the lookup returns zero, and what the caller
goes on with is the stack. -/
theorem unknown_station_unreported (holds : vam.toStaTable.Holds neighbours free)
    (absent : ∀ slot ∈ neighbours, vam.pid slot ≠ pid) :
    ¬ Reported lib rangeDelay t vam pid ∧
      ∀ flag sta localSta, Returns (vam.peerStatusInto pid sta) (0, sta) ∧
        Returns (vam.vamGetPeerRelativePos lib t pid flag sta localSta)
          (truncate (vsmGetRelativePos lib (vam.reference lib t flag localSta) sta)) := by
  have unwritten := peerStatusInto_absent holds absent
  refine ⟨fun reported => reported.error VamStastatus.zero (unwritten _) rfl, ?_⟩
  exact fun flag sta localSta => ⟨unwritten sta, relativePos_absent holds absent flag sta localSta⟩

/-- The delay for an absent forwarder, which is that of the stack. -/
def stackDelay (lib : Libm) (rangeDelay : Int → Int) (vam : VamEnvar) (sta : VamStastatus) : Int :=
  algFarestNode rangeDelay (truncate (vsmGetRelativePos lib vam.localSta sta))

variable {Buf : Type u} [DecidableEq Buf] {mda : MdaEnvar Buf} {srcSta : MdaMsgInfo}

/-- A new message heard from behind is not forwarded. -/
theorem mdaDecide_behind (unknown : mda.findHistoryRecord srcSta = none) {dis : Int}
    (behind : ¬ 0 ≤ algFarestNode rangeDelay dis) {msgData : Frame} {txbuf : Option Buf} :
    mda.mdaDecide rangeDelay srcSta msgData dis txbuf = (.done 0, mda, msgData) := by
  simp only [MdaEnvar.mdaDecide, unknown]
  rw [if_neg (c := algFarestNode rangeDelay dis ≥ 0) behind]
  split <;> rfl

/-- Two delays lead to the same decision when the message is known or has no hop left,
when they are equal, and when both are negative. -/
theorem mdaDecide_same_iff (msgData : Frame) (dis other : Int) (buf : Buf) :
    mda.mdaDecide rangeDelay srcSta msgData dis (some buf) =
        mda.mdaDecide rangeDelay srcSta msgData other (some buf) ↔
      mda.findHistoryRecord srcSta ≠ none ∨ srcSta.leftHops ≤ 0 ∨
        algFarestNode rangeDelay dis = algFarestNode rangeDelay other ∨
        algFarestNode rangeDelay dis < 0 ∧ algFarestNode rangeDelay other < 0 := by
  cases found : mda.findHistoryRecord srcSta with
  | some slot => simp [MdaEnvar.mdaDecide, found]
  | none =>
      simp only [ne_eq, not_true_eq_false, false_or]
      by_cases spent : srcSta.leftHops ≤ 0
      · refine iff_of_true ?_ (.inl spent)
        simp only [MdaEnvar.mdaDecide, found, spent, if_true]
      · simp only [spent, false_or]
        by_cases near : 0 ≤ algFarestNode rangeDelay dis
        · by_cases otherNear : 0 ≤ algFarestNode rangeDelay other
          · rw [MdaEnvar.mdaDecide_forward found spent near,
              MdaEnvar.mdaDecide_forward found spent otherNear]
            simp only [Prod.mk.injEq, Decision.forward.injEq, true_and, and_true]
            omega
          · rw [MdaEnvar.mdaDecide_forward found spent near, mdaDecide_behind found otherNear]
            simp only [Prod.mk.injEq, reduceCtorEq, false_and, false_iff]
            omega
        · by_cases otherNear : 0 ≤ algFarestNode rangeDelay other
          · rw [mdaDecide_behind found near, MdaEnvar.mdaDecide_forward found spent otherNear]
            simp only [Prod.mk.injEq, reduceCtorEq, false_and, false_iff]
            omega
          · rw [mdaDecide_behind found near, mdaDecide_behind found otherNear]
            simp only [true_iff]
            omega

/-- With an absent forwarder `mda_handle` decides on the delay of the stack. -/
theorem decideHeard_absent (holds : vam.toStaTable.Holds neighbours free)
    (absent : ∀ slot ∈ neighbours, vam.pid slot ≠ srcSta.forwardId) (msgData : Frame) (buf : Buf)
    (sta localSta : VamStastatus) :
    Returns (mda.decideHeard lib rangeDelay t vam srcSta msgData (some buf) sta localSta)
      (mda.mdaDecide rangeDelay srcSta msgData
        (truncate (vsmGetRelativePos lib vam.localSta sta)) (some buf)) := by
  obtain ⟨fuel, position⟩ := relativePos_absent holds absent 0 sta localSta
  exact ⟨fuel, by rw [MdaEnvar.decideHeard, position]; rfl⟩

/-- What `mda_handle` decides about a message of an absent forwarder is the same for two
stacks exactly if it looks at no delay, or at the same one, or at two negative ones. -/
theorem decideHeard_same_iff (holds : vam.toStaTable.Holds neighbours free)
    (absent : ∀ slot ∈ neighbours, vam.pid slot ≠ srcSta.forwardId) (msgData : Frame) (buf : Buf)
    (sta localSta other otherLocal : VamStastatus) :
    (∃ decision,
        Returns (mda.decideHeard lib rangeDelay t vam srcSta msgData (some buf) sta localSta)
          decision ∧
        Returns (mda.decideHeard lib rangeDelay t vam srcSta msgData (some buf) other otherLocal)
          decision) ↔
      mda.findHistoryRecord srcSta ≠ none ∨ srcSta.leftHops ≤ 0 ∨
        stackDelay lib rangeDelay vam sta = stackDelay lib rangeDelay vam other ∨
        stackDelay lib rangeDelay vam sta < 0 ∧ stackDelay lib rangeDelay vam other < 0 := by
  have persistent : ∀ sta localSta, Persistent
      (mda.decideHeard lib rangeDelay t vam srcSta msgData (some buf) sta localSta) :=
    fun sta localSta => (vam.relativePos_persistent lib t srcSta.forwardId 0 sta localSta).map _
  refine Iff.trans ?_ (mdaDecide_same_iff msgData _ _ buf)
  constructor
  · rintro ⟨decision, left, right⟩
    rw [(decideHeard_absent holds absent msgData buf sta localSta).unique (persistent _ _) left,
      (decideHeard_absent holds absent msgData buf other otherLocal).unique (persistent _ _) right]
  · intro same
    refine ⟨_, decideHeard_absent holds absent msgData buf sta localSta, ?_⟩
    rw [same]
    exact decideHeard_absent holds absent msgData buf other otherLocal

end Absent

section Cases

/-- The mathematical library for angles this small, up to rounding. -/
def smallAngles : Libm where
  sin x := x
  cos _ := 1
  asin x := x
  acos x := some (pi / 2 * (1 - x))
  atan2 y _ := y
  sqrt := Rat.sqrt

/-- The node before its first GPS fix, with no neighbour. -/
def alone : VamEnvar :=
  vamInit ⟨fun _ => .staFreeList, fun _ => .staFreeList⟩ loadDefaultParam loadDefaultPid
    fun _ => false

/-- A stack that holds a status `lat` radians north. -/
def stackAt (lat : ℚ) : VamStastatus := { VamStastatus.zero with pos.lat := lat }

/-- A message of an unknown forwarder with one hop left. -/
def strange : MdaMsgInfo where
  temporaryId := #v[4, 3, 2, 1]
  forwardId := #v[5, 6, 7, 8]
  msgCount := 9
  leftHops := 1

/-- Nobody is in the table. -/
theorem alone_holds : alone.toStaTable.Holds [] (List.finRange vamNeighbourMaxnum) :=
  (StaTable.init_consistent _).holds

/-- The distance along a meridian. -/
theorem getDistanceVer2_meridian (lat1 lat2 lng : ℚ) :
    getDistanceVer2 smallAngles lat1 lng lat2 lng = |lat1 - lat2| * earthRadius := by
  have half : (((lat1 - lat2) / 2) ^ 2 + 1 * 1 * ((lng - lng) / 2) ^ 2 : ℚ) =
      (lat1 - lat2) / 2 * ((lat1 - lat2) / 2) := by ring
  have twice : 2 * |(lat1 - lat2) / 2| = |lat1 - lat2| := by
    rw [abs_div, abs_two]
    ring
  simp only [getDistanceVer2, smallAngles]
  rw [half, Rat.sqrt_eq, twice]

/-- Seen from a node that heads north, a station on its meridian is ahead in the north. -/
theorem ahead_iff (lat : ℚ) :
    headingDelta 0 (northAngle ⟨0, 0, 0, 0⟩ ⟨lat, 0, 0, 0⟩ 0) ≤ 45 ↔ 0 ≤ lat := by
  by_cases north : 0 ≤ lat
  · norm_num [northAngle, headingDelta, north]
  · norm_num [northAngle, headingDelta, north]

/-- A stack north of the node stands for a station ahead, one south of it for a
station behind. -/
theorem relativePos_stackAt {lat : ℚ} (apart : lat ≠ 0) :
    vsmGetRelativePos smallAngles alone.localSta (stackAt lat) = lat * earthRadius * 1000 := by
  have there : getDistanceVer2 smallAngles 0 0 lat 0 = |lat| * earthRadius := by
    rw [getDistanceVer2_meridian, zero_sub, abs_neg]
  have back : getDistanceVer2 smallAngles lat 0 0 0 = |lat| * earthRadius := by
    rw [getDistanceVer2_meridian, sub_zero]
  have far : |lat| * earthRadius ≠ 0 :=
    mul_ne_zero (abs_ne_zero.2 apart) (by norm_num [earthRadius])
  have straight : smallAngles.acos 1 = some 0 := by simp [smallAngles]
  unfold vsmGetRelativePos
  change (if (if getDistanceVer2 smallAngles 0 0 lat 0 = 0 then none else smallAngles.acos
      (getDistanceVer2 smallAngles lat 0 0 0 / getDistanceVer2 smallAngles 0 0 lat 0)).any
      (fun angle => headingDelta 0 (northAngle ⟨0, 0, 0, 0⟩ ⟨lat, 0, 0, 0⟩ (angle * 180 / pi)) ≤ 45)
    then getDistanceVer2 smallAngles 0 0 lat 0 * 1000
    else -(getDistanceVer2 smallAngles 0 0 lat 0 * 1000)) = _
  rw [there, back, if_neg far, div_self far, straight, Option.any_some, zero_mul, zero_div]
  by_cases north : 0 ≤ lat
  · rw [if_pos (decide_eq_true ((ahead_iff lat).2 north)), abs_of_nonneg north]
  · have behind := mt (ahead_iff lat).1 north
    rw [if_neg (by simpa using behind), abs_of_neg (lt_of_not_ge north)]
    ring

/-- The station that is free next. -/
def secondSlot : Slot := ⟨1, by decide⟩

/-- The node after two stations were seated, neither of which is the forwarder. -/
def accompanied : VamEnvar :=
  alone.withTable ((alone.seat firstSlot #v[1, 1, 1, 1]).seat secondSlot #v[2, 2, 2, 2])

/-- Two neighbours are in the table. -/
theorem accompanied_holds :
    accompanied.toStaTable.Holds [secondSlot, firstSlot]
      ((List.finRange vamNeighbourMaxnum).drop 2) := by
  have first : alone.toStaTable.Holds []
      (firstSlot :: (List.finRange vamNeighbourMaxnum).drop 1) := alone_holds
  have second : (alone.seat firstSlot #v[1, 1, 1, 1]).Holds [firstSlot]
      (secondSlot :: (List.finRange vamNeighbourMaxnum).drop 2) := first.seat _
  exact second.seat _

/-- Neither of them is the forwarder. -/
theorem accompanied_pids :
    [secondSlot, firstSlot].map accompanied.pid = [#v[2, 2, 2, 2], #v[1, 1, 1, 1]] := by
  have second : accompanied.pid secondSlot = #v[2, 2, 2, 2] := StaTable.seat_pid_self _ _ _
  have first : accompanied.pid firstSlot = #v[1, 1, 1, 1] :=
    (StaTable.seat_pid_of_ne _ _ (by decide)).trans (StaTable.seat_pid_self _ _ _)
  rw [List.map_cons, List.map_singleton, second, first]

/-- The forwarder is compared with two neighbours, and not reported as absent. -/
theorem unknown_forwarder_unreported :
    accompanied.toStaTable.Holds [secondSlot, firstSlot]
        ((List.finRange vamNeighbourMaxnum).drop 2) ∧
      [secondSlot, firstSlot].map accompanied.pid = [#v[2, 2, 2, 2], #v[1, 1, 1, 1]] ∧
      ¬ Reported smallAngles exactRangeDelay 0 accompanied strange.forwardId := by
  refine ⟨accompanied_holds, accompanied_pids,
    (unknown_station_unreported accompanied_holds ?_).1⟩
  intro slot member
  have listed := List.mem_map_of_mem (f := accompanied.pid) member
  rw [accompanied_pids] at listed
  intro same
  rw [same] at listed
  exact absurd listed (by decide)

/-- One table, one message, two stacks: with the first the message is forwarded in
57 ticks, with the second it is not. -/
theorem stack_decides :
    alone.toStaTable.Holds [] (List.finRange vamNeighbourMaxnum) ∧
      ¬ Reported smallAngles exactRangeDelay 0 alone strange.forwardId ∧
      (∃ decision, Returns (MdaEnvar.mdaInit.decideHeard smallAngles exactRangeDelay 0 alone
          strange [] (some 0) (stackAt (1 / 100000)) .zero) decision ∧
        decision.1 = .forward 0 57) ∧
      ∃ decision, Returns (MdaEnvar.mdaInit.decideHeard smallAngles exactRangeDelay 0 alone
          strange [] (some 0) (stackAt (-1 / 100000)) .zero) decision ∧
        decision.1 = .done 0 := by
  have absent : ∀ slot ∈ ([] : List Slot), alone.pid slot ≠ strange.forwardId := by simp
  refine ⟨alone_holds, ?_, ?_, ?_⟩
  · intro reported
    exact reported.error .zero (peerStatusInto_absent alone_holds absent .zero) rfl
  · refine ⟨_, decideHeard_absent alone_holds absent [] 0 (stackAt (1 / 100000)) .zero, ?_⟩
    rw [relativePos_stackAt (by norm_num)]
    have delay : truncate (1 / 100000 * earthRadius * 1000) = 63 := by decide +kernel
    rw [delay]
    rfl
  · refine ⟨_, decideHeard_absent alone_holds absent [] 0 (stackAt (-1 / 100000)) .zero, ?_⟩
    rw [relativePos_stackAt (by norm_num)]
    have delay : truncate (-1 / 100000 * earthRadius * 1000) = -63 := by decide +kernel
    rw [delay]
    rfl

end Cases

end Rsu.Mda
