import Rsu.Osal.Timespec
import Rsu.Vam.Position
import Rsu.Vam.Receive

/-!
# `cv_vam_lip.c`: the own position

A fix of the positioning receiver is stored with the system time, and its age is the
difference of two such times. `osal_get_systemtime` takes the value that
`os_get_reltime` returns for the opposite of what it means, and so the time of a
clock that can be read is always 0.
-/

namespace Rsu.Osal

/-- `struct os_time`, and `struct os_reltime`, which is laid out the same. -/
structure OsTime where
  sec : Nat
  usec : Nat

/-- `os_get_reltime` for a clock that cannot be read is `none`. Nothing is returned or
written then: the value and the time stay those of the register and the stack. -/
def osGetReltime (clock : Option Timespec) (left : Int × OsTime) : Int × OsTime :=
  match clock with
  | some ts => (0, ⟨ts.sec, ts.nsec / 1000⟩)
  | none => left

/-- `osal_get_systemtime` -/
def osalGetSystemtime (clock : Option Timespec) (left : Int × OsTime) : BitVec 32 :=
  let (result, t) := osGetReltime clock left
  if result ≠ 0 then BitVec.ofNat 32 (t.sec * 1000 + t.usec / 1000) else 0

/-- The whole milliseconds of a clock reading, as far as 32 bits go. -/
def Timespec.milliseconds (ts : Timespec) : BitVec 32 :=
  BitVec.ofNat 32 (ts.sec * 1000 + ts.nsec / 1000000)

/-- A clock that can be read gives no time. -/
@[simp] theorem osalGetSystemtime_read (ts : Timespec) (left : Int × OsTime) :
    osalGetSystemtime (some ts) left = 0 := rfl

end Rsu.Osal

namespace Rsu.Vam

open Rsu.Data.BitMask Rsu.Rcp Rsu.Osal

/-- `t_time` -/
structure TTime where
  year : BitVec 16
  mon : Byte
  day : Byte
  hour : Byte
  min : Byte
  sec : Byte
  diffsec : BitVec 32
  deriving DecidableEq

/-- `t_nmea_rmc`, without the time that nobody sets. -/
structure TNmeaRmc where
  isTrue : Byte
  speed : ℚ
  latitude : ℚ
  longitude : ℚ
  heading : ℚ
  tt : TTime
  deriving DecidableEq

/-- `VAM_FLAG_GPS_FIXED` -/
def vamFlagGpsFixed : BitVec 32 := 0x0020

/-- Dead reckoning goes by these milliseconds. -/
theorem vsmGetDrCurrent_young {lib : Libm} {t : BitVec 32} {last : VamStastatus}
    (young : ((elapsedTime t last.time).toNat : ℚ) / 1000 ≤ 20) :
    vsmGetDrCurrent lib t last = last := if_pos (.inl young)

/-- Once the counter has wrapped, the difference is a millisecond short. -/
theorem elapsedTime_wrapped {t last : BitVec 32} (wrapped : t < last) :
    elapsedTime t last = t - last - 1 := by
  have behind : ¬ t ≥ last := by simpa using wrapped
  rw [elapsedTime, if_neg behind]
  bv_omega

/-- `lip_rmc_valid_check`, whose checks are compiled out. -/
def lipRmcValidCheck (_ : TNmeaRmc) (_ : BitVec 32) : Int := 1

/-- The assignments of `lip_update_local` for a fix. -/
def storeFix (p_rmc : TNmeaRmc) (now : BitVec 32) (localSta : VamStastatus) : VamStastatus :=
  { localSta with
    time := now
    pos := { localSta.pos with lat := rad p_rmc.latitude, lon := rad p_rmc.longitude }
    dir := if p_rmc.speed ≥ 5 ∧ p_rmc.heading ≤ 360 then p_rmc.heading else localSta.dir
    speed := p_rmc.speed }

/-- The module and `getGps` of `lip_update_local`. -/
structure LipEnvar where
  vam : VamEnvar
  getGps : Bool

namespace LipEnvar

/-- The first fix is noted. -/
def capture (lip : LipEnvar) : LipEnvar :=
  if has lip.vam.flag vamFlagGpsFixed then lip
  else ⟨{ lip.vam with flag := set lip.vam.flag vamFlagGpsFixed }, true⟩

/-- The first part of `lip_update_local`, for a fix at system time `now`; dead reckoning
reads the time again. -/
def updateRmc (lip : LipEnvar) (lib : Libm) (p_rmc : TNmeaRmc) (now t : BitVec 32) : LipEnvar :=
  let localSta := lip.vam.localSta
  let stored :=
    if !lip.getGps then storeFix p_rmc now localSta
    else if lipRmcValidCheck p_rmc now ≠ 0 then storeFix p_rmc now localSta
    else vsmGetDrCurrent lib t localSta
  let vam := { lip.vam with localSta := stored }
  capture { lip with
    vam := if localSta.speed ≠ stored.speed then vam.vsmUpdateBsmBcastTimer else vam }

/-- `lip_update_local` -/
def lipUpdateLocal (lip : LipEnvar) (lib : Libm) (p_rmc : Option TNmeaRmc) (p_accu : Option ℚ)
    (now t : BitVec 32) : LipEnvar :=
  let updated := match p_rmc with
    | some rmc => lip.updateRmc lib rmc now t
    | none => lip
  match p_accu with
  | some accu =>
      let localSta := updated.vam.localSta
      { updated with
        vam := { updated.vam with localSta := { localSta with pos := { localSta.pos with accu } } } }
  | none => updated

/-- Capturing a fix writes no more than the flags. -/
theorem capture_vam (lip : LipEnvar) :
    ∃ flag, lip.capture.vam = { lip.vam with flag := flag } := by
  unfold capture
  split <;> exact ⟨_, rfl⟩

/-- A fix is always stored, and the timer is updated if the speed has changed. -/
theorem updateRmc_vam (lip : LipEnvar) (lib : Libm) (p_rmc : TNmeaRmc) (now t : BitVec 32) :
    ∃ flag, (lip.updateRmc lib p_rmc now t).vam =
      { (if lip.vam.localSta.speed ≠ p_rmc.speed then
          VamEnvar.vsmUpdateBsmBcastTimer
            { lip.vam with localSta := storeFix p_rmc now lip.vam.localSta }
        else { lip.vam with localSta := storeFix p_rmc now lip.vam.localSta }) with
        flag := flag } := by
  have valid : lipRmcValidCheck p_rmc now ≠ 0 := Int.one_ne_zero
  unfold updateRmc
  simp only [if_pos valid, ite_self]
  exact capture_vam _

/-- The fix is stored in the status of the node. -/
theorem updateRmc_localSta (lip : LipEnvar) (lib : Libm) (p_rmc : TNmeaRmc)
    (now t : BitVec 32) :
    (lip.updateRmc lib p_rmc now t).vam.localSta = storeFix p_rmc now lip.vam.localSta := by
  obtain ⟨flag, updated⟩ := lip.updateRmc_vam lib p_rmc now t
  rw [updated]
  split
  · exact (VamEnvar.vsmUpdateBsmBcastTimer_frame _).2.2
  · rfl

/-- The status has the time of its fix. -/
theorem lipUpdateLocal_time (lip : LipEnvar) (lib : Libm) (rmc : TNmeaRmc) (p_accu : Option ℚ)
    (now t : BitVec 32) :
    (lip.lipUpdateLocal lib (some rmc) p_accu now t).vam.localSta.time = now := by
  have stored := lip.updateRmc_localSta lib rmc now t
  cases p_accu with
  | none => exact congrArg VamStastatus.time stored
  | some accu => exact congrArg VamStastatus.time stored

/-- A position is as old as the clock says, exactly if both readings are of the same
millisecond, as far as 32 bits go. -/
theorem position_age_iff (lip : LipEnvar) (lib : Libm) (rmc : TNmeaRmc) (p_accu : Option ℚ)
    (c1 c2 : Timespec) (left1 left2 : Int × OsTime) (t : BitVec 32) :
    elapsedTime (osalGetSystemtime (some c2) left2)
        (lip.lipUpdateLocal lib (some rmc) p_accu (osalGetSystemtime (some c1) left1)
          t).vam.localSta.time =
      c2.milliseconds - c1.milliseconds ↔ c1.milliseconds = c2.milliseconds := by
  have still : elapsedTime 0 0 = 0 := by decide
  rw [lipUpdateLocal_time, osalGetSystemtime_read, osalGetSystemtime_read, still]
  constructor <;> intro same <;> bv_omega

/-- A status with the time of a clock that could be read is never extrapolated. -/
theorem vsmGetDrCurrent_read {last : VamStastatus} (lib : Libm) (ts : Timespec)
    (left : Int × OsTime) (read : last.time = 0) :
    vsmGetDrCurrent lib (osalGetSystemtime (some ts) left) last = last := by
  have now := vsmGetDrCurrent_now lib last
  rwa [read] at now

/-- A node that drives at 72 km/h. -/
def driving : TNmeaRmc := ⟨1, 72, 40, 116, 90, ⟨2016, 5, 4, 3, 2, 1, 0⟩⟩

/-- The module at the start. -/
def fresh : LipEnvar :=
  ⟨vamInit ⟨id, id⟩ loadDefaultParam loadDefaultPid fun _ => true, false⟩

/-- Its first fix, when the clock has just started. -/
def firstFix : LipEnvar :=
  fresh.lipUpdateLocal ⟨id, id, id, some, fun y _ => y, id⟩ (some driving) none
    (osalGetSystemtime (some .zero) (0, ⟨0, 0⟩)) 0

/-- Half a minute after the fix its position counts as new. -/
theorem half_minute_ageless :
    elapsedTime (osalGetSystemtime (some ⟨30, 0, by decide⟩) (0, ⟨0, 0⟩))
        firstFix.vam.localSta.time = 0 ∧
      Timespec.milliseconds ⟨30, 0, by decide⟩ - Timespec.milliseconds .zero =
        30000 := by
  refine ⟨?_, by decide⟩
  rw [firstFix, lipUpdateLocal_time]
  rfl

end LipEnvar

end Rsu.Vam
