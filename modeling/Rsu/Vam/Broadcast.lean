import Rsu.Vam.Envar

/-!
# `cv_vam_vsm.c`: the broadcast timers

Starting, stopping and pausing the broadcast of basic safety messages, the
callbacks of the VAM timers, and the two messages that switch the module on and
off.
-/

namespace Rsu.Vam

open Rsu.Data.BitMask Rsu.Rcp Rsu.Osal

/-- The cast of a float to an unsigned 16-bit integer: towards zero, keeping the
low bits. -/
def castU16 (x : ℚ) : BitVec 16 := BitVec.ofInt 16 (x.num.tdiv x.den)

/-- `_cal_peroid_from_speed`, in milliseconds; the speed is in km/h. -/
def calPeroidFromSpeed (speed : ℚ) (bsmBoardcastSaftyfactor : Byte) : BitVec 16 :=
  let period : BitVec 16 :=
    if speed = 0 then 3000
    else castU16 ((bsmBoardcastSaftyfactor.toNat * 3600 : Nat) / speed)
  if period < 100 then 100 else if period > 3000 then 3000 else period / 10 * 10

namespace VamEnvar

/-- `vam_add_event_queue` -/
def vamAddEventQueue (vam : VamEnvar) (msg : VamMsg) : VamEnvar :=
  { vam with queueVam := (vam.queueVam.send msg).2 }

/-- `vsm_start_bsm_broadcast` -/
def vsmStartBsmBroadcast (vam : VamEnvar) : VamEnvar :=
  let param := vam.workingParam
  let period :=
    if param.bsmBoardcastMode = bsmBcModeAuto then
      calPeroidFromSpeed vam.localSta.speed param.bsmBoardcastSaftyfactor
    else if param.bsmBoardcastMode = bsmBcModeFixed then param.bsmBoardcastPeriod
    else 0
  { vam with
    bsmSendPeriodTicks := period
    timerSendBsm := (vam.timerSendBsm.change period.toNat).start }

/-- `vsm_stop_bsm_broadcast` -/
def vsmStopBsmBroadcast (vam : VamEnvar) : VamEnvar :=
  { vam with timerSendBsm := vam.timerSendBsm.stop }

/-- `SECOND_TO_TICK` of the hold time: a tick is a millisecond. -/
def pauseTicks (vam : VamEnvar) : Nat := vam.workingParam.bsmPauseHoldTime.toNat * 1000

/-- `vsm_pause_bsm_broadcast` -/
def vsmPauseBsmBroadcast (vam : VamEnvar) : VamEnvar :=
  if has vam.flag vamFlagTxBsmPause then vam
  else
    { vam with
      flag := set vam.flag vamFlagTxBsmPause
      timerBsmPause := (vam.timerBsmPause.change vam.pauseTicks).start }

/-- `timer_send_bsm_callback` -/
def timerSendBsmCallback (vam : VamEnvar) : VamEnvar :=
  let vam :=
    if has vam.flag vamFlagTxBsmAlert then
      if vam.localSta.alertMask = 0 then
        -- the test reads the count before it is decremented
        { vam with
          flag := if vam.bsmAlertCount = 0 then clear vam.flag vamFlagTxBsmAlert else vam.flag
          bsmAlertCount := vam.bsmAlertCount - 1 }
      else { vam with bsmAlertCount := vamNoAlertEvamTxTimes }
    else vam
  if has vam.flag vamFlagTxBsm && !has vam.flag vamFlagTxBsmPause then
    vam.vamAddEventQueue .rcptxBsm
  else vam

/-- The period `vsm_update_bsm_bcast_timer` computes. -/
def bsmBcastPeriod (vam : VamEnvar) : BitVec 16 :=
  let param := vam.workingParam
  if param.bsmBoardcastMode = bsmBcModeAuto then
    calPeroidFromSpeed vam.localSta.speed param.bsmBoardcastSaftyfactor
  else if vam.neighbourCnt > 50 then 200
  else param.bsmBoardcastPeriod

/-- `vsm_update_bsm_bcast_timer` -/
def vsmUpdateBsmBcastTimer (vam : VamEnvar) : VamEnvar :=
  if vam.bsmSendPeriodTicks ≠ vam.bsmBcastPeriod then
    { vam with
      timerSendBsm := vam.timerSendBsm.change vam.bsmBcastPeriod.toNat
      bsmSendPeriodTicks := vam.bsmBcastPeriod }
  else vam

/-- `timer_bsm_pause_callback` -/
def timerBsmPauseCallback (vam : VamEnvar) : VamEnvar :=
  if has vam.flag vamFlagTxBsm then { vam with flag := clear vam.flag vamFlagTxBsmPause } else vam

/-- The end of an EVAM broadcast in `timer_send_evam_callback`. -/
def stopEvam (vam : VamEnvar) : VamEnvar :=
  let stopped := { vam with
    flag := clear vam.flag vamFlagTxEvam
    timerSendEvam := vam.timerSendEvam.stop }
  if has stopped.flag vamFlagTxBsmPause then
    { stopped with
      flag := clear stopped.flag vamFlagTxBsmPause
      timerBsmPause := stopped.timerBsmPause.stop }
  else stopped

/-- The first half of `timer_send_evam_callback`: a new alert pauses the BSMs. -/
def pauseForEvam (vam : VamEnvar) : VamEnvar :=
  if vam.workingParam.bsmPauseMode = 1 ∧ vam.localSta.alertMask ≠ vam.evamMask then
    { vam.vsmPauseBsmBroadcast with evamMask := vam.localSta.alertMask }
  else vam

/-- `timer_send_evam_callback` -/
def timerSendEvamCallback (vam : VamEnvar) : VamEnvar :=
  if has vam.flag vamFlagTxEvam then
    let vam := vam.pauseForEvam.vamAddEventQueue .rcptxEvam
    if vam.localSta.alertMask = 0 then
      let counted := { vam with evamCount := vam.evamCount - 1 }
      if vam.evamCount = 0 then counted.stopEvam else counted
    else { vam with evamCount := vamNoAlertEvamTxTimes }
  else vam

/-- `timer_neigh_time_callback` -/
def timerNeighTimeCallback (vam : VamEnvar) : VamEnvar := vam.vamAddEventQueue .neighTimeout

/-- `VAM_MSG_START` in `vam_main_proc` -/
def mainStart (vam : VamEnvar) : VamEnvar :=
  let started := { vam with
    flag := set vam.flag vamFlagRx
    timerNeighbourLife := vam.timerNeighbourLife.start }
  if started.workingParam.bsmBoardcastMode ≠ bsmBcModeDisable then
    vsmStartBsmBroadcast { started with flag := set started.flag vamFlagTxBsm }
  else started

/-- `VAM_MSG_STOP` in `vam_main_proc` -/
def mainStop (vam : VamEnvar) : VamEnvar :=
  let stopped := if has vam.flag vamFlagTxBsm then vam.vsmStopBsmBroadcast else vam
  { stopped with
    flag := clear stopped.flag (set vamFlagRx vamFlagTxBsm)
    timerNeighbourLife := stopped.timerNeighbourLife.stop }

end VamEnvar

end Rsu.Vam
