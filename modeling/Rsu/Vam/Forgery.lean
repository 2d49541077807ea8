import Rsu.Semantics.Erasure
import Rsu.Vam.Transmit

/-!
# Vehicle alerts and road-side alerts

Both live in `local.alert_mask`, and `RSA_TYPE_CURVE` is the bit of
`VAM_ALERT_MASK_EBD`. A run with corrections and road-side alerts is compared
with the same run without them.
-/

namespace Rsu.Vam

open Rsu.Data.BitMask Rsu.Rcp

/-- The vehicle alerts in a mask. -/
def vehicleAlerts (mask : BitVec 16) : BitVec 16 :=
  mask &&& set (set vamAlertMaskVbd vamAlertMaskEbd) vamAlertMaskVot

/-- What the application and the timers do about alerts. -/
inductive AlertAction where
  | activeAlert (alert : BitVec 16)
  | cancelAlert (alert : BitVec 16)
  | sendRtcm (buff : List Byte) (len : Nat) (tx : TxEnv)
  | sendRsa (tx : TxEnv)
  | sendBsm (tx : TxEnv)
  /-- `timer_send_bsm_callback` -/
  | bsmTimer

/-- Corrections and road-side alerts. -/
def AlertAction.roadside : AlertAction → Bool
  | .sendRtcm _ _ _ | .sendRsa _ => true
  | _ => false

/-- The send of a road-side message gets a buffer. -/
def AlertAction.transmits : AlertAction → Bool
  | .sendRtcm _ _ tx | .sendRsa tx => tx.txbuf
  | _ => false

namespace VamEnvar

/-- One action. -/
def alertStep (vam : VamEnvar) : AlertAction → VamEnvar
  | .activeAlert alert => vam.vamActiveAlert alert
  | .cancelAlert alert => vam.vamCancelAlert alert
  | .sendRtcm buff len tx => (vam.rcpSendRtcm buff len tx).2.2
  | .sendRsa tx => (vam.rcpSendRsa tx).2.2
  | .sendBsm tx => (vam.rcpSendBsm tx).2.2
  | .bsmTimer => vam.timerSendBsmCallback

/-- The vehicle alerts, the alert phase of the broadcast and the events field of
the next basic safety message are those of the other run. -/
structure Unforged (vam erased : VamEnvar) : Prop where
  bits : vehicleAlerts vam.localSta.alertMask = vehicleAlerts erased.localSta.alertMask
  phase : has vam.flag vamFlagTxBsmAlert = has erased.flag vamFlagTxBsmAlert
  count : vam.bsmAlertCount = erased.bsmAlertCount
  events : vam.bsmEvents = erased.bsmEvents

/-- Everything the alerts depend on is that of the other run. -/
structure SameAlerts (vam erased : VamEnvar) : Prop where
  mask : vam.localSta.alertMask = erased.localSta.alertMask
  flag : vam.flag = erased.flag
  count : vam.bsmAlertCount = erased.bsmAlertCount

/-- A road-side message that changes nothing: it is not sent, or the node already
reports emergency braking. -/
def Harmless (vam : VamEnvar) (action : AlertAction) : Prop :=
  action.transmits = true → has vam.localSta.alertMask vamAlertMaskEbd = true

variable {vam erased : VamEnvar}

/-- The same alerts are unforged. -/
theorem SameAlerts.unforged (same : vam.SameAlerts erased) : vam.Unforged erased where
  bits := by rw [same.mask]
  phase := by rw [same.flag]
  count := same.count
  events := by rw [bsmEvents, bsmEvents, same.mask, same.flag]

/-- What the broadcast timer does to the alerts. -/
theorem timerSendBsmCallback_alerts (vam : VamEnvar) :
    vam.timerSendBsmCallback.localSta = vam.localSta ∧
      vam.timerSendBsmCallback.flag =
        (if has vam.flag vamFlagTxBsmAlert ∧ vam.localSta.alertMask = 0 ∧ vam.bsmAlertCount = 0
          then clear vam.flag vamFlagTxBsmAlert else vam.flag) ∧
      vam.timerSendBsmCallback.bsmAlertCount =
        if has vam.flag vamFlagTxBsmAlert then
          if vam.localSta.alertMask = 0 then vam.bsmAlertCount - 1 else vamNoAlertEvamTxTimes
        else vam.bsmAlertCount := by
  have queued : ∀ (before : VamEnvar) (condition : Prop) [Decidable condition],
      (if condition then before.vamAddEventQueue .rcptxBsm else before).localSta = before.localSta ∧
        (if condition then before.vamAddEventQueue .rcptxBsm else before).flag = before.flag ∧
        (if condition then before.vamAddEventQueue .rcptxBsm else before).bsmAlertCount =
          before.bsmAlertCount := by
    intro before condition decidable
    split <;> exact ⟨rfl, rfl, rfl⟩
  unfold timerSendBsmCallback
  dsimp only
  rw [(queued _ _).1, (queued _ _).2.1, (queued _ _).2.2]
  by_cases alerting : has vam.flag vamFlagTxBsmAlert = true
  · by_cases calm : vam.localSta.alertMask = 0#16 <;> simp [alerting, calm]
  · simp [alerting]

/-- The callback of the timer keeps the alerts the same. -/
theorem SameAlerts.timerSendBsmCallback (same : vam.SameAlerts erased) :
    vam.timerSendBsmCallback.SameAlerts erased.timerSendBsmCallback := by
  obtain ⟨mask, flag, count⟩ := same
  obtain ⟨sta, flags, counts⟩ := vam.timerSendBsmCallback_alerts
  obtain ⟨erasedSta, erasedFlags, erasedCounts⟩ := erased.timerSendBsmCallback_alerts
  refine ⟨?_, ?_, ?_⟩
  · rw [sta, erasedSta, mask]
  · rw [flags, erasedFlags, mask, flag, count]
  · rw [counts, erasedCounts, mask, flag, count]

/-- The actions of a vehicle keep two runs together. -/
theorem SameAlerts.alertStep {action : AlertAction} (same : vam.SameAlerts erased)
    (visible : action.roadside = false) :
    (vam.alertStep action).SameAlerts (erased.alertStep action) := by
  obtain ⟨mask, flag, count⟩ := same
  cases action with
  | activeAlert alert =>
      exact ⟨congrArg (set · alert) mask, congrArg (set · vamFlagTxBsmAlert) flag, count⟩
  | cancelAlert alert => exact ⟨congrArg (clear · alert) mask, flag, count⟩
  | sendBsm tx =>
      cases available : tx.txbuf <;>
      · simp only [VamEnvar.alertStep, rcpSendBsm, available]
        exact ⟨mask, flag, count⟩
  | bsmTimer => exact SameAlerts.timerSendBsmCallback ⟨mask, flag, count⟩
  | sendRtcm buff len tx => cases visible
  | sendRsa tx => cases visible

/-- What a road-side message does to the alerts. -/
theorem alertStep_roadside (vam : VamEnvar) {action : AlertAction}
    (roadside : action.roadside = true) :
    (vam.alertStep action).flag = vam.flag ∧
      (vam.alertStep action).bsmAlertCount = vam.bsmAlertCount ∧
      (vam.alertStep action).localSta.alertMask =
        if action.transmits then set vam.localSta.alertMask vamAlertMaskEbd
        else vam.localSta.alertMask := by
  cases action with
  | sendRtcm buff len tx =>
      cases available : tx.txbuf <;>
        simp [VamEnvar.alertStep, rcpSendRtcm, vamActiveRsa, withAlertMask, available,
          AlertAction.transmits]
      rfl
  | sendRsa tx =>
      cases available : tx.txbuf <;>
        simp [VamEnvar.alertStep, rcpSendRsa, vamActiveRsa, withAlertMask, available,
          AlertAction.transmits]
      rfl
  | _ => cases roadside

/-- A road-side message leaves the vehicle alerts alone only if it is harmless. -/
theorem harmless_of_bits {action : AlertAction} (roadside : action.roadside = true)
    (kept : vehicleAlerts (vam.alertStep action).localSta.alertMask =
      vehicleAlerts vam.localSta.alertMask) : vam.Harmless action := by
  intro transmits
  rw [(vam.alertStep_roadside roadside).2.2, if_pos transmits] at kept
  have part : set (set vamAlertMaskVbd vamAlertMaskEbd) vamAlertMaskVot &&& vamAlertMaskEbd =
      vamAlertMaskEbd := by decide
  have braking := congrArg (has · vamAlertMaskEbd) kept
  simp only [vehicleAlerts, has_and, part, has_set] at braking
  rw [← braking, Bool.or_eq_true]
  exact .inr rfl

/-- A harmless message leaves all alerts alone. -/
theorem SameAlerts.harmless {action : AlertAction} (same : vam.SameAlerts erased)
    (roadside : action.roadside = true) (harmless : vam.Harmless action) :
    (vam.alertStep action).SameAlerts erased := by
  obtain ⟨flag, count, mask⟩ := vam.alertStep_roadside roadside
  refine ⟨?_, flag.trans same.flag, count.trans same.count⟩
  cases transmits : action.transmits with
  | true =>
      have single : vamAlertMaskEbd = BitVec.twoPow 16 1 := by decide
      have braking := harmless transmits
      rw [single] at braking mask
      rw [mask, if_pos transmits, set_of_has braking, same.mask]
  | false => exact (mask.trans (if_neg (by simp [transmits]))).trans same.mask

end VamEnvar

/-- A run of alert actions, beside the run without corrections and road-side alerts. -/
def alertSystem : ActionSystem AlertAction :=
  .erasing (fun _ => True) VamEnvar.alertStep AlertAction.roadside

/-- Corrections and road-side alerts forge no vehicle alert in a run exactly when
each of them is harmless. The run is compared with what the other actions alone do. -/
theorem vehicle_alerts_unforged_iff (vam : VamEnvar) {finish : VamEnvar × VamEnvar}
    (path : alertSystem.Path (vam, vam) finish) :
    finish.2 = (path.actions.filter fun action => !action.roadside).foldl VamEnvar.alertStep vam ∧
      (path.Always (fun pair : VamEnvar × VamEnvar => pair.1.Unforged pair.2) ↔
        path.StepsMeet fun (pair : VamEnvar × VamEnvar) action =>
          action.roadside = true → pair.1.Harmless action) := by
  have together : vam.SameAlerts vam := ⟨rfl, rfl, rfl⟩
  refine ⟨(ActionSystem.erasing_finish path).2, ?_⟩
  refine ActionSystem.erasing_always_iff (fun same => same.unforged)
    (fun same visible => same.alertStep visible)
    (fun same roadside harmless => same.harmless roadside harmless) ?_ together path
  intro full erased action same roadside unforged
  refine VamEnvar.harmless_of_bits roadside (unforged.bits.trans ?_)
  rw [same.mask]

/-- A broken-down vehicle forwards one byte of corrections, and its next message
also reports hard braking. -/
theorem corrections_forge_hard_braking :
    ∃ (finish : VamEnvar × VamEnvar)
      (path : alertSystem.Path
        (vamInit ⟨id, id⟩ loadDefaultParam loadDefaultPid fun _ => true,
          vamInit ⟨id, id⟩ loadDefaultParam loadDefaultPid fun _ => true) finish),
      path.actions = [.activeAlert vamAlertMaskVbd, .sendRtcm [0xd3] 1 ⟨true, 0⟩] ∧
        finish.2.bsmEvents = some (cvNtohs eventHazardLights) ∧
        finish.1.bsmEvents = some (cvNtohs (set eventHazardLights eventHardBraking)) ∧
        ¬ path.Always fun pair : VamEnvar × VamEnvar => pair.1.Unforged pair.2 := by
  let start := vamInit ⟨id, id⟩ loadDefaultParam loadDefaultPid fun _ => true
  let broken := start.vamActiveAlert vamAlertMaskVbd
  let forged := broken.alertStep (.sendRtcm [0xd3] 1 ⟨true, 0⟩)
  let first : alertSystem.Path (start, start) (broken, broken) :=
    @ActionSystem.Path.snoc _ alertSystem _ _ .nil (.activeAlert vamAlertMaskVbd) (broken, broken) rfl
  let path : alertSystem.Path (start, start) (forged, broken) :=
    @ActionSystem.Path.snoc _ alertSystem _ _ first (.sendRtcm [0xd3] 1 ⟨true, 0⟩) (forged, broken) rfl
  have honest : broken.bsmEvents = some (cvNtohs eventHazardLights) := by decide
  have braking : forged.bsmEvents = some (cvNtohs (set eventHazardLights eventHardBraking)) := by
    decide
  refine ⟨(forged, broken), path, rfl, honest, braking, fun always => ?_⟩
  have same := always.last.events
  rw [honest, braking] at same
  exact absurd same (by decide)

end Rsu.Vam
