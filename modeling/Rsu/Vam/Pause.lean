import Rsu.Semantics.ActionSystem
import Rsu.Vam.LocalAlert
import Rsu.Vam.Receive

/-!
# The pause of the broadcast

A pause is a flag and a one-shot timer. `PauseState` adds how long the current
pause has lasted; time passes in steps that no expiry of the pause timer
interrupts. The pause ends in time exactly when the timer never expires while the
broadcast is stopped, and no pause is spent with a hold time of 0.
-/

namespace Rsu.Vam

open Rsu.Data.BitMask Rsu.Rcp Rsu.Osal

namespace VamEnvar

/-- `VAM_FLAG_TX_BSM_PAUSE` is set. -/
def paused (vam : VamEnvar) : Bool := has vam.flag vamFlagTxBsmPause

/-- `VAM_FLAG_TX_BSM` is set. -/
def broadcasting (vam : VamEnvar) : Bool := has vam.flag vamFlagTxBsm

/-- The pause timer expires, and its callback runs. -/
def expirePause (vam : VamEnvar) : VamEnvar :=
  timerBsmPauseCallback { vam with timerBsmPause := vam.timerBsmPause.expire }

end VamEnvar

/-- The module, and the milliseconds the current pause has lasted. -/
structure PauseState where
  vam : VamEnvar
  pausedFor : Nat

/-- What happens to the module; `elapse` is the passing of time. -/
inductive PauseAction where
  /-- `VAM_MSG_START` -/
  | start
  /-- `VAM_MSG_STOP` -/
  | stop
  /-- `rcp_parse_msg` -/
  | receive (databuf : Frame) (now : BitVec 32)
  /-- `timer_send_evam_callback` -/
  | sendEvam
  /-- `vsm_pause_bsm_broadcast` -/
  | pause
  | activeAlert (alert : BitVec 16)
  | cancelAlert (alert : BitVec 16)
  | stopAlert
  | elapse (millisec : Nat)
  /-- The pause timer expires and `timer_bsm_pause_callback` runs. -/
  | expire

namespace PauseState

/-- A new state of the module, with the clock of a pause that goes on. -/
def after (state : PauseState) (vam : VamEnvar) : PauseState where
  vam := vam
  pausedFor := if state.vam.paused then state.pausedFor else 0

/-- Time passes. -/
def wait (state : PauseState) (millisec : Nat) : PauseState where
  vam := { state.vam with timerBsmPause := state.vam.timerBsmPause.elapse millisec }
  pausedFor := if state.vam.paused then state.pausedFor + millisec else 0

/-- One step. An expiry needs a timer that is due, and time stops there. -/
def step (state : PauseState) (action : PauseAction) (fuel : Nat) : Option PauseState :=
  match action with
  | .start => some (state.after state.vam.mainStart)
  | .stop => some (state.after state.vam.mainStop)
  | .receive databuf now =>
      (state.vam.rcpParseMsg databuf now fuel).map fun result => state.after result.vam
  | .sendEvam => some (state.after state.vam.timerSendEvamCallback)
  | .pause => some (state.after state.vam.vsmPauseBsmBroadcast)
  | .activeAlert alert => some (state.after (state.vam.vamActiveAlert alert))
  | .cancelAlert alert => some (state.after (state.vam.vamCancelAlert alert))
  | .stopAlert => some (state.after state.vam.vamStopAlert)
  | .elapse millisec =>
      if state.vam.timerBsmPause.lasts millisec then some (state.wait millisec) else none
  | .expire =>
      if state.vam.timerBsmPause.due = some 0 then some (state.after state.vam.expirePause)
      else none

/-- In a pause the timer is armed, and while the node broadcasts the pause is not
longer than the hold time. -/
def InTime (state : PauseState) : Prop :=
  state.vam.paused = true →
    (∃ left, state.vam.timerBsmPause.due = some left) ∧
      (state.vam.broadcasting = true → state.pausedFor ≤ state.vam.pauseTicks)

/-- The circumstances in which a step keeps pauses in time. -/
def Meets (state : PauseState) (action : PauseAction) : Prop :=
  match action with
  | .start =>
      state.vam.paused = true → state.vam.workingParam.bsmBoardcastMode ≠ bsmBcModeDisable →
        0 < state.pausedFor → 0 < state.vam.pauseTicks
  | .elapse millisec =>
      state.vam.paused = true → state.vam.broadcasting = true →
        0 < millisec → 0 < state.vam.pauseTicks
  | .expire => state.vam.paused = true → state.vam.broadcasting = true
  | _ => True

/-- What is left on the timer makes up the hold time, unless that is 0. -/
def Timed (state : PauseState) : Prop :=
  state.vam.paused = true → ∃ left, state.vam.timerBsmPause.due = some left ∧
    (0 < state.vam.pauseTicks → state.pausedFor + left = state.vam.pauseTicks)

end PauseState

/-- The pause in any order of events, from a state without one. -/
def pauseSystem : ActionSystem PauseAction where
  State := PauseState
  Initial state := state.vam.paused = false ∧ state.vam.timerBsmPause.type = .oneshot
  Step state action next := Returns (state.step action) next

/-- What a function of the module may do to the pause. -/
inductive PauseEffect (before after : VamEnvar) : Prop where
  | keeps (flag : after.paused = before.paused)
      (timer : after.timerBsmPause = before.timerBsmPause)
  | begins (clear : before.paused = false)
      (timer : after.timerBsmPause = (before.timerBsmPause.change before.pauseTicks).start)
  | ends (clear : after.paused = false)
      (type : after.timerBsmPause.type = before.timerBsmPause.type)

namespace VamEnvar

/-- The parameters and the broadcast are as they were. -/
def SameMode (before after : VamEnvar) : Prop :=
  after.workingParam = before.workingParam ∧ after.broadcasting = before.broadcasting

/-- Two changes that keep the parameters and the broadcast. -/
theorem SameMode.trans {first second third : VamEnvar} (left : first.SameMode second)
    (right : second.SameMode third) : first.SameMode third :=
  ⟨right.1.trans left.1, right.2.trans left.2⟩

end VamEnvar

/-- Writing elsewhere in the module does not change the effect on the pause. -/
theorem PauseEffect.frame {vam between after : VamEnvar}
    (effect : PauseEffect vam between ∧ vam.SameMode between) (flag : after.flag = between.flag)
    (timer : after.timerBsmPause = between.timerBsmPause)
    (param : after.workingParam = between.workingParam) :
    PauseEffect vam after ∧ vam.SameMode after := by
  obtain ⟨effect, sameParam, sameBroadcast⟩ := effect
  have paused : after.paused = between.paused := congrArg (has · vamFlagTxBsmPause) flag
  have broadcasting : after.broadcasting = between.broadcasting := congrArg (has · vamFlagTxBsm) flag
  refine ⟨?_, param.trans sameParam, broadcasting.trans sameBroadcast⟩
  cases effect with
  | keeps sameFlag sameTimer => exact .keeps (paused.trans sameFlag) (timer.trans sameTimer)
  | begins clear changed => exact .begins clear (timer.trans changed)
  | ends clear type => exact .ends (paused.trans clear) ((congrArg _ timer).trans type)

/-- The pause timer stays what it was created as. -/
theorem PauseEffect.type_eq {before after : VamEnvar} (effect : PauseEffect before after) :
    after.timerBsmPause.type = before.timerBsmPause.type := by
  cases effect with
  | keeps flag timer => rw [timer]
  | begins clear timer => rw [timer, OsalTimer.start_type, OsalTimer.change_type]
  | ends clear type => exact type

namespace VamEnvar

/-- A pause starts its timer, unless there is one already. -/
theorem vsmPauseBsmBroadcast_effect (vam : VamEnvar) :
    PauseEffect vam vam.vsmPauseBsmBroadcast ∧ vam.SameMode vam.vsmPauseBsmBroadcast := by
  cases running : has vam.flag vamFlagTxBsmPause with
  | true =>
      have same : vam.vsmPauseBsmBroadcast = vam := by simp [vsmPauseBsmBroadcast, running]
      rw [same]
      exact ⟨.keeps rfl rfl, rfl, rfl⟩
  | false =>
      refine ⟨.begins running ?_, ?_, ?_⟩
      · simp [vsmPauseBsmBroadcast, running]
      · simp [vsmPauseBsmBroadcast, running]
      · simp (disch := decide) [vsmPauseBsmBroadcast, running, broadcasting, has_of_disjoint]

theorem pauseForEvam_effect (vam : VamEnvar) :
    PauseEffect vam vam.pauseForEvam ∧ vam.SameMode vam.pauseForEvam := by
  unfold pauseForEvam
  split
  · exact PauseEffect.frame vam.vsmPauseBsmBroadcast_effect rfl rfl rfl
  · exact ⟨.keeps rfl rfl, rfl, rfl⟩

/-- The end of an alert broadcast also ends the pause. -/
theorem stopEvam_paused (vam : VamEnvar) : vam.stopEvam.paused = false := by
  cases running : has (clear vam.flag vamFlagTxEvam) vamFlagTxBsmPause with
  | true => simp [stopEvam, paused, running]
  | false => simp [stopEvam, paused, running]

/-- The end of an alert keeps the kind of the timer. -/
theorem stopEvam_type (vam : VamEnvar) :
    vam.stopEvam.timerBsmPause.type = vam.timerBsmPause.type := by
  cases running : has (clear vam.flag vamFlagTxEvam) vamFlagTxBsmPause <;>
    simp [stopEvam, running]

/-- The end of an alert keeps the broadcast. -/
theorem stopEvam_sameMode (vam : VamEnvar) : vam.SameMode vam.stopEvam := by
  cases running : has (clear vam.flag vamFlagTxEvam) vamFlagTxBsmPause <;>
    simp (disch := decide) [SameMode, stopEvam, broadcasting, running, clear_of_disjoint]

/-- An alert that is sent may start a pause or end it. -/
theorem timerSendEvamCallback_effect (vam : VamEnvar) :
    PauseEffect vam vam.timerSendEvamCallback ∧ vam.SameMode vam.timerSendEvamCallback := by
  have paused := vam.pauseForEvam_effect
  unfold timerSendEvamCallback
  split
  · dsimp only
    split
    · split
      · refine ⟨.ends (stopEvam_paused _) ((stopEvam_type _).trans paused.1.type_eq), ?_⟩
        exact (PauseEffect.frame paused rfl rfl rfl).2.trans (stopEvam_sameMode _)
      · exact PauseEffect.frame paused rfl rfl rfl
    · exact PauseEffect.frame paused rfl rfl rfl
  · exact ⟨.keeps rfl rfl, rfl, rfl⟩

/-- A received message may start a pause. -/
theorem rcpParseMsg_effect {vam : VamEnvar} {databuf : Frame} {now : BitVec 32} {fuel : Nat}
    {result : MsgResult} (parsed : vam.rcpParseMsg databuf now fuel = some result) :
    PauseEffect vam result.vam ∧ vam.SameMode result.vam := by
  obtain ⟨table, stored | stored⟩ := rcpParseMsg_withTable parsed
  · rw [stored]
    exact ⟨.keeps rfl rfl, rfl, rfl⟩
  · rw [stored]
    exact PauseEffect.frame vam.vsmPauseBsmBroadcast_effect rfl rfl rfl

theorem vamActiveAlert_effect (vam : VamEnvar) (alert : BitVec 16) :
    PauseEffect vam (vam.vamActiveAlert alert) ∧ vam.SameMode (vam.vamActiveAlert alert) := by
  refine ⟨.keeps ?_ rfl, rfl, ?_⟩ <;>
    simp (disch := decide) [vamActiveAlert, withAlertMask, paused, broadcasting, has_of_disjoint]

/-- Its end may end the pause. -/
theorem vamStopAlert_effect (vam : VamEnvar) :
    PauseEffect vam vam.vamStopAlert ∧ vam.SameMode vam.vamStopAlert := by
  refine ⟨.keeps ?_ rfl, rfl, ?_⟩ <;>
    simp (disch := decide) [vamStopAlert, paused, broadcasting, clear_of_disjoint]

/-- Starting the broadcast does not touch a pause. -/
theorem mainStart_pause (vam : VamEnvar) :
    vam.mainStart.paused = vam.paused ∧ vam.mainStart.timerBsmPause = vam.timerBsmPause ∧
      vam.mainStart.workingParam = vam.workingParam ∧
      (vam.mainStart.broadcasting = true ↔
        vam.broadcasting = true ∨ vam.workingParam.bsmBoardcastMode ≠ bsmBcModeDisable) := by
  by_cases disabled : vam.workingParam.bsmBoardcastMode = bsmBcModeDisable
  · simp (disch := decide) [mainStart, disabled, paused, broadcasting, has_of_disjoint]
  · refine ⟨?_, ?_, ?_, ?_⟩ <;>
      simp (disch := decide) [mainStart, disabled, vsmStartBsmBroadcast, paused, broadcasting,
        has_of_disjoint]
    exact .inr rfl

/-- Stopping it does not either. -/
theorem mainStop_pause (vam : VamEnvar) :
    vam.mainStop.paused = vam.paused ∧ vam.mainStop.timerBsmPause = vam.timerBsmPause ∧
      vam.mainStop.workingParam = vam.workingParam ∧ vam.mainStop.broadcasting = false := by
  have both : clear vamFlagTxBsm (set vamFlagRx vamFlagTxBsm) = 0#32 := by decide
  cases running : has vam.flag vamFlagTxBsm <;>
    simp (disch := decide) [mainStop, running, vsmStopBsmBroadcast, paused, broadcasting,
      clear_of_disjoint, both]

/-- The expiry ends the pause of a node that broadcasts. -/
theorem expirePause_paused (vam : VamEnvar) (transmits : vam.broadcasting = true) :
    vam.expirePause.paused = false := by
  rw [broadcasting] at transmits
  simp [expirePause, timerBsmPauseCallback, transmits, paused]

/-- The expiry leaves any other pause without a timer. -/
theorem expirePause_stuck (vam : VamEnvar) (silent : vam.broadcasting = false)
    (oneshot : vam.timerBsmPause.type = .oneshot) :
    vam.expirePause.paused = vam.paused ∧ vam.expirePause.timerBsmPause.due = none := by
  rw [broadcasting] at silent
  simp [expirePause, timerBsmPauseCallback, silent, paused, OsalTimer.expire, oneshot]

/-- The expiry keeps the kind of the timer. -/
theorem expirePause_type (vam : VamEnvar) :
    vam.expirePause.timerBsmPause.type = vam.timerBsmPause.type := by
  cases transmits : has vam.flag vamFlagTxBsm <;> 
    simp [expirePause, timerBsmPauseCallback, transmits]

end VamEnvar

namespace PauseState

open VamEnvar

variable {state next : PauseState}

@[simp] theorem after_vam (state : PauseState) (vam : VamEnvar) : (state.after vam).vam = vam := rfl

/-- The clock of a pause goes on. -/
theorem after_pausedFor (vam : VamEnvar) (running : state.vam.paused = true) :
    (state.after vam).pausedFor = state.pausedFor := if_pos running

/-- A new pause starts its clock. -/
theorem after_pausedFor_new (vam : VamEnvar) (clear : state.vam.paused = false) :
    (state.after vam).pausedFor = 0 := if_neg (by simp [clear])

/-- What keeps the mode of the module keeps pauses timed and in time. -/
theorem Timed.settle (timed : state.Timed) (inTime : state.InTime) {vam : VamEnvar}
    (effect : PauseEffect state.vam vam ∧ state.vam.SameMode vam) :
    (state.after vam).Timed ∧ (state.after vam).InTime := by
  obtain ⟨effect, param, broadcasting⟩ := effect
  have hold : vam.pauseTicks = state.vam.pauseTicks := by rw [pauseTicks, param, pauseTicks]
  cases effect with
  | keeps flag timer =>
      constructor
      · intro running
        have before : state.vam.paused = true := flag.symm.trans running
        rw [after_vam, timer, hold, after_pausedFor vam before]
        exact timed before
      · intro running
        have before : state.vam.paused = true := flag.symm.trans running
        rw [after_vam, timer, hold, broadcasting, after_pausedFor vam before]
        exact inTime before
  | begins clear timer =>
      have armed : vam.timerBsmPause.due = some vam.timerBsmPause.millisec := by rw [timer]; rfl
      rw [Timed, InTime, after_vam, after_pausedFor_new vam clear]
      refine ⟨fun _ => ⟨_, armed, fun positive => ?_⟩, fun _ => ⟨⟨_, armed⟩, fun _ => Nat.zero_le _⟩⟩
      rw [hold] at positive ⊢
      rw [timer, Nat.zero_add]
      exact state.vam.timerBsmPause.change_millisec positive
  | ends clear type =>
      have none : ∀ claim : Prop, vam.paused = true → claim := fun _ running =>
        absurd running (by simp [clear])
      exact ⟨none _, none _⟩

/-- Waiting changes the clock and the timer only. -/
@[simp] theorem wait_mode (state : PauseState) (millisec : Nat) :
    (state.wait millisec).vam.paused = state.vam.paused ∧
      (state.wait millisec).vam.broadcasting = state.vam.broadcasting ∧
      (state.wait millisec).vam.pauseTicks = state.vam.pauseTicks := ⟨rfl, rfl, rfl⟩

/-- In a pause the time counts. -/
theorem wait_pausedFor (millisec : Nat) (running : state.vam.paused = true) :
    (state.wait millisec).pausedFor = state.pausedFor + millisec := if_pos running

/-- Time that passes before the timer expires. -/
theorem Timed.wait (timed : state.Timed) {millisec : Nat}
    (lasts : state.vam.timerBsmPause.lasts millisec = true) : (state.wait millisec).Timed := by
  obtain ⟨paused, -, hold⟩ := state.wait_mode millisec
  rw [Timed, paused, hold]
  intro running
  obtain ⟨left, due, total⟩ := timed running
  have within : millisec ≤ left := by simpa [OsalTimer.lasts, due] using lasts
  refine ⟨left - millisec, by simp [PauseState.wait, due], fun positive => ?_⟩
  have sum := total positive
  rw [wait_pausedFor millisec running]
  omega

/-- Waiting stays in time exactly if it meets the condition. -/
theorem wait_inTime_iff (timed : state.Timed) (inTime : state.InTime) {millisec : Nat}
    (lasts : state.vam.timerBsmPause.lasts millisec = true) :
    (state.wait millisec).InTime ↔ state.Meets (.elapse millisec) := by
  have waited := timed.wait lasts
  obtain ⟨paused, broadcasting, hold⟩ := state.wait_mode millisec
  rw [Timed, paused, hold] at waited
  rw [InTime, paused, broadcasting, hold]
  constructor
  · intro later running transmits passes
    have bound := (later running).2 transmits
    rw [wait_pausedFor millisec running] at bound
    omega
  · intro meets running
    obtain ⟨left, due, total⟩ := waited running
    refine ⟨⟨left, due⟩, fun transmits => ?_⟩
    have earlier := (inTime running).2 transmits
    rw [wait_pausedFor millisec running] at total ⊢
    rcases Nat.eq_zero_or_pos millisec with rfl | passes
    · exact earlier
    · have sum := total (meets running transmits passes)
      omega

/-- Starting the broadcast in a pause. -/
theorem Timed.start (timed : state.Timed) : (state.after state.vam.mainStart).Timed := by
  obtain ⟨paused, timer, param, -⟩ := state.vam.mainStart_pause
  have hold : state.vam.mainStart.pauseTicks = state.vam.pauseTicks := by
    rw [pauseTicks, param, pauseTicks]
  rw [Timed, after_vam, paused, timer, hold]
  intro running
  rw [after_pausedFor _ running]
  exact timed running

/-- A start is in time exactly if it meets the condition. -/
theorem start_inTime_iff (timed : state.Timed) (inTime : state.InTime) :
    (state.after state.vam.mainStart).InTime ↔ state.Meets .start := by
  obtain ⟨paused, timer, param, broadcasting⟩ := state.vam.mainStart_pause
  have hold : state.vam.mainStart.pauseTicks = state.vam.pauseTicks := by
    rw [pauseTicks, param, pauseTicks]
  rw [InTime, after_vam, paused, timer, hold, broadcasting]
  constructor
  · intro later running enabled passed
    have bound := (later running).2 (.inr enabled)
    rw [after_pausedFor _ running] at bound
    omega
  · intro meets running
    obtain ⟨left, due, total⟩ := timed running
    refine ⟨⟨left, due⟩, fun transmits => ?_⟩
    rw [after_pausedFor _ running]
    rcases transmits with already | enabled
    · exact (inTime running).2 already
    · rcases Nat.eq_zero_or_pos state.pausedFor with fresh | passed
      · omega
      · have sum := total (meets running enabled passed)
        omega

/-- Stopping the broadcast in a pause. -/
theorem stop_settles (timed : state.Timed) (inTime : state.InTime) :
    (state.after state.vam.mainStop).Timed ∧ (state.after state.vam.mainStop).InTime := by
  obtain ⟨paused, timer, param, broadcasting⟩ := state.vam.mainStop_pause
  have hold : state.vam.mainStop.pauseTicks = state.vam.pauseTicks := by
    rw [pauseTicks, param, pauseTicks]
  rw [Timed, InTime, after_vam, paused, timer, hold, broadcasting]
  constructor
  · intro running
    rw [after_pausedFor _ running]
    exact timed running
  · exact fun running => ⟨(inTime running).1, fun transmits => by cases transmits⟩

/-- The expiry of the timer ends a pause, but only while the node broadcasts. -/
theorem expire_inTime_iff (oneshot : state.vam.timerBsmPause.type = .oneshot) :
    (state.after state.vam.expirePause).InTime ↔ state.Meets .expire := by
  cases transmits : state.vam.broadcasting with
  | true =>
      have ended := state.vam.expirePause_paused transmits
      exact ⟨fun _ _ => transmits, fun _ running => absurd running (by simp [ended])⟩
  | false =>
      obtain ⟨paused, timer⟩ := state.vam.expirePause_stuck transmits oneshot
      rw [InTime, after_vam, paused, timer]
      constructor
      · intro later running
        obtain ⟨⟨left, due⟩, -⟩ := later running
        cases due
      · intro meets running
        exact absurd (meets running) (by simp [transmits])

/-- An expiry leaves nothing on the timer that runs once. -/
theorem expire_timed (oneshot : state.vam.timerBsmPause.type = .oneshot)
    (meets : state.Meets .expire) : (state.after state.vam.expirePause).Timed := by
  intro running
  rw [after_vam] at running
  cases transmits : state.vam.broadcasting with
  | true => exact absurd running (by simp [state.vam.expirePause_paused transmits])
  | false =>
      rw [(state.vam.expirePause_stuck transmits oneshot).1] at running
      exact absurd (meets running) (by simp [transmits])

/-- What a single step does. -/
theorem step_exact {action : PauseAction} (timed : state.Timed)
    (oneshot : state.vam.timerBsmPause.type = .oneshot) (inTime : state.InTime)
    (stepped : Returns (state.step action) next) :
    (next.InTime ↔ state.Meets action) ∧ (state.Meets action → next.Timed) ∧
      next.vam.timerBsmPause.type = .oneshot := by
  have settled : ∀ {vam : VamEnvar}, PauseEffect state.vam vam ∧ state.vam.SameMode vam →
      ((state.after vam).InTime ↔ True) ∧ (True → (state.after vam).Timed) ∧
        (state.after vam).vam.timerBsmPause.type = .oneshot := by
    intro vam effect
    obtain ⟨nextTimed, nextInTime⟩ := timed.settle inTime effect
    exact ⟨iff_true_intro nextInTime, fun _ => nextTimed, effect.1.type_eq.trans oneshot⟩
  obtain ⟨fuel, returned⟩ := stepped
  cases action with
  | start =>
      obtain rfl := Option.some.inj returned
      refine ⟨start_inTime_iff timed inTime, fun _ => timed.start, ?_⟩
      rw [after_vam, state.vam.mainStart_pause.2.1, oneshot]
  | stop =>
      obtain rfl := Option.some.inj returned
      obtain ⟨nextTimed, nextInTime⟩ := stop_settles timed inTime
      refine ⟨iff_true_intro nextInTime, fun _ => nextTimed, ?_⟩
      rw [after_vam, state.vam.mainStop_pause.2.1, oneshot]
  | receive databuf now =>
      obtain ⟨result, parsed, rfl⟩ := Option.map_eq_some_iff.1 returned
      exact settled (rcpParseMsg_effect parsed)
  | sendEvam =>
      obtain rfl := Option.some.inj returned
      exact settled state.vam.timerSendEvamCallback_effect
  | pause =>
      obtain rfl := Option.some.inj returned
      exact settled state.vam.vsmPauseBsmBroadcast_effect
  | activeAlert alert =>
      obtain rfl := Option.some.inj returned
      exact settled (state.vam.vamActiveAlert_effect alert)
  | cancelAlert alert =>
      obtain rfl := Option.some.inj returned
      exact settled ⟨.keeps rfl rfl, rfl, rfl⟩
  | stopAlert =>
      obtain rfl := Option.some.inj returned
      exact settled state.vam.vamStopAlert_effect
  | elapse millisec =>
      obtain ⟨lasts, same⟩ := Option.ite_none_right_eq_some.1 returned
      obtain rfl := Option.some.inj same
      exact ⟨wait_inTime_iff timed inTime lasts, fun _ => timed.wait lasts, oneshot⟩
  | expire =>
      obtain ⟨due, same⟩ := Option.ite_none_right_eq_some.1 returned
      obtain rfl := Option.some.inj same
      refine ⟨expire_inTime_iff oneshot, expire_timed oneshot, ?_⟩
      rw [after_vam, state.vam.expirePause_type, oneshot]

end PauseState

/-- Pauses are in time in every state of a run exactly when its steps meet the condition. -/
theorem pause_in_time_iff {start finish : PauseState} (initial : pauseSystem.Initial start)
    (path : pauseSystem.Path start finish) :
    path.Always PauseState.InTime ↔ path.StepsMeet PauseState.Meets := by
  obtain ⟨unpaused, oneshot⟩ := initial
  have never : ∀ claim : Prop, start.vam.paused = true → claim := fun _ running =>
    absurd running (by simp [unpaused])
  let inv : PauseState → Prop := fun state => state.Timed ∧ state.vam.timerBsmPause.type = .oneshot
  have timed : inv start := ⟨never _, oneshot⟩
  refine path.always_iff_stepsMeet timed (never _) ?_ ?_
  · rintro state action next ⟨timed, oneshot⟩ inTime stepped meets
    obtain ⟨-, kept, type⟩ := PauseState.step_exact timed oneshot inTime stepped
    exact ⟨kept meets, type⟩
  · rintro state action next ⟨timed, oneshot⟩ inTime stepped
    exact (PauseState.step_exact timed oneshot inTime stepped).1

namespace PauseState

/-- The state after `vam_init` with the default parameters. -/
def init : PauseState where
  vam := vamInit ⟨id, id⟩ loadDefaultParam loadDefaultPid fun _ => true
  pausedFor := 0

/-- A step of the pause system that is no reception. -/
abbrev follow {start state : PauseState} (prior : pauseSystem.Path start state)
    (action : PauseAction) (next : PauseState) (stepped : state.step action 0 = some next) :
    pauseSystem.Path start next :=
  @ActionSystem.Path.snoc _ pauseSystem _ _ prior action next ⟨0, stepped⟩

/-- A pause of five seconds, until the timer expires. -/
theorem pause_in_time_five_seconds :
    ∃ (finish : PauseState) (path : pauseSystem.Path init finish),
      path.actions = [.start, .pause, .elapse 5000, .expire] ∧
        (path.Always InTime ↔ path.StepsMeet Meets) := by
  let started := init.after init.vam.mainStart
  let paused := started.after started.vam.vsmPauseBsmBroadcast
  let waited := paused.wait 5000
  let expired := waited.after waited.vam.expirePause
  have lasts : paused.vam.timerBsmPause.lasts 5000 = true := by decide
  have due : waited.vam.timerBsmPause.due = some 0 := by decide
  let path : pauseSystem.Path init expired :=
    follow (follow (follow (follow .nil .start started rfl) .pause paused rfl)
      (.elapse 5000) waited (if_pos lasts)) .expire expired (if_pos due)
  exact ⟨expired, path, rfl, pause_in_time_iff ⟨rfl, rfl⟩ path⟩

/-- A pause whose timer expires while the broadcast is stopped goes on for ever:
after the restart it is longer than the hold time of five seconds. -/
theorem pause_outlives_restart :
    ∃ (finish : PauseState) (path : pauseSystem.Path init finish),
      path.actions = [.start, .pause, .stop, .elapse 5000, .expire, .start, .elapse 1] ∧
        finish.vam.paused = true ∧ finish.vam.timerBsmPause.due = none ∧
        finish.vam.broadcasting = true ∧ finish.vam.pauseTicks = 5000 ∧
        finish.pausedFor = 5001 ∧ ¬ path.Always InTime := by
  let started := init.after init.vam.mainStart
  let pausing := started.after started.vam.vsmPauseBsmBroadcast
  let stopped := pausing.after pausing.vam.mainStop
  let waited := stopped.wait 5000
  let expired := waited.after waited.vam.expirePause
  let restarted := expired.after expired.vam.mainStart
  let late := restarted.wait 1
  have lasts : stopped.vam.timerBsmPause.lasts 5000 = true := by decide
  have due : waited.vam.timerBsmPause.due = some 0 := by decide
  have unarmed : restarted.vam.timerBsmPause.lasts 1 = true := by decide
  let path : pauseSystem.Path init late :=
    follow (follow (follow (follow (follow (follow (follow .nil .start started rfl)
      .pause pausing rfl) .stop stopped rfl) (.elapse 5000) waited (if_pos lasts)) .expire expired
      (if_pos due)) .start restarted rfl) (.elapse 1) late (if_pos unarmed)
  have paused : late.vam.paused = true := by decide
  have never : late.vam.timerBsmPause.due = none := by decide
  refine ⟨late, path, rfl, paused, never, by decide, by decide, by decide, fun always => ?_⟩
  obtain ⟨left, armed⟩ := (always.last paused).1
  rw [never] at armed
  cases armed

end PauseState

end Rsu.Vam
