import Rsu.Semantics.ActionSystem
import Rsu.Vam.Forgery

/-!
# The tail of an alert

After the last alert is cancelled the next basic safety messages still announce
it, and `timer_send_bsm_callback` counts them. The count is a variable of the
callback: it is only set again at a callback that sees an alert, and after a
tail it has wrapped. So the tail has its length exactly when the count is full
at the moment the last alert is cancelled.
-/

namespace Rsu.Vam

open Rsu.Data.BitMask Rsu.Rcp

/-- What the application and the broadcast timer do about the alerts of a vehicle. -/
inductive TailAction where
  | activeAlert (alert : BitVec 16)
  | cancelAlert (alert : BitVec 16)
  /-- `timer_send_bsm_callback` -/
  | bsmTimer

/-- A callback of the broadcast timer. -/
def TailAction.isTimer : TailAction → Bool
  | .bsmTimer => true
  | _ => false

/-- How often the broadcast timer runs. -/
def callbacks (actions : List TailAction) : Nat := actions.countP TailAction.isTimer

namespace VamEnvar

/-- One action. -/
def tailStep (vam : VamEnvar) : TailAction → VamEnvar
  | .activeAlert alert => vam.vamActiveAlert alert
  | .cancelAlert alert => vam.vamCancelAlert alert
  | .bsmTimer => vam.timerSendBsmCallback

/-- `VAM_FLAG_TX_BSM_ALERT` is set: a basic safety message carries its events. -/
def announcing (vam : VamEnvar) : Bool := has vam.flag vamFlagTxBsmAlert

/-- The alert mask is 0 and stays 0. -/
def Quiet (vam : VamEnvar) : List TailAction → Prop
  | [] => vam.localSta.alertMask = 0
  | action :: actions => vam.localSta.alertMask = 0 ∧ (vam.tailStep action).Quiet actions

/-- As long as the mask stays 0, the cancellation is announced for
`VAM_NO_ALERT_EVAM_TX_TIMES` callbacks, and the next one ends it. -/
def Announces (vam : VamEnvar) : Prop :=
  ∀ actions, vam.Quiet actions →
    (callbacks actions ≤ vamNoAlertEvamTxTimes.toNat →
      (actions.foldl tailStep vam).announcing = true) ∧
    (callbacks actions = vamNoAlertEvamTxTimes.toNat →
      (actions.foldl tailStep vam).timerSendBsmCallback.announcing = false)

/-- The action takes the last alert out of the mask. -/
def EndsAlert (vam : VamEnvar) (action : TailAction) : Prop :=
  vam.localSta.alertMask ≠ 0 ∧ (vam.tailStep action).localSta.alertMask = 0

/-- An alert in the mask is announced. -/
def Alerting (vam : VamEnvar) : Prop := vam.localSta.alertMask ≠ 0 → vam.announcing = true

variable {vam : VamEnvar} {action : TailAction} {actions : List TailAction}

/-- A quiet node has no alert. -/
theorem Quiet.mask (quiet : vam.Quiet actions) : vam.localSta.alertMask = 0 := by
  cases actions with
  | nil => exact quiet
  | cons action actions => exact quiet.1

/-- A callback during the tail. -/
theorem timerSendBsmCallback_tail (calm : vam.localSta.alertMask = 0)
    (announcing : vam.announcing = true) :
    vam.timerSendBsmCallback.announcing = !decide (vam.bsmAlertCount = 0) ∧
      vam.timerSendBsmCallback.bsmAlertCount = vam.bsmAlertCount - 1 := by
  obtain ⟨-, flag, count⟩ := vam.timerSendBsmCallback_alerts
  rw [VamEnvar.announcing] at announcing ⊢
  rw [flag, count, if_pos announcing, if_pos calm]
  refine ⟨?_, rfl⟩
  by_cases used : vam.bsmAlertCount = 0
  · rw [if_pos ⟨announcing, calm, used⟩, has_clear, has_clear_self, decide_eq_true used]
    rfl
  · rw [if_neg fun ends => used ends.2.2, announcing, decide_eq_false used]
    rfl

/-- A callback leaves the alerts as they are. -/
theorem tailStep_bsmTimer_mask (vam : VamEnvar) :
    (vam.tailStep .bsmTimer).localSta.alertMask = vam.localSta.alertMask :=
  congrArg (·.alertMask) vam.timerSendBsmCallback_alerts.1

/-- One action of the tail uses up at most one of its callbacks. -/
theorem tailStep_counts (calm : vam.localSta.alertMask = 0) (announcing : vam.announcing = true)
    (enough : callbacks [action] ≤ vam.bsmAlertCount.toNat) :
    (vam.tailStep action).announcing = true ∧
      (vam.tailStep action).bsmAlertCount.toNat + callbacks [action] = vam.bsmAlertCount.toNat := by
  cases action with
  | activeAlert alert =>
      refine ⟨?_, rfl⟩
      show has (set vam.flag vamFlagTxBsmAlert) vamFlagTxBsmAlert = true
      rw [has_set, Bool.or_eq_true]
      exact .inl announcing
  | cancelAlert alert => exact ⟨announcing, rfl⟩
  | bsmTimer =>
      have one : callbacks [.bsmTimer] = 1 := rfl
      rw [one] at enough ⊢
      obtain ⟨flag, count⟩ := vam.timerSendBsmCallback_tail calm announcing
      have left : vam.bsmAlertCount ≠ 0 := by
        rintro used
        simp [used] at enough
      refine ⟨?_, ?_⟩
      · exact flag.trans (by rw [decide_eq_false left]; rfl)
      · show vam.timerSendBsmCallback.bsmAlertCount.toNat + 1 = vam.bsmAlertCount.toNat
        rw [count]
        bv_omega

/-- A quiet run counts its callbacks down. -/
theorem run_counts (announcing : vam.announcing = true) (quiet : vam.Quiet actions)
    (enough : callbacks actions ≤ vam.bsmAlertCount.toNat) :
    (actions.foldl tailStep vam).localSta.alertMask = 0 ∧
      (actions.foldl tailStep vam).announcing = true ∧
      (actions.foldl tailStep vam).bsmAlertCount.toNat + callbacks actions =
        vam.bsmAlertCount.toNat := by
  induction actions generalizing vam with
  | nil => exact ⟨quiet, announcing, rfl⟩
  | cons action actions inductionHypothesis =>
      have split : callbacks ([action] ++ actions) = callbacks [action] + callbacks actions :=
        List.countP_append
      rw [List.singleton_append] at split
      rw [split] at enough ⊢
      have first : callbacks [action] ≤ vam.bsmAlertCount.toNat := by omega
      obtain ⟨still, counted⟩ := tailStep_counts quiet.1 announcing first
      obtain ⟨calm, last, rest⟩ := inductionHypothesis still quiet.2 (by omega)
      exact ⟨calm, last, by rw [List.foldl_cons]; omega⟩

/-- Once the count is used up the next callback ends the tail. -/
theorem run_ends (announcing : vam.announcing = true) (quiet : vam.Quiet actions)
    (all : callbacks actions = vam.bsmAlertCount.toNat) :
    (actions.foldl tailStep vam).timerSendBsmCallback.announcing = false := by
  obtain ⟨calm, still, counted⟩ := run_counts announcing quiet all.le
  have used : (actions.foldl tailStep vam).bsmAlertCount = 0 := by
    apply BitVec.eq_of_toNat_eq
    rw [all] at counted
    simpa using counted
  rw [(timerSendBsmCallback_tail calm still).1, decide_eq_true used]
  rfl

/-- Callbacks alone leave the node quiet. -/
theorem quiet_replicate (times : Nat) (calm : vam.localSta.alertMask = 0) :
    vam.Quiet (List.replicate times .bsmTimer) := by
  induction times generalizing vam with
  | zero => exact calm
  | succ times inductionHypothesis =>
      exact ⟨calm, inductionHypothesis (vam.tailStep_bsmTimer_mask.trans calm)⟩

@[simp] theorem callbacks_replicate (times : Nat) :
    callbacks (List.replicate times .bsmTimer) = times := by
  simp [callbacks, TailAction.isTimer, List.countP_replicate]

/-- The tail has its length exactly when the count is full at its start. -/
theorem announces_iff (announcing : vam.announcing = true) (calm : vam.localSta.alertMask = 0) :
    vam.Announces ↔ vam.bsmAlertCount = vamNoAlertEvamTxTimes := by
  constructor
  · intro announces
    by_contra other
    have different : vam.bsmAlertCount.toNat ≠ vamNoAlertEvamTxTimes.toNat :=
      fun same => other (BitVec.eq_of_toNat_eq same)
    rcases Nat.lt_or_gt_of_ne different with short | long
    · -- the callback after the last counted one ends the tail too early
      let actions := List.replicate vam.bsmAlertCount.toNat TailAction.bsmTimer
      have quiet : vam.Quiet actions := quiet_replicate _ calm
      have ended := run_ends announcing quiet (callbacks_replicate _)
      have next := (announces (actions ++ [.bsmTimer]) ?_).1 ?_
      · rw [List.foldl_append] at next
        exact absurd (next.symm.trans ended) (by decide)
      · show vam.Quiet (List.replicate _ _ ++ [.bsmTimer])
        rw [← List.replicate_succ']
        exact quiet_replicate _ calm
      · show callbacks (List.replicate _ _ ++ [.bsmTimer]) ≤ _
        rw [← List.replicate_succ', callbacks_replicate]
        exact short
    · -- the callback that should end the tail still finds a count
      let actions := List.replicate vamNoAlertEvamTxTimes.toNat TailAction.bsmTimer
      have quiet : vam.Quiet actions := quiet_replicate _ calm
      obtain ⟨still, flag, counted⟩ :=
        run_counts announcing quiet ((callbacks_replicate _).le.trans long.le)
      have ended := (announces actions quiet).2 (callbacks_replicate _)
      rw [(timerSendBsmCallback_tail still flag).1] at ended
      have used : (actions.foldl tailStep vam).bsmAlertCount = 0 := by simpa using ended
      rw [used, callbacks_replicate] at counted
      exact different (by simpa using counted.symm)
  · intro full actions quiet
    refine ⟨fun few => ?_, fun all => ?_⟩
    · rw [← full] at few
      exact (run_counts announcing quiet few).2.1
    · rw [← full] at all
      exact run_ends announcing quiet all

/-- Only `vam_cancel_alert` ends an alert. -/
theorem EndsAlert.cancels (ends : vam.EndsAlert action) : ∃ alert, action = .cancelAlert alert := by
  obtain ⟨some, none⟩ := ends
  cases action with
  | activeAlert alert =>
      refine absurd (show vam.localSta.alertMask = 0 from ?_) some
      have both : vam.localSta.alertMask ||| alert = 0 := none
      exact (BitVec.or_eq_zero_iff.1 both).1
  | cancelAlert alert => exact ⟨alert, rfl⟩
  | bsmTimer => exact absurd (vam.tailStep_bsmTimer_mask.symm.trans none) some

/-- What is in the mask is announced. -/
theorem Alerting.tailStep (alerting : vam.Alerting) : (vam.tailStep action).Alerting := by
  intro alert
  cases action with
  | activeAlert alert =>
      show has (set vam.flag vamFlagTxBsmAlert) vamFlagTxBsmAlert = true
      rw [has_set, Bool.or_eq_true]
      exact .inr rfl
  | cancelAlert cancelled =>
      refine alerting fun none => alert ?_
      show clear vam.localSta.alertMask cancelled = 0
      rw [none]
      exact BitVec.zero_and
  | bsmTimer =>
      rw [vam.tailStep_bsmTimer_mask] at alert
      show has vam.timerSendBsmCallback.flag vamFlagTxBsmAlert = true
      rw [vam.timerSendBsmCallback_alerts.2.1, if_neg fun ends => alert ends.2.1]
      exact alerting alert

end VamEnvar

/-- The alerts of a vehicle and its broadcast timer in any order. -/
def tailSystem : ActionSystem TailAction :=
  .ofFunction (fun vam => vam.localSta.alertMask = 0) VamEnvar.tailStep

/-- Every cancellation of the last alert is announced as often as it should be,
exactly when the count is full each time: a callback has run during the alert, or
the count was not used since it was full. -/
theorem alert_tails_iff {start finish : VamEnvar} (initial : tailSystem.Initial start)
    (path : tailSystem.Path start finish) :
    (path.StepsMeet fun (vam : VamEnvar) action =>
        vam.EndsAlert action → (vam.tailStep action).Announces) ↔
      path.StepsMeet fun (vam : VamEnvar) action =>
        vam.EndsAlert action → vam.bsmAlertCount = vamNoAlertEvamTxTimes := by
  have calm : start.localSta.alertMask = 0 := initial
  have first : start.Alerting := fun alert => absurd calm alert
  refine ActionSystem.Path.stepsMeet_congr_of_invariant first ?_ ?_ path
  · rintro vam action next alerting rfl
    exact alerting.tailStep
  · intro vam action next alerting _
    refine imp_congr_right fun ends => ?_
    obtain ⟨alert, rfl⟩ := ends.cancels
    exact VamEnvar.announces_iff (alerting ends.1) ends.2

/-- The alert of a vehicle that brakes once and is announced to its end. -/
def firstAlert : List TailAction :=
  [.activeAlert vamAlertMaskEbd, .bsmTimer, .cancelAlert vamAlertMaskEbd] ++
    List.replicate (vamNoAlertEvamTxTimes.toNat + 1) .bsmTimer

/-- A vehicle after `vam_init`. -/
def quietNode : VamEnvar := vamInit ⟨id, id⟩ loadDefaultParam loadDefaultPid fun _ => true

/-- The first alert is announced as it should be. -/
theorem first_alert_announced :
    ∃ finish, ∃ path : tailSystem.Path quietNode finish,
      (path.StepsMeet fun (vam : VamEnvar) action =>
        vam.EndsAlert action → vam.bsmAlertCount = vamNoAlertEvamTxTimes) ∧
      path.StepsMeet fun (vam : VamEnvar) action =>
        vam.EndsAlert action → (vam.tailStep action).Announces := by
  let alerting := quietNode.vamActiveAlert vamAlertMaskEbd
  let seen := alerting.timerSendBsmCallback
  let cancelled := seen.vamCancelAlert vamAlertMaskEbd
  let active : tailSystem.Path quietNode alerting :=
    @ActionSystem.Path.snoc _ tailSystem _ _ .nil (.activeAlert vamAlertMaskEbd) alerting rfl
  let timer : tailSystem.Path quietNode seen :=
    @ActionSystem.Path.snoc _ tailSystem _ _ active .bsmTimer seen rfl
  let path : tailSystem.Path quietNode cancelled :=
    @ActionSystem.Path.snoc _ tailSystem _ _ timer (.cancelAlert vamAlertMaskEbd) cancelled rfl
  have full : seen.bsmAlertCount = vamNoAlertEvamTxTimes := by decide
  have met : path.StepsMeet fun (vam : VamEnvar) action =>
      vam.EndsAlert action → vam.bsmAlertCount = vamNoAlertEvamTxTimes :=
    ⟨⟨⟨trivial, fun _ => rfl⟩, fun _ => rfl⟩, fun _ => full⟩
  have calm : tailSystem.Initial quietNode := rfl
  exact ⟨cancelled, path, met, (alert_tails_iff calm path).2 met⟩

/-- After a full tail the count has wrapped. An alert that is activated and
cancelled between two callbacks is then announced for 255 of them. -/
theorem short_alert_announced_too_long :
    ∃ before finish, ∃ path : tailSystem.Path quietNode finish,
      before = (firstAlert.foldl VamEnvar.tailStep quietNode).vamActiveAlert vamAlertMaskVbd ∧
        finish = before.vamCancelAlert vamAlertMaskVbd ∧
        before.EndsAlert (.cancelAlert vamAlertMaskVbd) ∧ finish.bsmAlertCount = 255 ∧
        ¬ path.StepsMeet fun (vam : VamEnvar) action =>
          vam.EndsAlert action → (vam.tailStep action).Announces := by
  let calmed := firstAlert.foldl VamEnvar.tailStep quietNode
  let before := calmed.vamActiveAlert vamAlertMaskVbd
  let finish := before.vamCancelAlert vamAlertMaskVbd
  obtain ⟨first⟩ : Nonempty (tailSystem.Path quietNode calmed) :=
    ActionSystem.Path.exists_path firstAlert rfl
  let prior : tailSystem.Path quietNode before :=
    @ActionSystem.Path.snoc _ tailSystem _ _ first (.activeAlert vamAlertMaskVbd) before rfl
  let path : tailSystem.Path quietNode finish :=
    @ActionSystem.Path.snoc _ tailSystem _ _ prior (.cancelAlert vamAlertMaskVbd) finish rfl
  have ends : before.EndsAlert (.cancelAlert vamAlertMaskVbd) := by
    refine ⟨?_, ?_⟩ <;> decide +kernel
  have flag : finish.announcing = true := by decide +kernel
  have calm : finish.localSta.alertMask = 0 := by decide +kernel
  have wrapped : finish.bsmAlertCount = 255 := by decide +kernel
  refine ⟨before, finish, path, rfl, rfl, ends, wrapped, fun sound => ?_⟩
  have full := (VamEnvar.announces_iff flag calm).1 (sound.2 ends)
  rw [wrapped] at full
  exact absurd full (by decide)

end Rsu.Vam
