import Rsu.Vsa.AlertRun

/-!
# Whose alert it is

A received alert should start for a station that reports it, and stop when no
station that reports it is in the way any more. The callback combines the alerts
of all neighbours with the place of the station that reported last, which comes to
the same only when these stations agree.
-/

namespace Rsu.Vsa

open Rsu.Data.BitMask Rsu.Rcp Rsu.Osal Rsu.Vam

/-- The received alerts that are judged. -/
inductive JudgedAlert where
  | vbd
  | ebd
  deriving DecidableEq

namespace JudgedAlert

/-- The bit of the alert in `alert_pend`. -/
def id : JudgedAlert → VsaId
  | .vbd => .vbd
  | .ebd => .ebd

/-- The bit of the alert in the mask of a station. -/
def mask : JudgedAlert → BitVec 16
  | .vbd => vamAlertMaskVbd
  | .ebd => vamAlertMaskEbd

/-- The request about the alert. -/
def request : JudgedAlert → VsaMsgId
  | .vbd => .accRc
  | .ebd => .eeblRc

/-- The judgement of the alert. -/
def accepts : JudgedAlert → VsaConfig → VsaInfo → Bool
  | .vbd => VsaConfig.acceptsVbd
  | .ebd => VsaConfig.acceptsEbd

/-- The request to start the alert. -/
def start (alert : JudgedAlert) : VsaMsg := ⟨alert.request, 1, alert.mask.setWidth 32⟩

/-- The request to cancel the alert. -/
def cancel (alert : JudgedAlert) : VsaMsg := ⟨alert.request, 0, alert.mask.setWidth 32⟩

end JudgedAlert

namespace AlertRun

variable {run : AlertRun} {sta : VamStastatus}

/-- The neighbour in the slot reports the alert. -/
def reports (run : AlertRun) (alert : JudgedAlert) (slot : Slot) : Bool :=
  has (run.hood.table.remote slot).s.alertMask alert.mask

/-- The judgement accepts the station with the pid. -/
def accepts (run : AlertRun) (alert : JudgedAlert) (pid : TempId) : Bool :=
  run.vsa.accepted (alert.accepts run.vsa.workingParam) pid

/-- The callback starts an alert for a station that reports it itself and is accepted,
and cancels it when no neighbour that reports it is accepted. -/
def Attributed (run : AlertRun) : AlertAction → Prop
  | .alarm sta => ∀ fuel next requests,
      run.vsa.vsaReceiveAlarmUpdate run.hood.table sta fuel = some (next, requests) →
      ∀ alert : JudgedAlert,
        (alert.start ∈ requests → has sta.alertMask alert.mask ∧ run.accepts alert sta.pid) ∧
        (alert.cancel ∈ requests → ∀ slot ∈ run.hood.neighbours,
          ¬(run.reports alert slot ∧ run.accepts alert (run.hood.table.pid slot)))
  | _ => True

/-- A station that is accepted while some neighbour reports an alert that is not pending
reports it itself; and a station that is rejected while the alert is pending comes at a
time when no neighbour that reports it is accepted. -/
def Unmixed (run : AlertRun) : AlertAction → Prop
  | .alarm sta => ∀ alert : JudgedAlert,
      (run.vsa.pending alert.id = false → (∃ slot ∈ run.hood.neighbours, run.reports alert slot) →
        run.accepts alert sta.pid → has sta.alertMask alert.mask) ∧
      (run.vsa.pending alert.id → run.accepts alert sta.pid = false →
        ∀ slot ∈ run.hood.neighbours,
          ¬(run.reports alert slot ∧ run.accepts alert (run.hood.table.pid slot)))
  | _ => True

/-- The requests of the three branches do not get in each other's way. -/
theorem mem_branches (alert : JudgedAlert) (danger pending : JudgedAlert → Bool)
    (vot votPending : Bool) :
    let requests :=
      VsaEnvar.alarmRequest (danger .vbd) (pending .vbd) .accRc vamAlertMaskVbd ++
        VsaEnvar.alarmRequest (danger .ebd) (pending .ebd) .eeblRc vamAlertMaskEbd ++
        VsaEnvar.alarmRequest vot votPending .accRc vamAlertMaskVot
    (alert.start ∈ requests ↔ danger alert = true ∧ pending alert = false) ∧
      (alert.cancel ∈ requests ↔ danger alert = false ∧ pending alert = true) := by
  cases alert
  all_goals
    generalize danger .vbd = vbd, danger .ebd = ebd, pending .vbd = vbdPending,
      pending .ebd = ebdPending
    clear danger pending
    decide +revert

/-- What the callback requests about an alert: to start it when it is not pending and in
danger, to cancel it when it is pending and not in danger. -/
theorem mem_requests {fuel : Nat} {next : VsaEnvar} {requests : List VsaMsg}
    (called : run.vsa.vsaReceiveAlarmUpdate run.hood.table sta fuel = some (next, requests))
    (alert : JudgedAlert) :
    let danger := run.hood.neighbours.any (run.reports alert) && run.accepts alert sta.pid
    (alert.start ∈ requests ↔ danger = true ∧ run.vsa.pending alert.id = false) ∧
      (alert.cancel ∈ requests ↔ danger = false ∧ run.vsa.pending alert.id = true) := by
  obtain ⟨peerAlert, vbd, ebd, vot, read, vbdMade, ebdMade, votMade, rfl, -⟩ :=
    VsaEnvar.vsaReceiveAlarmUpdate_eq called
  have status := run.hood.holds.has_vamGetPeerAlertStatus read
  have judged : ∀ accepts : VsaInfo → Bool,
      ((run.vsa.vsaFindPn sta.pid).map accepts).getD false = run.vsa.accepted accepts sta.pid := by
    intro accepts
    rw [VsaEnvar.accepted]
    cases run.vsa.vsaFindPn sta.pid <;> rfl
  rw [VsaEnvar.alarmRequests_eq vbdMade, VsaEnvar.alarmRequests_eq ebdMade,
    VsaEnvar.alarmRequests_eq votMade, judged, judged, status, status, status]
  exact mem_branches alert
    (fun alert => run.hood.neighbours.any (run.reports alert) && run.accepts alert sta.pid)
    (fun alert => run.vsa.pending alert.id) _ _

/-- The callback attributes its alert exactly when the reports do not mix. -/
theorem attributed_iff {next : AlertRun} {action : AlertAction}
    (valid : run.Step action next) : run.Attributed action ↔ run.Unmixed action := by
  cases action with
  | alarm sta =>
      obtain ⟨fuel, ⟨vsa, made⟩, called, -⟩ := valid
      constructor
      · intro attributed alert
        obtain ⟨starts, cancels⟩ := attributed fuel vsa made called alert
        obtain ⟨start, cancel⟩ := mem_requests called alert
        constructor
        · intro calm reported accepted
          have danger : (run.hood.neighbours.any (run.reports alert) &&
              run.accepts alert sta.pid) = true := by
            rw [Bool.and_eq_true, List.any_eq_true]
            exact ⟨reported, accepted⟩
          exact (starts (start.2 ⟨danger, calm⟩)).1
        · intro pending rejected
          have safe : (run.hood.neighbours.any (run.reports alert) &&
              run.accepts alert sta.pid) = false := by rw [rejected, Bool.and_false]
          exact cancels (cancel.2 ⟨safe, pending⟩)
      · intro unmixed fuel vsa made called alert
        obtain ⟨starts, cancels⟩ := unmixed alert
        obtain ⟨start, cancel⟩ := mem_requests called alert
        constructor
        · intro requested
          obtain ⟨danger, calm⟩ := start.1 requested
          rw [Bool.and_eq_true, List.any_eq_true] at danger
          exact ⟨starts calm danger.1 danger.2, danger.2⟩
        · intro requested
          obtain ⟨safe, pending⟩ := cancel.1 requested
          rcases Bool.and_eq_false_iff.1 safe with silent | rejected
          · intro slot member both
            rw [List.any_eq_false] at silent
            exact silent slot member both.1
          · exact cancels pending rejected
  | _ => exact Iff.rfl

/-- In a run every alert is attributed exactly when no report mixes with another. -/
theorem alerts_attributed_iff (param : VsaConfig) {first finish : (system param).State}
    (path : (system param).Path first finish) :
    path.StepsMeet Attributed ↔ path.StepsMeet Unmixed :=
  ActionSystem.Path.stepsMeet_congr (fun valid => attributed_iff valid) path

/-- A station whose own alerts are over. -/
def recovered : VamStastatus := { VamStastatus.zero with pid := Vector.replicate rcpTempIdLen 2 }

/-- The broken-down vehicle is far behind, the other station just ahead. -/
def places (slot : Slot) : VsaInfo :=
  if slot.val = 0 then { WarningRun.farBehind with pid := brokenDown.pid }
  else { WarningRun.stoppedAhead with pid := recovered.pid }

/-- The application with both stations in its tables. -/
def between : AlertRun where
  vsa := { vsaInit WarningRun.roadParam with positionNode := places }
  hood := (Neighbourhood.reporting brokenDown).join (by
    change (List.finRange 79).map Fin.succ = _
    rw [List.finRange_succ, List.map_cons]) recovered
  sys := .create sysQueueSize
  accepted := []

/-- The end of another station's alert starts the alert of the one far behind. -/
theorem alert_started_for_another : ¬ ∀ (param : VsaConfig)
    {first finish : (system param).State} (_ : (system param).Initial first)
    (path : (system param).Path first finish), path.StepsMeet Attributed := by
  intro attributed
  have found : between.vsa.vsaFindPn recovered.pid = some (places 1) := by decide
  have called := VsaEnvar.vsaReceiveAlarmUpdate_of_found between.hood.holds found
    (Nat.lt_succ_self _)
  have reported : between.Step (.alarm recovered) _ := ⟨_, _, called, rfl⟩
  let first : AlertRun := { between with vsa := vsaInit WarningRun.roadParam }
  have placed : first.Step (.place places) between := rfl
  let path := andThen (andThen (.nil : (system WarningRun.roadParam).Path first first) _ placed)
    _ reported
  have steps := attributed WarningRun.roadParam ⟨_, rfl⟩ path
  have mixed := ((attributed_iff reported).1 steps.2 .vbd).1
  exact absurd (mixed (by decide) ⟨0, by decide, by decide⟩ (by decide)) (by decide)

end AlertRun

end Rsu.Vsa
