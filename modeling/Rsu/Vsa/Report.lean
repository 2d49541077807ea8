import Mathlib.Data.List.Chain
import Rsu.Semantics.ActionSystem
import Rsu.Vam.LocalAlert
import Rsu.Vsa.Alarm

/-!
# The report about the own emergency braking

A detection reports an alarm and restarts `timer_ebd_send`; the callback of the timer
cancels the alarm. The timer was created as an interval timer and the callback does
not stop it, so without a new detection it cancels again every five seconds.
-/

namespace Rsu.Vsa

open Rsu.Rcp Rsu.Osal Rsu.Vam

/-- `VSA_EBD_SEND_PERIOD`, in milliseconds. -/
def vsaEbdSendPeriod : Nat := 5 * 1000

/-- The alerts of the node itself, the timer, and what the system thread was sent. -/
structure EbdReport where
  vam : VamEnvar
  timerEbdSend : OsalTimer
  sent : List SysMsg

/-- What happens to the report. -/
inductive EbdAction where
  /-- `VSA_MSG_EEBL_BC` -/
  | detect
  | elapse (millisec : Nat)
  /-- The timer expires and `timer_ebd_send_callback` runs. -/
  | expire
  deriving DecidableEq

/-- The action is a detection or an expiry. -/
def EbdAction.reports : EbdAction → Bool
  | .elapse _ => false
  | _ => true

namespace SysMsg

/-- The effect of a message on the alarm about the own emergency braking. -/
def switchEbd (active : Bool) : SysMsg → Bool
  | .alarmActive .ebd => true
  | .alarmCancel .ebd => false
  | _ => active

/-- An activation was sent, and no cancel since. -/
def ebdOpen (sent : List SysMsg) : Bool := sent.foldl switchEbd false

@[simp] theorem ebdOpen_append (sent : List SysMsg) (msg : SysMsg) :
    ebdOpen (sent ++ [msg]) = switchEbd (ebdOpen sent) msg := by
  simp [ebdOpen]

/-- Every cancel closes an open activation. -/
def Closing (sent : List SysMsg) : Prop :=
  ∀ front back, sent = front ++ .alarmCancel .ebd :: back → ebdOpen front

/-- No more cancels than activations were sent, and none while no activation was open. -/
def EbdBalanced (sent : List SysMsg) : Prop :=
  sent.count (.alarmCancel .ebd) ≤ sent.count (.alarmActive .ebd) ∧ Closing sent

/-- The last message closes an open activation, if it is a cancel. -/
theorem closing_append (sent : List SysMsg) (msg : SysMsg) :
    Closing (sent ++ [msg]) ↔ Closing sent ∧ (msg = .alarmCancel .ebd → ebdOpen sent) := by
  constructor
  · intro closing
    refine ⟨fun front back split => closing front (back ++ [msg]) ?_, ?_⟩
    · rw [split, List.append_assoc, List.cons_append]
    · rintro rfl
      exact closing sent [] rfl
  · rintro ⟨earlier, last⟩ front back split
    rcases List.eq_nil_or_concat back with rfl | ⟨middle, final, rfl⟩
    · obtain ⟨rfl, same⟩ := List.append_inj' split rfl
      exact last (List.singleton_inj.1 same)
    · rw [List.concat_eq_append, ← List.cons_append, ← List.append_assoc] at split
      exact earlier front middle (List.append_inj' split rfl).1

/-- Cancels that close an activation each are not more than the activations, not
counting one that is still open. -/
theorem count_of_closing {sent : List SysMsg} (closing : Closing sent) :
    sent.count (.alarmCancel .ebd) + (ebdOpen sent).toNat ≤ sent.count (.alarmActive .ebd) := by
  induction sent using List.reverseRecOn with
  | nil => simp [ebdOpen]
  | append_singleton sent msg inductionHypothesis =>
      obtain ⟨earlier, last⟩ := (closing_append sent msg).1 closing
      have counted := inductionHypothesis earlier
      rw [ebdOpen_append, List.count_append, List.count_append]
      by_cases cancels : msg = .alarmCancel .ebd
      · subst cancels
        rw [last rfl] at counted
        simpa [switchEbd] using counted
      · by_cases activates : msg = .alarmActive .ebd
        · subst activates
          simp [switchEbd]
          omega
        · have same : switchEbd (ebdOpen sent) msg = ebdOpen sent := by
            unfold switchEbd
            grind
          simpa [same, List.count_singleton, cancels, activates] using counted

/-- The balance is kept by a message exactly if a cancel closes an open activation. -/
theorem ebdBalanced_iff (sent : List SysMsg) : EbdBalanced sent ↔ Closing sent := by
  constructor
  · exact fun balanced => balanced.2
  · intro closing
    have counted := count_of_closing closing
    exact ⟨by omega, closing⟩

end SysMsg

namespace EbdReport

/-- `sys_add_event_queue` -/
def sysAddEventQueue (report : EbdReport) (msg : SysMsg) : EbdReport :=
  { report with sent := report.sent ++ [msg] }

/-- `vsa_eebl_broadcast_proc` -/
def vsaEeblBroadcastProc (report : EbdReport) : EbdReport :=
  sysAddEventQueue
    { report with
      vam := report.vam.vamActiveAlert vamAlertMaskEbd
      timerEbdSend := report.timerEbdSend.stop.start }
    (.alarmActive .ebd)

/-- `timer_ebd_send_callback` -/
def timerEbdSendCallback (report : EbdReport) : EbdReport :=
  sysAddEventQueue { report with vam := report.vam.vamCancelAlert vamAlertMaskEbd }
    (.alarmCancel .ebd)

/-- The messages of a detection are those of the handler of the thread. -/
theorem vsaEeblBroadcastProc_sent (report : EbdReport) (vsa : VsaEnvar) (msg : VsaMsg) :
    report.vsaEeblBroadcastProc.sent = report.sent ++ (vsa.vsaEeblBroadcastProc msg).2 := rfl

/-- Time passes. -/
def wait (report : EbdReport) (millisec : Nat) : EbdReport :=
  { report with timerEbdSend := report.timerEbdSend.elapse millisec }

/-- The thread of the timers takes the timer that is due, and calls back. -/
def expire (report : EbdReport) : EbdReport :=
  timerEbdSendCallback { report with timerEbdSend := report.timerEbdSend.expire }

/-- One step. An expiry needs a timer that is due, and time stops there. -/
def step (report : EbdReport) : EbdAction → Option EbdReport
  | .detect => some report.vsaEeblBroadcastProc
  | .elapse millisec =>
      if report.timerEbdSend.lasts millisec then some (report.wait millisec) else none
  | .expire => if report.timerEbdSend.due = some 0 then some report.expire else none

/-- The state after `vsa_init`. -/
def init (vam : VamEnvar) : EbdReport where
  vam := vam
  timerEbdSend := .create .interval vsaEbdSendPeriod (by decide)
  sent := []

end EbdReport

/-- Detections and expiries in any order the timer allows. -/
def ebdSystem : ActionSystem EbdAction where
  State := EbdReport
  Initial report := ∃ vam, report = .init vam
  Step report action next := report.step action = some next

namespace EbdReport

open ActionSystem

variable {start finish : ebdSystem.State}

/-- The detections and expiries of a run, oldest first. -/
def events (path : ebdSystem.Path start finish) : List EbdAction :=
  path.actions.filter EbdAction.reports

/-- The events of a run with one more step. -/
theorem events_snoc {report : ebdSystem.State} (prior : ebdSystem.Path start report)
    (action : EbdAction) (next : ebdSystem.State) (valid : ebdSystem.Step report action next) :
    events (prior.snoc action next valid) = events prior ++ [action].filter EbdAction.reports :=
  List.filter_append ..

/-- The alarm is open after a detection, and the timer stands still before the first. -/
structure Follows (report : EbdReport) (events : List EbdAction) : Prop where
  unarmed : events = [] → report.timerEbdSend.due = none
  opened : SysMsg.ebdOpen report.sent = decide (events.getLast? = some .detect)

/-- A step keeps following the events. -/
theorem Follows.step {report next : EbdReport} {events : List EbdAction} {action : EbdAction}
    (follows : report.Follows events) (taken : report.step action = some next) :
    next.Follows (events ++ [action].filter EbdAction.reports) := by
  cases action with
  | detect =>
      obtain rfl := Option.some.inj taken
      refine ⟨fun none => absurd none (List.concat_ne_nil _ _), ?_⟩
      simp [vsaEeblBroadcastProc, sysAddEventQueue, SysMsg.switchEbd, EbdAction.reports]
  | elapse millisec =>
      simp only [EbdReport.step, Option.ite_none_right_eq_some, Option.some.injEq] at taken
      obtain ⟨-, rfl⟩ := taken
      have silent : [EbdAction.elapse millisec].filter EbdAction.reports = [] := rfl
      rw [silent, List.append_nil]
      refine ⟨fun none => ?_, follows.opened⟩
      simp [wait, follows.unarmed none]
  | expire =>
      simp only [EbdReport.step, Option.ite_none_right_eq_some, Option.some.injEq] at taken
      obtain ⟨-, rfl⟩ := taken
      refine ⟨fun none => absurd none (List.concat_ne_nil _ _), ?_⟩
      simp [expire, timerEbdSendCallback, sysAddEventQueue, SysMsg.switchEbd, EbdAction.reports]

/-- The alarm follows the events of a run. -/
theorem follows_events (initial : ebdSystem.Initial start) (path : ebdSystem.Path start finish) :
    Follows finish (events path) := by
  induction path with
  | nil =>
      obtain ⟨vam, rfl⟩ := initial
      exact ⟨fun _ => rfl, rfl⟩
  | snoc prior action next valid inductionHypothesis =>
      rw [events_snoc]
      exact inductionHypothesis.step valid

/-- A step keeps the balance exactly if it does not cancel a closed alarm. -/
theorem balanced_step {report next : EbdReport} {action : EbdAction}
    (balanced : SysMsg.EbdBalanced report.sent) (taken : report.step action = some next) :
    SysMsg.EbdBalanced next.sent ↔ (action = .expire → SysMsg.ebdOpen report.sent) := by
  rw [SysMsg.ebdBalanced_iff] at balanced ⊢
  cases action with
  | detect =>
      obtain rfl := Option.some.inj taken
      simp [vsaEeblBroadcastProc, sysAddEventQueue, SysMsg.closing_append, balanced]
  | elapse millisec =>
      simp only [EbdReport.step, Option.ite_none_right_eq_some, Option.some.injEq] at taken
      obtain ⟨-, rfl⟩ := taken
      simpa [wait] using balanced
  | expire =>
      simp only [EbdReport.step, Option.ite_none_right_eq_some, Option.some.injEq] at taken
      obtain ⟨-, rfl⟩ := taken
      simp [expire, timerEbdSendCallback, sysAddEventQueue, SysMsg.closing_append, balanced]

/-- No expiry cancels a closed alarm, exactly if no two expiries follow each other. -/
theorem stepsMeet_iff (initial : ebdSystem.Initial start) (path : ebdSystem.Path start finish) :
    path.StepsMeet (fun report action => action = .expire → SysMsg.ebdOpen (EbdReport.sent report)) ↔
      (events path).IsChain fun first second => ¬ (first = .expire ∧ second = .expire) := by
  induction path with
  | nil => simp [Path.StepsMeet, events, Path.actions]
  | @snoc report prior action next valid inductionHypothesis =>
      rw [Path.StepsMeet, inductionHypothesis, events_snoc, List.isChain_append]
      refine and_congr_right fun _ => ?_
      cases action with
      | detect =>
          have shown : [EbdAction.detect].filter EbdAction.reports = [.detect] := rfl
          simp [shown]
      | elapse millisec =>
          have silent : [EbdAction.elapse millisec].filter EbdAction.reports = [] := rfl
          simp [silent]
      | expire =>
          have shown : [EbdAction.expire].filter EbdAction.reports = [.expire] := rfl
          have follows := follows_events initial prior
          have due : (EbdReport.timerEbdSend report).due = some 0 :=
            (Option.ite_none_right_eq_some.1 valid).1
          have running : events prior ≠ [] := fun none => by
            rw [follows.unarmed none] at due
            exact absurd due (Option.some_ne_none 0).symm
          have latest := List.getLast?_eq_getLast_of_ne_nil running
          have reported := (List.mem_filter.1 (List.getLast_mem running)).2
          rw [shown, follows.opened, latest]
          cases last : (events prior).getLast running with
          | detect => simp
          | elapse millisec =>
              have silent : EbdAction.reports (.elapse millisec) = true := last ▸ reported
              exact absurd silent Bool.false_ne_true
          | expire => simp

/-- A run is balanced exactly if the timer never expires twice without a detection in
between. -/
theorem balanced_iff (initial : ebdSystem.Initial start) (path : ebdSystem.Path start finish) :
    path.Always (fun report => SysMsg.EbdBalanced (EbdReport.sent report)) ↔
      (events path).IsChain fun first second => ¬ (first = .expire ∧ second = .expire) := by
  have begins : SysMsg.EbdBalanced (EbdReport.sent start) := by
    obtain ⟨vam, rfl⟩ := initial
    exact ⟨le_rfl, fun front back split => absurd split.symm (by simp [init])⟩
  rw [← stepsMeet_iff initial path]
  refine @Path.always_iff_stepsMeet _ ebdSystem start finish (fun _ => True) _ _ trivial begins
    ?_ ?_ path
  · exact fun _ _ _ _ => trivial
  · exact fun _ balanced taken => balanced_step balanced taken

/-- A vehicle that has just started. -/
def parked : EbdReport := init (vamInit ⟨id, id⟩ loadDefaultParam loadDefaultPid fun _ => true)

/-- It brakes hard, and five seconds later the alarm is cancelled. -/
def braked : EbdReport := (parked.vsaEeblBroadcastProc.wait 5000).expire

/-- The run of a single emergency braking. -/
def braking : ebdSystem.Path parked braked :=
  let detected := @Path.snoc _ ebdSystem _ _ .nil .detect parked.vsaEeblBroadcastProc rfl
  let waited := @Path.snoc _ ebdSystem _ _ detected (.elapse 5000) _ rfl
  @Path.snoc _ ebdSystem _ _ waited .expire _ rfl

/-- The run of a single emergency braking is balanced. -/
theorem braking_balanced : braking.Always fun report => SysMsg.EbdBalanced (EbdReport.sent report) :=
  (balanced_iff ⟨_, rfl⟩ braking).2 (by decide)

/-- Another five seconds later the alarm, which is not open any more, is cancelled again. -/
theorem cancelled_twice :
    ∃ path : ebdSystem.Path parked (braked.wait 5000).expire,
      path.actions = [.detect, .elapse 5000, .expire, .elapse 5000, .expire] ∧
      (braked.wait 5000).expire.sent.count (.alarmActive .ebd) = 1 ∧
      (braked.wait 5000).expire.sent.count (.alarmCancel .ebd) = 2 ∧
      ¬ path.Always fun report => SysMsg.EbdBalanced (EbdReport.sent report) := by
  let waited := @Path.snoc _ ebdSystem _ _ braking (.elapse 5000) _ rfl
  refine ⟨@Path.snoc _ ebdSystem _ _ waited .expire _ rfl, rfl, rfl, rfl, fun always => ?_⟩
  have more : (braked.wait 5000).expire.sent.count (.alarmCancel .ebd) ≤
    (braked.wait 5000).expire.sent.count (.alarmActive .ebd) := always.last.1
  exact absurd more (by decide)

end EbdReport

end Rsu.Vsa
