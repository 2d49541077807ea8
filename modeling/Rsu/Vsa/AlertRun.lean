import Rsu.Vam.Neighbours
import Rsu.Vsa.Alarm
import Rsu.Vsa.WarningRun

/-!
# Starts and stops of alerts

The callback tests the bit of an alert, the thread of the application sets it when
it gets to the request, and neither looks at what became of the message. The
messages the system thread gets alternate as long as every request finds the bit
as the callback found it and every message finds room.
-/

namespace Rsu.Vsa

open Rsu.Data.BitMask Rsu.Rcp Rsu.Osal Rsu.Vam

namespace SysMsg

/-- The message that starts or stops an alert. -/
def alert (id : VsaId) (start : Bool) : SysMsg := if start then .startAlert id else .stopAlert id

/-- The message neither starts nor stops an alert. -/
def Neutral (msg : SysMsg) : Prop := ∀ id start, msg ≠ alert id start

/-- A start or stop of an alert never comes twice in a row, and the first is a start. -/
def Alternating (sent : List SysMsg) (id : VsaId) : Prop :=
  ∀ front start back, sent = front ++ alert id start :: back → alerting front id ≠ start

@[simp] theorem alert_inj {id other : VsaId} {start begun : Bool} :
    alert id start = alert other begun ↔ id = other ∧ start = begun := by
  cases start <;> cases begun <;> simp [alert]

@[simp] theorem switch_alert (id other : VsaId) (start on : Bool) :
    switch other on (alert id start) = if id = other then start else on := by
  by_cases same : id = other <;> cases start <;> simp [switch, alert, same]

/-- A neutral message switches nothing. -/
theorem Neutral.switch {msg : SysMsg} (neutral : msg.Neutral) (id : VsaId) (on : Bool) :
    switch id on msg = on := by
  cases msg with
  | startAlert started => exact absurd rfl (neutral started true)
  | stopAlert stopped => exact absurd rfl (neutral stopped false)
  | _ => rfl

/-- One more message keeps the order when it is not the last one of its alert again. -/
theorem alternating_append {sent : List SysMsg} {msg : SysMsg} {id : VsaId} :
    Alternating (sent ++ [msg]) id ↔
      Alternating sent id ∧ ∀ start, msg = alert id start → alerting sent id ≠ start := by
  constructor
  · intro ordered
    refine ⟨fun front start back split => ?_, fun start same => ?_⟩
    · exact ordered front start (back ++ [msg]) (by simp [split])
    · exact ordered sent start [] (by rw [same])
  · rintro ⟨earlier, last⟩ front start back split
    rcases List.eq_nil_or_concat back with rfl | ⟨init, final, rfl⟩
    · obtain ⟨rfl, same⟩ := List.append_inj' split rfl
      exact last start (List.head_eq_of_cons_eq same)
    · have shorter : sent ++ [msg] = (front ++ alert id start :: init) ++ [final] := by
        simpa using split
      exact earlier front start init (List.append_inj' shorter rfl).1

end SysMsg

/-- The alert and the state a request asks for. -/
def VsaMsg.about (msg : VsaMsg) : Option (VsaId × Bool) :=
  match msg.id with
  | .accRc =>
      if msg.argc = vamAlertMaskVbd.setWidth 32 then some (.vbd, decide (msg.len ≠ 0)) else none
  | .eeblRc =>
      if msg.argc = vamAlertMaskEbd.setWidth 32 then some (.ebd, decide (msg.len ≠ 0)) else none
  | _ => none

namespace VsaEnvar

/-- The alert that is about to change when the loop body gets to a neighbour. -/
def warnDue (vsa : VsaEnvar) (node : VsaInfo) : Option (VsaId × Bool) :=
  match vsa.crdList.find? fun pos => pos.pid = node.pid with
  | none => none
  | some pos =>
      if vsa.workingParam.classify node = .none then
        if pos.ccwCnt = 0 ∧ vsa.pending pos.ccwId ∧
            ¬(vsa.crdList.eraseP fun pos => pos.pid = node.pid).any fun other =>
              other.ccwId = pos.ccwId then
          some (pos.ccwId, false)
        else none
      else if vsa.workingParam.classify node = pos.ccwId ∧ has vsa.alertMask pos.ccwId.bit ∧
          ccwDebounce ≤ pos.ccwCnt ∧ ¬vsa.pending pos.ccwId then
        some (pos.ccwId, true)
      else none

/-- What is done about an alert that is due: its bit and its message. -/
def Switches (vsa : VsaEnvar) (due : Option (VsaId × Bool)) (result : VsaEnvar × List SysMsg) :
    Prop :=
  match due with
  | some (id, start) =>
      (∀ other, result.1.pending other = if id = other then start else vsa.pending other) ∧
        result.2 = [.alert id start]
  | none =>
      (∀ other, result.1.pending other = vsa.pending other) ∧
        (result.2 = [] ∨ ∃ msg : SysMsg, msg.Neutral ∧ result.2 = [msg])

/-- Leaving the bits alone without a message. -/
theorem switches_none {vsa next : VsaEnvar} (same : next.alertPend = vsa.alertPend) :
    vsa.Switches none (next, []) :=
  ⟨fun other => by rw [pending, pending, same], .inl rfl⟩

/-- Setting a bit with the message. -/
theorem switches_pend {vsa next : VsaEnvar} (same : next.alertPend = vsa.alertPend) (id : VsaId) :
    vsa.Switches (some (id, true)) (next.pend id, [.startAlert id]) := by
  refine ⟨fun other => ?_, rfl⟩
  have before : next.pending other = vsa.pending other := by rw [pending, pending, same]
  by_cases mine : id = other <;> simp [before, mine]

/-- Clearing a bit with the message. -/
theorem switches_unpend {vsa next : VsaEnvar} (same : next.alertPend = vsa.alertPend) (id : VsaId) :
    vsa.Switches (some (id, false)) (next.unpend id, [.stopAlert id]) := by
  refine ⟨fun other => ?_, rfl⟩
  have before : next.pending other = vsa.pending other := by rw [pending, pending, same]
  by_cases mine : id = other <;> simp [before, mine]

/-- A safe neighbour switches what is due. -/
theorem switches_ccwDelList {vsa : VsaEnvar} {node : VsaInfo}
    (safe : vsa.workingParam.classify node = .none) :
    vsa.Switches (vsa.warnDue node) (vsa.ccwDelList node) := by
  rw [warnDue, ccwDelList]
  cases vsa.crdList.find? fun pos => pos.pid = node.pid with
  | none => exact switches_none rfl
  | some pos =>
      simp only [if_pos safe]
      by_cases positive : 0 < pos.ccwCnt
      · rw [if_pos positive, if_neg fun due => absurd due.1 (by omega)]
        exact switches_none rfl
      · rw [if_neg positive, vsaCancelCcwWarning]
        have ended : pos.ccwCnt = 0 := by omega
        by_cases due : vsa.pending pos.ccwId ∧
            ¬(vsa.crdList.eraseP fun pos => pos.pid = node.pid).any fun other =>
              other.ccwId = pos.ccwId
        · rw [if_pos ⟨ended, due⟩, if_pos (by simpa [vsaSearchWarning, pending] using due)]
          exact switches_unpend rfl pos.ccwId
        · rw [if_neg fun all => due all.2, if_neg (by simpa [vsaSearchWarning, pending] using due)]
          exact switches_none rfl

/-- A neighbour in danger switches what is due. -/
theorem switches_ccwAddList {vsa : VsaEnvar} {node : VsaInfo}
    (danger : vsa.workingParam.classify node ≠ .none) :
    vsa.Switches (vsa.warnDue node) (vsa.ccwAddList (vsa.workingParam.classify node) node) := by
  rw [warnDue, ccwAddList, if_neg danger]
  cases vsa.crdList.find? fun pos => pos.pid = node.pid with
  | none =>
      by_cases masked : has vsa.alertMask (vsa.workingParam.classify node).bit
      · rw [if_pos masked]
        exact switches_none rfl
      · rw [if_neg masked]
        exact switches_none rfl
  | some pos =>
      simp only [if_neg danger]
      by_cases own : pos.ccwId = vsa.workingParam.classify node
      · rw [← own]
        by_cases masked : has vsa.alertMask pos.ccwId.bit
        · rw [if_pos masked, if_pos rfl]
          by_cases enough : ccwDebounce ≤ pos.ccwCnt
          · rw [if_pos enough, vsaSendCcwWarning]
            by_cases pend : vsa.pending pos.ccwId
            · rw [if_pos pend, if_neg fun due => due.2.2.2 pend]
              exact switches_none rfl
            · rw [if_neg pend, if_pos ⟨rfl, masked, enough, pend⟩]
              exact switches_pend rfl pos.ccwId
          · rw [if_neg enough, if_neg fun due => enough due.2.2.1]
            exact switches_none rfl
        · rw [if_neg masked, if_neg fun due => masked due.2.1]
          exact switches_none rfl
      · rw [if_neg own, if_neg fun due => own due.1.symm, ite_self]
        exact switches_none rfl

/-- The loop body switches what is due. -/
theorem switches_warn (vsa : VsaEnvar) (node : VsaInfo) :
    vsa.Switches (vsa.warnDue node) (vsa.warn node) := by
  rcases vsa.workingParam.classify_cases node with safe | front | rear
  · have unfolded : vsa.warn node = vsa.ccwDelList node := by simp only [warn, safe]
    exact unfolded ▸ switches_ccwDelList safe
  · have unfolded : vsa.warn node = vsa.ccwAddList (vsa.workingParam.classify node) node := by
      simp only [warn, front]
    exact unfolded ▸ switches_ccwAddList (by simp [front])
  · have unfolded : vsa.warn node = vsa.ccwAddList (vsa.workingParam.classify node) node := by
      simp only [warn, rear]
    exact unfolded ▸ switches_ccwAddList (by simp [rear])

/-- The first half of the empty case switches what is due. -/
theorem switches_lost (vsa : VsaEnvar) (id : VsaId) :
    vsa.Switches (if vsa.pending id then some (id, false) else none) (vsa.lost id) := by
  unfold lost
  cases vsa.pending id with
  | true => exact switches_unpend rfl id
  | false => exact switches_none rfl

/-- A request that switches an alert. -/
theorem switches_switchAlert {vsa next : VsaEnvar} (same : next.alertPend = vsa.alertPend)
    (id : VsaId) (start : Bool) : vsa.Switches (some (id, start)) (next.switchAlert id start) := by
  cases start with
  | true => exact switches_pend same id
  | false => exact switches_unpend same id

/-- A request about something else sends one neutral message. -/
theorem switches_neutral {vsa next : VsaEnvar} (same : next.alertPend = vsa.alertPend)
    {msg : SysMsg} (neutral : msg.Neutral) : vsa.Switches none (next, [msg]) :=
  ⟨fun other => by rw [pending, pending, same], .inr ⟨msg, neutral, rfl⟩⟩

/-- A request switches what it is about. -/
theorem switches_vsaAppHandler {vsa next : VsaEnvar} (same : next.alertPend = vsa.alertPend)
    (msg : VsaMsg) : vsa.Switches msg.about (next.vsaAppHandler msg) := by
  have active : ∀ id, (SysMsg.alarmActive id).Neutral := by
    rintro id other (start | start) <;> exact SysMsg.noConfusion
  have cancel : ∀ id, (SysMsg.alarmCancel id).Neutral := by
    rintro id other (start | start) <;> exact SysMsg.noConfusion
  rw [vsaAppHandler, VsaMsg.about]
  cases msg.id with
  | manualBc =>
      simp only [vsaManualBroadcastProc]
      split
      · exact switches_neutral same (active .vbd)
      · exact switches_neutral same (cancel .vbd)
  | eeblBc => exact switches_neutral same (active .ebd)
  | accRc =>
      simp only [vsaAccidentRecieveProc]
      split
      · exact switches_switchAlert same .vbd _
      · exact switches_none same
  | eeblRc =>
      simp only [vsaEeblRecieveProc]
      split
      · exact switches_switchAlert same .ebd _
      · exact switches_none same
  | xxxRc => exact switches_none same

end VsaEnvar

/-- A neighbour table with the slots it holds. -/
structure Neighbourhood where
  table : StaTable
  neighbours : List Slot
  free : List Slot
  holds : table.Holds neighbours free

namespace Neighbourhood

/-- One more neighbour, in the first free slot. -/
def join (hood : Neighbourhood) {slot : Slot} {rest : List Slot} (first : hood.free = slot :: rest)
    (sta : VamStastatus) : Neighbourhood where
  table := (hood.table.seat slot sta.pid).modify slot fun node => { node with s := sta }
  neighbours := slot :: hood.neighbours
  free := rest
  holds := ((first ▸ hood.holds).seat sta.pid).modify slot _

/-- The table `vam_init` leaves behind, on cleared memory. -/
def nobody : Neighbourhood where
  table := .init ⟨id, id⟩
  neighbours := []
  free := List.finRange vamNeighbourMaxnum
  holds := (StaTable.init_consistent ⟨id, id⟩).holds

/-- A table with one neighbour and its status. -/
def reporting (sta : VamStastatus) : Neighbourhood := nobody.join List.finRange_succ sta

end Neighbourhood

/-- The application with the neighbour table and the queue of the system thread. -/
structure AlertRun where
  vsa : VsaEnvar
  hood : Neighbourhood
  sys : OsalQueue SysMsg
  /-- The messages the queue of the system thread has taken. -/
  accepted : List SysMsg

/-- What the threads do. -/
inductive AlertAction where
  /-- `VAM_EVT_PEER_ALARM` for a station -/
  | alarm (sta : VamStastatus)
  /-- `vsa_thread_entry` handles its oldest request. -/
  | process
  /-- `vsa_base_proc` gets to a neighbour. -/
  | warn (i : Slot)
  /-- `vsa_base_proc` finds no neighbour. -/
  | lost (warningId : VsaId)
  /-- `vsa_preprocess_pos` fills the position table. -/
  | place (positionNode : Slot → VsaInfo)
  /-- Stations come, report and go. -/
  | neighbours (hood : Neighbourhood)
  /-- Another request to the application. -/
  | request (msg : VsaMsg)
  /-- Another message to the system thread. -/
  | post
  /-- The system thread takes a message. -/
  | receive

namespace AlertRun

/-- `sys_add_event_queue`; a full queue drops the message. -/
def sysAddEventQueue (run : AlertRun) (msg : SysMsg) : AlertRun :=
  { run with
    sys := (run.sys.send msg).2
    accepted := if (run.sys.send msg).1 then run.accepted ++ [msg] else run.accepted }

/-- The state after a function of the application and its messages. -/
def perform (run : AlertRun) (result : VsaEnvar × List SysMsg) : AlertRun :=
  result.2.foldl sysAddEventQueue { run with vsa := result.1 }

/-- One action. A callback that does not return and a thread that waits take no step. -/
def Step (run : AlertRun) : AlertAction → AlertRun → Prop
  | .alarm sta, next => ∃ fuel result,
      run.vsa.vsaReceiveAlarmUpdate run.hood.table sta fuel = some result ∧
        next = { run with vsa := result.1 }
  | .process, next => ∃ result, run.vsa.vsaThreadEntry = some result ∧ next = run.perform result
  | .warn i, next => next = run.perform (run.vsa.warn (run.vsa.positionNode i))
  | .lost warningId, next =>
      (warningId = .crd ∨ warningId = .crdRear) ∧ next = run.perform (run.vsa.lost warningId)
  | .place positionNode, next =>
      next = { run with vsa := { run.vsa with positionNode := positionNode } }
  | .neighbours hood, next => next = { run with hood := hood }
  | .request msg, next => (msg.id = .manualBc ∨ msg.id = .eeblBc ∨ msg.id = .xxxRc) ∧
      next = { run with vsa := run.vsa.vsaAddEventQueue msg }
  | .post, next => next = run.sysAddEventQueue .other
  | .receive, next => ∃ msg rest, run.sys.recv = some (msg, rest) ∧ next = { run with sys := rest }

/-- Every order of the actions of all threads. -/
def system (param : VsaConfig) : ActionSystem AlertAction where
  State := AlertRun
  Initial run := ∃ hood, run = ⟨vsaInit param, hood, .create sysQueueSize, []⟩
  Step := Step

/-- The alert an action is about to change, and to what. -/
def due (run : AlertRun) : AlertAction → Option (VsaId × Bool)
  | .process => run.vsa.queueVsa.msgs.head?.bind VsaMsg.about
  | .warn i => run.vsa.warnDue (run.vsa.positionNode i)
  | .lost warningId => if run.vsa.pending warningId then some (warningId, false) else none
  | _ => none

/-- An alert that is due really changes, and its message finds room; an alert that is
due once more finds no room. -/
def Orderly (run : AlertRun) (action : AlertAction) : Prop :=
  ∀ id start, run.due action = some (id, start) →
    (run.sys.hasRoom = true ↔ run.vsa.pending id ≠ start)

/-- The starts and stops of every alert alternate, and its bit is set after a start. -/
def Ordered (run : AlertRun) : Prop :=
  ∀ id, SysMsg.Alternating run.accepted id ∧ run.vsa.pending id = SysMsg.alerting run.accepted id

/-- What was taken grows when there is room. -/
theorem sysAddEventQueue_accepted (run : AlertRun) (msg : SysMsg) :
    (run.sysAddEventQueue msg).accepted =
      if run.sys.hasRoom then run.accepted ++ [msg] else run.accepted := by
  simp only [sysAddEventQueue, OsalQueue.send_fst]

/-- A step that leaves the bits and the messages alone keeps the order. -/
theorem Ordered.congr {run next : AlertRun} (bits : next.vsa.alertPend = run.vsa.alertPend)
    (log : next.accepted = run.accepted) : next.Ordered ↔ run.Ordered := by
  simp only [Ordered, VsaEnvar.pending, bits, log]

/-- A neutral message keeps the order. -/
theorem Ordered.neutral {run : AlertRun} (ordered : run.Ordered) {msg : SysMsg}
    (neutral : msg.Neutral) : (run.sysAddEventQueue msg).Ordered := by
  intro id
  have bit : (run.sysAddEventQueue msg).vsa.pending id = run.vsa.pending id := rfl
  rw [bit, sysAddEventQueue_accepted]
  split
  · rw [SysMsg.alerting_append, neutral.switch, SysMsg.alternating_append]
    exact ⟨⟨(ordered id).1, fun start same => absurd same (neutral id start)⟩, (ordered id).2⟩
  · exact ordered id

/-- The order is kept exactly when what is due really changes and finds room. -/
theorem Ordered.perform_iff {run : AlertRun} (ordered : run.Ordered) {due : Option (VsaId × Bool)}
    {result : VsaEnvar × List SysMsg} (switches : run.vsa.Switches due result) :
    (run.perform result).Ordered ↔ ∀ id start, due = some (id, start) →
      (run.sys.hasRoom = true ↔ run.vsa.pending id ≠ start) := by
  match due, switches with
  | none, ⟨bits, sent⟩ =>
      refine ⟨fun _ _ _ none => (by cases none), fun _ => ?_⟩
      have begun : Ordered { run with vsa := result.1 } := fun id => by
        simpa only [bits] using ordered id
      rcases sent with silent | ⟨msg, neutral, silent⟩
      · rw [perform, silent]
        exact begun
      · rw [perform, silent]
        exact begun.neutral neutral
  | some (id, start), ⟨bits, sent⟩ =>
      have log : (run.perform result).accepted =
          if run.sys.hasRoom then run.accepted ++ [.alert id start] else run.accepted := by
        rw [perform, sent]
        exact sysAddEventQueue_accepted ..
      have bit : ∀ other, (run.perform result).vsa.pending other =
          if id = other then start else run.vsa.pending other := by
        rw [perform, sent]
        exact bits
      cases room : run.sys.hasRoom with
      | false =>
          rw [room, if_neg Bool.false_ne_true] at log
          constructor
          · rintro next _ _ ⟨⟩
            have same : start = run.vsa.pending id := by
              have after := (next id).2
              rwa [bit, if_pos rfl, log, ← (ordered id).2] at after
            simp [same]
          · intro meets other
            have same : run.vsa.pending id = start := by simpa using meets id start rfl
            rw [bit, log]
            refine ⟨(ordered other).1, ?_⟩
            by_cases mine : id = other
            · rw [if_pos mine, ← same, mine, (ordered other).2]
            · rw [if_neg mine, (ordered other).2]
      | true =>
          rw [room, if_pos rfl] at log
          constructor
          · rintro next _ _ ⟨⟩
            have after := (next id).1
            rw [log, SysMsg.alternating_append] at after
            have changes := after.2 start rfl
            rw [← (ordered id).2] at changes
            simp [changes]
          · intro meets other
            have changes : run.vsa.pending id ≠ start := (meets id start rfl).1 rfl
            rw [bit, log, SysMsg.alternating_append, SysMsg.alerting_append, SysMsg.switch_alert,
              (ordered other).2]
            refine ⟨⟨(ordered other).1, fun begun same => ?_⟩, rfl⟩
            obtain ⟨rfl, rfl⟩ := SysMsg.alert_inj.1 same
            rwa [← (ordered id).2]

/-- A request about to be handled is the oldest one. -/
theorem vsaThreadEntry_eq {run : AlertRun} {result : VsaEnvar × List SysMsg}
    (handled : run.vsa.vsaThreadEntry = some result) :
    run.vsa.Switches (run.due .process) result := by
  obtain ⟨⟨msg, rest⟩, received, rfl⟩ := Option.map_eq_some_iff.1 handled
  have oldest : run.vsa.queueVsa.msgs.head? = some msg := by
    rw [OsalQueue.recv_eq_some received, List.head?_cons]
  rw [due, oldest]
  exact VsaEnvar.switches_vsaAppHandler rfl msg

/-- One step keeps the order exactly when it is orderly. -/
theorem Ordered.step_iff {param : VsaConfig} {run next : AlertRun} {action : AlertAction}
    (ordered : run.Ordered) (valid : (system param).Step run action next) :
    next.Ordered ↔ run.Orderly action := by
  have idle : run.due action = none → next.vsa.alertPend = run.vsa.alertPend →
      next.accepted = run.accepted → (next.Ordered ↔ run.Orderly action) := by
    intro none bits log
    rw [Ordered.congr bits log]
    exact ⟨fun _ id start due => (by rw [none] at due; cases due), fun _ => ordered⟩
  cases action with
  | alarm sta =>
      obtain ⟨fuel, ⟨vsa, requests⟩, called, rfl⟩ := valid
      obtain ⟨_, _, _, _, _, _, _, _, _, queue, rfl⟩ := VsaEnvar.vsaReceiveAlarmUpdate_eq called
      exact idle rfl rfl rfl
  | process =>
      obtain ⟨result, handled, rfl⟩ := valid
      exact ordered.perform_iff (vsaThreadEntry_eq handled)
  | warn i =>
      subst valid
      exact ordered.perform_iff (VsaEnvar.switches_warn ..)
  | lost warningId =>
      obtain ⟨-, rfl⟩ := valid
      exact ordered.perform_iff (VsaEnvar.switches_lost ..)
  | place positionNode =>
      subst valid
      exact idle rfl rfl rfl
  | neighbours hood =>
      subst valid
      exact idle rfl rfl rfl
  | request msg =>
      obtain ⟨-, rfl⟩ := valid
      exact idle rfl rfl rfl
  | post =>
      subst valid
      have neutral : SysMsg.other.Neutral := by
        rintro id (start | start) <;> exact SysMsg.noConfusion
      exact ⟨fun _ id start none => (by cases none), fun _ => ordered.neutral neutral⟩
  | receive =>
      obtain ⟨msg, rest, -, rfl⟩ := valid
      exact idle rfl rfl rfl

/-- A broken-down vehicle that reports itself. -/
def brokenDown : VamStastatus :=
  { VamStastatus.zero with pid := Vector.replicate rcpTempIdLen 1, alertMask := vamAlertMaskVbd }

/-- The application before the first report. -/
def begun : AlertRun where
  vsa := vsaInit WarningRun.roadParam
  hood := .reporting brokenDown
  sys := .create sysQueueSize
  accepted := []

/-- The request for the start of the alert. -/
def startRequest : VsaMsg := ⟨.accRc, 1, 1⟩

/-- The run of an action after another run. -/
def andThen {param : VsaConfig} {first run : (system param).State}
    (prior : (system param).Path first run) (action : AlertAction) {next : AlertRun}
    (valid : Step run action next) : (system param).Path first next :=
  .snoc prior action next valid

/-- One request waits. -/
def asked : OsalQueue VsaMsg := (OsalQueue.send (.create vsaQueueSize) startRequest).2

end AlertRun

end Rsu.Vsa
