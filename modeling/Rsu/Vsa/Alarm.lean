import Rsu.Rcp.Codec
import Rsu.Vam.StaTable
import Rsu.Vsa.Warning

/-!
# Received alerts

The callback for alerts of neighbours turns them into requests, and the thread of
the application turns the requests into messages to the system thread. The
callback looks at the alerts of all neighbours together, and at the place of one.
-/

namespace Rsu.Vam.StaTable

open Rsu.Data.BitMask

variable {table : StaTable} {neighbours free : List Slot}

/-- The loop body of `vam_get_peer_alert_status`. -/
def collectAlerts (table : StaTable) (pos : StaEntry) (mask : BitVec 16) :
    ForInStep (BitVec 16) :=
  match pos with
  | .remote slot => .yield (set mask (table.remote slot).s.alertMask)
  | _ => .yield mask

/-- `vam_get_peer_alert_status` -/
def vamGetPeerAlertStatus (table : StaTable) (fuel : Nat) : Option (BitVec 16) :=
  forEach (fun _ => table.list) .neighbourList table.collectAlerts fuel
    (table.list.next .neighbourList) 0

/-- The loop sees an alert of any of the stations. -/
theorem has_foldBreak_collectAlerts (slots : List Slot) (mask alert : BitVec 16) :
    has (foldBreak table.collectAlerts (slots.map .remote) mask) alert =
      (has mask alert || slots.any fun slot => has (table.remote slot).s.alertMask alert) := by
  induction slots generalizing mask with
  | nil => simp [foldBreak]
  | cons slot rest inductionHypothesis =>
      simp only [List.map_cons, foldBreak, collectAlerts, inductionHypothesis, has_set,
        List.any_cons, Bool.or_assoc]

/-- The status of the neighbours is a fold over them. -/
theorem Holds.vamGetPeerAlertStatus_eq (holds : table.Holds neighbours free) {fuel : Nat}
    (enough : neighbours.length < fuel) :
    table.vamGetPeerAlertStatus fuel =
      some (foldBreak table.collectAlerts (neighbours.map .remote) 0) := by
  let links := fun _ : BitVec 16 => table.list
  have ring : (links 0).Ring .neighbourList (neighbours.map .remote) := holds.rings.left
  have keeps : ∀ {pos before after}, table.collectAlerts pos before = .yield after →
      links after = links before := fun _ => rfl
  exact forEach_eq_foldBreak keeps ring (by simpa using enough)

/-- The status of the neighbours has the alerts of all of them. -/
theorem Holds.has_vamGetPeerAlertStatus (holds : table.Holds neighbours free) {fuel : Nat}
    {peerAlert : BitVec 16} (read : table.vamGetPeerAlertStatus fuel = some peerAlert)
    (alert : BitVec 16) :
    has peerAlert alert = neighbours.any fun slot => has (table.remote slot).s.alertMask alert := by
  have persistent : Persistent table.vamGetPeerAlertStatus := forEach_persistent _ _ _
  have whole := holds.vamGetPeerAlertStatus_eq (Nat.lt_succ_self neighbours.length)
  have same := Returns.unique persistent ⟨fuel, read⟩ ⟨_, whole⟩
  rw [same, has_foldBreak_collectAlerts]
  simp

end Rsu.Vam.StaTable

namespace Rsu.Vsa

open Rsu.Data.BitMask Rsu.Rcp Rsu.Osal Rsu.Vam

namespace VsaEnvar

/-- `vsa_add_event_queue`; a full queue drops the message. -/
def vsaAddEventQueue (vsa : VsaEnvar) (msg : VsaMsg) : VsaEnvar :=
  { vsa with queueVsa := (vsa.queueVsa.send msg).2 }

/-- The request of one of the three branches of `vsa_receive_alarm_update`. -/
def alarmRequest (danger pending : Bool) (id : VsaMsgId) (alert : BitVec 16) : List VsaMsg :=
  if danger then
    if pending then [] else [⟨id, 1, alert.setWidth 32⟩]
  else
    if pending then [⟨id, 0, alert.setWidth 32⟩] else []

/-- One of the three branches. The judgement is only evaluated for an alert that some
neighbour reports. -/
def alarmRequests (peerAlert alert : BitVec 16) (judge : Option Bool) (pending : Bool)
    (id : VsaMsgId) : Option (List VsaMsg) :=
  (if has peerAlert alert then judge else some false).map fun danger =>
    alarmRequest danger pending id alert

/-- `vsa_receive_alarm_update`: the new state and the requests made. A neighbour that
has no node in the position table cannot be judged. -/
def vsaReceiveAlarmUpdate (vsa : VsaEnvar) (table : StaTable) (sta : VamStastatus) (fuel : Nat) :
    Option (VsaEnvar × List VsaMsg) := do
  let peerAlert ← table.vamGetPeerAlertStatus fuel
  let vsa := { vsa with remote := sta }
  let vbd ← alarmRequests peerAlert vamAlertMaskVbd vsa.vbdJudge (vsa.pending .vbd) .accRc
  let ebd ← alarmRequests peerAlert vamAlertMaskEbd vsa.ebdJudge (vsa.pending .ebd) .eeblRc
  let vot ← alarmRequests peerAlert vamAlertMaskVot (some true) (vsa.pending .vot) .accRc
  let requests := vbd ++ ebd ++ vot
  return (requests.foldl vsaAddEventQueue vsa, requests)

/-- The two assignments of a request about a received alert: the bit and the message. -/
def switchAlert (vsa : VsaEnvar) (id : VsaId) (start : Bool) : VsaEnvar × List SysMsg :=
  if start then (vsa.pend id, [.startAlert id]) else (vsa.unpend id, [.stopAlert id])

/-- `vsa_accident_recieve_proc` -/
def vsaAccidentRecieveProc (vsa : VsaEnvar) (msg : VsaMsg) : VsaEnvar × List SysMsg :=
  if msg.argc = vamAlertMaskVbd.setWidth 32 then vsa.switchAlert .vbd (msg.len ≠ 0)
  else (vsa, [])

/-- `vsa_eebl_recieve_proc` -/
def vsaEeblRecieveProc (vsa : VsaEnvar) (msg : VsaMsg) : VsaEnvar × List SysMsg :=
  if msg.argc = vamAlertMaskEbd.setWidth 32 then vsa.switchAlert .ebd (msg.len ≠ 0)
  else (vsa, [])

/-- `vsa_manual_broadcast_proc`, as far as the messages go. -/
def vsaManualBroadcastProc (vsa : VsaEnvar) (msg : VsaMsg) : VsaEnvar × List SysMsg :=
  if msg.argc ≠ 0 then (vsa, [.alarmActive .vbd]) else (vsa, [.alarmCancel .vbd])

/-- `vsa_eebl_broadcast_proc`, as far as the messages go. -/
def vsaEeblBroadcastProc (vsa : VsaEnvar) (_ : VsaMsg) : VsaEnvar × List SysMsg :=
  (vsa, [.alarmActive .ebd])

/-- `vsa_app_handler_tbl` -/
def vsaAppHandler (vsa : VsaEnvar) (msg : VsaMsg) : VsaEnvar × List SysMsg :=
  match msg.id with
  | .manualBc => vsa.vsaManualBroadcastProc msg
  | .eeblBc => vsa.vsaEeblBroadcastProc msg
  | .accRc => vsa.vsaAccidentRecieveProc msg
  | .eeblRc => vsa.vsaEeblRecieveProc msg
  | .xxxRc => (vsa, [])

/-- One turn of `vsa_thread_entry`, when a request is waiting. -/
def vsaThreadEntry (vsa : VsaEnvar) : Option (VsaEnvar × List SysMsg) :=
  vsa.queueVsa.recv.map fun (msg, rest) =>
    vsaAppHandler { vsa with queueVsa := rest } msg

/-- The judgement accepts the neighbour with this pid. -/
def accepted (vsa : VsaEnvar) (accepts : VsaInfo → Bool) (pid : TempId) : Bool :=
  (vsa.vsaFindPn pid).any accepts

/-- Posting requests changes the queue only. -/
theorem foldl_vsaAddEventQueue (vsa : VsaEnvar) (requests : List VsaMsg) :
    ∃ queue, requests.foldl vsaAddEventQueue vsa = { vsa with queueVsa := queue } := by
  induction requests generalizing vsa with
  | nil => exact ⟨vsa.queueVsa, rfl⟩
  | cons msg requests inductionHypothesis => exact inductionHypothesis (vsa.vsaAddEventQueue msg)

/-- What one branch requests. -/
theorem alarmRequests_eq {peerAlert alert : BitVec 16} {judge : Option Bool} {pending : Bool}
    {id : VsaMsgId} {requests : List VsaMsg}
    (made : alarmRequests peerAlert alert judge pending id = some requests) :
    requests = alarmRequest (has peerAlert alert && judge.getD false) pending id alert := by
  rw [alarmRequests] at made
  obtain ⟨danger, judged, rfl⟩ := Option.map_eq_some_iff.1 made
  cases reported : has peerAlert alert with
  | false =>
      rw [reported, if_neg Bool.false_ne_true] at judged
      rw [← Option.some.inj judged, Bool.false_and]
  | true =>
      rw [reported, if_pos rfl] at judged
      rw [judged, Option.getD_some, Bool.true_and]

/-- A branch with a judgement makes its request. -/
theorem alarmRequests_some (peerAlert alert : BitVec 16) (judged pending : Bool) (id : VsaMsgId) :
    alarmRequests peerAlert alert (some judged) pending id =
      some (alarmRequest (has peerAlert alert && judged) pending id alert) := by
  unfold alarmRequests
  cases has peerAlert alert <;> rfl

/-- What the callback requests for a station with this node. -/
def requests (vsa : VsaEnvar) (table : StaTable) (neighbours : List Slot) (node : VsaInfo) :
    List VsaMsg :=
  let reported := fun alert => neighbours.any fun slot => has (table.remote slot).s.alertMask alert
  alarmRequest (reported vamAlertMaskVbd && vsa.workingParam.acceptsVbd node)
      (vsa.pending .vbd) .accRc vamAlertMaskVbd ++
    alarmRequest (reported vamAlertMaskEbd && vsa.workingParam.acceptsEbd node)
      (vsa.pending .ebd) .eeblRc vamAlertMaskEbd ++
    alarmRequest (reported vamAlertMaskVot && true) (vsa.pending .vot) .accRc vamAlertMaskVot

/-- The callback returns for a station in the position table. -/
theorem vsaReceiveAlarmUpdate_of_found {vsa : VsaEnvar} {table : StaTable}
    {neighbours free : List Slot} (holds : table.Holds neighbours free) {sta : VamStastatus}
    {node : VsaInfo} (found : vsa.vsaFindPn sta.pid = some node) {fuel : Nat}
    (enough : neighbours.length < fuel) :
    vsa.vsaReceiveAlarmUpdate table sta fuel =
      some ((vsa.requests table neighbours node).foldl vsaAddEventQueue { vsa with remote := sta },
        vsa.requests table neighbours node) := by
  have read := holds.vamGetPeerAlertStatus_eq enough
  have reports := holds.has_vamGetPeerAlertStatus read
  have vbd : vbdJudge { vsa with remote := sta } = some (vsa.workingParam.acceptsVbd node) :=
    congrArg (Option.map vsa.workingParam.acceptsVbd) found
  have ebd : ebdJudge { vsa with remote := sta } = some (vsa.workingParam.acceptsEbd node) :=
    congrArg (Option.map vsa.workingParam.acceptsEbd) found
  simp only [vsaReceiveAlarmUpdate, read, vbd, ebd, alarmRequests_some, reports,
    Option.bind_eq_bind, Option.bind_some, Option.pure_def]
  rfl

/-- What the callback does when it returns. -/
theorem vsaReceiveAlarmUpdate_eq {vsa next : VsaEnvar} {table : StaTable} {sta : VamStastatus}
    {fuel : Nat} {requests : List VsaMsg}
    (called : vsa.vsaReceiveAlarmUpdate table sta fuel = some (next, requests)) :
    ∃ peerAlert vbd ebd vot,
      table.vamGetPeerAlertStatus fuel = some peerAlert ∧
      alarmRequests peerAlert vamAlertMaskVbd
        ((vsa.vsaFindPn sta.pid).map vsa.workingParam.acceptsVbd) (vsa.pending .vbd) .accRc =
          some vbd ∧
      alarmRequests peerAlert vamAlertMaskEbd
        ((vsa.vsaFindPn sta.pid).map vsa.workingParam.acceptsEbd) (vsa.pending .ebd) .eeblRc =
          some ebd ∧
      alarmRequests peerAlert vamAlertMaskVot (some true) (vsa.pending .vot) .accRc = some vot ∧
      requests = vbd ++ ebd ++ vot ∧
      ∃ queue, next = { vsa with remote := sta, queueVsa := queue } := by
  simp only [vsaReceiveAlarmUpdate, Option.bind_eq_bind, Option.bind_eq_some_iff,
    Option.pure_def, Option.some.injEq, Prod.mk.injEq] at called
  obtain ⟨peerAlert, read, vbd, vbdMade, ebd, ebdMade, vot, votMade, posted, rfl⟩ := called
  obtain ⟨queue, same⟩ :=
    foldl_vsaAddEventQueue { vsa with remote := sta } (vbd ++ ebd ++ vot)
  exact ⟨peerAlert, vbd, ebd, vot, read, vbdMade, ebdMade, votMade, rfl, queue,
    posted.symm.trans same⟩

end VsaEnvar

end Rsu.Vsa
