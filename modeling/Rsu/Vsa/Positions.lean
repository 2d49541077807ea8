import Mathlib.Data.Fin.Tuple.Basic
import Rsu.Vam.Neighbours
import Rsu.Vsa.Alarm
import Rsu.Vsa.Preprocess

/-!
# Whether an alarm finds its position

The receive thread and the thread of the neighbour ticks raise alarms, and a third
thread refills the position table every 100 ms; a callback and a round of the cycle are one
step each. Beside the tables a state records the rounds of the cycle that is running
and those of the cycle before it. An alarm finds what the last cycle computed for its
station exactly when that cycle got a status of the station to compute from.
-/

namespace Rsu.Vsa

open Rsu.Data Rsu.Data.BitMask Rsu.Rcp Rsu.Osal Rsu.Vam

/-- The threads that raise alarms. -/
inductive AlarmThread where
  | receive
  | vam
  deriving DecidableEq

/-- The neighbour table, the position table, the cycle that is running, and the alarms
each thread has still to report. -/
structure PositionRun where
  table : TableState
  vsa : VsaEnvar
  cycle : Option PosCycle
  alarms : AlarmThread → List VamStastatus
  /-- The rounds of the running cycle. -/
  rounds : List PosVisit
  /-- The rounds of the last cycle that ended. -/
  ended : List PosVisit

/-- What the threads do. -/
inductive PositionAction where
  /-- A message is parsed. -/
  | receive (msg : Reception)
  /-- `vam_update_sta` -/
  | tick
  /-- `VAM_EVT_PEER_ALARM` for the next alarm of a thread -/
  | alarm (thread : AlarmThread)
  /-- `vam_set_local_status` -/
  | setLocal (sta : VamStastatus)
  /-- `vsa_preprocess_pos` starts at system time `t`, on this stack. -/
  | begin (t : BitVec 32) (stack : VamStastatus)
  /-- One round of its loop. -/
  | round

/-- The alarms among the handler calls. -/
def alarmsOf (events : List PeerEvent) : List VamStastatus :=
  events.filterMap fun event => if event.evt = .peerAlarm then event.sta else none

namespace PositionRun

/-- What became of the nodes: those of the running cycle, and behind them those the
cycle before has left. -/
def visits (run : PositionRun) : List PosVisit :=
  run.rounds ++ run.ended.drop run.rounds.length

/-- The pids were asked for. -/
def begun (run : PositionRun) (env : PosEnv) (t : BitVec 32) (stack : VamStastatus)
    (peerPid : List TempId) : PositionRun :=
  if peerPid = [] then { run with rounds := [], ended := [] }
  else
    { run with
      cycle := some ⟨run.table.vam.vamGetLocalCurrentStatus env.lib t, stack, some 0, 0, peerPid⟩
      rounds := [] }

/-- A round of the cycle has filled its node. -/
def filled (run : PositionRun) (env : PosEnv) (cycle : PosCycle) (visit : PosVisit)
    (peerPid : List TempId) (table : TableState) : PositionRun :=
  let filled := { run with
    table := table
    vsa := run.vsa.writeNode cycle.i (visit.write env run.vsa.workingParam) }
  if peerPid = [] then
    { filled with cycle := none, rounds := [], ended := run.rounds ++ [visit] }
  else
    { filled with
      cycle := some (cycle.next env visit peerPid)
      rounds := run.rounds ++ [visit] }

/-- What the callback leaves behind. It gets no further than its copy of the status when
it would read through a null pointer. -/
def Reported (run : PositionRun) (sta : VamStastatus) (vsa : VsaEnvar) : Prop :=
  (∃ requests, Returns (run.vsa.vsaReceiveAlarmUpdate run.table.vam.toStaTable sta) (vsa, requests)) ∨
    Diverges (run.vsa.vsaReceiveAlarmUpdate run.table.vam.toStaTable sta) ∧
      vsa = { run.vsa with remote := sta }

/-- One action. A thread has reported its alarms before it goes on. -/
def Step (env : PosEnv) (run : PositionRun) : PositionAction → PositionRun → Prop
  | .receive msg, next => run.alarms .receive = [] ∧ ∃ table,
      Returns (run.table.step (.receive msg)) table ∧
        next = { run with
          table := table
          alarms := Function.update run.alarms .receive (alarmsOf table.events) }
  | .tick, next => run.alarms .vam = [] ∧ ∃ table,
      Returns (run.table.step .tick) table ∧
        next = { run with
          table := table
          alarms := Function.update run.alarms .vam (alarmsOf table.events) }
  | .alarm thread, next => ∃ sta rest vsa,
      run.alarms thread = sta :: rest ∧ run.Reported sta vsa ∧
        next = { run with vsa := vsa, alarms := Function.update run.alarms thread rest }
  | .setLocal sta, next =>
      next = { run with table := { run.table with vam := { run.table.vam with localSta := sta } } }
  | .begin t stack, next => run.cycle = none ∧ ∃ pids,
      Returns (run.table.vam.vamGetAllPeerPid vamNeighbourMaxnum) pids ∧
        next = run.begun env t stack pids.1
  | .round, next => ∃ cycle pid rest ret remote table,
      run.cycle = some cycle ∧ cycle.peerPid = pid :: rest ∧
        Returns (run.table.vam.peerStatusInto pid cycle.remoteStatus) (ret, remote) ∧
        Returns (run.table.step (.setPeerCnt remote.pid (cycle.visit remote).cnt)) table ∧
        next = run.filled env cycle (cycle.visit remote) rest table

/-- The callback evaluates a judgement: some neighbour reports an alert that has one. -/
def Judging (run : PositionRun) : Prop :=
  ∃ peerAlert, Returns run.table.vam.vamGetPeerAlertStatus peerAlert ∧
    (has peerAlert vamAlertMaskVbd ∨ has peerAlert vamAlertMaskEbd)

/-- The action looks up the node of this pid. -/
def LooksUp (run : PositionRun) (action : PositionAction) (pid : TempId) : Prop :=
  match action with
  | .alarm thread => run.Judging ∧ ∃ sta rest, run.alarms thread = sta :: rest ∧ sta.pid = pid
  | _ => False

/-- The index of the node that `vsa_find_pn` returns. -/
def foundAt (run : PositionRun) (pid : TempId) : Option Slot :=
  (List.finRange vamNeighbourMaxnum).find? fun slot => (run.vsa.positionNode slot).pid = pid

/-- The lookup finds a node, and it holds what the last cycle computed for the pid. -/
def Located (run : PositionRun) (env : PosEnv) (pid : TempId) : Prop :=
  ∃ slot visit, run.foundAt pid = some slot ∧ run.visits[slot.val]? = some visit ∧
    visit.remoteStatus.pid = pid ∧ visit.computes ∧
    run.vsa.vsaFindPn pid = some (visit.place env run.vsa.workingParam)

/-- The last cycle got a status of the station, and computed from the first one it got. -/
def Visited (run : PositionRun) (pid : TempId) : Prop :=
  ∃ visit, (run.visits.find? fun visit => visit.remoteStatus.pid = pid) = some visit ∧ visit.computes

/-- The position table shows the rounds, which fit in it, and the neighbour table is sound. -/
structure Mirrors (run : PositionRun) (env : PosEnv) : Prop where
  sound : ∃ neighbours free, run.table.Inv neighbours free
  shown : ∀ (slot : Slot) (visit : PosVisit), run.visits[slot.val]? = some visit →
    (run.vsa.positionNode slot).pid = visit.remoteStatus.pid ∧
      (visit.computes → run.vsa.positionNode slot = visit.place env run.vsa.workingParam)
  idle : run.cycle = none → run.rounds = []
  running : ∀ cycle, run.cycle = some cycle → cycle.i = run.rounds.length ∧
    run.rounds.length + cycle.peerPid.length ≤ vamNeighbourMaxnum
  fits : run.ended.length ≤ vamNeighbourMaxnum

variable {run next : PositionRun} {env : PosEnv} {pid : TempId} {neighbours free : List Slot}

/-- `vsa_find_pn` returns the node at that index. -/
theorem vsaFindPn_eq (run : PositionRun) (pid : TempId) :
    run.vsa.vsaFindPn pid = (run.foundAt pid).map run.vsa.positionNode := by
  rw [VsaEnvar.vsaFindPn, List.find?_map]
  rfl

/-- The node found is the first with the pid. -/
theorem foundAt_eq_some_iff {slot : Slot} :
    run.foundAt pid = some slot ↔ (run.vsa.positionNode slot).pid = pid ∧
      ∀ earlier < slot, (run.vsa.positionNode earlier).pid ≠ pid := by
  rw [foundAt, ← Fin.find?_eq_find?_finRange, Fin.find?_eq_some_iff]
  simp

/-- No more rounds than nodes. -/
theorem Mirrors.length_visits (mirrors : run.Mirrors env) :
    run.visits.length ≤ vamNeighbourMaxnum := by
  have rounds : run.rounds.length ≤ vamNeighbourMaxnum := by
    cases current : run.cycle with
    | none => simp [mirrors.idle current]
    | some cycle => exact Nat.le_of_add_right_le (mirrors.running cycle current).2
  rw [visits, List.length_append, List.length_drop]
  have fits := mirrors.fits
  omega

/-- A lookup finds what the last cycle computed exactly when that cycle computed
something for the pid. -/
theorem Mirrors.located_iff (mirrors : run.Mirrors env) : run.Located env pid ↔ run.Visited pid := by
  constructor
  · rintro ⟨slot, visit, found, visited, own, computes, -⟩
    obtain ⟨bound, here⟩ := List.getElem?_eq_some_iff.1 visited
    refine ⟨visit, ?_, computes⟩
    rw [List.find?_eq_some_iff_getElem]
    refine ⟨by simpa using own, slot.val, bound, here, fun earlier before => ?_⟩
    have inside : earlier < run.visits.length := before.trans bound
    let place : Slot := ⟨earlier, before.trans slot.isLt⟩
    have shown := mirrors.shown place run.visits[earlier] (List.getElem?_eq_getElem inside)
    have other := (foundAt_eq_some_iff.1 found).2 place before
    rw [shown.1] at other
    simpa using other
  · rintro ⟨visit, first, computes⟩
    obtain ⟨own, index, bound, here, earlier⟩ := List.find?_eq_some_iff_getElem.1 first
    have own : visit.remoteStatus.pid = pid := by simpa using own
    let slot : Slot := ⟨index, bound.trans_le mirrors.length_visits⟩
    have visited : run.visits[slot.val]? = some visit := by
      rw [List.getElem?_eq_getElem bound, here]
    obtain ⟨shownPid, computed⟩ := mirrors.shown slot visit visited
    have found : run.foundAt pid = some slot := by
      refine foundAt_eq_some_iff.2 ⟨shownPid.trans own, fun other before => ?_⟩
      have inside : other.val < run.visits.length := Nat.lt_trans before bound
      have shown := mirrors.shown other run.visits[other.val] (List.getElem?_eq_getElem inside)
      rw [shown.1]
      simpa using earlier other.val before
    refine ⟨slot, visit, found, visited, own, computes, ?_⟩
    rw [vsaFindPn_eq, found, Option.map_some, computed computes]

/-- A step that touches neither the nodes nor the cycle. -/
theorem Mirrors.frame (mirrors : run.Mirrors env)
    (sound : ∃ neighbours free, next.table.Inv neighbours free)
    (nodes : next.vsa.positionNode = run.vsa.positionNode)
    (param : next.vsa.workingParam = run.vsa.workingParam) (cycle : next.cycle = run.cycle)
    (rounds : next.rounds = run.rounds) (ended : next.ended = run.ended) : next.Mirrors env := by
  have visits : next.visits = run.visits := by rw [visits, visits, rounds, ended]
  refine ⟨sound, ?_, ?_, ?_, ended ▸ mirrors.fits⟩
  · intro slot visit visited
    rw [visits] at visited
    rw [nodes, param]
    exact mirrors.shown slot visit visited
  · intro none
    rw [rounds]
    exact mirrors.idle (cycle ▸ none)
  · intro current same
    rw [rounds]
    exact mirrors.running current (cycle ▸ same)

/-- The callback leaves the nodes and the parameters alone. -/
theorem Reported.frame {sta : VamStastatus} {vsa : VsaEnvar} (reported : run.Reported sta vsa) :
    vsa.positionNode = run.vsa.positionNode ∧ vsa.workingParam = run.vsa.workingParam := by
  rcases reported with ⟨requests, fuel, called⟩ | ⟨-, rfl⟩
  · obtain ⟨-, -, -, -, -, -, -, -, -, queue, rfl⟩ := VsaEnvar.vsaReceiveAlarmUpdate_eq called
    exact ⟨rfl, rfl⟩
  · exact ⟨rfl, rfl⟩

/-- The start of a cycle: what the last one left is still there, unless nobody is. -/
theorem Mirrors.begun (mirrors : run.Mirrors env) (none : run.cycle = none) (t : BitVec 32)
    (stack : VamStastatus) {peerPid : List TempId} (few : peerPid.length ≤ vamNeighbourMaxnum) :
    (run.begun env t stack peerPid).Mirrors env := by
  have idle := mirrors.idle none
  by_cases nobody : peerPid = []
  · rw [PositionRun.begun, if_pos nobody]
    refine ⟨mirrors.sound, ?_, fun _ => rfl, ?_, Nat.zero_le _⟩
    · intro slot visit visited
      simp [visits] at visited
    · intro cycle same
      exact absurd (none.symm.trans same) (Option.some_ne_none cycle).symm
  · rw [PositionRun.begun, if_neg nobody]
    refine ⟨mirrors.sound, ?_, ?_, ?_, mirrors.fits⟩
    · intro slot visit visited
      refine mirrors.shown slot visit ?_
      rw [visits, idle]
      exact visited
    · intro absent
      cases absent
    · intro cycle same
      obtain rfl := Option.some.inj same
      exact ⟨rfl, by simpa using few⟩

/-- The rounds after one more; the last round ends the cycle. -/
theorem visits_filled (cycle : PosCycle) (visit : PosVisit) (peerPid : List TempId)
    (table : TableState) : (run.filled env cycle visit peerPid table).visits =
      run.rounds ++ visit :: if peerPid = [] then [] else run.ended.drop (run.rounds.length + 1) := by
  by_cases last : peerPid = []
  · rw [PositionRun.filled, if_pos last, if_pos last]
    rfl
  · rw [PositionRun.filled, if_neg last, if_neg last]
    show run.rounds ++ [visit] ++ run.ended.drop (run.rounds ++ [visit]).length = _
    rw [List.length_append, List.length_singleton, List.append_assoc, List.singleton_append]

/-- A round adds itself, and takes the place of what was there. -/
theorem visited_filled {cycle : PosCycle} {visit : PosVisit} {peerPid : List TempId}
    {table : TableState} {index : Nat} {other : PosVisit}
    (visited : (run.filled env cycle visit peerPid table).visits[index]? = some other) :
    index = run.rounds.length ∧ other = visit ∨
      index ≠ run.rounds.length ∧ run.visits[index]? = some other := by
  rw [visits_filled] at visited
  rcases Nat.lt_trichotomy index run.rounds.length with before | here | after
  · rw [List.getElem?_append_left before] at visited
    exact .inr ⟨before.ne, by rw [visits, List.getElem?_append_left before, visited]⟩
  · rw [here, List.getElem?_append_right (Nat.le_refl _), Nat.sub_self] at visited
    exact .inl ⟨here, (Option.some.inj visited).symm⟩
  · obtain ⟨more, rfl⟩ := Nat.exists_eq_add_of_lt after
    have shift : run.rounds.length + more + 1 - run.rounds.length = more + 1 := by omega
    rw [List.getElem?_append_right after.le, shift, List.getElem?_cons_succ] at visited
    refine .inr ⟨after.ne', ?_⟩
    rw [visits, List.getElem?_append_right after.le, shift, List.getElem?_drop]
    split at visited
    · cases visited
    · rw [List.getElem?_drop, Nat.add_assoc, Nat.add_comm 1] at visited
      exact visited

/-- A round fills its node. -/
theorem Mirrors.filled (mirrors : run.Mirrors env) {cycle : PosCycle} {pid : TempId}
    {rest : List TempId} (current : run.cycle = some cycle) (first : cycle.peerPid = pid :: rest)
    (visit : PosVisit) {table : TableState} (sound : ∃ neighbours free, table.Inv neighbours free) :
    (run.filled env cycle visit rest table).Mirrors env := by
  obtain ⟨index, room⟩ := mirrors.running cycle current
  rw [first, List.length_cons] at room
  have shown : ∀ (slot : Slot) (other : PosVisit),
      (run.filled env cycle visit rest table).visits[slot.val]? = some other →
      ((run.vsa.writeNode cycle.i (visit.write env run.vsa.workingParam)).positionNode slot).pid =
          other.remoteStatus.pid ∧
        (other.computes →
          (run.vsa.writeNode cycle.i (visit.write env run.vsa.workingParam)).positionNode slot =
            other.place env run.vsa.workingParam) := by
    intro slot other visited
    simp only [VsaEnvar.writeNode, index]
    rcases visited_filled visited with ⟨here, rfl⟩ | ⟨elsewhere, kept⟩
    · rw [if_pos here]
      refine ⟨other.write_pid env run.vsa.workingParam _, fun computes => ?_⟩
      rw [PosVisit.write, if_pos computes]
    · rw [if_neg elsewhere]
      exact mirrors.shown slot other kept
  by_cases last : rest = []
  · rw [PositionRun.filled, if_pos last] at shown ⊢
    refine ⟨sound, shown, fun _ => rfl, ?_, ?_⟩
    · intro other same
      cases same
    · show (run.rounds ++ [visit]).length ≤ vamNeighbourMaxnum
      rw [List.length_append, List.length_singleton]
      omega
  · rw [PositionRun.filled, if_neg last] at shown ⊢
    refine ⟨sound, shown, ?_, ?_, mirrors.fits⟩
    · intro absent
      cases absent
    · intro other same
      obtain rfl := Option.some.inj same
      show cycle.i + 1 = (run.rounds ++ [visit]).length ∧
        (run.rounds ++ [visit]).length + rest.length ≤ vamNeighbourMaxnum
      rw [List.length_append, List.length_singleton]
      omega

/-- A station that is listed when the cycle comes to it is visited. -/
theorem round_visits (inv : run.table.Inv neighbours free) {slot : Slot}
    (member : slot ∈ neighbours) {cycle : PosCycle} {rest : List TempId}
    (current : run.cycle = some cycle) (first : cycle.peerPid = run.table.vam.pid slot :: rest)
    (valid : run.Step env .round next) :
    ∃ visit, next.visits[run.rounds.length]? = some visit ∧
      visit.remoteStatus = (run.table.vam.remote slot).s := by
  obtain ⟨same, pid, others, ret, remote, table, running, head, read, -, rfl⟩ := valid
  obtain rfl : cycle = same := Option.some.inj (current.symm.trans running)
  obtain ⟨rfl, rfl⟩ := List.cons.inj (first.symm.trans head)
  have persistent : Persistent
      (run.table.vam.peerStatusInto (run.table.vam.pid slot) cycle.remoteStatus) :=
    (run.table.vam.find_persistent _).map _ |>.map _
  obtain ⟨fuel, listed⟩ := inv.consistent.holds.find_listed
    (fun other neighbour own => inv.consistent.slot_unique neighbour member own) member
  have stored : run.table.vam.peerStatusInto (run.table.vam.pid slot) cycle.remoteStatus fuel =
      some (0, (run.table.vam.remote slot).s) := by
    rw [StaTable.peerStatusInto, listed]
    rfl
  have found := read.unique persistent ⟨fuel, stored⟩
  refine ⟨cycle.visit remote, ?_, congrArg Prod.snd found⟩
  rw [visits_filled, List.getElem?_append_right (Nat.le_refl _), Nat.sub_self]
  rfl

/-- An alarm can always be reported. -/
theorem exists_reported (run : PositionRun) (sta : VamStastatus) : ∃ vsa, run.Reported sta vsa := by
  by_cases lost : Diverges (run.vsa.vsaReceiveAlarmUpdate run.table.vam.toStaTable sta)
  · exact ⟨_, .inr ⟨lost, rfl⟩⟩
  · simp only [Diverges, not_forall, ← ne_eq, Option.ne_none_iff_exists'] at lost
    obtain ⟨fuel, ⟨vsa, requests⟩, called⟩ := lost
    exact ⟨vsa, .inl ⟨requests, fuel, called⟩⟩

/-- Every action keeps the position table and the rounds together. -/
theorem Mirrors.step (mirrors : run.Mirrors env) {action : PositionAction}
    (valid : run.Step env action next) : next.Mirrors env := by
  obtain ⟨neighbours, free, inv⟩ := mirrors.sound
  cases action with
  | receive msg =>
      obtain ⟨-, table, stepped, rfl⟩ := valid
      exact mirrors.frame (inv.preserved stepped) rfl rfl rfl rfl rfl
  | tick =>
      obtain ⟨-, table, stepped, rfl⟩ := valid
      exact mirrors.frame (inv.preserved stepped) rfl rfl rfl rfl rfl
  | alarm thread =>
      obtain ⟨sta, rest, vsa, -, reported, rfl⟩ := valid
      exact mirrors.frame ⟨_, _, inv⟩ reported.frame.1 reported.frame.2 rfl rfl rfl
  | setLocal sta =>
      obtain rfl : next = _ := valid
      exact mirrors.frame ⟨neighbours, free, inv.consistent, inv.tracked⟩ rfl rfl rfl rfl rfl
  | begin t stack =>
      obtain ⟨none, pids, ⟨fuel, returned⟩, rfl⟩ := valid
      have persistent : Persistent (run.table.vam.vamGetAllPeerPid vamNeighbourMaxnum) :=
        forEach_persistent _ _ _
      have whole := inv.consistent.holds.vamGetAllPeerPid_eq (Nat.lt_succ_self _)
      obtain rfl := Returns.unique persistent ⟨fuel, returned⟩ ⟨_, whole⟩
      exact mirrors.begun none t stack (by simpa using inv.consistent.holds.length_le)
  | round =>
      obtain ⟨cycle, pid, rest, ret, remote, table, current, first, -, stepped, rfl⟩ := valid
      exact mirrors.filled current first _ (inv.preserved stepped)

end PositionRun

/-- The threads in every order, from the initialized modules. -/
def positionSystem (env : PosEnv) : ActionSystem PositionAction where
  State := PositionRun
  Initial run := ∃ memory param pid evtHandler vsaParam, run =
    ⟨.init memory param pid evtHandler, vsaInit vsaParam, none, fun _ => [], [], []⟩
  Step := PositionRun.Step env

/-- Every lookup of an alarm finds what the last cycle computed for the station, exactly
when each time that cycle has computed something from a status of the station. -/
theorem alarm_lookups_iff (env : PosEnv) {start finish : PositionRun}
    (initial : (positionSystem env).Initial start)
    (path : (positionSystem env).Path start finish) :
    (path.StepsMeet fun (run : PositionRun) action =>
        ∀ pid, run.LooksUp action pid → run.Located env pid) ↔
      path.StepsMeet fun (run : PositionRun) action =>
        ∀ pid, run.LooksUp action pid → run.Visited pid := by
  have mirrored : start.Mirrors env := by
    obtain ⟨memory, param, pid, evtHandler, vsaParam, rfl⟩ := initial
    refine ⟨⟨_, _, TableState.Inv.initial memory param pid evtHandler⟩, ?_, fun _ => rfl, ?_,
      Nat.zero_le _⟩
    · intro slot visit visited
      simp [PositionRun.visits] at visited
    · intro cycle same
      cases same
  refine @ActionSystem.Path.stepsMeet_congr_of_invariant _ (positionSystem env) _ _
    (fun run : PositionRun => run.Mirrors env) _ _ mirrored ?_ ?_ path
  · intro run action next mirrors valid
    exact mirrors.step valid
  · intro run action next mirrors _
    exact forall_congr' fun pid => imp_congr_right fun _ => mirrors.located_iff

section Cases

open TableState StaTable

/-- Functions that are exact where the stations of the cases are. -/
def atOrigin : PosEnv where
  lib := ⟨fun x => x, fun _ => 1, fun x => x, fun _ => none, fun y _ => y, fun x => x⟩
  cast := .wrapping
  toU32 x := BitVec.ofInt 32 (truncate (x.getD 0))
  crdSaftyfactor := 4

/-- A basic safety message of 9.9.9.9 that reports hard braking. -/
def brakingBsm : Reception where
  kind := .bsm
  databuf := [0x02, 0, 9, 9, 9, 9] ++ List.replicate 37 0 ++ [0x80]
  now := 0

/-- The modules before anything was received. -/
def silent : PositionRun where
  table := .init ⟨id, id⟩ loadDefaultParam loadDefaultPid fun _ => true
  vsa := vsaInit ⟨30, 3, 0, 10⟩
  cycle := none
  alarms _ := []
  rounds := []
  ended := []

/-- The table once the message was parsed. -/
def joinedTable : TableState :=
  silent.table.accept brakingBsm (silent.table.vam.seat firstSlot brakingBsm.sender) firstSlot

/-- The status of the station. -/
def brakingSta : VamStastatus := (joinedTable.vam.remote firstSlot).s

/-- The receive thread is about to report the alarm. -/
def joined : PositionRun :=
  { silent with
    table := joinedTable
    alarms := Function.update silent.alarms .receive (alarmsOf joinedTable.events) }

/-- The braking car joins the table. -/
theorem joinedTable_joins : Returns (silent.table.step (.receive brakingBsm)) joinedTable ∧
    joinedTable.Inv [firstSlot] ((List.finRange 79).map Fin.succ) := by
  have every : List.finRange vamNeighbourMaxnum = firstSlot :: (List.finRange 79).map Fin.succ :=
    List.finRange_succ
  have inv := Inv.initial ⟨id, id⟩ loadDefaultParam loadDefaultPid fun _ => true
  rw [every] at inv
  have absent : ∀ other ∈ ([] : List Slot), silent.table.vam.pid other ≠ brakingBsm.sender := by
    simp
  have reaches : brakingBsm.Reaches silent.table.vam.localSta.pid := by decide
  rcases inv.receive_cases brakingBsm with
    ⟨-, other, member, -⟩ | ⟨-, -, other, rest, first, returns⟩ | ⟨dropped, -⟩
  · cases member
  · obtain ⟨rfl, rfl⟩ := List.cons.inj first
    exact ⟨returns, inv.accept_new absent⟩
  · exact absurd (dropped reaches).2 (List.cons_ne_nil _ _)

/-- What the station is stored with. -/
theorem brakingSta_eq : brakingSta =
    (brakingBsm.write ((silent.table.vam.seat firstSlot brakingBsm.sender).remote firstSlot)).s :=
  congrArg VamStaNode.s (modify_remote_self ..)

/-- Its message alarms. -/
theorem joined_alarms : joined.alarms .receive = [brakingSta] := by
  have events : alarmsOf joinedTable.events = [brakingSta] := by
    rw [brakingSta_eq]
    rfl
  show Function.update silent.alarms .receive (alarmsOf joinedTable.events) .receive = _
  rw [Function.update_self, events]

/-- The station has the pid of the car. -/
theorem brakingSta_pid : brakingSta.pid = brakingBsm.sender := by
  rw [brakingSta_eq, Reception.write_pid]
  exact seat_pid_self ..

/-- The station joins. -/
def joining : (positionSystem atOrigin).Path silent joined :=
  @ActionSystem.Path.snoc _ (positionSystem atOrigin) _ _ .nil (.receive brakingBsm) joined
    ⟨rfl, joinedTable, joinedTable_joins.1, rfl⟩

/-- A cycle visits the station before its alarm is reported. -/
theorem alarm_after_cycle :
    ∃ finish, ∃ path : (positionSystem atOrigin).Path silent finish,
      path.actions = [.receive brakingBsm, .begin 0 .zero, .round, .alarm .receive] ∧
        path.StepsMeet fun (run : PositionRun) action =>
          ∀ pid, run.LooksUp action pid → run.Located atOrigin pid := by
  obtain ⟨-, inv⟩ := joinedTable_joins
  have holds := inv.consistent.holds
  let begun := joined.begun atOrigin 0 .zero ([firstSlot].map joinedTable.vam.pid)
  let begins : (positionSystem atOrigin).Path silent begun :=
    @ActionSystem.Path.snoc _ (positionSystem atOrigin) _ _ joining (.begin 0 .zero) begun
      ⟨rfl, _, ⟨_, holds.vamGetAllPeerPid_eq (Nat.lt_succ_self _)⟩, rfl⟩
  let cycle : PosCycle :=
    ⟨joinedTable.vam.vamGetLocalCurrentStatus atOrigin.lib 0, .zero, some 0, 0,
      [joinedTable.vam.pid firstSlot]⟩
  obtain ⟨fuel, listed⟩ := holds.find_listed
    (fun other member _ => List.mem_singleton.1 member) (List.mem_singleton.2 rfl)
  have read : Returns (joinedTable.vam.peerStatusInto (joinedTable.vam.pid firstSlot) .zero)
      (0, brakingSta) := ⟨fuel, by rw [StaTable.peerStatusInto, listed]; rfl⟩
  obtain ⟨table, others, rest, counted, -⟩ :=
    inv.step (.setPeerCnt brakingSta.pid (cycle.visit brakingSta).cnt)
  let filled := begun.filled atOrigin cycle (cycle.visit brakingSta) [] table
  let rounds : (positionSystem atOrigin).Path silent filled :=
    @ActionSystem.Path.snoc _ (positionSystem atOrigin) _ _ begins .round filled
      ⟨cycle, joinedTable.vam.pid firstSlot, [], 0, brakingSta, table, rfl, rfl, read, counted, rfl⟩
  obtain ⟨vsa, reported⟩ := filled.exists_reported brakingSta
  let finish : PositionRun :=
    { filled with vsa := vsa, alarms := Function.update filled.alarms .receive [] }
  let path : (positionSystem atOrigin).Path silent finish :=
    @ActionSystem.Path.snoc _ (positionSystem atOrigin) _ _ rounds (.alarm .receive) finish
      ⟨brakingSta, [], vsa, joined_alarms, reported, rfl⟩
  have idle : (cycle.visit brakingSta).computes = true := by
    show decide (brakingSta.cnt = 0) = true
    rw [brakingSta_eq]
    decide
  have visits : filled.visits = [cycle.visit brakingSta] := rfl
  have visited : filled.Visited brakingSta.pid :=
    ⟨cycle.visit brakingSta, by rw [visits]; exact List.find?_cons_of_pos (decide_eq_true rfl), idle⟩
  refine ⟨finish, path, rfl, (alarm_lookups_iff atOrigin ⟨_, _, _, _, _, rfl⟩ path).2 ?_⟩
  refine ⟨⟨⟨⟨trivial, ?_⟩, ?_⟩, ?_⟩, ?_⟩
  · rintro pid ⟨⟩
  · rintro pid ⟨⟩
  · rintro pid ⟨⟩
  · rintro pid ⟨-, sta, rest, pending, rfl⟩
    obtain rfl : brakingSta = sta := (List.cons.inj (joined_alarms.symm.trans pending)).1
    exact visited

/-- The station joins with its first alert, and the callback runs before any cycle: the
lookup returns a null pointer. -/
theorem alarm_before_cycle :
    ∃ finish, ∃ path : (positionSystem atOrigin).Path silent finish,
      path.actions = [.receive brakingBsm, .alarm .receive] ∧
        joined.LooksUp (.alarm .receive) brakingBsm.sender ∧
        joined.vsa.vsaFindPn brakingBsm.sender = none ∧
        ¬ path.StepsMeet fun (run : PositionRun) action =>
          ∀ pid, run.LooksUp action pid → run.Located atOrigin pid := by
  obtain ⟨vsa, reported⟩ := joined.exists_reported brakingSta
  let finish : PositionRun :=
    { joined with vsa := vsa, alarms := Function.update joined.alarms .receive [] }
  let path : (positionSystem atOrigin).Path silent finish :=
    @ActionSystem.Path.snoc _ (positionSystem atOrigin) _ _ joining (.alarm .receive) finish
      ⟨brakingSta, [], vsa, joined_alarms, reported, rfl⟩
  have holds := joinedTable_joins.2.consistent.holds
  have read := holds.vamGetPeerAlertStatus_eq (Nat.lt_succ_self _)
  have braking : has brakingSta.alertMask vamAlertMaskEbd = true := by
    rw [brakingSta_eq]
    decide
  have judging : joined.Judging := by
    refine ⟨_, ⟨_, read⟩, .inr ?_⟩
    rw [holds.has_vamGetPeerAlertStatus read, List.any_cons, Bool.or_eq_true]
    exact .inl braking
  have looks : joined.LooksUp (.alarm .receive) brakingBsm.sender :=
    ⟨judging, brakingSta, [], joined_alarms, brakingSta_pid⟩
  have none : joined.vsa.vsaFindPn brakingBsm.sender = none := by decide
  refine ⟨finish, path, rfl, looks, none, fun located => ?_⟩
  obtain ⟨slot, visit, -, -, -, -, found⟩ := located.2 brakingBsm.sender looks
  exact absurd (none.symm.trans found) (Option.some_ne_none _).symm

end Cases

end Rsu.Vsa
