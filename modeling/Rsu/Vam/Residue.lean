import Rsu.Vam.Station

/-!
# What a slot keeps of its former station

`vam_find_sta` writes only the pid into the slot it hands out, and the first
message of the new station does not write every field. A `Stay` is a run that
follows one pid from a join on. Two stays with the same messages can be told
apart exactly when their slots came with different left-over fields.
-/

namespace Rsu.Vam

open Rsu.Data Rsu.Data.Links Rsu.Rcp Rsu.Common

/-- A free station under a new pid, with everything else as it was left. -/
def VamStaNode.takenOver (pid : TempId) (node : VamStaNode) : VamStaNode :=
  { node with s := { node.s with pid := pid } }

/-- The fields of a free station that a first message of this kind leaves alone:
the count always, and an alert brings no time, accuracy or acceleration. -/
def VamStaNode.leftover (kind : MsgKind) (node : VamStaNode) :
    Byte × Option (BitVec 16 × ℚ × VamAcce) :=
  (node.s.cnt,
    match kind with
    | .bsm => none
    | .evam => some (node.s.timestamp, node.s.pos.accu, node.s.acce))

/-- The station the next join is given. -/
def StaTable.firstFree (table : StaTable) : Option VamStaNode :=
  (table.list.next .staFreeList).slot?.map table.remote

/-- The first slot of the free list is handed out next. -/
theorem StaTable.Holds.firstFree_eq {table : StaTable} {neighbours free : List Slot} {slot : Slot}
    (holds : table.Holds neighbours (slot :: free)) : table.firstFree = some (table.remote slot) := by
  have next := holds.rings.right.next_head
  rw [List.map_cons, firstOr_cons] at next
  rw [firstFree, next]
  rfl

/-- A run in which a pid joins the neighbours, and its time as a neighbour since. -/
structure Stay (evtHandler : VamEvt → Bool) (paramPid pid : TempId) where
  memory : Links StaEntry
  param : VamConfig
  start : TableState
  begins : start = .init memory param paramPid evtHandler
  before : TableState
  history : tableSystem.Path start before
  absent : ¬ before.Listed pid
  join : Reception
  sender : join.sender = pid
  joined : TableState
  joins : Returns (before.step (.receive join)) joined
  listed : joined.Listed pid
  finish : TableState
  during : tableSystem.Path joined finish
  stays : during.StepsMeet fun state _ => TableState.Listed pid state

namespace Stay

variable {evtHandler : VamEvt → Bool} {paramPid pid : TempId}

/-- What reaches the station after its first message. -/
def concerned (stay : Stay evtHandler paramPid pid) : List TableAction :=
  stay.during.visible (TableAction.concerns (localPid paramPid) pid)

/-- What the handlers are told about the station. -/
def told (stay : Stay evtHandler paramPid pid) : List PeerEvent :=
  stay.joined.events.filter (·.about pid) ++
    stay.during.reports fun state : TableState => state.events.filter (·.about pid)

/-- The states after the join and after each action that reaches the station. -/
def stops (stay : Stay evtHandler paramPid pid) : List TableState :=
  stay.joined :: stay.during.stops (TableAction.concerns (localPid paramPid) pid)

/-- The left-over fields of the slot the station is given. -/
def leftover (stay : Stay evtHandler paramPid pid) : Option (Byte × Option (BitVec 16 × ℚ × VamAcce)) :=
  stay.before.vam.firstFree.map (VamStaNode.leftover stay.join.kind)

end Stay

/-- `vam_get_peer_status` returns the same for this pid. -/
def SameStatus (pid : TempId) (left right : TableState) : Prop :=
  ∀ status, Returns (left.vam.vamGetPeerStatus pid) status ↔
    Returns (right.vam.vamGetPeerStatus pid) status

/-- No handler call and no query about the pid tells two stays apart. -/
def Stay.Indistinguishable {evtHandler : VamEvt → Bool} {paramPid pid : TempId}
    (left right : Stay evtHandler paramPid pid) : Prop :=
  left.told = right.told ∧ List.Forall₂ (SameStatus pid) left.stops right.stops

/-- A station on the free list: no life and no alert. -/
def VamStaNode.Idle (node : VamStaNode) : Prop :=
  node.life = 0 ∧ node.alertLife = 0 ∧ node.s.alertMask = 0

/-- A message writes and reports the same over the same left-over fields. -/
theorem Reception.eq_of_leftover (msg : Reception) (pid : TempId) {left right : VamStaNode}
    (leftIdle : left.Idle) (rightIdle : right.Idle)
    (same : left.leftover msg.kind = right.leftover msg.kind) (evtHandler : VamEvt → Bool) :
    msg.write (left.takenOver pid) = msg.write (right.takenOver pid) ∧
      msg.report evtHandler (left.takenOver pid) = msg.report evtHandler (right.takenOver pid) := by
  obtain ⟨kind, databuf, now⟩ := msg
  obtain ⟨leftLife, leftAlertLife, leftMask⟩ := leftIdle
  obtain ⟨rightLife, rightAlertLife, rightMask⟩ := rightIdle
  cases kind with
  | bsm =>
      have cnt : left.s.cnt = right.s.cnt := congrArg Prod.fst same
      have stored : storeBsm (bsmOfFrame databuf) now (left.takenOver pid) =
          storeBsm (bsmOfFrame databuf) now (right.takenOver pid) := by
        simp only [storeBsm, VamStaNode.takenOver, cnt, leftMask, rightMask, leftAlertLife,
          rightAlertLife]
      exact ⟨by simp only [write, stored], by simp only [report, stored]⟩
  | evam =>
      simp only [VamStaNode.leftover, Prod.mk.injEq, Option.some.injEq] at same
      obtain ⟨cnt, timestamp, accu, acce⟩ := same
      have stored : storeEvam (evamOfFrame databuf) now (left.takenOver pid) =
          storeEvam (evamOfFrame databuf) now (right.takenOver pid) := by
        simp only [storeEvam, VamStaNode.takenOver, cnt, timestamp, accu, acce, leftLife, rightLife]
      exact ⟨stored, by simp only [report, stored]⟩

/-- The left-over fields show in the status after the first message. -/
theorem Reception.leftover_of_eq (msg : Reception) (pid : TempId) {left right : VamStaNode}
    (same : (msg.write (left.takenOver pid)).s = (msg.write (right.takenOver pid)).s) :
    left.leftover msg.kind = right.leftover msg.kind := by
  obtain ⟨kind, databuf, now⟩ := msg
  cases kind with
  | bsm =>
      have cnt := congrArg VamStastatus.cnt same
      by_cases extended : 42 < databuf.length <;>
        simpa [write, extended, storeBsm, storeAlert, VamStaNode.takenOver,
          VamStaNode.leftover] using cnt
  | evam =>
      simp only [write, storeEvam, VamStaNode.takenOver, VamStastatus.mk.injEq,
        VamPosition.mk.injEq] at same
      obtain ⟨-, timestamp, ⟨-, -, -, accu⟩, -, -, acce, -, -, cnt⟩ := same
      simp only [VamStaNode.leftover, cnt, timestamp, accu, acce]

namespace TableState

open StaTable

variable {evtHandler : VamEvt → Bool} {own pid : TempId} {state : TableState}
  {neighbours free : List Slot} {mode : Option VamStaNode}

/-- A query returns the status of the station the machine holds. -/
theorem Shows.getPeerStatus (shows : state.Shows evtHandler own pid mode) :
    Returns (state.vam.vamGetPeerStatus pid) (mode.map (·.s)) := by
  obtain ⟨-, -, neighbours, free, inv, seats⟩ := shows
  have found := inv.consistent.holds.find_eq pid (Nat.lt_succ_self neighbours.length)
  refine ⟨neighbours.length + 1, ?_⟩
  rw [vamGetPeerStatus, found, Option.map_some]
  cases mode with
  | none =>
      have absent : neighbours.find? (fun slot => state.vam.pid slot = pid) = none := by
        simpa [Seats] using seats
      rw [absent]
      rfl
  | some node =>
      obtain ⟨slot, member, named, stored⟩ := seats
      cases which : neighbours.find? fun slot => state.vam.pid slot = pid with
      | none => exact absurd named (by simpa using List.find?_eq_none.1 which slot member)
      | some other =>
          have same : state.vam.pid other = pid := by simpa using List.find?_some which
          obtain rfl := inv.consistent.slot_unique member (List.mem_of_find?_eq_some which)
            (named.trans same.symm)
          rw [← stored]
          rfl

/-- More fuel leads to the same status. -/
theorem vamGetPeerStatus_persistent (table : StaTable) (pid : TempId) :
    Persistent (table.vamGetPeerStatus pid) :=
  (table.find_persistent pid).map _

/-- States that show one mode answer queries alike. -/
theorem Shows.sameStatus {other : TableState} (shows : state.Shows evtHandler own pid mode)
    (otherShows : other.Shows evtHandler own pid mode) : SameStatus pid state other := by
  have left := vamGetPeerStatus_persistent state.vam.toStaTable pid
  have right := vamGetPeerStatus_persistent other.vam.toStaTable pid
  intro status
  constructor
  · intro returns
    exact returns.unique left shows.getPeerStatus ▸ otherShows.getPeerStatus
  · intro returns
    exact returns.unique right otherShows.getPeerStatus ▸ shows.getPeerStatus

end TableState

namespace Stay

open StaTable TableState

variable {evtHandler : VamEvt → Bool} {paramPid pid : TempId}

/-- A join hands out the first free slot, which is idle, under the new pid. -/
theorem joined_shows (stay : Stay evtHandler paramPid pid) :
    ∃ node : VamStaNode, node.Idle ∧ stay.leftover = some (node.leftover stay.join.kind) ∧
      stay.joined.Shows evtHandler (localPid paramPid) pid
        (some (stay.join.write (node.takenOver pid))) ∧
      stay.joined.events.filter (·.about pid) =
        stay.join.report evtHandler (node.takenOver pid) := by
  obtain ⟨⟨neighbours, free, inv⟩, handlers, own⟩ :=
    (inv_always stay.memory stay.param paramPid evtHandler (stay.begins ▸ stay.history)).last
  have persistent := stay.before.step_persistent (.receive stay.join)
  have sender := stay.sender
  rcases inv.receive_cases stay.join with
    ⟨-, slot, member, named, -⟩ | ⟨-, absent, slot, rest, rfl, returns⟩ | ⟨-, returns⟩
  · exact absurd ⟨neighbours, free, inv.consistent.holds, slot, member, named.trans sender⟩
      stay.absent
  · have joined := stay.joins.unique persistent returns
    have idle := inv.consistent.idle slot List.mem_cons_self
    have unmasked : (stay.before.vam.remote slot).s.alertMask = 0 := by
      by_contra carries
      have alive := inv.consistent.masked slot carries
      omega
    have renamed : (stay.before.vam.seat slot stay.join.sender).remote slot =
        (stay.before.vam.remote slot).takenOver pid := by
      rw [seat_remote_self, sender]
      rfl
    refine ⟨stay.before.vam.remote slot, ⟨idle.1, idle.2, unmasked⟩, ?_, ?_, ?_⟩
    · rw [leftover, inv.consistent.holds.firstFree_eq, Option.map_some]
    · rw [joined]
      refine ⟨handlers, own, _, _, inv.accept_new absent, slot, List.mem_cons_self, ?_, ?_⟩
      · rw [accept_pid, seat_pid_self, sender]
      · rw [← renamed]
        exact modify_remote_self ..
    · rw [joined, ← renamed]
      refine (stay.join.filter_report _ _ _).trans ((if_pos ?_).trans (by rw [handlers]))
      rw [renamed]
      rfl
  · have listed := stay.listed
    rw [stay.joins.unique persistent returns] at listed
    exact absurd listed stay.absent

/-- Stays that cannot be told apart have slots with the same left-over fields. -/
theorem Indistinguishable.leftover_eq {left right : Stay evtHandler paramPid pid}
    (sameJoin : left.join = right.join) (alike : left.Indistinguishable right) :
    left.leftover = right.leftover := by
  obtain ⟨old, -, oldLeft, oldShows, -⟩ := left.joined_shows
  obtain ⟨new, -, newLeft, newShows, -⟩ := right.joined_shows
  rw [← sameJoin] at newShows
  have status := (List.forall₂_cons.1 alike.2).1
  have answered := (status _).1 oldShows.getPeerStatus
  have same := answered.unique (vamGetPeerStatus_persistent _ pid) newShows.getPeerStatus
  rw [oldLeft, newLeft, ← sameJoin]
  exact congrArg some (left.join.leftover_of_eq pid (Option.some.inj same))

/-- Stays with the same messages and the same left-over fields cannot be told apart. -/
theorem indistinguishable_of_leftover {left right : Stay evtHandler paramPid pid}
    (sameJoin : left.join = right.join) (sameMessages : left.concerned = right.concerned)
    (same : left.leftover = right.leftover) : left.Indistinguishable right := by
  obtain ⟨old, oldIdle, oldLeft, oldShows, oldTold⟩ := left.joined_shows
  obtain ⟨new, newIdle, newLeft, newShows, newTold⟩ := right.joined_shows
  rw [oldLeft, newLeft, Option.some.injEq, ← sameJoin] at same
  rw [← sameJoin] at newShows newTold
  obtain ⟨written, reported⟩ := left.join.eq_of_leftover pid oldIdle newIdle same evtHandler
  rw [← written] at newShows
  rw [← reported] at newTold
  obtain ⟨spoken, stopped⟩ := (stationView evtHandler (localPid paramPid) pid).noninterference
    oldShows newShows left.stays right.stays sameMessages
  refine ⟨?_, .cons (oldShows.sameStatus newShows) (stopped.imp ?_)⟩
  · rw [told, told, oldTold, newTold]
    exact congrArg _ spoken
  · rintro before after ⟨mode, beforeShows, afterShows⟩
    exact beforeShows.sameStatus afterShows

end Stay

/-- A basic safety message of 9.9.9.9 with the time mark 7. -/
def visitorBsm : Reception where
  kind := .bsm
  databuf := [0x02, 0, 9, 9, 9, 9, 0, 0, 0, 0, 7, 0] ++ List.replicate 30 0
  now := 0

/-- The first alert of 7.7.7.7. -/
def newcomerEvam : Reception where
  kind := .evam
  databuf := [0x05, 7, 7, 7, 7] ++ List.replicate 66 0
  now := 0

/-- A station that is heard once and leaves. -/
def visit : List TableAction := .receive visitorBsm :: List.replicate 5 .tick

namespace TableState

open StaTable

/-- The time mark stored in a slot. -/
def timestamp (state : TableState) (slot : Slot) : BitVec 16 := (state.vam.remote slot).s.timestamp

variable {start state : TableState} {free : List Slot} {slot : Slot}

/-- Ageing leaves the time of the last message. -/
theorem timestamp_age (node : VamStaNode) : node.age.s.timestamp = node.s.timestamp := by
  unfold VamStaNode.age
  split <;> rfl

/-- A neighbour tick changes no time mark. -/
theorem tick_timestamp {neighbours : List Slot} {next : TableState}
    (ticked : state.vam.Ticked neighbours free next.events next.vam) :
    next.timestamp = state.timestamp := by
  funext slot
  rw [timestamp, ticked.remote]
  split
  · exact timestamp_age _
  · rfl

/-- A lone neighbour leaves when its life is over. -/
theorem lone_leaves (life : Nat) (inv : state.Inv [slot] free)
    (lives : (state.vam.remote slot).life = life + 1)
    (calm : (state.vam.remote slot).alertLife = 0) (prior : tableSystem.Path start state) :
    ∃ (finish : TableState) (path : tableSystem.Path start finish),
      path.actions = prior.actions ++ List.replicate (life + 1) .tick ∧
        finish.Inv [] (free ++ [slot]) ∧ finish.timestamp = state.timestamp := by
  induction life generalizing state with
  | zero =>
      obtain ⟨next, returns, ticked, kept⟩ := inv.tick
      have dies : state.vam.diesNow slot = true := by
        rw [diesNow, VamStaNode.age_dead_iff]
        omega
      exact ⟨next, @ActionSystem.Path.snoc _ tableSystem _ _ prior .tick next returns, rfl,
        by simpa [dies] using kept, tick_timestamp ticked⟩
  | succ rest inductionHypothesis =>
      obtain ⟨next, returns, ticked, kept⟩ := inv.tick
      have stays : state.vam.diesNow slot = false := by
        rw [diesNow, ← Bool.not_eq_true, VamStaNode.age_dead_iff]
        omega
      have aged : next.vam.remote slot = (state.vam.remote slot).age := by
        rw [ticked.remote, if_pos List.mem_cons_self]
      obtain ⟨finish, path, actions, left, same⟩ := inductionHypothesis
        (by simpa [stays] using kept) (by simp [aged, VamStaNode.age, lives])
        (by simp [aged, VamStaNode.age, calm])
        (@ActionSystem.Path.snoc _ tableSystem _ _ prior .tick next returns)
      exact ⟨finish, path, actions.trans (List.append_assoc ..), left,
        same.trans (tick_timestamp ticked)⟩

/-- A visit leaves the first free slot at the end of the free list, with the time
mark of the visitor. -/
theorem visit_leaves (inv : state.Inv [] (slot :: free))
    (foreign : state.vam.localSta.pid ≠ visitorBsm.sender) (prior : tableSystem.Path start state) :
    ∃ (finish : TableState) (path : tableSystem.Path start finish),
      path.actions = prior.actions ++ visit ∧ finish.Inv [] (free ++ [slot]) ∧
        finish.timestamp = Function.update state.timestamp slot 7 := by
  have reaches : visitorBsm.Reaches state.vam.localSta.pid := ⟨by decide, foreign.symm⟩
  have absent : ∀ other ∈ ([] : List Slot), state.vam.pid other ≠ visitorBsm.sender := by simp
  rcases inv.receive_cases visitorBsm with
    ⟨-, other, member, -⟩ | ⟨-, -, other, rest, first, returns⟩ | ⟨dropped, -⟩
  · cases member
  · obtain ⟨rfl, rfl⟩ := List.cons.inj first
    have idle := inv.consistent.idle slot List.mem_cons_self
    let table := state.vam.seat slot visitorBsm.sender
    let joined := state.accept visitorBsm table slot
    have stored : joined.vam.remote slot = visitorBsm.write (table.remote slot) :=
      modify_remote_self ..
    have calm : (joined.vam.remote slot).alertLife = 0 := by
      have kept : (visitorBsm.write (table.remote slot)).alertLife = (table.remote slot).alertLife :=
        rfl
      rw [stored, kept, seat_remote_self]
      exact idle.2
    let longer := @ActionSystem.Path.snoc _ tableSystem _ _ prior (.receive visitorBsm) joined returns
    obtain ⟨finish, path, actions, left, kept⟩ := lone_leaves 4 (inv.accept_new absent)
      (congrArg VamStaNode.life stored) calm longer
    refine ⟨finish, path, actions.trans (List.append_assoc ..), left, ?_⟩
    · rw [kept]
      funext other
      by_cases here : other = slot
      · subst here
        rw [Function.update_self]
        exact congrArg (fun node => node.s.timestamp) stored
      · rw [Function.update_of_ne here]
        exact congrArg (fun node => node.s.timestamp)
          ((modify_remote_of_ne _ _ here).trans (seat_remote_of_ne _ _ here))
  · exact absurd (dropped reaches).2 (List.cons_ne_nil _ _)

/-- Enough visits leave the mark of the visitor in every slot. -/
theorem visits_leave {memory : Links StaEntry} {param : VamConfig} {evtHandler : VamEvt → Bool}
    {front back : List Slot} (inv : state.Inv [] (front ++ back))
    (marked : ∀ slot ∈ back, state.timestamp slot = 7)
    (prior : tableSystem.Path (.init memory param loadDefaultPid evtHandler) state) :
    ∃ (finish : TableState)
      (path : tableSystem.Path (.init memory param loadDefaultPid evtHandler) finish)
      (free : List Slot),
      path.actions = prior.actions ++ (List.replicate front.length visit).flatten ∧
        finish.Inv [] free ∧ ∀ slot ∈ free, finish.timestamp slot = 7 := by
  induction front generalizing state back with
  | nil => exact ⟨state, prior, back, by simp, inv, marked⟩
  | cons slot front inductionHypothesis =>
      obtain ⟨-, -, own⟩ := (inv_always memory param loadDefaultPid evtHandler prior).last
      have foreign : state.vam.localSta.pid ≠ visitorBsm.sender := by
        rw [own]
        decide
      obtain ⟨next, longer, visited, left, written⟩ := visit_leaves inv foreign prior
      have rotated : next.Inv [] (front ++ (back ++ [slot])) := by
        rwa [← List.append_assoc]
      have again : ∀ other ∈ back ++ [slot], next.timestamp other = 7 := by
        intro other member
        rw [written]
        by_cases here : other = slot
        · rw [here, Function.update_self]
        · rw [Function.update_of_ne here]
          exact marked other ((List.mem_append.1 member).resolve_right (by simpa using here))
      obtain ⟨finish, path, free, actions, kept, all⟩ := inductionHypothesis rotated again longer
      refine ⟨finish, path, free, ?_, kept, all⟩
      rw [actions, visited, List.append_assoc, List.length_cons, List.replicate_succ,
        List.flatten_cons]

/-- The newcomer joins when there are no neighbours. -/
theorem exists_stay {memory : Links StaEntry} {param : VamConfig} {evtHandler : VamEvt → Bool}
    (inv : state.Inv [] (slot :: free))
    (history : tableSystem.Path (.init memory param loadDefaultPid evtHandler) state) :
    ∃ stay : Stay evtHandler loadDefaultPid newcomerEvam.sender,
      stay.history.actions = history.actions ∧ stay.join = newcomerEvam ∧ stay.concerned = [] ∧
        stay.leftover = some ((state.vam.remote slot).leftover .evam) := by
  obtain ⟨-, -, own⟩ := (inv_always memory param loadDefaultPid evtHandler history).last
  have reaches : newcomerEvam.Reaches state.vam.localSta.pid := by
    rw [own]
    decide
  have absent : ∀ other ∈ ([] : List Slot), state.vam.pid other ≠ newcomerEvam.sender := by simp
  have unlisted : ¬ state.Listed newcomerEvam.sender := by
    rintro ⟨neighbours, rest, holds, other, member, -⟩
    obtain ⟨rfl, -⟩ := inv.consistent.holds.unique holds
    cases member
  rcases inv.receive_cases newcomerEvam with
    ⟨-, other, member, -⟩ | ⟨-, -, other, rest, first, returns⟩ | ⟨dropped, -⟩
  · cases member
  · obtain ⟨rfl, rfl⟩ := List.cons.inj first
    let table := state.vam.seat slot newcomerEvam.sender
    have listed : (state.accept newcomerEvam table slot).Listed newcomerEvam.sender := by
      refine ⟨_, _, (inv.accept_new absent).consistent.holds, slot, List.mem_cons_self, ?_⟩
      rw [accept_pid, seat_pid_self]
    let stay : Stay evtHandler loadDefaultPid newcomerEvam.sender :=
      { memory := memory
        param := param
        start := .init memory param loadDefaultPid evtHandler
        begins := rfl
        before := state
        history := history
        absent := unlisted
        join := newcomerEvam
        sender := rfl
        joined := state.accept newcomerEvam table slot
        joins := returns
        listed := listed
        finish := state.accept newcomerEvam table slot
        during := .nil
        stays := trivial }
    refine ⟨stay, rfl, rfl, rfl, ?_⟩
    rw [Stay.leftover, inv.consistent.holds.firstFree_eq, Option.map_some]
    rfl
  · exact absurd (dropped reaches).2 (List.cons_ne_nil _ _)

end TableState

namespace Stay

open TableState

variable {evtHandler : VamEvt → Bool} {paramPid pid : TempId}

/-- A stay in a fresh slot, and one after eighty visits have used every slot. -/
theorem exist_fresh_and_used (memory : Links StaEntry) (param : VamConfig)
    (evtHandler : VamEvt → Bool) :
    ∃ fresh used : Stay evtHandler loadDefaultPid newcomerEvam.sender,
      fresh.history.actions = [] ∧ used.history.actions = (List.replicate 80 visit).flatten ∧
        fresh.join = newcomerEvam ∧ used.join = newcomerEvam ∧
        fresh.concerned = used.concerned ∧ fresh.leftover ≠ used.leftover := by
  have every : List.finRange vamNeighbourMaxnum = 0 :: (List.finRange 79).map Fin.succ :=
    List.finRange_succ
  have initial := Inv.initial memory param loadDefaultPid evtHandler
  have untouched : (init memory param loadDefaultPid evtHandler).Inv []
      (List.finRange vamNeighbourMaxnum ++ []) := by rwa [List.append_nil]
  rw [every] at initial
  obtain ⟨fresh, nothing, freshJoin, freshSeen, freshLeft⟩ := exists_stay initial .nil
  obtain ⟨state, path, free, actions, inv, marked⟩ := visits_leave untouched (by simp) .nil
  cases free with
  | nil => exact absurd (inv.consistent.holds.complete 0) (by simp)
  | cons slot rest =>
      obtain ⟨used, visited, usedJoin, usedSeen, usedLeft⟩ := exists_stay inv path
      refine ⟨fresh, used, nothing, ?_, freshJoin, usedJoin, freshSeen.trans usedSeen.symm, ?_⟩
      · rw [visited, actions, List.length_finRange]
        rfl
      · have mark : (state.vam.remote slot).s.timestamp = 7 := marked slot List.mem_cons_self
        rw [freshLeft, usedLeft]
        simp [VamStaNode.leftover, mark, init, vamInit, StaTable.init, VamStastatus.zero]

/-- Two stays with the same messages are indistinguishable exactly when their
slots came with the same left-over fields. -/
theorem slot_noninterference_iff (left right : Stay evtHandler paramPid pid)
    (sameJoin : left.join = right.join) (sameMessages : left.concerned = right.concerned) :
    left.Indistinguishable right ↔ left.leftover = right.leftover :=
  ⟨fun alike => alike.leftover_eq sameJoin, indistinguishable_of_leftover sameJoin sameMessages⟩

/-- A station that was used can be told from a fresh one. -/
theorem slot_noninterference_fresh_used :
    ∃ fresh used : Stay (fun _ => true) loadDefaultPid newcomerEvam.sender,
      fresh.leftover ≠ used.leftover ∧
        (fresh.Indistinguishable used ↔ fresh.leftover = used.leftover) := by
  obtain ⟨fresh, used, -, -, freshJoin, usedJoin, sameMessages, different⟩ :=
    exist_fresh_and_used ⟨id, id⟩ loadDefaultParam fun _ => true
  exact ⟨fresh, used, different,
    slot_noninterference_iff fresh used (freshJoin.trans usedJoin.symm) sameMessages⟩

/-- The newcomer's first alert, alone after `vam_init` and after eighty visits of
another station: its status tells the two runs apart. -/
theorem former_occupant_shows :
    ∃ fresh used : Stay (fun _ => true) loadDefaultPid newcomerEvam.sender,
      fresh.history.actions = [] ∧ used.history.actions = (List.replicate 80 visit).flatten ∧
        fresh.join = newcomerEvam ∧ used.join = newcomerEvam ∧
        fresh.concerned = used.concerned ∧ ¬ fresh.Indistinguishable used := by
  obtain ⟨fresh, used, nothing, visited, freshJoin, usedJoin, sameMessages, different⟩ :=
    exist_fresh_and_used ⟨id, id⟩ loadDefaultParam fun _ => true
  refine ⟨fresh, used, nothing, visited, freshJoin, usedJoin, sameMessages, fun alike => ?_⟩
  exact different (alike.leftover_eq (freshJoin.trans usedJoin.symm))

end Stay

end Rsu.Vam
