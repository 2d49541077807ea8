import Rsu.Semantics.View
import Rsu.Vam.Neighbours

/-!
# One station on its own

What the table is for, seen from one peer: its messages, the ticks and the
counts set for it decide what is stored and reported about it. `stationView` is
that machine as a view of the whole table. The other peers take slots, share the
lists and are reported in between, but they do not reach it.
-/

namespace Rsu.Vam

open Rsu.Data Rsu.Rcp Rsu.Common

/-- The handler call is about this pid. -/
def PeerEvent.about (pid : TempId) (event : PeerEvent) : Bool :=
  event.sta.any fun sta => sta.pid = pid

/-- A handler call is about the pid of the status it passes. -/
theorem filter_callHandler (evtHandler : VamEvt → Bool) (evt : VamEvt) (sta : VamStastatus)
    (pid : TempId) :
    (callHandler evtHandler evt (some sta)).filter (·.about pid) =
      if sta.pid = pid then callHandler evtHandler evt (some sta) else [] := by
  by_cases set : evtHandler evt = true <;> by_cases same : sta.pid = pid <;>
    simp [callHandler, PeerEvent.about, set, same]

/-- An event without a station is about none. -/
theorem filter_callHandler_none (evtHandler : VamEvt → Bool) (evt : VamEvt) (pid : TempId) :
    (callHandler evtHandler evt none).filter (·.about pid) = [] := by
  by_cases set : evtHandler evt = true <;> simp [callHandler, PeerEvent.about, set]

/-- A message reports on the pid of its station. -/
theorem Reception.filter_report (msg : Reception) (evtHandler : VamEvt → Bool) (node : VamStaNode)
    (pid : TempId) :
    (msg.report evtHandler node).filter (·.about pid) =
      if node.s.pid = pid then msg.report evtHandler node else [] := by
  obtain ⟨kind, databuf, now⟩ := msg
  cases kind with
  | bsm =>
      by_cases extended : 42 < databuf.length
      · simp only [report, extended, if_true, List.filter_append, filter_callHandler]
        by_cases same : node.s.pid = pid <;> simp [storeBsm, storeAlert, same]
      · simp [report, extended, filter_callHandler, storeBsm]
  | evam => simp [report, filter_callHandler, storeEvam]

/-- A list of reports of which only one slot has any to make. -/
theorem flatMap_single {α β : Type} [DecidableEq α] {items : List α} {f : α → List β}
    (nodup : items.Nodup) (item : α) (others : ∀ other ∈ items, other ≠ item → f other = []) :
    items.flatMap f = if item ∈ items then f item else [] := by
  induction items with
  | nil => simp
  | cons first rest inductionHypothesis =>
      have tail := inductionHypothesis (List.nodup_cons.1 nodup).2 fun other member =>
        others other (List.mem_cons_of_mem first member)
      rw [List.flatMap_cons, tail]
      by_cases same : first = item
      · subst same
        simp [(List.nodup_cons.1 nodup).1]
      · have silent := others first List.mem_cons_self same
        simp [silent, Ne.symm same]

/-- The steps of one station: `none` once it was kicked out. -/
def stationAdvance (mode : Option VamStaNode) (action : TableAction) : Option VamStaNode :=
  mode.bind fun node =>
    match action with
    | .receive msg => some (msg.write node)
    | .tick => if node.age.dead then none else some node.age
    | .setPeerCnt _ cnt => some (StaTable.setCnt cnt node)

/-- What the handlers are told about one station. -/
def stationTells (evtHandler : VamEvt → Bool) (mode : Option VamStaNode) (action : TableAction) :
    List PeerEvent :=
  match mode with
  | none => []
  | some node =>
      match action with
      | .receive msg => msg.report evtHandler node
      | .tick => if node.alertTimesOut then callHandler evtHandler .peerAlarm node.age.s else []
      | .setPeerCnt _ _ => []

/-- The actions that concern a pid, at a node with its own pid. -/
def TableAction.concerns (own pid : TempId) : TableAction → Bool
  | .receive msg => msg.Reaches own ∧ msg.sender = pid
  | .tick => true
  | .setPeerCnt peer _ => peer = pid

namespace TableState

open StaTable

/-- The pid is on the neighbour list. -/
def Listed (pid : TempId) (state : TableState) : Prop :=
  ∃ neighbours free : List Slot, state.vam.toStaTable.Holds neighbours free ∧
    ∃ slot ∈ neighbours, state.vam.pid slot = pid

/-- The station of a pid, or that there is none. -/
def Seats (pid : TempId) (table : StaTable) (neighbours : List Slot) : Option VamStaNode → Prop
  | some node => ∃ slot ∈ neighbours, table.pid slot = pid ∧ table.remote slot = node
  | none => ∀ slot ∈ neighbours, table.pid slot ≠ pid

/-- The state of the module shows a mode of the station machine. -/
def Shows (evtHandler : VamEvt → Bool) (own pid : TempId) (state : TableState)
    (mode : Option VamStaNode) : Prop :=
  state.vam.evtHandler = evtHandler ∧ state.vam.localSta.pid = own ∧
    ∃ neighbours free, state.Inv neighbours free ∧ Seats pid state.vam.toStaTable neighbours mode

variable {evtHandler : VamEvt → Bool} {own pid : TempId} {state next : TableState}
  {neighbours free : List Slot} {mode : Option VamStaNode} {slot : Slot}

/-- A listed pid has a seat, and the machine holds what is stored there. -/
theorem Shows.seated (shows : state.Shows evtHandler own pid mode) (listed : state.Listed pid) :
    ∃ neighbours free slot, mode = some (state.vam.remote slot) ∧ state.Inv neighbours free ∧
      slot ∈ neighbours ∧ state.vam.pid slot = pid := by
  obtain ⟨-, -, neighbours, free, inv, seats⟩ := shows
  obtain ⟨others, rest, holds, slot, member, same⟩ := listed
  obtain ⟨rfl, rfl⟩ := inv.consistent.holds.unique holds
  cases mode with
  | none => exact absurd same (seats slot member)
  | some node =>
      obtain ⟨seat, seated, named, rfl⟩ := seats
      exact ⟨neighbours, free, seat, rfl, inv, seated, named⟩

@[simp] theorem accept_pid (state : TableState) (msg : Reception) (table : StaTable)
    (slot other : Slot) : (state.accept msg table slot).vam.pid other = table.pid other :=
  table.modify_pid slot msg.write_pid other

/-- The station follows its own messages. -/
theorem follows_receive (inv : state.Inv neighbours free) (member : slot ∈ neighbours)
    (named : state.vam.pid slot = pid) {msg : Reception} (sender : msg.sender = pid)
    (reaches : msg.Reaches state.vam.localSta.pid)
    (stepped : Returns (state.step (.receive msg)) next) :
    next.Shows state.vam.evtHandler state.vam.localSta.pid pid
        (some (msg.write (state.vam.remote slot))) ∧
      next.events.filter (·.about pid) =
        msg.report state.vam.evtHandler (state.vam.remote slot) := by
  have persistent := state.step_persistent (.receive msg)
  have present : ¬ ∀ other ∈ neighbours, state.vam.pid other ≠ msg.sender := fun absent =>
    absent slot member (named.trans sender.symm)
  rcases inv.receive_cases msg with
    ⟨-, other, neighbour, owner, returns⟩ | ⟨-, absent, -⟩ | ⟨dropped, -⟩
  · obtain rfl : slot = other :=
      inv.consistent.slot_unique member neighbour (named.trans (sender.symm.trans owner.symm))
    obtain rfl := stepped.unique persistent returns
    refine ⟨⟨rfl, rfl, neighbours, free, inv.accept_known member owner, slot, member, ?_, ?_⟩, ?_⟩
    · rw [accept_pid, named]
    · exact modify_remote_self ..
    · exact (msg.filter_report _ _ _).trans (if_pos named)
  · exact absurd absent present
  · exact absurd (dropped reaches).1 present

/-- Messages of others do not reach the station. -/
theorem ignores_receive (inv : state.Inv neighbours free) (member : slot ∈ neighbours)
    (named : state.vam.pid slot = pid) {msg : Reception}
    (foreign : ¬ (msg.Reaches state.vam.localSta.pid ∧ msg.sender = pid))
    (stepped : Returns (state.step (.receive msg)) next) :
    next.Shows state.vam.evtHandler state.vam.localSta.pid pid (some (state.vam.remote slot)) ∧
      next.events.filter (·.about pid) = [] := by
  have persistent := state.step_persistent (.receive msg)
  rcases inv.receive_cases msg with
    ⟨reaches, other, neighbour, owner, returns⟩ | ⟨reaches, absent, other, rest, rfl, returns⟩ |
      ⟨-, returns⟩
  · obtain rfl := stepped.unique persistent returns
    have different : msg.sender ≠ pid := fun same => foreign ⟨reaches, same⟩
    have apart : slot ≠ other := by
      rintro rfl
      exact different (owner.symm.trans named)
    refine ⟨⟨rfl, rfl, neighbours, free, inv.accept_known neighbour owner, slot, member, ?_, ?_⟩, ?_⟩
    · rw [accept_pid, named]
    · exact modify_remote_of_ne _ _ apart
    · refine (msg.filter_report _ _ _).trans (if_neg ?_)
      exact fun same => different (owner.symm.trans same)
  · obtain rfl := stepped.unique persistent returns
    have different : msg.sender ≠ pid := fun same => foreign ⟨reaches, same⟩
    have apart : slot ≠ other := by
      rintro rfl
      exact inv.consistent.holds.not_mem_free member List.mem_cons_self
    refine ⟨⟨rfl, rfl, _, _, inv.accept_new absent, slot, List.mem_cons_of_mem _ member, ?_, ?_⟩, ?_⟩
    · rw [accept_pid, seat_pid_of_ne _ _ apart, named]
    · exact (modify_remote_of_ne _ _ apart).trans (seat_remote_of_ne _ _ apart)
    · refine (msg.filter_report _ _ _).trans (if_neg ?_)
      rw [seat_remote_self]
      exact different
  · obtain rfl := stepped.unique persistent returns
    exact ⟨⟨rfl, rfl, neighbours, free, ⟨inv.consistent, inv.tracked⟩, slot, member, named, rfl⟩, rfl⟩

/-- The station ages with every tick, and leaves when it is dead. -/
theorem follows_tick (inv : state.Inv neighbours free) (member : slot ∈ neighbours)
    (named : state.vam.pid slot = pid) (stepped : Returns (state.step .tick) next) :
    next.Shows state.vam.evtHandler state.vam.localSta.pid pid
        (stationAdvance (some (state.vam.remote slot)) .tick) ∧
      next.events.filter (·.about pid) =
        stationTells state.vam.evtHandler (some (state.vam.remote slot)) .tick := by
  obtain ⟨result, returns, ticked, kept⟩ := inv.tick
  obtain rfl := stepped.unique (state.step_persistent .tick) returns
  have pids : ∀ other ∈ neighbours, next.vam.pid other = state.vam.pid other := by
    intro other neighbour
    rw [StaTable.pid, ticked.remote, if_pos neighbour, VamStaNode.age_pid, StaTable.pid]
  refine ⟨⟨ticked.evtHandler, ticked.localSta ▸ rfl, _, _, kept, ?_⟩, ?_⟩
  · cases dies : (state.vam.remote slot).age.dead with
    | true =>
        have left : stationAdvance (some (state.vam.remote slot)) .tick = none := by
          simp [stationAdvance, dies]
        rw [left]
        intro other survives same
        obtain ⟨neighbour, lives⟩ := List.mem_filter.1 survives
        obtain rfl : slot = other := inv.consistent.slot_unique member neighbour
          (named.trans (same.symm.trans (pids other neighbour)))
        simp [diesNow, dies] at lives
    | false =>
        have stays : stationAdvance (some (state.vam.remote slot)) .tick =
            some (state.vam.remote slot).age := by simp [stationAdvance, dies]
        rw [stays]
        refine ⟨slot, List.mem_filter.2 ⟨member, by simp [diesNow, dies]⟩, ?_, ?_⟩
        · rw [pids slot member, named]
        · rw [ticked.remote, if_pos member]
  · rw [ticked.events, List.filter_append, List.filter_flatMap]
    have farewell : (if state.vam.gotNeighbour && neighbours.isEmpty then
        callHandler state.vam.evtHandler .peerUpdate none else []).filter (·.about pid) = [] := by
      split
      · exact filter_callHandler_none ..
      · rfl
    have distinct : (neighbours.filter state.vam.timesOutNow).reverse.Nodup :=
      List.nodup_reverse.2 ((List.nodup_append.1 inv.consistent.holds.nodup).1.filter _)
    rw [farewell, List.append_nil, flatMap_single distinct slot]
    · have own : (state.vam.remote slot).s.pid = pid := named
      simp only [filter_callHandler, VamStaNode.age_pid, own, if_true]
      cases out : (state.vam.remote slot).alertTimesOut <;>
        simp [stationTells, timesOutNow, out, member]
    · intro other listed different
      have neighbour := (List.mem_filter.1 (List.mem_reverse.1 listed)).1
      rw [filter_callHandler, VamStaNode.age_pid, if_neg]
      exact fun same => different (inv.consistent.slot_unique neighbour member (same.trans named.symm))

/-- The station follows the counts set for it. -/
theorem follows_setPeerCnt (inv : state.Inv neighbours free) (member : slot ∈ neighbours)
    (named : state.vam.pid slot = pid) {cnt : Byte}
    (stepped : Returns (state.step (.setPeerCnt pid cnt)) next) :
    next.Shows state.vam.evtHandler state.vam.localSta.pid pid
        (some (setCnt cnt (state.vam.remote slot))) ∧ next.events.filter (·.about pid) = [] := by
  have persistent := state.step_persistent (.setPeerCnt pid cnt)
  rcases inv.setPeerCnt_cases pid cnt with ⟨other, neighbour, owner, returns⟩ | ⟨absent, -⟩
  · obtain rfl := inv.consistent.slot_unique member neighbour (named.trans owner.symm)
    obtain rfl := stepped.unique persistent returns
    refine ⟨⟨rfl, rfl, neighbours, free, inv.setCnt member cnt, slot, member, ?_, ?_⟩, rfl⟩
    · exact (modify_pid _ slot (setCnt_pid cnt) slot).trans named
    · exact modify_remote_self ..
  · exact absurd named (absent slot member)

/-- Counts set for others do not reach the station. -/
theorem ignores_setPeerCnt (inv : state.Inv neighbours free) (member : slot ∈ neighbours)
    (named : state.vam.pid slot = pid) {peer : TempId} (different : peer ≠ pid) {cnt : Byte}
    (stepped : Returns (state.step (.setPeerCnt peer cnt)) next) :
    next.Shows state.vam.evtHandler state.vam.localSta.pid pid (some (state.vam.remote slot)) ∧
      next.events.filter (·.about pid) = [] := by
  have persistent := state.step_persistent (.setPeerCnt peer cnt)
  rcases inv.setPeerCnt_cases peer cnt with ⟨other, neighbour, owner, returns⟩ | ⟨-, returns⟩
  · obtain rfl := stepped.unique persistent returns
    have apart : slot ≠ other := by
      rintro rfl
      exact different (owner.symm.trans named)
    refine ⟨⟨rfl, rfl, neighbours, free, inv.setCnt neighbour cnt, slot, member, ?_, ?_⟩, rfl⟩
    · exact (modify_pid _ other (setCnt_pid cnt) slot).trans named
    · exact modify_remote_of_ne _ _ apart
  · obtain rfl := stepped.unique persistent returns
    exact ⟨⟨rfl, rfl, neighbours, free, ⟨inv.consistent, inv.tracked⟩, slot, member, named, rfl⟩, rfl⟩

end TableState

open TableState

/-- One station as a view of the table, while its pid is listed. -/
def stationView (evtHandler : VamEvt → Bool) (own pid : TempId) :
    tableSystem.View (Option VamStaNode) PeerEvent where
  relevant := TableAction.concerns own pid
  advance := stationAdvance
  tells := stationTells evtHandler
  report := fun state : TableState => state.events.filter (·.about pid)
  Shows := fun state : TableState => state.Shows evtHandler own pid
  Guard := Listed pid
  follows := by
    intro state action next mode listed shows stepped relevant
    obtain ⟨neighbours, free, slot, rfl, inv, member, named⟩ := Shows.seated shows listed
    obtain ⟨rfl, rfl, -⟩ := shows
    cases action with
    | receive msg =>
        obtain ⟨reaches, sender⟩ := of_decide_eq_true relevant
        exact follows_receive inv member named sender reaches stepped
    | tick => exact follows_tick inv member named stepped
    | setPeerCnt peer cnt =>
        obtain rfl := of_decide_eq_true relevant
        exact follows_setPeerCnt inv member named stepped
  ignores := by
    intro state action next mode listed shows stepped irrelevant
    obtain ⟨neighbours, free, slot, rfl, inv, member, named⟩ := Shows.seated shows listed
    obtain ⟨rfl, rfl, -⟩ := shows
    cases action with
    | receive msg => exact ignores_receive inv member named (of_decide_eq_false irrelevant) stepped
    | tick => cases irrelevant
    | setPeerCnt peer cnt =>
        exact ignores_setPeerCnt inv member named (of_decide_eq_false irrelevant) stepped

end Rsu.Vam
