import Rsu.Semantics.ActionSystem
import Rsu.Vam.Receive

/-!
# The neighbour table over whole runs

Receptions and neighbour ticks, in any order, from the state `vam_init` leaves.
Beside the table a state records for every pid how many ticks ago a message from
it was last accepted. The neighbours are exactly the senders heard within the
last five ticks.
-/

namespace Rsu.Vam

open Rsu.Data Rsu.Data.Links Rsu.Rcp Rsu.Common

/-- The module, the ticks since the last message of each sender was accepted, and
the handler calls of the last step. -/
structure TableState where
  vam : VamEnvar
  since : TempId → Option Nat
  events : List PeerEvent

/-- One step of the table; the application also sets the count of a peer. -/
inductive TableAction where
  | receive (msg : Reception)
  | tick
  | setPeerCnt (pid : TempId) (cnt : Byte)

namespace TableState

/-- What an action does. A message is accepted when its parser gets a station. -/
def step (state : TableState) (action : TableAction) (fuel : Nat) : Option TableState :=
  match action with
  | .receive msg => (msg.parse state.vam fuel).map fun result =>
      { vam := result.vam
        since :=
          if result.station.isSome then Function.update state.since msg.sender (some 0)
          else state.since
        events := result.events }
  | .tick => (state.vam.vamUpdateSta fuel).map fun result =>
      { vam := result.2
        since := fun pid => (state.since pid).map (· + 1)
        events := result.1 }
  | .setPeerCnt pid cnt => (state.vam.vamSetPeerCnt pid cnt fuel).map fun table =>
      { state with vam := state.vam.withTable table, events := [] }

/-- The state after `vam_init`: nobody was heard yet. -/
def init (memory : Links StaEntry) (param : VamConfig) (pid : TempId) (evtHandler : VamEvt → Bool) :
    TableState where
  vam := vamInit memory param pid evtHandler
  since := fun _ => none
  events := []

/-- A message from this sender was accepted within the last five ticks. -/
def Recent (state : TableState) (pid : TempId) : Prop :=
  ∃ ticks, state.since pid = some ticks ∧ ticks < 5

/-- The invariant of the neighbour table. -/
def Sound (state : TableState) : Prop :=
  ∃ neighbours free : List Slot,
    state.vam.list.Rings .neighbourList (neighbours.map .remote) .staFreeList
      (free.map .remote) ∧
    (neighbours ++ free).Perm (List.finRange vamNeighbourMaxnum) ∧
    (neighbours.map state.vam.pid).Nodup ∧
    state.vam.neighbourCnt.toNat = neighbours.length ∧
    (∀ slot, (state.vam.remote slot).s.alertMask ≠ 0 → 0 < (state.vam.remote slot).alertLife) ∧
    ∀ pid, pid ∈ neighbours.map state.vam.pid ↔ state.Recent pid

/-- A message is accepted exactly if its parser gets as far as the lookup, and its sender was heard
within the last five ticks or a station is free. -/
def Accepting (state : TableState) : Prop :=
  ∀ msg next, Returns (state.step (.receive msg)) next →
    let admitted := msg.Reaches state.vam.localSta.pid ∧
      (state.Recent msg.sender ∨ state.vam.neighbourCnt.toNat < vamNeighbourMaxnum)
    (admitted → next.since = Function.update state.since msg.sender (some 0)) ∧
      (¬ admitted → next.since = state.since)

/-- Every action returns. -/
def Responsive (state : TableState) : Prop :=
  ∀ action, ∃ next, Returns (state.step action) next

end TableState

/-- Receptions and ticks, each as one step. -/
def tableSystem : ActionSystem TableAction where
  State := TableState
  Initial state := ∃ memory param pid evtHandler, state = .init memory param pid evtHandler
  Step state action next := Returns (state.step action) next

namespace StaTable

variable {table : StaTable} {neighbours free : List Slot}

/-- What the table keeps besides its lists: every pid is there once, an alert is
alive, and a free station is dead. -/
structure Consistent (table : StaTable) (neighbours free : List Slot) : Prop where
  holds : table.Holds neighbours free
  distinct : (neighbours.map table.pid).Nodup
  masked : ∀ slot, (table.remote slot).s.alertMask ≠ 0 → 0 < (table.remote slot).alertLife
  idle : ∀ slot ∈ free, (table.remote slot).life = 0 ∧ (table.remote slot).alertLife = 0

/-- A pid belongs to one neighbour. -/
theorem Consistent.slot_unique (consistent : table.Consistent neighbours free) {left right : Slot}
    (leftMember : left ∈ neighbours) (rightMember : right ∈ neighbours)
    (same : table.pid left = table.pid right) : left = right :=
  List.inj_on_of_nodup_map consistent.distinct leftMember rightMember same

/-- Writing to a neighbour. -/
theorem Consistent.modify (consistent : table.Consistent neighbours free) {slot : Slot}
    {write : VamStaNode → VamStaNode} (member : slot ∈ neighbours)
    (keeps : ∀ node, (write node).s.pid = node.s.pid)
    (masked : (write (table.remote slot)).s.alertMask ≠ 0 →
      0 < (write (table.remote slot)).alertLife) :
    (table.modify slot write).Consistent neighbours free := by
  refine ⟨consistent.holds.modify slot write, ?_, ?_, ?_⟩
  · have same : neighbours.map (table.modify slot write).pid = neighbours.map table.pid :=
      List.map_congr_left fun other _ => table.modify_pid slot keeps other
    rw [same]
    exact consistent.distinct
  · intro other
    by_cases here : other = slot
    · rw [here, modify_remote_self]
      exact masked
    · rw [modify_remote_of_ne table write here]
      exact consistent.masked other
  · intro other foreign
    have apart : other ≠ slot := by
      rintro rfl
      exact consistent.holds.not_mem_free member foreign
    rw [modify_remote_of_ne table write apart]
    exact consistent.idle other foreign

/-- Admitting a station with a new pid. -/
theorem Consistent.seat {slot : Slot} (consistent : table.Consistent neighbours (slot :: free))
    {temporaryId : TempId} (absent : ∀ other ∈ neighbours, table.pid other ≠ temporaryId) :
    (table.seat slot temporaryId).Consistent (slot :: neighbours) free := by
  have holds := consistent.holds.seat temporaryId
  have outside : slot ∉ neighbours := fun member =>
    consistent.holds.not_mem_free member List.mem_cons_self
  have others : ∀ other ∈ neighbours, (table.seat slot temporaryId).pid other = table.pid other :=
    fun other member => seat_pid_of_ne table temporaryId fun same => outside (same ▸ member)
  refine ⟨holds, ?_, ?_, ?_⟩
  · rw [List.map_cons, seat_pid_self, List.map_congr_left others, List.nodup_cons]
    refine ⟨?_, consistent.distinct⟩
    intro member
    obtain ⟨other, member, same⟩ := List.mem_map.1 member
    exact absent other member same
  · intro other
    by_cases here : other = slot
    · rw [here, seat_remote_self]
      exact consistent.masked slot
    · rw [seat_remote_of_ne table temporaryId here]
      exact consistent.masked other
  · intro other foreign
    have apart : other ≠ slot := by
      rintro rfl
      exact holds.not_mem_free List.mem_cons_self foreign
    rw [seat_remote_of_ne table temporaryId apart]
    exact consistent.idle other (List.mem_cons_of_mem slot foreign)

/-- Ageing the neighbours and dropping the dead ones. -/
theorem Consistent.tick {after : StaTable} (consistent : table.Consistent neighbours free)
    (holds : after.Holds (neighbours.filter fun slot => !table.diesNow slot)
      (free ++ neighbours.filter table.diesNow))
    (remote : ∀ slot, after.remote slot =
      if slot ∈ neighbours then (table.remote slot).age else table.remote slot) :
    after.Consistent (neighbours.filter fun slot => !table.diesNow slot)
      (free ++ neighbours.filter table.diesNow) := by
  have pids : ∀ slot, after.pid slot = table.pid slot := by
    intro slot
    rw [pid, remote, pid]
    by_cases member : slot ∈ neighbours
    · rw [if_pos member, VamStaNode.age_pid]
    · rw [if_neg member]
  refine ⟨holds, ?_, ?_, ?_⟩
  · rw [List.map_congr_left fun slot _ => pids slot]
    exact consistent.distinct.sublist (List.filter_sublist.map table.pid)
  · intro slot
    rw [remote]
    by_cases member : slot ∈ neighbours
    · rw [if_pos member]
      exact VamStaNode.age_masked _
    · rw [if_neg member]
      exact consistent.masked slot
  · intro slot member
    rw [remote]
    rcases List.mem_append.1 member with old | dead
    · rw [if_neg fun neighbour => consistent.holds.not_mem_free neighbour old]
      exact consistent.idle slot old
    · obtain ⟨neighbour, dies⟩ := List.mem_filter.1 dead
      rw [if_pos neighbour]
      simpa [diesNow, VamStaNode.dead] using dies

/-- A neighbour was heard `5 - life` ticks ago, everyone else longer ago. -/
structure Tracked (table : StaTable) (neighbours : List Slot) (since : TempId → Option Nat) :
    Prop where
  listed : ∀ slot ∈ neighbours, ∃ ticks, since (table.pid slot) = some ticks ∧
    max (table.remote slot).life (table.remote slot).alertLife + ticks = 5 ∧ ticks < 5
  unlisted : ∀ pid, (∀ slot ∈ neighbours, table.pid slot ≠ pid) →
    ∀ ticks, since pid = some ticks → 5 ≤ ticks

/-- The neighbours are the recent senders. -/
theorem Tracked.mem_iff {since : TempId → Option Nat} (tracked : table.Tracked neighbours since)
    (pid : TempId) :
    pid ∈ neighbours.map table.pid ↔ ∃ ticks, since pid = some ticks ∧ ticks < 5 := by
  constructor
  · intro listed
    obtain ⟨slot, member, rfl⟩ := List.mem_map.1 listed
    obtain ⟨ticks, heard, -, recent⟩ := tracked.listed slot member
    exact ⟨ticks, heard, recent⟩
  · rintro ⟨ticks, heard, recent⟩
    by_contra outside
    have absent : ∀ slot ∈ neighbours, table.pid slot ≠ pid := fun slot member same =>
      outside (List.mem_map.2 ⟨slot, member, same⟩)
    exact absurd (tracked.unlisted pid absent ticks heard) (Nat.not_le.2 recent)

/-- A message resets the clock of its sender. -/
theorem Tracked.receive {since : TempId → Option Nat} {slot : Slot} (msg : Reception)
    (consistent : table.Consistent neighbours free) (member : slot ∈ neighbours)
    (own : table.pid slot = msg.sender)
    (fits : (table.remote slot).life ≤ 5 ∧ (table.remote slot).alertLife ≤ 5)
    (others : ∀ other ∈ neighbours, other ≠ slot → ∃ ticks, since (table.pid other) = some ticks ∧
      max (table.remote other).life (table.remote other).alertLife + ticks = 5 ∧ ticks < 5)
    (unlisted : ∀ pid, (∀ other ∈ neighbours, table.pid other ≠ pid) →
      ∀ ticks, since pid = some ticks → 5 ≤ ticks) :
    (table.modify slot msg.write).Tracked neighbours
      (Function.update since msg.sender (some 0)) := by
  have pids := table.modify_pid slot msg.write_pid
  refine ⟨?_, ?_⟩
  · intro other neighbour
    rw [pids]
    by_cases same : other = slot
    · rw [same, own, modify_remote_self, Function.update_self]
      exact ⟨0, rfl, msg.write_life fits.1 fits.2, by decide⟩
    · have different : table.pid other ≠ msg.sender := fun equal =>
        same (consistent.slot_unique neighbour member (equal.trans own.symm))
      rw [modify_remote_of_ne table msg.write same, Function.update_of_ne different]
      exact others other neighbour same
  · intro pid absent ticks heard
    have listed := absent slot member
    rw [pids, own] at listed
    rw [Function.update_of_ne listed.symm] at heard
    exact unlisted pid (fun other neighbour => pids other ▸ absent other neighbour) ticks heard

/-- A write that leaves pid and lives alone leaves every clock alone. -/
theorem Tracked.modify {since : TempId → Option Nat} (tracked : table.Tracked neighbours since)
    (slot : Slot) {write : VamStaNode → VamStaNode}
    (keeps : ∀ node, (write node).s.pid = node.s.pid)
    (lives : ∀ node, (write node).life = node.life ∧ (write node).alertLife = node.alertLife) :
    (table.modify slot write).Tracked neighbours since := by
  have pids := table.modify_pid slot keeps
  refine ⟨?_, fun pid absent => tracked.unlisted pid fun other member => pids other ▸ absent other member⟩
  intro other member
  rw [pids]
  by_cases same : other = slot
  · rw [same, modify_remote_self, (lives _).1, (lives _).2]
    exact tracked.listed slot (same ▸ member)
  · rw [modify_remote_of_ne table write same]
    exact tracked.listed other member

/-- A tick moves every clock on. -/
theorem Tracked.tick {since : TempId → Option Nat} {after : StaTable}
    (tracked : table.Tracked neighbours since)
    (remote : ∀ slot, after.remote slot =
      if slot ∈ neighbours then (table.remote slot).age else table.remote slot) :
    after.Tracked (neighbours.filter fun slot => !table.diesNow slot)
      fun pid => (since pid).map (· + 1) := by
  have aged : ∀ slot ∈ neighbours, after.remote slot = (table.remote slot).age := fun slot member =>
    by rw [remote, if_pos member]
  have pids : ∀ slot ∈ neighbours, after.pid slot = table.pid slot := fun slot member => by
    rw [pid, aged slot member, VamStaNode.age_pid, pid]
  refine ⟨?_, ?_⟩
  · intro slot member
    obtain ⟨neighbour, lives⟩ := List.mem_filter.1 member
    obtain ⟨ticks, heard, total, recent⟩ := tracked.listed slot neighbour
    have alive : ¬ ((table.remote slot).life - 1 = 0 ∧ (table.remote slot).alertLife - 1 = 0) := by
      rw [← VamStaNode.age_dead_iff]
      simpa [diesNow] using lives
    rw [pids slot neighbour, aged slot neighbour, heard]
    refine ⟨ticks + 1, rfl, ?_, ?_⟩
    · simp only [VamStaNode.age]
      omega
    · omega
  · intro pid absent ticks heard
    obtain ⟨before, earlier, rfl⟩ := Option.map_eq_some_iff.1 heard
    by_cases listed : ∃ slot ∈ neighbours, table.pid slot = pid
    · obtain ⟨slot, neighbour, rfl⟩ := listed
      obtain ⟨same, known, total, -⟩ := tracked.listed slot neighbour
      obtain rfl : before = same := Option.some.inj (earlier.symm.trans known)
      have dies : (table.remote slot).life - 1 = 0 ∧ (table.remote slot).alertLife - 1 = 0 := by
        by_contra alive
        rw [← VamStaNode.age_dead_iff] at alive
        exact absent slot (List.mem_filter.2 ⟨neighbour, by simpa [diesNow] using alive⟩)
          (pids slot neighbour)
      omega
    · have outside : ∀ slot ∈ neighbours, table.pid slot ≠ pid := fun slot neighbour same =>
        listed ⟨slot, neighbour, same⟩
      exact Nat.le_succ_of_le (tracked.unlisted pid outside before earlier)

/-- Appending free stations one by one. -/
theorem foldl_listAddTail_rings {list : Links StaEntry} {front slots : List Slot}
    (rings : list.Rings .neighbourList [] .staFreeList (front.map .remote))
    (nodup : (front ++ slots).Nodup) :
    (slots.foldl (fun list slot => listAddTail list (.remote slot) .staFreeList) list).Rings
      .neighbourList [] .staFreeList ((front ++ slots).map .remote) := by
  induction slots generalizing list front with
  | nil => simpa using rings
  | cons slot rest inductionHypothesis =>
      have fresh : slot ∉ front := fun member =>
        (List.nodup_append.1 nodup).2.2 slot member slot List.mem_cons_self rfl
      have outside : StaEntry.remote slot ∉ .staFreeList :: front.map .remote := by
        simpa using fresh
      have appended := (listAddTail_rings rings.symm outside (by simp)).symm
      have longer : front.map .remote ++ [StaEntry.remote slot] =
          (front ++ [slot]).map .remote := by simp
      rw [longer] at appended
      have split : front ++ slot :: rest = front ++ [slot] ++ rest := by simp
      rw [split] at nodup ⊢
      exact inductionHypothesis appended nodup

/-- `vam_init` leaves every slot on the free list. -/
theorem init_consistent (memory : Links StaEntry) :
    (StaTable.init memory).Consistent [] (List.finRange vamNeighbourMaxnum) := by
  have heads : ((memory.initHead .neighbourList).initHead .staFreeList).Rings
      .neighbourList [] .staFreeList (([] : List Slot).map .remote) := by
    refine ⟨?_, initHead_ring _ _, by simp⟩
    refine (initHead_ring memory .neighbourList).congr ?_ ?_ <;> simp [initHead]
  refine ⟨⟨?_, fun slot => .inr (List.mem_finRange slot), rfl⟩, List.nodup_nil, ?_, ?_⟩
  · exact foldl_listAddTail_rings heads (List.nodup_finRange _)
  · intro slot carries
    exact absurd rfl carries
  · exact fun slot _ => ⟨rfl, rfl⟩

end StaTable

namespace TableState

open StaTable

/-- The inductive invariant: the slots of both lists, and what they say. -/
structure Inv (state : TableState) (neighbours free : List Slot) : Prop where
  consistent : state.vam.toStaTable.Consistent neighbours free
  tracked : state.vam.toStaTable.Tracked neighbours state.since

variable {state next : TableState} {neighbours free : List Slot}

/-- A state with the invariant is `Sound`. -/
theorem Inv.sound (inv : state.Inv neighbours free) : state.Sound := by
  have holds := inv.consistent.holds
  exact ⟨neighbours, free, holds.rings, holds.perm, inv.consistent.distinct, holds.count_eq,
    inv.consistent.masked, inv.tracked.mem_iff⟩

/-- A call has one result however many iterations it is granted. -/
theorem step_persistent (state : TableState) (action : TableAction) :
    Persistent (state.step action) := by
  cases action with
  | receive msg => exact (msg.parse_persistent state.vam).map _
  | tick => exact state.vam.vamUpdateSta_persistent.map _
  | setPeerCnt pid cnt => exact ((state.vam.find_persistent pid).map _).map _

/-- The state after a message was written to a slot of a table. -/
def accept (state : TableState) (msg : Reception) (table : StaTable) (slot : Slot) : TableState where
  vam := state.vam.withTable (table.modify slot msg.write)
  since := Function.update state.since msg.sender (some 0)
  events := msg.report state.vam.evtHandler (table.remote slot)

/-- A message that reaches the lookup is accepted if that gives it a station. -/
theorem step_receive {msg : Reception} {fuel : Nat} {result : RxResult}
    (reaches : msg.Reaches state.vam.localSta.pid)
    (stored : state.vam.withStation msg.sender msg.write (msg.report state.vam.evtHandler) fuel =
      some result) :
    state.step (.receive msg) fuel = some
      { vam := result.vam
        since :=
          if result.station.isSome then Function.update state.since msg.sender (some 0)
          else state.since
        events := result.events } := by
  rw [step, msg.parse_eq, if_pos reaches, stored, Option.map_some]

/-- Accepting a message of a known station: its own clock bounds its lives. -/
theorem Inv.accept_known (inv : state.Inv neighbours free) {msg : Reception} {slot : Slot}
    (member : slot ∈ neighbours) (own : state.vam.pid slot = msg.sender) :
    (state.accept msg state.vam.toStaTable slot).Inv neighbours free := by
  obtain ⟨consistent, tracked⟩ := inv
  obtain ⟨ticks, -, total, -⟩ := tracked.listed slot member
  refine ⟨?_, ?_⟩
  · exact consistent.modify member msg.write_pid (msg.write_masked (consistent.masked slot))
  · exact Tracked.receive msg consistent member own (by omega)
      (fun other neighbour _ => tracked.listed other neighbour) tracked.unlisted

/-- Accepting the first message of a new station: a free slot has no life left. -/
theorem Inv.accept_new {slot : Slot} (inv : state.Inv neighbours (slot :: free)) {msg : Reception}
    (absent : ∀ other ∈ neighbours, state.vam.pid other ≠ msg.sender) :
    (state.accept msg (state.vam.seat slot msg.sender) slot).Inv (slot :: neighbours) free := by
  obtain ⟨consistent, tracked⟩ := inv
  have admitted := consistent.seat absent
  have member : slot ∈ slot :: neighbours := List.mem_cons_self
  have idle := consistent.idle slot List.mem_cons_self
  have outside : ∀ other ∈ neighbours, other ≠ slot := by
    rintro other neighbour rfl
    exact consistent.holds.not_mem_free neighbour List.mem_cons_self
  refine ⟨?_, ?_⟩
  · exact admitted.modify member msg.write_pid (msg.write_masked (admitted.masked slot))
  refine Tracked.receive msg admitted member (seat_pid_self ..) ?_ ?_ ?_
  · rw [seat_remote_self]
    simp [idle]
  · intro other neighbour different
    have old : other ∈ neighbours := (List.mem_cons.1 neighbour).resolve_left different
    rw [seat_pid_of_ne _ _ different, seat_remote_of_ne _ _ different]
    exact tracked.listed other old
  · intro pid listed ticks heard
    refine tracked.unlisted pid (fun other neighbour => ?_) ticks heard
    have kept := listed other (List.mem_cons_of_mem slot neighbour)
    rwa [seat_pid_of_ne _ _ (outside other neighbour)] at kept

/-- What a reception does: a known sender is updated, a new one is admitted, and
every other message is dropped. -/
theorem Inv.receive_cases (inv : state.Inv neighbours free) (msg : Reception) :
    (msg.Reaches state.vam.localSta.pid ∧ ∃ slot ∈ neighbours, state.vam.pid slot = msg.sender ∧
        Returns (state.step (.receive msg)) (state.accept msg state.vam.toStaTable slot)) ∨
      (msg.Reaches state.vam.localSta.pid ∧
        (∀ slot ∈ neighbours, state.vam.pid slot ≠ msg.sender) ∧ ∃ slot rest, free = slot :: rest ∧
          Returns (state.step (.receive msg))
            (state.accept msg (state.vam.seat slot msg.sender) slot)) ∨
      ((msg.Reaches state.vam.localSta.pid →
          (∀ slot ∈ neighbours, state.vam.pid slot ≠ msg.sender) ∧ free = []) ∧
        Returns (state.step (.receive msg)) { state with events := [] }) := by
  by_cases reaches : msg.Reaches state.vam.localSta.pid
  · rcases VamEnvar.withStation_cases inv.consistent.holds msg.sender msg.write
      (msg.report state.vam.evtHandler) (Nat.lt_succ_self neighbours.length) with
      ⟨slot, member, own, stored⟩ | ⟨absent, ⟨slot, rest, split, stored⟩ | ⟨empty, stored⟩⟩
    · exact .inl ⟨reaches, slot, member, own, _, step_receive reaches stored⟩
    · exact .inr (.inl ⟨reaches, absent, slot, rest, split, _, step_receive reaches stored⟩)
    · exact .inr (.inr ⟨fun _ => ⟨absent, empty⟩, _, step_receive reaches stored⟩)
  · refine .inr (.inr ⟨fun reached => absurd reached reaches, 0, ?_⟩)
    rw [step, msg.parse_eq, if_neg reaches]
    rfl

/-- Which messages are accepted. -/
theorem Inv.accepting (inv : state.Inv neighbours free) : state.Accepting := by
  intro msg next received admitted
  have persistent := state.step_persistent (.receive msg)
  have holds := inv.consistent.holds
  have recent : msg.sender ∈ neighbours.map state.vam.pid ↔ state.Recent msg.sender :=
    inv.tracked.mem_iff msg.sender
  have pool : neighbours.length + free.length = vamNeighbourMaxnum := by
    simpa using holds.perm.length_eq
  have count : state.vam.neighbourCnt.toNat = neighbours.length := holds.count_eq
  rcases inv.receive_cases msg with
    ⟨reaches, slot, member, own, returns⟩ | ⟨reaches, -, slot, rest, rfl, returns⟩ |
      ⟨dropped, returns⟩
  · have known := recent.1 (List.mem_map.2 ⟨slot, member, own⟩)
    rw [received.unique persistent returns]
    exact ⟨fun _ => rfl, fun refused => absurd ⟨reaches, .inl known⟩ refused⟩
  · have room : state.vam.neighbourCnt.toNat < vamNeighbourMaxnum := by
      rw [List.length_cons] at pool
      omega
    rw [received.unique persistent returns]
    exact ⟨fun _ => rfl, fun refused => absurd ⟨reaches, .inr room⟩ refused⟩
  · rw [received.unique persistent returns]
    refine ⟨?_, fun _ => rfl⟩
    rintro ⟨reaches, known | room⟩
    · obtain ⟨slot, member, own⟩ := List.mem_map.1 (recent.2 known)
      exact absurd own ((dropped reaches).1 slot member)
    · rw [(dropped reaches).2, List.length_nil] at pool
      omega

/-- A reception returns and keeps the invariant. -/
theorem Inv.receive (inv : state.Inv neighbours free) (msg : Reception) :
    ∃ next others rest, Returns (state.step (.receive msg)) next ∧ next.Inv others rest := by
  rcases inv.receive_cases msg with
    ⟨-, slot, member, own, returns⟩ | ⟨-, absent, slot, rest, rfl, returns⟩ | ⟨-, returns⟩
  · exact ⟨_, _, _, returns, inv.accept_known member own⟩
  · exact ⟨_, _, _, returns, inv.accept_new absent⟩
  · exact ⟨_, neighbours, free, returns, inv.consistent, inv.tracked⟩

/-- A neighbour tick returns and keeps the invariant. -/
theorem Inv.tick (inv : state.Inv neighbours free) :
    ∃ next, Returns (state.step .tick) next ∧
      state.vam.Ticked neighbours free next.events next.vam ∧
      next.Inv (neighbours.filter fun slot => !state.vam.diesNow slot)
        (free ++ neighbours.filter state.vam.diesNow) := by
  obtain ⟨consistent, tracked⟩ := inv
  obtain ⟨events, after, returned, ticked⟩ :=
    VamEnvar.vamUpdateSta_ticked consistent.holds (Nat.lt_succ_self neighbours.length)
  let next : TableState := ⟨after, fun pid => (state.since pid).map (· + 1), events⟩
  refine ⟨next, ⟨neighbours.length + 1, ?_⟩, ticked, consistent.tick ticked.holds ticked.remote,
    tracked.tick ticked.remote⟩
  rw [step, returned, Option.map_some]

/-- What setting a count does: the station with the pid gets it, if there is one. -/
theorem Inv.setPeerCnt_cases (inv : state.Inv neighbours free) (pid : TempId) (cnt : Byte) :
    (∃ slot ∈ neighbours, state.vam.pid slot = pid ∧
        Returns (state.step (.setPeerCnt pid cnt))
          { state with vam := state.vam.withTable (state.vam.modify slot (setCnt cnt)), events := [] }) ∨
      (∀ slot ∈ neighbours, state.vam.pid slot ≠ pid) ∧
        Returns (state.step (.setPeerCnt pid cnt)) { state with events := [] } := by
  have found := inv.consistent.holds.find_eq pid (Nat.lt_succ_self neighbours.length)
  have returned : ∀ table, state.vam.vamSetPeerCnt pid cnt (neighbours.length + 1) = some table →
      Returns (state.step (.setPeerCnt pid cnt))
        { state with vam := state.vam.withTable table, events := [] } :=
    fun table stored => ⟨neighbours.length + 1, by rw [step, stored, Option.map_some]⟩
  cases which : neighbours.find? fun slot => state.vam.pid slot = pid with
  | none =>
      refine .inr ⟨by simpa using List.find?_eq_none.1 which, returned state.vam.toStaTable ?_⟩
      rw [vamSetPeerCnt, found, which, Option.map_some]
  | some slot =>
      refine .inl ⟨slot, List.mem_of_find?_eq_some which, by simpa using List.find?_some which,
        returned (state.vam.modify slot (setCnt cnt)) ?_⟩
      rw [vamSetPeerCnt, found, which, Option.map_some]

/-- Setting the count of a neighbour keeps the table. -/
theorem Inv.setCnt (inv : state.Inv neighbours free) {slot : Slot} (member : slot ∈ neighbours)
    (cnt : Byte) :
    Inv { state with vam := state.vam.withTable (state.vam.modify slot (setCnt cnt)), events := [] }
      neighbours free :=
  ⟨inv.consistent.modify member (fun _ => rfl) (inv.consistent.masked slot),
    inv.tracked.modify slot (fun _ => rfl) fun _ => ⟨rfl, rfl⟩⟩

/-- Every action returns, in a state that has the invariant again. -/
theorem Inv.step (inv : state.Inv neighbours free) (action : TableAction) :
    ∃ next others rest, Returns (state.step action) next ∧ next.Inv others rest := by
  cases action with
  | receive msg => exact inv.receive msg
  | tick =>
      obtain ⟨next, returns, -, kept⟩ := inv.tick
      exact ⟨next, _, _, returns, kept⟩
  | setPeerCnt pid cnt =>
      rcases inv.setPeerCnt_cases pid cnt with ⟨slot, member, -, returns⟩ | ⟨-, returns⟩
      · exact ⟨_, _, _, returns, inv.setCnt member cnt⟩
      · exact ⟨_, neighbours, free, returns, inv.consistent, inv.tracked⟩

/-- The handlers and the own status are not touched. -/
theorem Inv.frame {action : TableAction} (inv : state.Inv neighbours free)
    (stepped : Returns (state.step action) next) :
    next.vam.evtHandler = state.vam.evtHandler ∧ next.vam.localSta = state.vam.localSta := by
  have persistent := state.step_persistent action
  cases action with
  | receive msg =>
      rcases inv.receive_cases msg with
        ⟨-, slot, -, -, returns⟩ | ⟨-, -, slot, rest, -, returns⟩ | ⟨-, returns⟩ <;>
      · rw [stepped.unique persistent returns]
        exact ⟨rfl, rfl⟩
  | tick =>
      obtain ⟨result, returns, ticked, -⟩ := inv.tick
      rw [stepped.unique persistent returns]
      exact ⟨ticked.evtHandler, ticked.localSta⟩
  | setPeerCnt pid cnt =>
      rcases inv.setPeerCnt_cases pid cnt with ⟨slot, -, -, returns⟩ | ⟨-, returns⟩ <;>
      · rw [stepped.unique persistent returns]
        exact ⟨rfl, rfl⟩

/-- Every step of the system keeps the invariant. -/
theorem Inv.preserved {action : TableAction} (inv : state.Inv neighbours free)
    (stepped : Returns (state.step action) next) : ∃ others rest, next.Inv others rest := by
  obtain ⟨result, others, rest, returns, kept⟩ := inv.step action
  exact ⟨others, rest, stepped.unique (state.step_persistent action) returns ▸ kept⟩

/-- The invariant holds after `vam_init`. -/
theorem Inv.initial (memory : Links StaEntry) (param : VamConfig) (pid : TempId)
    (evtHandler : VamEvt → Bool) :
    (init memory param pid evtHandler).Inv [] (List.finRange vamNeighbourMaxnum) :=
  ⟨init_consistent memory, by simp, fun _ _ _ heard => by cases heard⟩

/-- The invariant holds in every state a run from `vam_init` visits. -/
theorem inv_always (memory : Links StaEntry) (param : VamConfig) (pid : TempId)
    (evtHandler : VamEvt → Bool) {finish : TableState}
    (path : tableSystem.Path (.init memory param pid evtHandler) finish) :
    path.Always fun state : TableState => (∃ neighbours free, state.Inv neighbours free) ∧
      state.vam.evtHandler = evtHandler ∧ state.vam.localSta.pid = localPid pid := by
  refine path.always_of_invariant
    ⟨⟨_, _, Inv.initial memory param pid evtHandler⟩, rfl, rfl⟩ ?_
  rintro state action next ⟨⟨neighbours, free, inv⟩, handlers, own⟩ stepped
  obtain ⟨sameHandlers, same⟩ := inv.frame stepped
  exact ⟨inv.preserved stepped, sameHandlers.trans handlers, same ▸ own⟩

/-- The neighbour table keeps its invariant in every run from `vam_init`: the two
lists partition the pool, no pid is listed twice, the count is right, an alert is
alive, the neighbours are the recent senders, a message is dropped only if it is too short, the
node's own, or of a new sender while no station is free, and every action returns. -/
theorem neighbour_table_invariant (memory : Links StaEntry) (param : VamConfig) (pid : TempId)
    (evtHandler : VamEvt → Bool) {finish : TableState}
    (path : tableSystem.Path (.init memory param pid evtHandler) finish) :
    path.Always fun state : TableState =>
      state.Sound ∧ state.Accepting ∧ state.Responsive := by
  apply (inv_always memory param pid evtHandler path).mono
  rintro state ⟨⟨neighbours, free, inv⟩, -⟩
  refine ⟨inv.sound, inv.accepting, fun action => ?_⟩
  obtain ⟨next, -, -, returns, -⟩ := inv.step action
  exact ⟨next, returns⟩

end TableState

end Rsu.Vam
