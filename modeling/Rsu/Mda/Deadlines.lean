import Mathlib.Logic.Function.Iterate
import Rsu.Mda.ForwardList
import Rsu.Semantics.ActionSystem

/-!
# Forwarding deadlines

Runs of the waiting list: additions, removals and handler ticks in any order.
The state records, beside the module's own data, the tick on which every message
is to be sent and the tick on which it was. `forwarding_on_time_iff` says
exactly which runs keep every message on time: those that add a message only to
an empty list, or in front of a list that does not notice it, and that remove
only the last one.
-/

namespace Rsu.Mda

open Rsu.Data Rsu.Data.Links Rsu.Data.DeltaQueue

universe u

/-- One operation on the waiting list. -/
inductive ListAction (Buf : Type u) where
  /-- `add_forward_list` of a message with a delay of at least zero -/
  | add (txbuf : Buf) (srcSta : MdaMsgInfo) (delay : Nat)
  /-- `remove_from_forward_list` -/
  | remove (txbuf : Buf)
  /-- the forward timer fires -/
  | tick

/-- The waiting list with the history of its messages. Messages are numbered
in the order of their addition. -/
structure ListState (Buf : Type u) where
  mda : MdaEnvar Buf
  /-- a call that never returns holds `sem_forward` -/
  blocked : Bool
  /-- ticks so far -/
  now : Nat
  /-- messages added so far, which is the number of the next one -/
  added : Nat
  /-- the message a buffer carries -/
  message : Buf → Nat
  /-- the tick on which a message is to be sent, unless it was removed -/
  due : Nat → Option Nat
  /-- the messages handed to `rcp_send_forward_msg`, with the tick -/
  sent : List (Nat × Nat)

namespace ListState

variable {Buf : Type u}

/-- Record the addition of a message. -/
def enter [DecidableEq Buf] (state : ListState Buf) (txbuf : Buf) (delay : Nat)
    (mda : MdaEnvar Buf) (blocked : Bool) : ListState Buf where
  mda := mda
  blocked := blocked
  now := state.now
  added := state.added + 1
  message := Function.update state.message txbuf state.added
  due := Function.update state.due state.added (some (state.now + max delay 1))
  sent := state.sent

variable [DecidableEq Buf]

/-- The state after `mda_init`. -/
def initial : ListState Buf where
  mda := MdaEnvar.mdaInit
  blocked := false
  now := 0
  added := 0
  message := fun _ => 0
  due := fun _ => none
  sent := []

/-- One tick: `forward_handler` runs unless it cannot take `sem_forward`. -/
def tick (state : ListState Buf) : ListState Buf :=
  if state.blocked then { state with now := state.now + 1 }
  else
    let handled := state.mda.forwardHandler
    { state with
      mda := handled.1
      now := state.now + 1
      sent := state.sent ++
        (handled.2.map state.message).toList.map fun message => (message, state.now + 1) }

/-- Record the removal of a message. -/
def drop (state : ListState Buf) (txbuf : Buf) : ListState Buf :=
  { state with
    mda := state.mda.removeFromForwardList txbuf
    due := Function.update state.due (state.message txbuf) none }

/-- Every message that was not removed has been sent once and on its tick, if
that tick is over, and not at all otherwise. -/
def OnTime (state : ListState Buf) : Prop :=
  (state.sent.map Prod.fst).Nodup ∧
    ∀ message tick, (message, tick) ∈ state.sent ↔
      state.due message = some tick ∧ tick ≤ state.now

/-- Every message is on time now and will be, ticks permitting. -/
def Punctual (state : ListState Buf) : Prop := ∀ ticks, (tick^[ticks] state).OnTime

/-- The circumstances in which an operation keeps all deadlines. -/
def KeepsDeadlines (state : ListState Buf) : ListAction Buf → Prop
  | .add _ _ delay => ∃ nodes, state.mda.Waiting nodes ∧
      ∀ first rest, nodes = first :: rest →
        1 ≤ delay ∧ (delay : Int) < state.mda.delayTime first ∧
          ∀ node ∈ rest, state.mda.delayTime node ≤ 1
  | .remove txbuf => ∃ front, state.mda.Waiting (front ++ [txbuf])
  | .tick => True

end ListState

/-- The operations, each as the code performs it. A buffer that is added comes
from the allocator and so is not on the list; one that is removed was found there. -/
inductive ListStep {Buf : Type u} [DecidableEq Buf] :
    ListState Buf → ListAction Buf → ListState Buf → Prop
  | added {state : ListState Buf} {nodes : List Buf} {txbuf : Buf} {srcSta : MdaMsgInfo}
      {delay : Nat} {mda : MdaEnvar Buf} (free : state.blocked = false)
      (waiting : state.mda.Waiting nodes) (fresh : txbuf ∉ nodes)
      (returns : Returns (state.mda.addForwardList txbuf srcSta delay) mda) :
      ListStep state (.add txbuf srcSta delay) (state.enter txbuf delay mda false)
  | hung {state : ListState Buf} {nodes : List Buf} {txbuf : Buf} {srcSta : MdaMsgInfo}
      {delay : Nat} (free : state.blocked = false)
      (waiting : state.mda.Waiting nodes) (fresh : txbuf ∉ nodes)
      (diverges : Diverges (state.mda.addForwardList txbuf srcSta delay)) :
      ListStep state (.add txbuf srcSta delay) (state.enter txbuf delay state.mda true)
  | removed {state : ListState Buf} {front back : List Buf} {txbuf : Buf}
      (free : state.blocked = false) (waiting : state.mda.Waiting (front ++ txbuf :: back)) :
      ListStep state (.remove txbuf) (state.drop txbuf)
  | ticked {state : ListState Buf} : ListStep state .tick state.tick

/-- The waiting list as an action system. -/
def listSystem (Buf : Type u) [DecidableEq Buf] : ActionSystem (ListAction Buf) where
  State := ListState Buf
  Initial state := state = .initial
  Step := ListStep

namespace ListState

variable {Buf : Type u} [DecidableEq Buf] {state : ListState Buf} {nodes : List Buf}

/-- The messages sent and, behind them, those that will be if only ticks happen. -/
def ledger (state : ListState Buf) (nodes : List Buf) : List (Nat × Nat) :=
  state.sent ++ schedule state.now (state.mda.queue state.message nodes)

/-- What every operation keeps as long as no call hangs: the list is well
formed, and no message number is used twice. -/
structure Coherent (state : ListState Buf) (nodes : List Buf) : Prop where
  free : state.blocked = false
  waiting : state.mda.Waiting nodes
  distinct : ((state.ledger nodes).map Prod.fst).Nodup
  numbered : ∀ item ∈ state.ledger nodes, item.1 < state.added
  undue : ∀ message, state.added ≤ message → state.due message = none
  past : ∀ item ∈ state.sent, item.2 ≤ state.now

/-- Some list of nodes makes the state coherent. -/
def Sound (state : ListState Buf) : Prop := ∃ nodes, state.Coherent nodes

/-- The ledger is the table of deadlines. -/
def Agrees (state : ListState Buf) (nodes : List Buf) : Prop :=
  ∀ message tick, (message, tick) ∈ state.ledger nodes ↔ state.due message = some tick

omit [DecidableEq Buf] in
/-- Of the ledger, what lies in the past has been sent. -/
theorem Coherent.mem_sent_iff (coherent : state.Coherent nodes) {message tick : Nat} :
    (message, tick) ∈ state.sent ↔ (message, tick) ∈ state.ledger nodes ∧ tick ≤ state.now := by
  constructor
  · intro member
    exact ⟨List.mem_append_left _ member, coherent.past _ member⟩
  · rintro ⟨member, past⟩
    rcases List.mem_append.1 member with sent | coming
    · exact sent
    · have later : state.now < tick := lt_of_mem_schedule coming
      omega

omit [DecidableEq Buf] in
/-- A coherent state is on time when its ledger agrees with the deadlines so far. -/
theorem Coherent.onTime_iff (coherent : state.Coherent nodes) :
    state.OnTime ↔ ∀ message tick, tick ≤ state.now →
      ((message, tick) ∈ state.ledger nodes ↔ state.due message = some tick) := by
  have once : (state.sent.map Prod.fst).Nodup := by
    have distinct := coherent.distinct
    rw [ledger, List.map_append] at distinct
    exact distinct.of_append_left
  simp only [OnTime, once, true_and, coherent.mem_sent_iff]
  constructor
  · intro onTime message tick past
    have same := onTime message tick
    simpa [past] using same
  · intro agrees message tick
    by_cases past : tick ≤ state.now
    · simp [past, agrees message tick past]
    · simp [past]

/-- A tick keeps a coherent state coherent and does not change its ledger. -/
theorem Coherent.tick (coherent : state.Coherent nodes) :
    ∃ left, state.tick.Coherent left ∧ state.tick.ledger left = state.ledger nodes := by
  obtain ⟨left, waiting, split, -, ticked⟩ :=
    state.mda.forwardHandler_tick state.message coherent.waiting
  have next : state.tick = { state with
      mda := state.mda.forwardHandler.1
      now := state.now + 1
      sent := state.sent ++ (state.mda.forwardHandler.2.map state.message).toList.map
        fun message => (message, state.now + 1) } := by
    simp [ListState.tick, coherent.free]
  have same : state.tick.ledger left = state.ledger nodes := by
    rw [next, ledger, ledger, schedule_tick state.now, ticked, List.append_assoc]
  refine ⟨left, ?_, same⟩
  have distinct := coherent.distinct
  have numbered := coherent.numbered
  rw [← same] at distinct numbered
  refine ⟨by simp [next, coherent.free], by simpa [next] using waiting, distinct,
    by simpa [next] using numbered, by simpa [next] using coherent.undue, ?_⟩
  intro item member
  rw [next] at member ⊢
  rcases List.mem_append.1 member with earlier | now
  · exact Nat.le_succ_of_le (coherent.past item earlier)
  · obtain ⟨message, -, rfl⟩ := List.mem_map.1 now
    exact Nat.le_refl _

@[simp] theorem tick_due (state : ListState Buf) : state.tick.due = state.due := by
  unfold tick
  split <;> rfl

@[simp] theorem tick_now (state : ListState Buf) : state.tick.now = state.now + 1 := by
  unfold tick
  split <;> rfl

/-- Any number of ticks keeps the ledger and the deadlines. -/
theorem Coherent.ticks (coherent : state.Coherent nodes) (ticks : Nat) :
    ∃ left, (ListState.tick^[ticks] state).Coherent left ∧
      (ListState.tick^[ticks] state).ledger left = state.ledger nodes ∧
      (ListState.tick^[ticks] state).due = state.due ∧
      (ListState.tick^[ticks] state).now = state.now + ticks := by
  induction ticks generalizing state nodes with
  | zero => exact ⟨nodes, coherent, rfl, rfl, rfl⟩
  | succ ticks inductionHypothesis =>
      obtain ⟨middle, next, same⟩ := coherent.tick
      obtain ⟨left, last, ledger, due, now⟩ := inductionHypothesis next
      refine ⟨left, last, ledger.trans same, due.trans (tick_due state), ?_⟩
      rw [Function.iterate_succ_apply, now, tick_now]
      omega

/-- Punctuality of a coherent state is agreement of its ledger with the deadlines. -/
theorem Coherent.punctual_iff (coherent : state.Coherent nodes) :
    state.Punctual ↔ state.Agrees nodes := by
  constructor
  · intro punctual message tick
    obtain ⟨left, later, ledger, due, now⟩ := coherent.ticks tick
    have agrees := (later.onTime_iff.1 (punctual tick)) message tick (by omega)
    rwa [ledger, due] at agrees
  · intro agrees ticks
    obtain ⟨left, later, ledger, due, now⟩ := coherent.ticks ticks
    rw [later.onTime_iff, ledger, due]
    exact fun message tick _ => agrees message tick

/-- A state in which a call hangs sends nothing any more. -/
theorem sent_of_blocked (blocked : state.blocked = true) (ticks : Nat) :
    (tick^[ticks] state).sent = state.sent ∧ (tick^[ticks] state).due = state.due ∧
      (tick^[ticks] state).now = state.now + ticks := by
  induction ticks generalizing state with
  | zero => exact ⟨rfl, rfl, rfl⟩
  | succ ticks inductionHypothesis =>
      have next : state.tick = { state with now := state.now + 1 } := by simp [tick, blocked]
      have later : state.tick.blocked = true := by rw [next]; exact blocked
      obtain ⟨sent, due, now⟩ := inductionHypothesis later
      rw [Function.iterate_succ_apply, sent, due, now, tick_now, next]
      refine ⟨rfl, rfl, ?_⟩
      omega

omit [DecidableEq Buf] in
/-- The labels of the waiting messages are their numbers. -/
theorem ledger_keys (state : ListState Buf) (nodes : List Buf) :
    (state.ledger nodes).map Prod.fst =
      state.sent.map Prod.fst ++ nodes.map state.message := by
  simp [ledger]

omit [DecidableEq Buf] in
/-- The schedule is the only one that gives the waiting messages their deadlines. -/
theorem Agrees.schedule_eq_iff (agrees : state.Agrees nodes) {items : List (Nat × Nat)}
    (keys : items.map Prod.fst = nodes.map state.message) :
    items = schedule state.now (state.mda.queue state.message nodes) ↔
      ∀ item ∈ items, state.due item.1 = some item.2 := by
  have known : ∀ item ∈ schedule state.now (state.mda.queue state.message nodes),
      state.due item.1 = some item.2 :=
    fun item member => (agrees item.1 item.2).1 (List.mem_append_right _ member)
  constructor
  · rintro rfl
    exact known
  · intro due
    exact eq_of_keys_of_lookup (by simpa using keys) due known

section Add

variable {txbuf : Buf} {srcSta : MdaMsgInfo} {delay : Nat} {mda : MdaEnvar Buf}

/-- The schedule behind a message that was put in front. -/
def pushedSchedule (state : ListState Buf) (delay : Nat) (nodes : List Buf) : List (Nat × Nat) :=
  schedule (state.now + service delay)
    (DeltaQueue.lower delay (state.mda.queue state.message nodes))

/-- An addition sets the deadline of its message. -/
theorem enter_due (state : ListState Buf) (blocked : Bool) :
    (state.enter txbuf delay mda blocked).due =
      Function.update state.due state.added (some (state.now + max delay 1)) := rfl

/-- The ledger has the message with its deadline, and the others later by what is taken off. -/
theorem enter_ledger (fresh : txbuf ∉ nodes)
    (pushed : (state.mda.fill txbuf ⟨srcSta, delay⟩).Pushed txbuf nodes mda) :
    (state.enter txbuf delay mda false).ledger (txbuf :: nodes) =
      state.sent ++ (state.added, state.now + max delay 1) :: state.pushedSchedule delay nodes := by
  have different : ∀ node ∈ nodes, node ≠ txbuf := by
    rintro node member rfl
    exact fresh member
  have behind : mda.queue (Function.update state.message txbuf state.added) nodes =
      DeltaQueue.lower delay (state.mda.queue state.message nodes) := by
    unfold MdaEnvar.queue DeltaQueue.lower
    rw [List.map_map]
    apply List.map_congr_left
    intro node member
    have lowered := pushed.lowered node member
    rw [MdaEnvar.delayTime_fill, MdaEnvar.delayTime_fill_of_ne _ _ (different node member)] at lowered
    rw [Function.update_of_ne (different node member), lowered]
    dsimp only [Function.comp]
    split
    · rfl
    · rw [show (delay : Int) = 0 by omega, Int.sub_zero]
  have own : mda.delayTime txbuf = delay := by
    rw [pushed.delayTime, MdaEnvar.delayTime_fill]
  simp [ledger, enter, own, behind, pushedSchedule, service]

/-- Adding a message keeps the state coherent. -/
theorem Coherent.enter (coherent : state.Coherent nodes) (fresh : txbuf ∉ nodes)
    (pushed : (state.mda.fill txbuf ⟨srcSta, delay⟩).Pushed txbuf nodes mda) :
    (state.enter txbuf delay mda false).Coherent (txbuf :: nodes) := by
  have ledger := enter_ledger fresh pushed
  have keys : ((state.enter txbuf delay mda false).ledger (txbuf :: nodes)).map Prod.fst =
      state.sent.map Prod.fst ++ state.added :: nodes.map state.message := by
    rw [ledger]
    simp [pushedSchedule]
  have bounds : ∀ message ∈ (state.ledger nodes).map Prod.fst, message < state.added := by
    intro message member
    obtain ⟨item, inLedger, rfl⟩ := List.mem_map.1 member
    exact coherent.numbered item inLedger
  have distinct := coherent.distinct
  rw [ledger_keys] at bounds distinct
  have permuted : (state.sent.map Prod.fst ++ state.added :: nodes.map state.message).Perm
      (state.added :: (state.sent.map Prod.fst ++ nodes.map state.message)) := List.perm_middle
  constructor
  · rfl
  · exact pushed.waiting
  · rw [keys, permuted.nodup_iff, List.nodup_cons]
    exact ⟨fun member => absurd (bounds _ member) (Nat.lt_irrefl _), distinct⟩
  · intro item member
    have inKeys := List.mem_map_of_mem (f := Prod.fst) member
    rw [keys, permuted.mem_iff] at inKeys
    rcases List.mem_cons.1 inKeys with new | old
    · rw [new]
      exact Nat.lt_succ_self _
    · exact Nat.lt_succ_of_lt (bounds _ old)
  · intro message large
    have different : message ≠ state.added := Nat.ne_of_gt large
    rw [enter_due, Function.update_of_ne different]
    exact coherent.undue message (Nat.le_of_succ_le large)
  · exact coherent.past

/-- The new message is on time in any case, the others as they were scheduled. -/
theorem Coherent.enter_agrees_iff (coherent : state.Coherent nodes) (agrees : state.Agrees nodes)
    (fresh : txbuf ∉ nodes)
    (pushed : (state.mda.fill txbuf ⟨srcSta, delay⟩).Pushed txbuf nodes mda) :
    (state.enter txbuf delay mda false).Agrees (txbuf :: nodes) ↔
      state.pushedSchedule delay nodes =
        schedule state.now (state.mda.queue state.message nodes) := by
  unfold Agrees
  rw [enter_ledger fresh pushed, enter_due]
  constructor
  · intro next
    rw [agrees.schedule_eq_iff (by simp [pushedSchedule])]
    intro item member
    have due := (next item.1 item.2).1 (by simp [member])
    have old : item.1 ≠ state.added := by
      have distinct := (coherent.enter fresh pushed).distinct
      rw [enter_ledger fresh pushed, List.map_append, List.map_cons, List.perm_middle.nodup_iff,
        List.nodup_cons] at distinct
      intro same
      exact distinct.1 (by rw [← same]; simp [List.mem_map_of_mem member])
    rwa [Function.update_of_ne old] at due
  · intro same message tick
    have membership : (message, tick) ∈ state.sent ++
        (state.added, state.now + max delay 1) :: state.pushedSchedule delay nodes ↔
          (message, tick) = (state.added, state.now + max delay 1) ∨
            (message, tick) ∈ state.ledger nodes := by
      rw [same, ledger, List.perm_middle.mem_iff, List.mem_cons]
    rw [membership, agrees message tick]
    by_cases new : message = state.added
    · have unknown : state.due state.added = none := coherent.undue _ (Nat.le_refl _)
      simp [new, unknown, eq_comm]
    · simp [new]

omit [DecidableEq Buf] in
/-- A message put in front leaves the others on time in the stated cases only. -/
theorem pushedSchedule_eq_iff (sooner : ∀ first ∈ nodes.head?, (delay : Int) < state.mda.delayTime first) :
    state.pushedSchedule delay nodes =
        schedule state.now (state.mda.queue state.message nodes) ↔
      ∀ first rest, nodes = first :: rest →
        1 ≤ delay ∧ ∀ node ∈ rest, state.mda.delayTime node ≤ 1 := by
  cases nodes with
  | nil => simp [pushedSchedule, MdaEnvar.queue, DeltaQueue.lower]
  | cons first rest =>
      have pushed := schedule_push_iff (Int.natCast_nonneg delay) (sooner first rfl) state.now
        (state.message first) (state.mda.queue state.message rest)
      rw [pushedSchedule, MdaEnvar.queue_cons, pushed]
      simp only [MdaEnvar.queue, List.forall_mem_map]
      constructor
      · rintro ⟨least, small⟩ other others equal
        obtain ⟨rfl, rfl⟩ := List.cons.inj equal
        exact ⟨by omega, small⟩
      · intro always
        have both := always first rest rfl
        exact ⟨by omega, both.2⟩

end Add

section Remove

variable {txbuf : Buf} {front back : List Buf}

/-- A removal takes the deadline away. -/
theorem drop_due (state : ListState Buf) (txbuf : Buf) :
    (state.drop txbuf).due = Function.update state.due (state.message txbuf) none := rfl

/-- The ledger of the others stays. -/
theorem drop_ledger (state : ListState Buf) (txbuf : Buf) (nodes : List Buf) :
    (state.drop txbuf).ledger nodes = state.ledger nodes := rfl

/-- Removing a message keeps the state coherent. -/
theorem Coherent.drop (coherent : state.Coherent (front ++ txbuf :: back)) :
    (state.drop txbuf).Coherent (front ++ back) := by
  have kept : (state.sent.map Prod.fst ++ (front ++ back).map state.message).Sublist
      (state.sent.map Prod.fst ++ (front ++ txbuf :: back).map state.message) :=
    (List.Sublist.refl _).append (((List.Sublist.refl front).append
      (List.sublist_cons_self txbuf back)).map state.message)
  have distinct := coherent.distinct
  rw [ledger_keys] at distinct
  constructor
  · exact coherent.free
  · exact MdaEnvar.removeFromForwardList_waiting coherent.waiting
  · rw [drop_ledger, ledger_keys]
    exact distinct.sublist kept
  · intro item member
    have inKeys : item.1 ∈ (state.ledger (front ++ back)).map Prod.fst := List.mem_map_of_mem member
    rw [ledger_keys] at inKeys
    have inOld := kept.subset inKeys
    rw [← ledger_keys] at inOld
    obtain ⟨old, inLedger, same⟩ := List.mem_map.1 inOld
    rw [← same]
    exact coherent.numbered old inLedger
  · intro message large
    by_cases own : message = state.message txbuf
    · simp [ListState.drop, own]
    · rw [drop_due, Function.update_of_ne own]
      exact coherent.undue message large
  · exact coherent.past

omit [DecidableEq Buf] in
/-- A waiting message splits the ledger. -/
theorem ledger_middle (state : ListState Buf) (front : List Buf) (txbuf : Buf) (back : List Buf) :
    ∃ reached, state.ledger (front ++ txbuf :: back) =
      state.sent ++ (schedule state.now (state.mda.queue state.message front) ++
        (state.message txbuf, reached + service (state.mda.delayTime txbuf)) ::
          schedule (reached + service (state.mda.delayTime txbuf))
            (state.mda.queue state.message back)) ∧
      schedule state.now (state.mda.queue state.message (front ++ back)) =
        schedule state.now (state.mda.queue state.message front) ++
          schedule reached (state.mda.queue state.message back) := by
  refine ⟨finish state.now (state.mda.queue state.message front), ?_, ?_⟩
  · rw [ledger, MdaEnvar.queue_append, schedule_append, MdaEnvar.queue_cons, schedule_cons]
  · rw [MdaEnvar.queue_append, schedule_append]

/-- The other messages stay on time only if the removed one was the last. -/
theorem Coherent.drop_agrees_iff (coherent : state.Coherent (front ++ txbuf :: back))
    (agrees : state.Agrees (front ++ txbuf :: back)) :
    (state.drop txbuf).Agrees (front ++ back) ↔ back = [] := by
  obtain ⟨reached, ledgerEq, scheduleEq⟩ := state.ledger_middle front txbuf back
  set own := state.message txbuf with ownDef
  set left := reached + service (state.mda.delayTime txbuf) with leftDef
  set ahead := schedule state.now (state.mda.queue state.message front)
  set behind := schedule left (state.mda.queue state.message back) with behindDef
  have members : ∀ item, item ∈ state.ledger (front ++ txbuf :: back) ↔
      item = (own, left) ∨ item ∈ state.sent ++ (ahead ++ behind) := by
    intro item
    simp only [ledgerEq, List.mem_append, List.mem_cons]
    tauto
  have others : ∀ item ∈ state.sent ++ (ahead ++ behind), item.1 ≠ own := by
    have distinct := coherent.distinct
    rw [ledgerEq, ← List.append_assoc, List.map_append, List.map_cons, List.perm_middle.nodup_iff,
      List.nodup_cons, ← List.map_append, List.append_assoc] at distinct
    intro item member same
    have inKeys := List.mem_map_of_mem (f := Prod.fst) member
    rw [same] at inKeys
    exact distinct.1 inKeys
  constructor
  · intro next
    have kept : ∀ item ∈ ahead ++ behind, (state.drop txbuf).due item.1 = some item.2 := by
      intro item member
      have inAll : item ∈ state.sent ++ (ahead ++ behind) := List.mem_append_right _ member
      rw [drop_due, Function.update_of_ne (others item inAll)]
      exact (agrees item.1 item.2).1 ((members item).2 (.inr inAll))
    have same := (next.schedule_eq_iff (by simp [ahead, behind, ListState.drop])).2 kept
    have cut := scheduleEq.symm.trans same.symm
    rw [List.append_cancel_left_eq, behindDef, leftDef, schedule_later_iff
      (Nat.lt_add_of_pos_right (service_pos _))] at cut
    simpa [MdaEnvar.queue] using cut
  · rintro rfl message tick
    have old := agrees message tick
    rw [members] at old
    have rest : (state.drop txbuf).ledger (front ++ []) = state.sent ++ (ahead ++ behind) := by
      rw [drop_ledger, ledger, scheduleEq]
      simp [behind, MdaEnvar.queue]
    rw [rest, drop_due]
    by_cases same : message = own
    · have absent : (own, tick) ∉ state.sent ++ (ahead ++ behind) :=
        fun member => others _ member rfl
      rw [← ownDef, same, Function.update_self]
      exact iff_of_false absent (by simp)
    · rw [Function.update_of_ne same, ← old]
      simp [same]

end Remove

/-- A hanging addition is never on time. -/
theorem Coherent.not_punctual_of_hung (coherent : state.Coherent nodes) (txbuf : Buf) (delay : Nat)
    (mda : MdaEnvar Buf) : ¬ (state.enter txbuf delay mda true).Punctual := by
  intro punctual
  have blocked : (state.enter txbuf delay mda true).blocked = true := rfl
  obtain ⟨sent, due, now⟩ := sent_of_blocked blocked (max delay 1)
  have onTime := ((punctual (max delay 1)).2 state.added (state.now + max delay 1)).2
  rw [sent, due, now, enter_due] at onTime
  have member := onTime ⟨by simp, Nat.le_refl _⟩
  have below := coherent.numbered _ (List.mem_append_left _ member)
  exact Nat.lt_irrefl _ below

omit [DecidableEq Buf] in
/-- The condition on an addition, for the nodes the list holds. -/
theorem keepsDeadlines_add_iff (waiting : state.mda.Waiting nodes) (txbuf : Buf)
    (srcSta : MdaMsgInfo) (delay : Nat) :
    state.KeepsDeadlines (.add txbuf srcSta delay) ↔ ∀ first rest, nodes = first :: rest →
      1 ≤ delay ∧ (delay : Int) < state.mda.delayTime first ∧
        ∀ node ∈ rest, state.mda.delayTime node ≤ 1 := by
  constructor
  · rintro ⟨others, same, keeps⟩
    rwa [waiting.unique same]
  · exact fun keeps => ⟨nodes, waiting, keeps⟩

omit [DecidableEq Buf] in
/-- The condition on a removal, for the place of the removed node. -/
theorem keepsDeadlines_remove_iff {front back : List Buf} {txbuf : Buf}
    (waiting : state.mda.Waiting (front ++ txbuf :: back)) :
    state.KeepsDeadlines (.remove txbuf) ↔ back = [] := by
  constructor
  · rintro ⟨others, last⟩
    have nodup := waiting.distinct
    rw [List.perm_middle.nodup_iff, List.nodup_cons, List.mem_append, not_or] at nodup
    have same : front ++ txbuf :: back = others ++ txbuf :: [] := waiting.unique last
    exact ((List.append_cons_inj_of_notMem nodup.1.1 nodup.1.2).1 same).2.2
  · rintro rfl
    exact ⟨front, waiting⟩

/-- One operation on a punctual list: it stays punctual exactly in the stated
circumstances, and then it stays coherent. -/
theorem Coherent.step (coherent : state.Coherent nodes) (punctual : state.Punctual)
    {action : ListAction Buf} {next : ListState Buf} (step : ListStep state action next) :
    (next.Punctual ↔ state.KeepsDeadlines action) ∧
      (state.KeepsDeadlines action → next.Sound) := by
  have agrees := coherent.punctual_iff.1 punctual
  cases step with
  | @added others txbuf srcSta delay mda free waiting fresh returns =>
      obtain rfl := coherent.waiting.unique waiting
      rw [keepsDeadlines_add_iff waiting]
      rcases MdaEnvar.addForwardList_cases waiting fresh srcSta delay with
        ⟨sooner, mda', returns', pushed⟩ | ⟨-, diverges⟩
      · obtain rfl := returns.unique (MdaEnvar.addForwardList_persistent _ _ _ _) returns'
        refine ⟨?_, fun _ => ⟨_, coherent.enter fresh pushed⟩⟩
        rw [(coherent.enter fresh pushed).punctual_iff, coherent.enter_agrees_iff agrees fresh pushed,
          pushedSchedule_eq_iff sooner]
        constructor
        · rintro keeps first rest rfl
          obtain ⟨least, small⟩ := keeps first rest rfl
          exact ⟨least, sooner first rfl, small⟩
        · intro keeps first rest equal
          obtain ⟨least, -, small⟩ := keeps first rest equal
          exact ⟨least, small⟩
      · exact absurd diverges returns.not_diverges
  | @hung others txbuf srcSta delay free waiting fresh diverges =>
      obtain rfl := coherent.waiting.unique waiting
      have refused : ¬ state.KeepsDeadlines (.add txbuf srcSta delay) := by
        rw [keepsDeadlines_add_iff waiting]
        intro keeps
        rcases MdaEnvar.addForwardList_cases waiting fresh srcSta delay with
          ⟨-, mda, returns, -⟩ | ⟨⟨first, rest, equal, notSooner⟩, -⟩
        · exact returns.not_diverges diverges
        · have sooner := (keeps first rest equal).2.1
          omega
      exact ⟨iff_of_false (coherent.not_punctual_of_hung txbuf delay _) refused,
        fun keeps => absurd keeps refused⟩
  | @removed front back txbuf free waiting =>
      obtain rfl := coherent.waiting.unique waiting
      rw [keepsDeadlines_remove_iff waiting, coherent.drop.punctual_iff,
        coherent.drop_agrees_iff agrees]
      exact ⟨Iff.rfl, fun _ => ⟨_, coherent.drop⟩⟩
  | ticked =>
      obtain ⟨left, later, _⟩ := coherent.tick
      refine ⟨⟨fun _ => trivial, fun _ ticks => ?_⟩, fun _ => ⟨left, later⟩⟩
      exact punctual (ticks + 1)

theorem initial_coherent : (initial : ListState Buf).Coherent [] where
  free := rfl
  waiting := MdaEnvar.mdaInit_waiting
  distinct := by simp [ledger, initial, MdaEnvar.queue]
  numbered := by simp [ledger, initial, MdaEnvar.queue]
  undue := fun _ _ => rfl
  past := by simp [initial]

theorem initial_punctual : (initial : ListState Buf).Punctual := by
  rw [initial_coherent.punctual_iff]
  simp [Agrees, ledger, initial, MdaEnvar.queue]

/-- In a run of the waiting list every message is sent once and on its tick,
whatever happens to the others, exactly if each message is added to an empty
list or, with a delay of at least one tick, in front of a first message due
later and of others that wait one tick each at most, and only the last message
is ever removed. -/
theorem forwarding_on_time_iff {finish : ListState Buf}
    (path : (listSystem Buf).Path ListState.initial finish) :
    path.Always Punctual ↔ path.StepsMeet KeepsDeadlines := by
  have coherentStart : (initial : ListState Buf).Sound := ⟨[], initial_coherent⟩
  apply path.always_iff_stepsMeet coherentStart initial_punctual
  · rintro state action next ⟨nodes, coherent⟩ punctual step meets
    exact (coherent.step punctual step).2 meets
  · rintro state action next ⟨nodes, coherent⟩ punctual step
    exact (coherent.step punctual step).1

/-- Two messages to be forwarded at once: the second addition hangs and the
first message, due on the next tick, is not sent on it. -/
theorem second_addition_hangs :
    ∃ (finish : ListState Nat) (path : (listSystem Nat).Path ListState.initial finish),
      path.actions = [.add 0 MdaMsgInfo.zero 0, .add 1 MdaMsgInfo.zero 0, .tick] ∧
        finish.due 0 = some 1 ∧ finish.now = 1 ∧ finish.sent = [] ∧ ¬ finish.OnTime := by
  have start : (MdaEnvar.mdaInit : MdaEnvar Nat).Waiting [] := MdaEnvar.mdaInit_waiting
  have empty : ∀ first ∈ ([] : List Nat).head?, (0 : Int) < MdaEnvar.mdaInit.delayTime first := by
    simp
  obtain ⟨mda, returns, pushed⟩ := MdaEnvar.addForwardList_returns start (List.not_mem_nil (a := 0))
    MdaMsgInfo.zero empty
  have fresh : 1 ∉ [0] := by simp
  have notSooner : mda.delayTime 0 ≤ 0 := by
    have filled : mda.delayTime 0 = 0 := by rw [pushed.delayTime, MdaEnvar.delayTime_fill]
    exact Int.le_of_eq filled
  have diverges := MdaEnvar.addForwardList_diverges pushed.waiting fresh MdaMsgInfo.zero notSooner
  let one := ListState.initial.enter 0 0 mda false
  let two := one.enter 1 0 mda true
  have first : ListStep ListState.initial (.add 0 MdaMsgInfo.zero 0) one :=
    .added rfl start (List.not_mem_nil (a := 0)) returns
  have second : ListStep one (.add 1 MdaMsgInfo.zero 0) two :=
    .hung rfl pushed.waiting fresh diverges
  let pathOne : (listSystem Nat).Path ListState.initial one :=
    @ActionSystem.Path.snoc _ (listSystem Nat) _ _ .nil _ one first
  let pathTwo : (listSystem Nat).Path ListState.initial two := .snoc pathOne _ two second
  refine ⟨two.tick, .snoc pathTwo .tick two.tick ListStep.ticked, rfl, rfl, rfl, rfl, ?_⟩
  intro onTime
  have member := (onTime.2 0 1).2 ⟨rfl, Nat.le_refl _⟩
  exact absurd member (List.not_mem_nil)

end ListState

end Rsu.Mda
