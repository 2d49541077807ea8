import Rsu.Mda.Handle
import Rsu.Semantics.ActionSystem

/-!
# Duplicate suppression

Runs in which senders number their messages with the two counters of
`rcp_send_bsm` and `rcp_send_evam` and a receiver runs `mda_handle` on the frames
in any order and multiplicity. The state remembers which message every history
entry and every waiting buffer stands for. Both lookups compare the sender and
an eight bit count only; `duplicates_identified` states what that is enough for.
-/

namespace Rsu.Mda

open Rsu.Rcp

universe u

/-- A message as its sender knows it. -/
structure Message where
  sender : TempId
  kind : MsgKind
  /-- how many messages of the kind the sender had sent before -/
  number : Nat
  deriving DecidableEq

/-- The events of a run. -/
inductive DupAction (Buf : Type u) where
  /-- `rcp_send_bsm` or `rcp_send_evam` at a sender -/
  | send (sender : TempId) (kind : MsgKind)
  /-- `mda_handle` at the receiver, for a frame of the message -/
  | receive (message : Message) (rx : Received) (dis : Int) (txbuf : Option Buf)
  /-- `forward_handler` -/
  | forwardTick
  /-- `timer_rx_history_callback` -/
  | historyTimeout
  /-- `history_handler` -/
  | historyTick

/-- The senders' counters, the receiver, and what its records stand for. -/
structure DupState (Buf : Type u) where
  mda : MdaEnvar Buf
  /-- a reception that never returns holds `sem_forward` -/
  blocked : Bool
  /-- `tx_bsm_msg_cnt` and `tx_evam_msg_cnt` of every sender -/
  txMsgCnt : TempId → MsgKind → Byte
  /-- how many messages of each kind every sender has sent -/
  sent : TempId → MsgKind → Nat
  /-- the `msg_count` a message was sent with -/
  msgCount : Message → Byte
  /-- the message a history entry was made for -/
  recorded : Fin rxHistoryNum → Message
  /-- the message a buffer carries, and the hops it was received with -/
  carried : Buf → Message × BitVec 3

namespace DupState

variable {Buf : Type u} [DecidableEq Buf] (rangeDelay : Int → Int)

/-- The receiver after `mda_init`, and senders that have sent nothing. -/
def initial : DupState Buf where
  mda := MdaEnvar.mdaInit
  blocked := false
  txMsgCnt := fun _ _ => 0
  sent := fun _ _ => 0
  msgCount := fun _ => 0
  recorded := fun _ => ⟨MdaMsgInfo.zero.temporaryId, .bsm, 0⟩
  carried := fun _ => (⟨MdaMsgInfo.zero.temporaryId, .bsm, 0⟩, 0)

/-- A sender takes the count from its counter for the kind and increments it. -/
def send (state : DupState Buf) (sender : TempId) (kind : MsgKind) : DupState Buf :=
  { state with
    txMsgCnt := fun other otherKind =>
      if other = sender ∧ otherKind = kind then state.txMsgCnt sender kind + 1
      else state.txMsgCnt other otherKind
    sent := fun other otherKind =>
      if other = sender ∧ otherKind = kind then state.sent sender kind + 1
      else state.sent other otherKind
    msgCount := Function.update state.msgCount ⟨sender, kind, state.sent sender kind⟩
      (state.txMsgCnt sender kind) }

/-- A frame of a message that was sent: its kind, sender and count. The hops and
the forwarder are whatever the nodes on the way left there. -/
structure Carries (state : DupState Buf) (message : Message) (rx : Received) : Prop where
  sent : message.number < state.sent message.sender message.kind
  kind : rx.kind = message.kind
  sender : rx.temporaryId = message.sender
  count : byteAt rx.frame rx.kind.msgCountAt = state.msgCount message

/-- The decision of `mda_handle` about a frame. -/
def decision (state : DupState Buf) (rx : Received) (dis : Int) (txbuf : Option Buf) :
    Decision Buf × MdaEnvar Buf × Frame :=
  state.mda.mdaDecide rangeDelay (MdaEnvar.spend (srcOf rx)) rx.frame dis txbuf

/-- What the history entries stand for after the message was recorded. -/
def recordedAfter (state : DupState Buf) (message : Message) : Fin rxHistoryNum → Message :=
  match MdaEnvar.historySlot state.mda.rxHistoryTable (List.finRange rxHistoryNum)
    (maxHistoryLife + 1) none with
  | none => state.recorded
  | some slot => Function.update state.recorded slot message

/-- Note which message a reception records, if any. -/
def note (state : DupState Buf) (message : Message) (rx : Received) (dis : Int)
    (txbuf : Option Buf) (mda : MdaEnvar Buf) (blocked : Bool) : DupState Buf :=
  match (state.decision rangeDelay rx dis txbuf).1 with
  | .forward buf _ =>
      { state with
        mda
        blocked
        recorded := state.recordedAfter message
        carried := Function.update state.carried buf (message, msgHops rx.frame) }
  | _ => { state with mda, blocked }

end DupState

open DupState in
/-- The events, each as the code performs it. The buffer for a reception comes
from the allocator and so is not on the waiting list. -/
inductive DupStep {Buf : Type u} [DecidableEq Buf] (rangeDelay : Int → Int) :
    DupState Buf → DupAction Buf → DupState Buf → Prop
  | sent {state : DupState Buf} {sender : TempId} {kind : MsgKind} :
      DupStep rangeDelay state (.send sender kind) (state.send sender kind)
  | received {state : DupState Buf} {message : Message} {rx : Received} {dis : Int}
      {txbuf : Option Buf} {nodes : List Buf} {mda : MdaEnvar Buf} {result : Int}
      (free : state.blocked = false) (carries : state.Carries message rx)
      (waiting : state.mda.Waiting nodes) (fresh : ∀ buf ∈ txbuf, buf ∉ nodes)
      (returns : Returns (state.mda.mdaHandle rangeDelay (srcOf rx) rx.frame dis txbuf)
        (mda, result)) :
      DupStep rangeDelay state (.receive message rx dis txbuf)
        (state.note rangeDelay message rx dis txbuf mda false)
  | hung {state : DupState Buf} {message : Message} {rx : Received} {dis : Int}
      {txbuf : Option Buf} {nodes : List Buf}
      (free : state.blocked = false) (carries : state.Carries message rx)
      (waiting : state.mda.Waiting nodes) (fresh : ∀ buf ∈ txbuf, buf ∉ nodes)
      (diverges : Diverges (state.mda.mdaHandle rangeDelay (srcOf rx) rx.frame dis txbuf)) :
      DupStep rangeDelay state (.receive message rx dis txbuf)
        (state.note rangeDelay message rx dis txbuf
          (state.decision rangeDelay rx dis txbuf).2.1 true)
  | forwarded {state : DupState Buf} (free : state.blocked = false) :
      DupStep rangeDelay state .forwardTick { state with mda := state.mda.forwardHandler.1 }
  | timedOut {state : DupState Buf} :
      DupStep rangeDelay state .historyTimeout
        { state with mda := state.mda.timerRxHistoryCallback }
  | aged {state : DupState Buf} (free : state.blocked = false) :
      DupStep rangeDelay state .historyTick { state with mda := state.mda.historyHandler }

/-- Senders and a receiver as an action system. -/
def dupSystem (Buf : Type u) [DecidableEq Buf] (rangeDelay : Int → Int) :
    ActionSystem (DupAction Buf) where
  State := DupState Buf
  Initial state := state = .initial
  Step := DupStep rangeDelay

namespace DupState

variable {Buf : Type u} [DecidableEq Buf] {rangeDelay : Int → Int}

/-- The message of a live history entry. -/
def Recorded (state : DupState Buf) (message : Message) : Prop :=
  ∃ slot, 0 < (state.mda.rxHistoryTable slot).lifeTime ∧ state.recorded slot = message

/-- The message of a waiting buffer. -/
def Waits (state : DupState Buf) (message : Message) : Prop :=
  ∃ nodes, state.mda.Waiting nodes ∧ ∃ buf ∈ nodes, (state.carried buf).1 = message

/-- Eight bits of count tell a received message apart from everything the
receiver remembers of its sender: messages of its kind are less than 256 numbers
away, messages of the other kind do not carry the same count. And a message that
arrives with no hops left is not new, or does not get as far as the waiting list. -/
def Distinguishable (rangeDelay : Int → Int) (state : DupState Buf) : DupAction Buf → Prop
  | .receive message rx dis txbuf =>
      (∀ other, state.Recorded other ∨ state.Waits other → other.sender = message.sender →
        if other.kind = message.kind then
          other.number < message.number + 256 ∧ message.number < other.number + 256
        else other.number % 256 ≠ message.number % 256) ∧
      (msgHops rx.frame = 0#3 →
        state.Recorded message ∨ algFarestNode rangeDelay dis < 0 ∨ txbuf = none)
  | _ => True

/-- What may make a waiting buffer leave the list: its deadline, or a copy of
its message with fewer hops left. -/
def Leaves (state : DupState Buf) (buf : Buf) : DupAction Buf → Prop
  | .forwardTick => state.mda.forwardHandler.2 = some buf
  | .receive message rx _ _ =>
      (state.carried buf).1 = message ∧
        (msgHops rx.frame).toNat < (state.carried buf).2.toNat
  | _ => False

/-- Copies are identified correctly in one event: the lookups find records of
the received message only, a recorded message is not queued again, and buffers
leave the list for the right reasons only. -/
def Identified (rangeDelay : Int → Int) (state : DupState Buf) (action : DupAction Buf) : Prop :=
  (∀ message rx dis txbuf, action = .receive message rx dis txbuf →
    state.blocked = false → state.Carries message rx →
      (∀ slot, state.mda.findHistoryRecord (MdaEnvar.spend (srcOf rx)) = some slot →
        state.recorded slot = message) ∧
      (∀ buf, Returns (state.mda.findForwardList (MdaEnvar.spend (srcOf rx))) (some buf) →
        (state.carried buf).1 = message) ∧
      (state.Recorded message →
        ∀ buf delay, (state.decision rangeDelay rx dis txbuf).1 ≠ .forward buf delay)) ∧
  ∀ next, DupStep rangeDelay state action next → ∀ nodes left, state.mda.Waiting nodes →
    next.mda.Waiting left → ∀ buf ∈ nodes, buf ∉ left → state.Leaves buf action

/-- A record stands for a message: it has its sender and the low eight bits of
its number. -/
structure Stands (msg : MdaMsgInfo) (message : Message) : Prop where
  sender : msg.temporaryId = message.sender
  count : msg.msgCount = BitVec.ofNat 8 message.number

/-- What all events keep: counters count, and records stand for what they are
said to stand for. -/
structure Tracked (state : DupState Buf) : Prop where
  counters : ∀ sender kind, state.txMsgCnt sender kind = BitVec.ofNat 8 (state.sent sender kind)
  counts : ∀ message, message.number < state.sent message.sender message.kind →
    state.msgCount message = BitVec.ofNat 8 message.number
  history : ∀ slot, 0 < (state.mda.rxHistoryTable slot).lifeTime →
    Stands (state.mda.rxHistoryTable slot).msg (state.recorded slot)
  waiting : state.blocked = false → ∃ nodes, state.mda.Waiting nodes ∧ ∀ buf ∈ nodes,
    Stands (state.mda.txbuf buf).forward.msg (state.carried buf).1 ∧
      (state.mda.txbuf buf).forward.msg.leftHops = (state.carried buf).2.setWidth 8 - 1#8 ∧
      (state.carried buf).2 ≠ 0#3

/-- Two records with one key stand for one message, unless eight bits of count
do not tell their messages apart. -/
theorem Stands.eq_of_sameKey {left right : MdaMsgInfo} {one other : Message}
    (leftStands : Stands left one) (rightStands : Stands right other)
    (same : left.sameKey right = true)
    (apart : one.sender = other.sender →
      if one.kind = other.kind then
        one.number < other.number + 256 ∧ other.number < one.number + 256
      else one.number % 256 ≠ other.number % 256) : one = other := by
  simp only [MdaMsgInfo.sameKey, leftStands.sender, leftStands.count, rightStands.sender,
    rightStands.count, decide_eq_true_eq] at same
  obtain ⟨senders, counts⟩ := same
  have congruent : one.number % 256 = other.number % 256 := by
    have values := congrArg BitVec.toNat counts
    simpa using values
  have numbers := apart senders
  by_cases kinds : one.kind = other.kind
  · rw [if_pos kinds] at numbers
    have equal : one.number = other.number := by omega
    cases one
    cases other
    simp_all
  · rw [if_neg kinds] at numbers
    exact absurd congruent numbers

/-- The converse: records of one message have one key. -/
theorem Stands.sameKey {left right : MdaMsgInfo} {message : Message}
    (leftStands : Stands left message) (rightStands : Stands right message) :
    left.sameKey right = true := by
  simp [MdaMsgInfo.sameKey, leftStands.sender, leftStands.count, rightStands.sender,
    rightStands.count]

variable {state : DupState Buf}

omit [DecidableEq Buf] in
/-- A received frame stands for its message. -/
theorem Tracked.srcOf_stands (tracked : state.Tracked) {message : Message} {rx : Received}
    (carries : state.Carries message rx) : Stands (MdaEnvar.spend (srcOf rx)) message where
  sender := carries.sender
  count := carries.count.trans (tracked.counts message carries.sent)

/-- The comparison of remaining hops orders the received hops as well, when the
waiting copy had hops left. -/
theorem fewer_hops (hops waiting : BitVec 3) (some : waiting ≠ 0#3)
    (fewer : hops.setWidth 8 - 1#8 < waiting.setWidth 8 - 1#8) : hops.toNat < waiting.toNat := by
  revert hops waiting
  decide

/-- In a distinguishable reception the lookups find copies of the message only. -/
theorem Tracked.lookups (tracked : state.Tracked) {message : Message} {rx : Received}
    {dis : Int} {txbuf : Option Buf} (free : state.blocked = false)
    (carries : state.Carries message rx)
    (apart : state.Distinguishable rangeDelay (.receive message rx dis txbuf)) :
    (∀ slot, state.mda.findHistoryRecord (MdaEnvar.spend (srcOf rx)) = some slot →
      state.recorded slot = message) ∧
    (∀ buf, Returns (state.mda.findForwardList (MdaEnvar.spend (srcOf rx))) (some buf) →
      (state.carried buf).1 = message) := by
  have own := tracked.srcOf_stands carries
  constructor
  · intro slot found
    obtain ⟨alive, same⟩ := MdaEnvar.of_findHistoryRecord_eq_some found
    exact (tracked.history slot alive).eq_of_sameKey own same
      (apart.1 _ (.inl ⟨slot, alive, rfl⟩))
  · intro buf returns
    obtain ⟨nodes, waiting, stand⟩ := tracked.waiting free
    obtain ⟨member, same⟩ := MdaEnvar.of_findForwardList waiting returns buf rfl
    exact (stand buf member).1.eq_of_sameKey own same
      (apart.1 _ (.inr ⟨nodes, waiting, buf, member, rfl⟩))

omit [DecidableEq Buf] in
/-- A message on record is found by the history lookup. -/
theorem Tracked.found_of_recorded (tracked : state.Tracked) {message : Message} {rx : Received}
    (carries : state.Carries message rx) (recorded : state.Recorded message) :
    state.mda.findHistoryRecord (MdaEnvar.spend (srcOf rx)) ≠ none := by
  obtain ⟨slot, alive, rfl⟩ := recorded
  exact MdaEnvar.findHistoryRecord_ne_none alive
    ((tracked.history slot alive).sameKey (tracked.srcOf_stands carries))

/-- A message on record is not queued again. -/
theorem Tracked.not_forward_of_recorded (tracked : state.Tracked) {message : Message}
    {rx : Received} {dis : Int} {txbuf : Option Buf} (carries : state.Carries message rx)
    (recorded : state.Recorded message) (buf : Buf) (delay : Int) :
    (state.decision rangeDelay rx dis txbuf).1 ≠ .forward buf delay := by
  intro forward
  have known := tracked.found_of_recorded carries recorded
  rcases MdaEnvar.mdaDecide_cases rangeDelay state.mda (MdaEnvar.spend (srcOf rx)) rx.frame dis
    txbuf with ⟨_, _, decided⟩ | ⟨_, _, -, -, -, unknown⟩ | ⟨_, -, decided⟩
  · simp [decision, decided] at forward
  · exact known unknown
  · simp [decision, decided] at forward

omit [DecidableEq Buf] in
/-- Recording a message keeps the history tracked. -/
theorem Tracked.history_after (tracked : state.Tracked) {srcSta : MdaMsgInfo} {message : Message}
    (own : Stands srcSta message) (slot : Fin rxHistoryNum)
    (alive : 0 < ((state.mda.addHistoryRecord srcSta).rxHistoryTable slot).lifeTime) :
    Stands ((state.mda.addHistoryRecord srcSta).rxHistoryTable slot).msg
      (state.recordedAfter message slot) := by
  rw [MdaEnvar.addHistoryRecord_table] at alive ⊢
  unfold recordedAfter
  generalize MdaEnvar.historySlot state.mda.rxHistoryTable (List.finRange rxHistoryNum)
    (maxHistoryLife + 1) none = found at alive ⊢
  cases found with
  | none => exact tracked.history slot alive
  | some new =>
      by_cases same : slot = new
      · simpa [same] using own
      · simp only [Function.update_of_ne same] at alive ⊢
        exact tracked.history slot alive

/-- What is not forwarded is not recorded. -/
theorem note_of_not_forward {message : Message} {rx : Received} {dis : Int} {txbuf : Option Buf}
    (notForward : ∀ buf delay, (state.decision rangeDelay rx dis txbuf).1 ≠ .forward buf delay)
    (mda : MdaEnvar Buf) (blocked : Bool) :
    state.note rangeDelay message rx dis txbuf mda blocked = { state with mda, blocked } := by
  unfold note
  cases decided : (state.decision rangeDelay rx dis txbuf).1 with
  | forward buf delay => exact absurd decided (notForward buf delay)
  | _ => rfl

/-- What is forwarded is recorded as its message. -/
theorem note_of_forward {message : Message} {rx : Received} {dis : Int} {txbuf : Option Buf}
    {buf : Buf} {delay : Int}
    (decided : (state.decision rangeDelay rx dis txbuf).1 = .forward buf delay)
    (mda : MdaEnvar Buf) (blocked : Bool) :
    state.note rangeDelay message rx dis txbuf mda blocked =
      { state with
        mda
        blocked
        recorded := state.recordedAfter message
        carried := Function.update state.carried buf (message, msgHops rx.frame) } := by
  unfold note
  rw [decided]

omit [DecidableEq Buf] in
/-- Dropping entries from the list, or none, keeps a state tracked. -/
theorem Tracked.of_sublist (tracked : state.Tracked) {mda : MdaEnvar Buf} {blocked : Bool}
    (history : ∀ slot, (mda.rxHistoryTable slot).msg = (state.mda.rxHistoryTable slot).msg ∧
      (mda.rxHistoryTable slot).lifeTime ≤ (state.mda.rxHistoryTable slot).lifeTime)
    (msgs : ∀ buf, (mda.txbuf buf).forward.msg = (state.mda.txbuf buf).forward.msg)
    (waiting : blocked = false → state.blocked = false ∧ ∀ nodes, state.mda.Waiting nodes →
      ∃ left, mda.Waiting left ∧ ∀ buf ∈ left, buf ∈ nodes) :
    Tracked { state with mda, blocked } where
  counters := tracked.counters
  counts := tracked.counts
  history := by
    intro slot alive
    simp only [(history slot).1]
    exact tracked.history slot (Int.lt_of_lt_of_le alive (history slot).2)
  waiting := by
    intro free
    obtain ⟨stateFree, shrink⟩ := waiting free
    obtain ⟨nodes, ring, stand⟩ := tracked.waiting stateFree
    obtain ⟨left, leftRing, subset⟩ := shrink nodes ring
    refine ⟨left, leftRing, fun buf member => ?_⟩
    simp only [msgs buf]
    exact stand buf (subset buf member)

omit [DecidableEq Buf] in
/-- A sender's next message keeps a state tracked. -/
theorem Tracked.send (tracked : state.Tracked) (sender : TempId) (kind : MsgKind) :
    (state.send sender kind).Tracked where
  counters := by
    intro other otherKind
    by_cases same : other = sender ∧ otherKind = kind
    · simp [DupState.send, same, tracked.counters, BitVec.ofNat_add]
    · simp [DupState.send, same, tracked.counters]
  counts := by
    intro message before
    by_cases new : message = ⟨sender, kind, state.sent sender kind⟩
    · simp [DupState.send, new, tracked.counters]
    · have older : message.number < state.sent message.sender message.kind := by
        by_cases same : message.sender = sender ∧ message.kind = kind
        · obtain ⟨sameSender, sameKind⟩ := same
          simp only [DupState.send, sameSender, sameKind, and_self, if_true] at before ⊢
          have different : message.number ≠ state.sent sender kind := by
            intro equal
            cases message
            simp_all
          omega
        · simpa [DupState.send, same] using before
      simp only [DupState.send, Function.update_of_ne new]
      exact tracked.counts message older
  history := tracked.history
  waiting := tracked.waiting

/-- The copy made for forwarding does not change what is recorded. -/
theorem created_history (mda : MdaEnvar Buf) (srcSta : MdaMsgInfo) (data : Frame) (buf : Buf) :
    ((mda.rcpCreateForwardMsg srcSta.leftHops data (some buf)).1.addHistoryRecord
      srcSta).rxHistoryTable = (mda.addHistoryRecord srcSta).rxHistoryTable := by
  rw [MdaEnvar.addHistoryRecord_table, MdaEnvar.addHistoryRecord_table]
  rfl

/-- A distinguishable reception that queues its message keeps the state tracked. -/
theorem Tracked.queued (tracked : state.Tracked) {message : Message} {rx : Received}
    {dis : Int} {txbuf : Option Buf} {nodes : List Buf} {buf : Buf} {delay : Int}
    {mda : MdaEnvar Buf} (free : state.blocked = false) (carries : state.Carries message rx)
    (apart : state.Distinguishable rangeDelay (.receive message rx dis txbuf))
    (waiting : state.mda.Waiting nodes)
    (decided : (state.decision rangeDelay rx dis txbuf).1 = .forward buf delay)
    (supplied : txbuf = some buf)
    (unknown : state.mda.findHistoryRecord (MdaEnvar.spend (srcOf rx)) = none)
    (ring : mda.Waiting (buf :: nodes))
    (contents : mda.contents =
      (((state.mda.rcpCreateForwardMsg (MdaEnvar.spend (srcOf rx)).leftHops rx.frame
        (some buf)).1.addHistoryRecord (MdaEnvar.spend (srcOf rx))).fill buf
          ⟨MdaEnvar.spend (srcOf rx), delay⟩).contents) :
    Tracked { state with
      mda
      blocked := false
      recorded := state.recordedAfter message
      carried := Function.update state.carried buf (message, msgHops rx.frame) } where
  counters := tracked.counters
  counts := tracked.counts
  history := by
    intro slot
    have table : mda.rxHistoryTable =
        (state.mda.addHistoryRecord (MdaEnvar.spend (srcOf rx))).rxHistoryTable :=
      (MdaEnvar.history_of_contents contents).trans (created_history _ _ _ _)
    simp only [table]
    exact tracked.history_after (tracked.srcOf_stands carries) slot
  waiting := by
    intro _
    obtain ⟨others, otherRing, stand⟩ := tracked.waiting free
    obtain rfl := waiting.unique otherRing
    refine ⟨buf :: nodes, ring, fun node member => ?_⟩
    simp only [MdaEnvar.msg_of_contents contents node]
    by_cases new : node = buf
    · have some : msgHops rx.frame ≠ 0#3 := by
        intro none
        rcases apart.2 none with recorded | far | unsupplied
        · exact tracked.found_of_recorded carries recorded unknown
        · exact absurd (MdaEnvar.near_of_forward decided) (Int.not_le.2 far)
        · rw [supplied] at unsupplied
          cases unsupplied
      simp only [MdaEnvar.fill, new, Function.update_self]
      exact ⟨tracked.srcOf_stands carries, rfl, some⟩
    · have old := (List.mem_cons.1 member).resolve_left new
      simp only [MdaEnvar.fill, Function.update_of_ne new, MdaEnvar.addHistoryRecord_txbuf,
        MdaEnvar.rcpCreateForwardMsg]
      exact stand node old

/-- Every event of a distinguishable kind keeps the state tracked. -/
theorem Tracked.step (tracked : state.Tracked) {action : DupAction Buf} {next : DupState Buf}
    (step : DupStep rangeDelay state action next) (apart : state.Distinguishable rangeDelay action) :
    next.Tracked := by
  cases step with
  | sent => exact tracked.send _ _
  | @received message rx dis txbuf nodes mda result free carries waiting fresh returns =>
      cases MdaEnvar.mdaHandle_result waiting fresh returns with
      | kept notForward =>
          rw [note_of_not_forward notForward]
          exact tracked.of_sublist (fun _ => ⟨rfl, Int.le_refl _⟩) (fun _ => rfl)
            (fun _ => ⟨free, fun nodes ring => ⟨nodes, ring, fun _ member => member⟩⟩)
      | queued decided supplied unknown ring contents =>
          rw [note_of_forward decided]
          exact tracked.queued free carries apart waiting decided supplied unknown ring contents
      | @cancelled front back buf notForward split found fewer =>
          rw [note_of_not_forward notForward]
          subst split
          refine tracked.of_sublist (fun _ => ⟨rfl, Int.le_refl _⟩) (fun _ => rfl)
            (fun _ => ⟨free, fun nodes ring => ?_⟩)
          obtain rfl := waiting.unique ring
          refine ⟨front ++ back, MdaEnvar.removeFromForwardList_waiting waiting, ?_⟩
          intro node member
          exact ((List.sublist_cons_self buf back).append_left front).subset member
  | @hung message rx dis txbuf nodes free carries waiting fresh diverges =>
      have stuck : true = false → state.blocked = false ∧ ∀ nodes, state.mda.Waiting nodes →
          ∃ left, state.mda.Waiting left ∧ ∀ buf ∈ left, buf ∈ nodes := by simp
      rcases MdaEnvar.mdaDecide_cases rangeDelay state.mda (MdaEnvar.spend (srcOf rx)) rx.frame dis
        txbuf with ⟨_, _, decided⟩ | ⟨buf, delay, decided, -, -, -⟩ | ⟨_, -, decided⟩
      · rw [note_of_not_forward (by simp [decision, decided]), decision, decided]
        exact tracked.of_sublist (fun _ => ⟨rfl, Int.le_refl _⟩) (fun _ => rfl) stuck
      · have forward : (state.decision rangeDelay rx dis txbuf).1 = .forward buf delay := by
          rw [decision, decided]
        rw [note_of_forward forward, decision, decided]
        refine ⟨tracked.counters, tracked.counts, fun slot => ?_, by simp⟩
        simp only [created_history]
        exact tracked.history_after (tracked.srcOf_stands carries) slot
      · rw [note_of_not_forward (by simp [decision, decided]), decision, decided]
        exact tracked.of_sublist (fun _ => ⟨rfl, Int.le_refl _⟩) (fun _ => rfl) stuck
  | forwarded free =>
      have history : state.mda.forwardHandler.1.contents = state.mda.contents := by
        obtain ⟨nodes, ring, -⟩ := tracked.waiting free
        obtain ⟨_, _, _, contents, _⟩ := state.mda.forwardHandler_tick id ring
        exact contents
      refine tracked.of_sublist (fun slot => ?_) (MdaEnvar.msg_of_contents history)
        (fun _ => ⟨free, fun nodes ring => ?_⟩)
      · rw [MdaEnvar.history_of_contents history]
        exact ⟨rfl, Int.le_refl _⟩
      · obtain ⟨left, leftRing, split, -⟩ := state.mda.forwardHandler_tick id ring
        exact ⟨left, leftRing, fun node member => split ▸ List.mem_append_right _ member⟩
  | timedOut =>
      exact tracked.of_sublist (fun _ => ⟨rfl, Int.le_refl _⟩) (fun _ => rfl)
        (fun free => ⟨free, fun nodes ring => ⟨nodes, ring, fun _ member => member⟩⟩)
  | aged free =>
      refine tracked.of_sublist state.mda.historyHandler_table (fun _ => by simp)
        (fun _ => ⟨free, fun nodes ring => ⟨nodes, ?_, fun _ member => member⟩⟩)
      rw [MdaEnvar.Waiting, MdaEnvar.historyHandler_links]
      exact ring

@[simp] theorem note_mda (message : Message) (rx : Received) (dis : Int) (txbuf : Option Buf)
    (mda : MdaEnvar Buf) (blocked : Bool) :
    (state.note rangeDelay message rx dis txbuf mda blocked).mda = mda := by
  unfold note
  split <;> rfl

/-- The decision leaves the pointers of the waiting list alone. -/
theorem decision_links (rx : Received) (dis : Int) (txbuf : Option Buf) :
    (state.decision rangeDelay rx dis txbuf).2.1.forwardWaitingList =
      state.mda.forwardWaitingList := by
  rcases MdaEnvar.mdaDecide_cases rangeDelay state.mda (MdaEnvar.spend (srcOf rx)) rx.frame dis
    txbuf with ⟨_, _, decided⟩ | ⟨_, _, decided, -, -, -⟩ | ⟨_, -, decided⟩
  · rw [decision, decided]
  · rw [decision, decided, MdaEnvar.addHistoryRecord_links]
    rfl
  · rw [decision, decided]

/-- In a distinguishable event a buffer leaves the list for the right reasons only. -/
theorem Tracked.leaves (tracked : state.Tracked) {action : DupAction Buf} {next : DupState Buf}
    (step : DupStep rangeDelay state action next) (apart : state.Distinguishable rangeDelay action)
    {nodes left : List Buf} (ring : state.mda.Waiting nodes) (leftRing : next.mda.Waiting left)
    {buf : Buf} (member : buf ∈ nodes) (gone : buf ∉ left) : state.Leaves buf action := by
  have unchanged : ¬ state.mda.Waiting left := fun same => gone (ring.unique same ▸ member)
  cases step with
  | sent => exact absurd leftRing unchanged
  | timedOut => exact absurd leftRing unchanged
  | aged free =>
      rw [MdaEnvar.Waiting, MdaEnvar.historyHandler_links] at leftRing
      exact absurd leftRing unchanged
  | hung free carries waiting fresh diverges =>
      rw [note_mda, MdaEnvar.Waiting, decision_links] at leftRing
      exact absurd leftRing unchanged
  | forwarded free =>
      obtain ⟨rest, restRing, split, -⟩ := state.mda.forwardHandler_tick id ring
      obtain rfl := restRing.unique leftRing
      rw [split, List.mem_append] at member
      have sent := member.resolve_right gone
      simpa [Leaves, eq_comm] using sent
  | @received message rx dis txbuf others mda result free carries waiting fresh returns =>
      obtain rfl := ring.unique waiting
      rw [note_mda] at leftRing
      cases MdaEnvar.mdaHandle_result waiting fresh returns with
      | kept notForward => exact absurd leftRing unchanged
      | queued decided supplied unknown longer contents =>
          rw [← longer.unique leftRing] at gone
          exact absurd (List.mem_cons_of_mem _ member) gone
      | @cancelled front back dropped notForward split found fewer =>
          subst split
          rw [← (MdaEnvar.removeFromForwardList_waiting waiting).unique leftRing] at gone
          have same : buf = dropped := by
            simp only [List.mem_append, List.mem_cons] at member gone
            tauto
          subst same
          obtain ⟨known, knownRing, stand⟩ := tracked.waiting free
          obtain rfl := knownRing.unique waiting
          obtain ⟨-, hops, some⟩ := stand buf member
          rw [hops] at fewer
          exact ⟨(tracked.lookups free carries apart).2 buf found, fewer_hops _ _ some fewer⟩

/-- Before any event every record stands for what it is said to stand for. -/
theorem initial_tracked : (initial : DupState Buf).Tracked where
  counters := fun _ _ => rfl
  counts := fun _ before => absurd before (Nat.not_lt_zero _)
  history := fun _ alive => absurd alive (by simp [initial, MdaEnvar.mdaInit])
  waiting := fun _ => ⟨[], MdaEnvar.mdaInit_waiting, by simp⟩

/-- A distinguishable event of a tracked state identifies copies correctly. -/
theorem Tracked.identified (tracked : state.Tracked) {action : DupAction Buf}
    (apart : state.Distinguishable rangeDelay action) : state.Identified rangeDelay action := by
  constructor
  · rintro message rx dis txbuf rfl free carries
    obtain ⟨history, list⟩ := tracked.lookups free carries apart
    exact ⟨history, list, fun recorded => tracked.not_forward_of_recorded carries recorded⟩
  · intro next step nodes left ring leftRing buf member gone
    exact tracked.leaves step apart ring leftRing member gone

/-- In a run whose receptions can be told apart by sender and count, every event
identifies copies correctly: no message is taken for another one, none is queued
again while it is on record, and a queued one is cancelled only by a copy of
itself with fewer hops left. -/
theorem duplicates_identified {finish : DupState Buf}
    (path : (dupSystem Buf rangeDelay).Path DupState.initial finish)
    (guarded : path.StepsMeet (Distinguishable rangeDelay)) : path.StepsMeet (Identified rangeDelay) :=
  ActionSystem.Path.stepsMeet_of_stepsMeet initial_tracked
    (fun tracked step apart => Tracked.step tracked step apart)
    (fun tracked apart => Tracked.identified tracked apart) guarded

section Collision

/-- A car that has sent one message of each kind. -/
def car : TempId := #v[9, 9, 9, 9]

/-- Its first basic safety message, with three hops. -/
def carBsm : Received where
  kind := .bsm
  frame := [0x62, 0, 9, 9, 9, 9] ++ List.replicate 36 0
  idEq := by decide
  long := by decide

/-- Its first emergency vehicle alert, with three hops. -/
def carEvam : Received where
  kind := .evam
  frame := [0x65, 9, 9, 9, 9] ++ List.replicate 66 0
  idEq := by decide
  long := by decide

/-- The state after both were sent. -/
def afterSends : DupState Nat := (initial.send car .bsm).send car .evam

/-- The first message of the car is on the air. -/
theorem carBsm_carried : afterSends.Carries ⟨car, .bsm, 0⟩ carBsm where
  sent := by decide
  kind := rfl
  sender := by decide
  count := by decide

theorem carEvam_carried : afterSends.Carries ⟨car, .evam, 0⟩ carEvam where
  sent := by decide
  kind := rfl
  sender := by decide
  count := by decide

/-- The safety message is queued and recorded. -/
theorem carBsm_queued :
    ∃ mda : MdaEnvar Nat, Returns (afterSends.mda.mdaHandle exactRangeDelay (srcOf carBsm)
        carBsm.frame 100 (some 0)) (mda, 0) ∧
      (afterSends.decision exactRangeDelay carBsm 100 (some 0)).1 = .forward 0 50 ∧
      mda.rxHistoryTable = (MdaEnvar.addHistoryRecord (MdaEnvar.mdaInit : MdaEnvar Nat)
        (MdaEnvar.spend (srcOf carBsm))).rxHistoryTable ∧
      mda.Waiting [0] ∧ (mda.txbuf 0).forward.msg = MdaEnvar.spend (srcOf carBsm) := by
  have unknown : afterSends.mda.findHistoryRecord (MdaEnvar.spend (srcOf carBsm)) = none := by
    decide
  have near : algFarestNode exactRangeDelay 100 = 50 := by decide
  have decided := MdaEnvar.mdaDecide_forward unknown (by decide) (by rw [near]; decide)
    carBsm.frame 0
  rw [near] at decided
  have empty : (MdaEnvar.addHistoryRecord (afterSends.mda.rcpCreateForwardMsg
      (MdaEnvar.spend (srcOf carBsm)).leftHops carBsm.frame (some 0)).1
      (MdaEnvar.spend (srcOf carBsm))).Waiting [] := by
    rw [MdaEnvar.Waiting, MdaEnvar.addHistoryRecord_links]
    exact MdaEnvar.mdaInit_waiting
  rcases MdaEnvar.addForwardList_cases empty (List.not_mem_nil (a := 0))
    (MdaEnvar.spend (srcOf carBsm)) 50 with ⟨-, mda, returns, pushed⟩ | ⟨⟨_, _, impossible, -⟩, -⟩
  swap
  · cases impossible
  refine ⟨mda, MdaEnvar.mdaHandle_returns_of_forward decided returns, ?_, ?_, pushed.waiting, ?_⟩
  · rw [decision, decided]
  · exact (MdaEnvar.history_of_contents pushed.contents).trans (created_history _ _ _ _)
  · rw [MdaEnvar.msg_of_contents pushed.contents]
    simp [MdaEnvar.fill]

/-- Both messages are sent. -/
def sendPath : (dupSystem Nat exactRangeDelay).Path initial afterSends :=
  @ActionSystem.Path.snoc _ (dupSystem Nat exactRangeDelay) _ _
    (@ActionSystem.Path.snoc _ (dupSystem Nat exactRangeDelay) _ _ .nil (.send car .bsm) _ .sent)
    (.send car .evam) afterSends .sent

/-- The safety message is received. -/
def receivePath {mda : MdaEnvar Nat}
    (returns : Returns (afterSends.mda.mdaHandle exactRangeDelay (srcOf carBsm) carBsm.frame 100
      (some 0)) (mda, 0)) :
    (dupSystem Nat exactRangeDelay).Path initial
      (afterSends.note exactRangeDelay ⟨car, .bsm, 0⟩ carBsm 100 (some 0) mda false) :=
  @ActionSystem.Path.snoc _ (dupSystem Nat exactRangeDelay) _ _ sendPath
    (.receive ⟨car, .bsm, 0⟩ carBsm 100 (some 0)) _
    (.received rfl carBsm_carried MdaEnvar.mdaInit_waiting (by simp) returns)

/-- A first reception can be told apart from everything: nothing is on record. -/
theorem afterSends_distinguishable :
    afterSends.Distinguishable exactRangeDelay
      (.receive ⟨car, .bsm, 0⟩ carBsm 100 (some 0)) := by
  constructor
  · rintro other (⟨slot, alive, -⟩ | ⟨nodes, ring, buf, member, -⟩)
    · exact absurd alive (by simp [afterSends, send, initial, MdaEnvar.mdaInit])
    · have empty : nodes = [] := ring.unique MdaEnvar.mdaInit_waiting
      simp [empty] at member
  · intro none
    exact absurd none (by decide)

/-- A copy of the safety message that came with two hops. -/
def carBsmCopy : Received where
  kind := .bsm
  frame := [0x42, 0, 9, 9, 9, 9] ++ List.replicate 36 0
  idEq := by decide
  long := by decide

/-- A copy with no hops left. -/
def carBsmSpent : Received where
  kind := .bsm
  frame := [0x02, 0, 9, 9, 9, 9] ++ List.replicate 36 0
  idEq := by decide
  long := by decide

/-- The safety message is the only one on record and the only one that waits. -/
structure Holds (state : DupState Nat) (nodes : List Nat) : Prop where
  free : state.blocked = false
  sent : state.sent = afterSends.sent
  msgCount : state.msgCount = afterSends.msgCount
  history : state.mda.rxHistoryTable = (MdaEnvar.addHistoryRecord
    (MdaEnvar.mdaInit : MdaEnvar Nat) (MdaEnvar.spend (srcOf carBsm))).rxHistoryTable
  recorded : state.recorded 0 = ⟨car, .bsm, 0⟩
  waiting : state.mda.Waiting nodes
  carried : ∀ buf ∈ nodes, (state.carried buf).1 = ⟨car, .bsm, 0⟩ ∧
    (state.mda.txbuf buf).forward.msg = MdaEnvar.spend (srcOf carBsm)

/-- Receptions do not change what frames carry. -/
theorem Holds.carries {nodes : List Nat} {state : DupState Nat} (holds : state.Holds nodes)
    {message : Message} {rx : Received} (copy : afterSends.Carries message rx) :
    state.Carries message rx :=
  ⟨by rw [holds.sent]; exact copy.sent, copy.kind, copy.sender,
    by rw [holds.msgCount]; exact copy.count⟩

/-- The lookup finds the record of the safety message. -/
theorem Holds.found {nodes : List Nat} {state : DupState Nat} (holds : state.Holds nodes)
    {srcSta : MdaMsgInfo} (same : (MdaEnvar.spend (srcOf carBsm)).sameKey srcSta = true) :
    state.mda.findHistoryRecord srcSta = some 0 := by
  have first : (MdaEnvar.addHistoryRecord (MdaEnvar.mdaInit : MdaEnvar Nat)
      (MdaEnvar.spend (srcOf carBsm))).rxHistoryTable 0 =
        ⟨MdaEnvar.spend (srcOf carBsm), maxHistoryLife⟩ := by decide
  rw [MdaEnvar.findHistoryRecord_congr holds.history, MdaEnvar.findHistoryRecord,
    List.finRange_succ, List.find?_cons_of_pos]
  simp [first, same, maxHistoryLife]

/-- The first history entry is the only live one. -/
theorem Holds.alive_iff {nodes : List Nat} {state : DupState Nat} (holds : state.Holds nodes) :
    ∀ slot, 0 < (state.mda.rxHistoryTable slot).lifeTime ↔ slot = 0 := by
  rw [holds.history]
  decide

/-- The message of the car is on record. -/
theorem Holds.recorded_self {nodes : List Nat} {state : DupState Nat} (holds : state.Holds nodes) :
    state.Recorded ⟨car, .bsm, 0⟩ :=
  ⟨0, (holds.alive_iff 0).2 rfl, holds.recorded⟩

/-- A copy of the safety message is compared with that message alone. -/
theorem Holds.distinguishable {nodes : List Nat} {state : DupState Nat} (holds : state.Holds nodes)
    (rx : Received) (dis : Int) (txbuf : Option Nat) :
    state.Distinguishable exactRangeDelay (.receive ⟨car, .bsm, 0⟩ rx dis txbuf) := by
  constructor
  · intro other known _
    have only : other = ⟨car, .bsm, 0⟩ := by
      rcases known with ⟨slot, living, rfl⟩ | ⟨others, ring, buf, member, rfl⟩
      · rw [(holds.alive_iff slot).1 living, holds.recorded]
      · obtain rfl := ring.unique holds.waiting
        exact (holds.carried buf member).1
    subst only
    decide
  · exact fun _ => .inl holds.recorded_self

/-- The first reception makes it the only one. -/
theorem received_holds {mda : MdaEnvar Nat}
    (decided : (afterSends.decision exactRangeDelay carBsm 100 (some 0)).1 = .forward 0 50)
    (history : mda.rxHistoryTable = (MdaEnvar.addHistoryRecord (MdaEnvar.mdaInit : MdaEnvar Nat)
      (MdaEnvar.spend (srcOf carBsm))).rxHistoryTable)
    (waiting : mda.Waiting [0])
    (contents : (mda.txbuf 0).forward.msg = MdaEnvar.spend (srcOf carBsm)) :
    (afterSends.note exactRangeDelay ⟨car, .bsm, 0⟩ carBsm 100 (some 0) mda false).Holds [0] := by
  rw [note_of_forward decided]
  refine ⟨rfl, rfl, rfl, history, ?_, waiting, ?_⟩
  · change afterSends.recordedAfter ⟨car, .bsm, 0⟩ 0 = ⟨car, .bsm, 0⟩
    decide
  · intro buf member
    obtain rfl := List.mem_singleton.1 member
    exact ⟨by simp, contents⟩

/-- A copy leaves the record and what it does not cancel. -/
theorem Holds.received {state : DupState Nat} {nodes left : List Nat} (holds : state.Holds nodes)
    {rx : Received} (copy : afterSends.Carries ⟨car, .bsm, 0⟩ rx)
    (same : (MdaEnvar.spend (srcOf carBsm)).sameKey (MdaEnvar.spend (srcOf rx)) = true)
    (fresh : 1 ∉ nodes) {next : MdaEnvar Nat}
    (returns : Returns (state.mda.mdaHandle exactRangeDelay (srcOf rx) rx.frame 100 (some 1))
      (next, 0))
    (contents : next.contents = state.mda.contents) (waiting : next.Waiting left)
    (kept : left ⊆ nodes) :
    ∃ after, DupStep exactRangeDelay state (.receive ⟨car, .bsm, 0⟩ rx 100 (some 1)) after ∧
      after.Holds left := by
  have notForward : ∀ buf delay,
      (state.decision exactRangeDelay rx 100 (some 1)).1 ≠ .forward buf delay := by
    simp [decision, MdaEnvar.mdaDecide, holds.found same]
  refine ⟨_, .received holds.free (holds.carries copy) holds.waiting (by simpa using fresh)
    returns, ?_⟩
  rw [note_of_not_forward notForward]
  refine ⟨rfl, holds.sent, holds.msgCount, ?_, holds.recorded, waiting, ?_⟩
  · exact (MdaEnvar.history_of_contents contents).trans holds.history
  · intro buf member
    obtain ⟨carried, message⟩ := holds.carried buf (kept member)
    exact ⟨carried, (MdaEnvar.msg_of_contents contents buf).trans message⟩

/-- A copy with fewer hops is a copy of that message. -/
theorem carBsmCopy_carried : afterSends.Carries ⟨car, .bsm, 0⟩ carBsmCopy where
  sent := by decide
  kind := rfl
  sender := by decide
  count := by decide

theorem carBsmSpent_carried : afterSends.Carries ⟨car, .bsm, 0⟩ carBsmSpent where
  sent := by decide
  kind := rfl
  sender := by decide
  count := by decide

/-- The copy with two hops cancels the waiting one. -/
theorem Holds.cancelled {state : DupState Nat} (holds : state.Holds [0]) :
    ∃ after, DupStep exactRangeDelay state (.receive ⟨car, .bsm, 0⟩ carBsmCopy 100 (some 1)) after ∧
      after.Holds [] := by
  have message := (holds.carried 0 (List.mem_singleton_self 0)).2
  have same : (MdaEnvar.spend (srcOf carBsm)).sameKey (MdaEnvar.spend (srcOf carBsmCopy)) = true := by
    decide
  have searched := MdaEnvar.findForwardList_returns holds.waiting
    (MdaEnvar.spend (srcOf carBsmCopy))
  rw [List.find?_cons_of_pos (by rwa [message])] at searched
  have fewer : (MdaEnvar.spend (srcOf carBsmCopy)).leftHops <
      (state.mda.txbuf 0).forward.msg.leftHops := by
    rw [message]
    decide
  have returns := MdaEnvar.mdaHandle_returns_of_copy exactRangeDelay (holds.found same)
    searched carBsmCopy.frame 100 (some 1)
  rw [Option.elim_some, if_pos fewer] at returns
  have waiting : state.mda.Waiting ([] ++ 0 :: []) := holds.waiting
  exact holds.received carBsmCopy_carried same (by simp) returns rfl
    (MdaEnvar.removeFromForwardList_waiting waiting) (by simp)

/-- The copy with no hops left finds nothing to cancel. -/
theorem Holds.ignored {state : DupState Nat} (holds : state.Holds []) :
    ∃ after, DupStep exactRangeDelay state
        (.receive ⟨car, .bsm, 0⟩ carBsmSpent 100 (some 1)) after ∧ after.Holds [] := by
  have same : (MdaEnvar.spend (srcOf carBsm)).sameKey
      (MdaEnvar.spend (srcOf carBsmSpent)) = true := by decide
  have searched := MdaEnvar.findForwardList_returns holds.waiting
    (MdaEnvar.spend (srcOf carBsmSpent))
  have returns := MdaEnvar.mdaHandle_returns_of_copy exactRangeDelay (holds.found same)
    searched carBsmSpent.frame 100 (some 1)
  exact holds.received carBsmSpent_carried same (by simp) returns rfl holds.waiting (by simp)

/-- `duplicates_identified` for a message that is queued, a copy that cancels it
and a copy with no hops left, which the record keeps from being queued again. -/
theorem copies_identified :
    ∃ (finish : DupState Nat) (path : (dupSystem Nat exactRangeDelay).Path initial finish),
      path.actions = [.send car .bsm, .send car .evam,
        .receive ⟨car, .bsm, 0⟩ carBsm 100 (some 0),
        .receive ⟨car, .bsm, 0⟩ carBsmCopy 100 (some 1),
        .receive ⟨car, .bsm, 0⟩ carBsmSpent 100 (some 1)] ∧
      finish.Recorded ⟨car, .bsm, 0⟩ ∧ finish.mda.Waiting [] ∧
      path.StepsMeet (Identified exactRangeDelay) := by
  obtain ⟨mda, returns, decided, history, waiting, contents⟩ := carBsm_queued
  have first := received_holds decided history waiting contents
  obtain ⟨second, cancelling, secondHolds⟩ := first.cancelled
  obtain ⟨third, ignoring, thirdHolds⟩ := secondHolds.ignored
  let path : (dupSystem Nat exactRangeDelay).Path initial third :=
    ((receivePath returns).snoc _ _ cancelling).snoc _ _ ignoring
  have guarded : path.StepsMeet (Distinguishable exactRangeDelay) :=
    ⟨⟨⟨⟨⟨trivial, trivial⟩, trivial⟩, afterSends_distinguishable⟩,
      first.distinguishable _ _ _⟩, secondHolds.distinguishable _ _ _⟩
  exact ⟨third, path, rfl, thirdHolds.recorded_self, thirdHolds.waiting,
    duplicates_identified path guarded⟩

/-- The alert is taken for a copy of the safety message and skipped: both carry
count zero. -/
theorem evam_taken_for_bsm :
    ∃ (finish : DupState Nat) (path : (dupSystem Nat exactRangeDelay).Path initial finish),
      path.actions = [.send car .bsm, .send car .evam,
        .receive ⟨car, .bsm, 0⟩ carBsm 100 (some 0)] ∧
      finish.Carries ⟨car, .evam, 0⟩ carEvam ∧
      finish.mda.findHistoryRecord (MdaEnvar.spend (srcOf carEvam)) = some 0 ∧
      finish.recorded 0 = ⟨car, .bsm, 0⟩ ∧
      ¬ finish.Identified exactRangeDelay (.receive ⟨car, .evam, 0⟩ carEvam 100 (some 1)) := by
  obtain ⟨mda, returns, decided, history, waiting, contents⟩ := carBsm_queued
  have holds := received_holds decided history waiting contents
  have carries := holds.carries carEvam_carried
  have same : (MdaEnvar.spend (srcOf carBsm)).sameKey (MdaEnvar.spend (srcOf carEvam)) = true := by
    decide
  have found := holds.found same
  refine ⟨_, receivePath returns, rfl, carries, found, holds.recorded, ?_⟩
  intro identified
  have same := (identified.1 _ _ _ _ rfl holds.free carries).1 0 found
  rw [holds.recorded] at same
  exact absurd same (by decide)

end Collision

end DupState

end Rsu.Mda
