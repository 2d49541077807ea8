import Rsu.Data.Pool
import Rsu.Mda.Handle
import Rsu.Semantics.ActionSystem
import Rsu.Wnet.Send

/-!
# The life of a frame buffer

Calls of `mda_handle`, the forwarding thread, the other senders and `fp_recv`, cut
where a semaphore is taken or given back. A buffer is named by the call of
`wnet_get_txbuf` or `wnet_get_rxbuf` that obtained it. `buffers_accounted_iff` says
which runs release every buffer once and touch none afterwards.
-/

namespace Rsu.Mda

open Rsu.Common Rsu.Data Rsu.Rcp Rsu.Wnet

/-- Who gives a transmit buffer back on which path of the senders. -/
def fpSendRelease (pool : Pool) (txbuf : Nat) : Pool := pool.release txbuf

/-- `llc_send` returns early for another protocol. -/
def llcSendRelease (txinfo : WnetTxinfo) (pool : Pool) (txbuf : Nat) : Pool :=
  if txinfo.protocol = wnetTransProtDsmp then fpSendRelease pool txbuf else pool

/-- `dsmp_send` does nothing with an encrypted message. -/
def dsmpSendRelease (txinfo : WnetTxinfo) (pool : Pool) (txbuf : Nat) : Pool :=
  if txinfo.encryption = 0 then llcSendRelease txinfo pool txbuf else pool

/-- `wnet_send` knows one protocol. -/
def wnetSendRelease (txinfo : WnetTxinfo) (pool : Pool) (txbuf : Nat) : Pool :=
  if txinfo.protocol = wnetTransProtDsmp then dsmpSendRelease txinfo pool txbuf else pool

/-- What the callers send is given back once, whether the driver takes it or not. -/
theorem wnetSendRelease_plain (pool : Pool) (txbuf : Nat) :
    wnetSendRelease plainDsmp pool txbuf = pool.release txbuf := rfl

/-- Where a call of `mda_handle` stands. -/
inductive Call where
  | idle
  /-- The message is new and `alg_farest_node` answered a delay. -/
  | unknown (srcSta : MdaMsgInfo) (msgData : Frame) (delay : Int)
  /-- `rcp_create_forward_msg` returned the buffer. -/
  | created (txbuf : Nat) (srcSta : MdaMsgInfo) (delay : Int)
  /-- The message was received before. -/
  | known (srcSta : MdaMsgInfo)
  /-- `find_forward_list` returned the buffer. -/
  | found (txbuf : Nat) (srcSta : MdaMsgInfo)
  /-- The waiting copy has more hops left and is to be removed. -/
  | cancelling (txbuf : Nat)
  /-- `remove_from_forward_list` unlinked the buffer and gave the semaphore back. -/
  | removed (txbuf : Nat)

/-- The buffer a call is responsible for. -/
def Call.holding : Call → Option Nat
  | .created txbuf _ _ => some txbuf
  | .removed txbuf => some txbuf
  | _ => none

/-- Where `forward_handler` stands. -/
inductive Handler where
  | idle
  /-- The buffer was taken off the list and is to be sent. -/
  | popped (txbuf : Nat)

/-- A part of some thread between two semaphore operations. -/
inductive LifeAction where
  /-- `fp_recv` -/
  | receive
  /-- one of the senders of the own messages -/
  | send
  /-- `mda_handle`, with the distance that the neighbour list answers -/
  | lookup (call : Nat) (rx : Received) (dis : Int)
  /-- `rcp_create_forward_msg` and `add_history_record` -/
  | create (call : Nat)
  /-- `add_forward_list` -/
  | queue (call : Nat)
  /-- `find_forward_list` -/
  | search (call : Nat)
  /-- the comparison of the hops left -/
  | compare (call : Nat)
  /-- `remove_from_forward_list` up to the release of the semaphore -/
  | cancel (call : Nat)
  /-- the end of `remove_from_forward_list` -/
  | release (call : Nat)
  /-- `forward_handler` up to the release of the semaphore -/
  | pop
  /-- `rcp_send_forward_msg` -/
  | forward (pid : TempId)
  /-- the history timer and `history_handler` -/
  | age

/-- The buffers and the threads that use them. -/
structure LifeState where
  mda : MdaEnvar Nat
  calls : Nat → Call
  handler : Handler
  txbufs : Pool
  rxbufs : Pool
  /-- a call that never returns holds `sem_forward` -/
  blocked : Bool
  /-- a released buffer was dereferenced, or one unlinked that is not on the list -/
  misused : Bool

namespace LifeState

/-- The state after the initialisation. -/
def initial : LifeState where
  mda := MdaEnvar.mdaInit
  calls := fun _ => .idle
  handler := .idle
  txbufs := .empty
  rxbufs := .empty
  blocked := false
  misused := false

/-- The buffer is on the waiting list. -/
def Linked (state : LifeState) (txbuf : Nat) : Prop :=
  ∃ nodes, state.mda.Waiting nodes ∧ txbuf ∈ nodes

/-- Move a call on. -/
def proceed (state : LifeState) (call : Nat) (stage : Call) : LifeState :=
  { state with calls := Function.update state.calls call stage }

/-- Note a use of a buffer. -/
def touch (state : LifeState) (txbuf : Nat) : LifeState :=
  { state with misused := state.misused || state.txbufs.releases txbuf != 0 }

/-- A thread or list that is responsible for a buffer. -/
inductive Holder where
  | list
  | call (call : Nat)
  | handler

/-- Who is responsible for which buffer. -/
def Holds (state : LifeState) (nodes : List Nat) : Holder → Nat → Prop
  | .list, txbuf => txbuf ∈ nodes
  | .call call, txbuf => (state.calls call).holding = some txbuf
  | .handler, txbuf => state.handler = .popped txbuf

/-- Somebody will still release the buffer. -/
def Owned (state : LifeState) (txbuf : Nat) : Prop :=
  ∃ nodes, state.mda.Waiting nodes ∧ ∃ holder, state.Holds nodes holder txbuf

/-- Every buffer that was obtained was released once or will still be, none is released
while it is on the list, and none was used afterwards. -/
structure Accounted (state : LifeState) : Prop where
  free : state.blocked = false
  unspoilt : state.misused = false
  linked : ∀ txbuf, state.Linked txbuf → state.txbufs.releases txbuf = 0
  txbufs : state.txbufs.Accounted state.Owned
  rxbufs : state.rxbufs.Accounted fun _ => False

/-- The circumstances in which a step keeps the accounts: no reception, an addition that
comes back, and a buffer that is still alive when it is compared and still on the list when
it is removed. -/
def KeepsAccounts (state : LifeState) : LifeAction → Prop
  | .receive => False
  | .queue call => ∀ txbuf srcSta delay, state.calls call = .created txbuf srcSta delay →
      ∃ nodes, state.mda.Waiting nodes ∧ ∀ first ∈ nodes.head?, delay < state.mda.delayTime first
  | .compare call => ∀ txbuf srcSta, state.calls call = .found txbuf srcSta →
      state.txbufs.releases txbuf = 0
  | .cancel call => ∀ txbuf, state.calls call = .cancelling txbuf → state.Linked txbuf
  | _ => True

end LifeState

open LifeState MdaEnvar in
/-- The steps of the threads. -/
inductive LifeStep (rangeDelay : Int → Int) : LifeState → LifeAction → LifeState → Prop
  | received {state : LifeState} :
      LifeStep rangeDelay state .receive { state with rxbufs := state.rxbufs.get }
  | sent {state : LifeState} :
      LifeStep rangeDelay state .send
        { state with
          txbufs := wnetSendRelease plainDsmp state.txbufs.get state.txbufs.obtained }
  | dropped {state : LifeState} {call : Nat} {rx : Received} {dis : Int}
      (idle : state.calls call = .idle)
      (unknown : state.mda.findHistoryRecord (spend (srcOf rx)) = none)
      (useless : (spend (srcOf rx)).leftHops ≤ 0 ∨ algFarestNode rangeDelay dis < 0) :
      LifeStep rangeDelay state (.lookup call rx dis) state
  | judged {state : LifeState} {call : Nat} {rx : Received} {dis : Int}
      (idle : state.calls call = .idle)
      (unknown : state.mda.findHistoryRecord (spend (srcOf rx)) = none)
      (left : ¬ (spend (srcOf rx)).leftHops ≤ 0) (ahead : 0 ≤ algFarestNode rangeDelay dis) :
      LifeStep rangeDelay state (.lookup call rx dis)
        (state.proceed call (.unknown (spend (srcOf rx)) rx.frame (algFarestNode rangeDelay dis)))
  | recognised {state : LifeState} {call : Nat} {rx : Received} {dis : Int}
      {slot : Fin rxHistoryNum} (idle : state.calls call = .idle)
      (known : state.mda.findHistoryRecord (spend (srcOf rx)) = some slot) :
      LifeStep rangeDelay state (.lookup call rx dis)
        (state.proceed call (.known (spend (srcOf rx))))
  | created {state : LifeState} {call : Nat} {srcSta : MdaMsgInfo} {msgData : Frame} {delay : Int}
      (stage : state.calls call = .unknown srcSta msgData delay) :
      LifeStep rangeDelay state (.create call)
        ({ state with
            mda := (state.mda.rcpCreateForwardMsg srcSta.leftHops msgData
              (some state.txbufs.obtained)).1.addHistoryRecord srcSta
            txbufs := state.txbufs.get }.proceed call
          (.created state.txbufs.obtained srcSta delay))
  | queued {state : LifeState} {call txbuf : Nat} {srcSta : MdaMsgInfo} {delay : Int}
      {mda : MdaEnvar Nat} (stage : state.calls call = .created txbuf srcSta delay)
      (free : state.blocked = false)
      (returns : Returns (state.mda.addForwardList txbuf srcSta delay) mda) :
      LifeStep rangeDelay state (.queue call) ({ state with mda }.proceed call .idle)
  | hung {state : LifeState} {call txbuf : Nat} {srcSta : MdaMsgInfo} {delay : Int}
      (stage : state.calls call = .created txbuf srcSta delay) (free : state.blocked = false)
      (diverges : Diverges (state.mda.addForwardList txbuf srcSta delay)) :
      LifeStep rangeDelay state (.queue call) { state with blocked := true }
  | searched {state : LifeState} {call : Nat} {srcSta : MdaMsgInfo} {txbuf : Option Nat}
      (stage : state.calls call = .known srcSta)
      (returns : Returns (state.mda.findForwardList srcSta) txbuf) :
      LifeStep rangeDelay state (.search call)
        (state.proceed call (match txbuf with
          | some txbuf => .found txbuf srcSta
          | none => .idle))
  | compared {state : LifeState} {call txbuf : Nat} {srcSta : MdaMsgInfo}
      (stage : state.calls call = .found txbuf srcSta) :
      LifeStep rangeDelay state (.compare call)
        ((state.touch txbuf).proceed call
          (if srcSta.leftHops < (state.mda.txbuf txbuf).forward.msg.leftHops then .cancelling txbuf
            else .idle))
  | cancelled {state : LifeState} {call txbuf : Nat} (stage : state.calls call = .cancelling txbuf)
      (free : state.blocked = false) (linked : state.Linked txbuf) :
      LifeStep rangeDelay state (.cancel call)
        ({ state.touch txbuf with
            mda := state.mda.removeFromForwardList txbuf }.proceed call (.removed txbuf))
  | cancelledAgain {state : LifeState} {call txbuf : Nat}
      (stage : state.calls call = .cancelling txbuf) (free : state.blocked = false)
      (unlinked : ¬ state.Linked txbuf) :
      LifeStep rangeDelay state (.cancel call)
        ({ state with
            mda := state.mda.removeFromForwardList txbuf
            misused := true }.proceed call (.removed txbuf))
  | released {state : LifeState} {call txbuf : Nat} (stage : state.calls call = .removed txbuf) :
      LifeStep rangeDelay state (.release call)
        ({ state with txbufs := state.txbufs.release txbuf }.proceed call .idle)
  | popped {state : LifeState} (idle : state.handler = .idle) (free : state.blocked = false) :
      LifeStep rangeDelay state .pop
        { state with
          mda := state.mda.forwardHandler.1
          handler := match state.mda.forwardHandler.2 with
            | some txbuf => .popped txbuf
            | none => .idle }
  | forwarded {state : LifeState} {txbuf : Nat} {pid : TempId}
      (stage : state.handler = .popped txbuf) :
      LifeStep rangeDelay state (.forward pid)
        { state.touch txbuf with
          handler := .idle
          txbufs := match rcpSendForwardMsg pid (state.mda.txbuf txbuf).data with
            | some _ => wnetSendRelease plainDsmp state.txbufs txbuf
            | none => state.txbufs }
  | aged {state : LifeState} :
      LifeStep rangeDelay state .age
        { state with mda := state.mda.timerRxHistoryCallback.historyHandler }

namespace MdaEnvar

/-- The bytes of a buffer are part of the contents. -/
theorem data_of_contents {left right : MdaEnvar Nat} (same : left.contents = right.contents)
    (txbuf : Nat) : (left.txbuf txbuf).data = (right.txbuf txbuf).data :=
  congrArg (fun contents => (contents.2.2 txbuf).2) same

@[simp] theorem data_fill (mda : MdaEnvar Nat) (txbuf node : Nat) (forward : MdaForward) :
    ((mda.fill txbuf forward).txbuf node).data = (mda.txbuf node).data := by
  by_cases same : node = txbuf
  · simp [fill, same]
  · simp [fill, Function.update_of_ne same]

end MdaEnvar

namespace LifeState

variable {state : LifeState} {nodes : List Nat} {txbuf : Nat} {holder other : Holder}

/-- The frame is one that `rcp_send_forward_msg` sends. -/
def Sendable (data : Frame) : Prop := msgId data = rcpMsgIdBsm ∨ msgId data = rcpMsgIdEvam

/-- What every step keeps as long as the accounts are in order: the list is well formed,
and every buffer in use is alive, holds a frame that can be sent and has one holder. -/
structure Coherent (state : LifeState) (nodes : List Nat) : Prop where
  waiting : state.mda.Waiting nodes
  fresh : state.txbufs.Fresh
  rxFresh : state.rxbufs.Fresh
  live : ∀ holder txbuf, state.Holds nodes holder txbuf → state.txbufs.Live txbuf
  sendable : ∀ holder txbuf, state.Holds nodes holder txbuf →
    Sendable (state.mda.txbuf txbuf).data
  alone : ∀ holder other txbuf, state.Holds nodes holder txbuf → state.Holds nodes other txbuf →
    holder = other
  message : ∀ call srcSta msgData delay, state.calls call = .unknown srcSta msgData delay →
    Sendable msgData ∧ 0 < msgData.length

/-- Some list of nodes makes the state coherent. -/
def Sound (state : LifeState) : Prop := ∃ nodes, state.Coherent nodes

/-- What is linked is in the list. -/
theorem Coherent.linked_iff (coherent : state.Coherent nodes) :
    state.Linked txbuf ↔ txbuf ∈ nodes := by
  constructor
  · rintro ⟨others, waiting, member⟩
    rwa [coherent.waiting.unique waiting]
  · exact fun member => ⟨nodes, coherent.waiting, member⟩

/-- A buffer is owned by what holds it. -/
theorem Coherent.owned_iff (coherent : state.Coherent nodes) :
    state.Owned txbuf ↔ ∃ holder, state.Holds nodes holder txbuf := by
  constructor
  · rintro ⟨others, waiting, holds⟩
    rwa [coherent.waiting.unique waiting]
  · exact fun holds => ⟨nodes, coherent.waiting, holds⟩

/-- The next loan of a coherent state is nobody's yet. -/
theorem Coherent.not_holds_next (coherent : state.Coherent nodes) :
    ¬ state.Holds nodes holder state.txbufs.obtained :=
  fun holds => Nat.lt_irrefl _ (coherent.live _ _ holds).obtained

/-- A frame of either kind can be sent. -/
theorem sendable_of_received (rx : Received) : Sendable rx.frame := by
  unfold Sendable
  rw [rx.idEq]
  cases rx.kind with
  | bsm => exact .inl rfl
  | evam => exact .inr rfl

/-- A frame of one of the two kinds is sent. -/
theorem rcpSendForwardMsg_sendable {data : Frame} (sendable : Sendable data) (pid : TempId) :
    ∃ frame, rcpSendForwardMsg pid data = some frame := by
  unfold rcpSendForwardMsg
  split_ifs with bsm evam
  · exact ⟨_, rfl⟩
  · exact ⟨_, rfl⟩
  · rcases sendable with isBsm | isEvam
    · exact absurd isBsm bsm
    · exact absurd isEvam evam

/-- The hops are no part of the kind. -/
theorem sendable_setHops {data : Frame} (hops : BitVec 3) (sendable : Sendable data)
    (nonempty : 0 < data.length) : Sendable (setHops data hops) := by
  unfold Sendable
  rwa [msgId_setHops hops nonempty]

@[simp] theorem proceed_calls (state : LifeState) (call : Nat) (stage : Call) :
    (state.proceed call stage).calls call = stage := Function.update_self ..

theorem proceed_calls_of_ne (state : LifeState) {call other : Nat} (stage : Call)
    (different : other ≠ call) : (state.proceed call stage).calls other = state.calls other :=
  Function.update_of_ne different ..

/-- A call that moves between stages without a buffer changes no responsibility. -/
theorem holds_proceed_iff {call : Nat} {stage : Call} (before : (state.calls call).holding = none)
    (after : stage.holding = none) :
    (state.proceed call stage).Holds nodes holder txbuf ↔ state.Holds nodes holder txbuf := by
  cases holder with
  | list => exact Iff.rfl
  | handler => exact Iff.rfl
  | call other =>
      by_cases same : other = call
      · subst same
        simp only [Holds, proceed_calls, before, after]
      · simp only [Holds, proceed_calls_of_ne state stage same]

/-- The accounts of a coherent state. -/
theorem Coherent.accounted_iff (coherent : state.Coherent nodes) :
    state.Accounted ↔ state.blocked = false ∧ state.misused = false ∧
      state.txbufs.Accounted (fun txbuf => ∃ holder, state.Holds nodes holder txbuf) ∧
      state.rxbufs.Accounted fun _ => False := by
  have owned : state.Owned = fun txbuf => ∃ holder, state.Holds nodes holder txbuf := by
    ext txbuf
    exact coherent.owned_iff
  constructor
  · intro accounted
    exact ⟨accounted.free, accounted.unspoilt, owned ▸ accounted.txbufs, accounted.rxbufs⟩
  · rintro ⟨free, unspoilt, txbufs, rxbufs⟩
    refine ⟨free, unspoilt, fun txbuf linked => ?_, owned ▸ txbufs, rxbufs⟩
    exact (coherent.live .list txbuf (coherent.linked_iff.1 linked)).unreleased

/-- The messages of the calls after one of them moved on. -/
theorem Coherent.message_update (coherent : state.Coherent nodes) {call : Nat} {stage : Call}
    (fits : ∀ srcSta msgData delay, stage = .unknown srcSta msgData delay →
      Sendable msgData ∧ 0 < msgData.length)
    (other : Nat) (srcSta : MdaMsgInfo) (msgData : Frame) (delay : Int)
    (stands : Function.update state.calls call stage other = .unknown srcSta msgData delay) :
    Sendable msgData ∧ 0 < msgData.length := by
  by_cases same : other = call
  · subst same
    rw [Function.update_self] at stands
    exact fits srcSta msgData delay stands
  · rw [Function.update_of_ne same] at stands
    exact coherent.message other srcSta msgData delay stands

/-- Moving a call between stages without a buffer. -/
theorem Coherent.proceed (coherent : state.Coherent nodes) {call : Nat} {stage : Call}
    (before : (state.calls call).holding = none) (after : stage.holding = none)
    (message : ∀ srcSta msgData delay, stage = .unknown srcSta msgData delay →
      Sendable msgData ∧ 0 < msgData.length) :
    (state.proceed call stage).Coherent nodes where
  waiting := coherent.waiting
  fresh := coherent.fresh
  rxFresh := coherent.rxFresh
  live := fun holder txbuf holds => coherent.live holder txbuf ((holds_proceed_iff before after).1 holds)
  sendable := fun holder txbuf holds =>
    coherent.sendable holder txbuf ((holds_proceed_iff before after).1 holds)
  alone := fun holder other txbuf left right => coherent.alone holder other txbuf
    ((holds_proceed_iff before after).1 left) ((holds_proceed_iff before after).1 right)
  message := coherent.message_update message

/-- A call that holds nothing before and after changes no account. -/
theorem Coherent.proceed_accounted_iff (coherent : state.Coherent nodes) {call : Nat}
    {stage : Call} (before : (state.calls call).holding = none) (after : stage.holding = none)
    (message : ∀ srcSta msgData delay, stage = .unknown srcSta msgData delay →
      Sendable msgData ∧ 0 < msgData.length) :
    (state.proceed call stage).Accounted ↔ state.Accounted := by
  rw [(coherent.proceed before after message).accounted_iff, coherent.accounted_iff]
  simp only [holds_proceed_iff before after]
  exact Iff.rfl

/-- A sender of the own messages gets a buffer and gives it back. -/
theorem Coherent.send (coherent : state.Coherent nodes) :
    ({ state with txbufs := state.txbufs.get.release state.txbufs.obtained }).Coherent nodes where
  waiting := coherent.waiting
  fresh := coherent.fresh.get.release (Nat.lt_succ_self _)
  rxFresh := coherent.rxFresh
  live := by
    intro holder txbuf holds
    have live := coherent.live holder txbuf holds
    exact live.get.release (Nat.ne_of_lt live.obtained)
  sendable := coherent.sendable
  alone := coherent.alone
  message := coherent.message

/-- Sending a message of the node itself obtains a buffer and releases it. -/
theorem Coherent.send_accounted (coherent : state.Coherent nodes) (accounted : state.Accounted) :
    ({ state with txbufs := state.txbufs.get.release state.txbufs.obtained }).Accounted := by
  rw [coherent.send.accounted_iff]
  obtain ⟨free, unspoilt, txbufs, rxbufs⟩ := coherent.accounted_iff.1 accounted
  refine ⟨free, unspoilt, ?_, rxbufs⟩
  have grown : state.txbufs.get.Accounted fun txbuf =>
      txbuf = state.txbufs.obtained ∨ ∃ holder, state.Holds nodes holder txbuf :=
    txbufs.get (.inl rfl) fun _ => .inr
  exact grown.release coherent.fresh.live_get fun _ different owned => owned.resolve_left different

/-- A received buffer is never given back. -/
theorem Coherent.not_accounted_of_received (coherent : state.Coherent nodes) :
    ¬ ({ state with rxbufs := state.rxbufs.get }).Accounted := fun accounted =>
  accounted.rxbufs.kept _ coherent.rxFresh.live_get

/-- `mda_handle` gets a buffer for a new message. -/
def create (state : LifeState) (call : Nat) (srcSta : MdaMsgInfo) (msgData : Frame)
    (delay : Int) : LifeState :=
  { state with
    mda := (state.mda.rcpCreateForwardMsg srcSta.leftHops msgData
      (some state.txbufs.obtained)).1.addHistoryRecord srcSta
    txbufs := state.txbufs.get }.proceed call (.created state.txbufs.obtained srcSta delay)

/-- Creating a message leaves the list alone. -/
theorem create_links (state : LifeState) (call : Nat) (srcSta : MdaMsgInfo) (msgData : Frame)
    (delay : Int) : (state.create call srcSta msgData delay).mda.forwardWaitingList =
      state.mda.forwardWaitingList :=
  MdaEnvar.addHistoryRecord_links _ srcSta

/-- The data of the buffers after another one was filled. -/
theorem create_data (state : LifeState) (call : Nat) (srcSta : MdaMsgInfo) (msgData : Frame)
    (delay : Int) (txbuf : Nat) :
    ((state.create call srcSta msgData delay).mda.txbuf txbuf).data =
      if txbuf = state.txbufs.obtained then setHops msgData (srcSta.leftHops.setWidth 3)
      else (state.mda.txbuf txbuf).data := by
  have filled : (state.create call srcSta msgData delay).mda.txbuf =
      Function.update state.mda.txbuf state.txbufs.obtained
        { WnetTxbuf.zero with data := setHops msgData (srcSta.leftHops.setWidth 3) } :=
    MdaEnvar.addHistoryRecord_txbuf _ srcSta
  rw [filled, Function.update_apply]
  split <;> rfl

section Create

variable {call : Nat} {srcSta : MdaMsgInfo} {msgData : Frame} {delay : Int}
  (stage : state.calls call = .unknown srcSta msgData delay)
include stage

/-- Who is responsible for what after a buffer was obtained. -/
theorem holds_create_iff :
    (state.create call srcSta msgData delay).Holds nodes holder txbuf ↔
      state.Holds nodes holder txbuf ∨ holder = .call call ∧ txbuf = state.txbufs.obtained := by
  cases holder with
  | list =>
      rw [Holds, Holds]
      simp
  | handler =>
      have same : (state.create call srcSta msgData delay).handler = state.handler := rfl
      simp [Holds, same]
  | call other =>
      by_cases same : other = call
      · subst same
        simp [Holds, create, Call.holding, stage, eq_comm]
      · simp only [Holds, create, proceed_calls_of_ne _ _ same, Holder.call.injEq, same,
          false_and, or_false]

/-- A call creates a message, and holds its buffer. -/
theorem Coherent.create (coherent : state.Coherent nodes) :
    (state.create call srcSta msgData delay).Coherent nodes where
  waiting := by
    rw [MdaEnvar.Waiting, create_links]
    exact coherent.waiting
  fresh := coherent.fresh.get
  rxFresh := coherent.rxFresh
  live := by
    intro holder txbuf holds
    rcases (holds_create_iff stage).1 holds with earlier | ⟨-, rfl⟩
    · exact (coherent.live holder txbuf earlier).get
    · exact coherent.fresh.live_get
  sendable := by
    intro holder txbuf holds
    obtain ⟨sendable, nonempty⟩ := coherent.message call srcSta msgData delay stage
    rcases (holds_create_iff stage).1 holds with earlier | ⟨-, rfl⟩
    · have different : txbuf ≠ state.txbufs.obtained :=
        Nat.ne_of_lt (coherent.live holder txbuf earlier).obtained
      rw [create_data, if_neg different]
      exact coherent.sendable holder txbuf earlier
    · rw [create_data, if_pos rfl]
      exact sendable_setHops (srcSta.leftHops.setWidth 3) sendable nonempty
  alone := by
    intro holder other txbuf left right
    rcases (holds_create_iff stage).1 left with earlier | ⟨rfl, rfl⟩ <;>
      rcases (holds_create_iff stage).1 right with before | ⟨rfl, same⟩
    · exact coherent.alone holder other txbuf earlier before
    · rw [same] at earlier
      exact absurd earlier coherent.not_holds_next
    · exact absurd before coherent.not_holds_next
    · rfl
  message := coherent.message_update (by simp)

/-- The account of what was created is open. -/
theorem Coherent.create_accounted (coherent : state.Coherent nodes)
    (accounted : state.Accounted) : (state.create call srcSta msgData delay).Accounted := by
  rw [(coherent.create stage).accounted_iff]
  obtain ⟨free, unspoilt, txbufs, rxbufs⟩ := coherent.accounted_iff.1 accounted
  refine ⟨free, unspoilt, txbufs.get ⟨.call call, ?_⟩ ?_, rxbufs⟩
  · exact (holds_create_iff stage).2 (.inr ⟨rfl, rfl⟩)
  · rintro txbuf ⟨holder, holds⟩
    exact ⟨holder, (holds_create_iff stage).2 (.inl holds)⟩

end Create

section Queue

variable {call : Nat} {srcSta : MdaMsgInfo} {delay : Int} {mda : MdaEnvar Nat}
  (stage : state.calls call = .created txbuf srcSta delay)
include stage

/-- The call that created the message holds it. -/
theorem holds_of_created : state.Holds nodes (.call call) txbuf := by
  rw [Holds, stage]
  rfl

/-- The buffer of a call is not on the list yet. -/
theorem Coherent.created_not_linked (coherent : state.Coherent nodes) : txbuf ∉ nodes := by
  intro member
  have same := coherent.alone .list (.call call) txbuf member (holds_of_created stage)
  cases same

/-- Who is responsible for what after the buffer of a call was queued. -/
theorem holds_queue_iff {node : Nat} :
    ({ state with mda }.proceed call .idle).Holds (txbuf :: nodes) holder node ↔
      holder = .list ∧ node = txbuf ∨ holder ≠ .call call ∧ state.Holds nodes holder node := by
  cases holder with
  | list => simp [Holds]
  | handler =>
      have same : ({ state with mda }.proceed call .idle).handler = state.handler := rfl
      simp [Holds, same]
  | call other =>
      by_cases same : other = call
      · subst same
        simp [Holds, Call.holding]
      · simp [Holds, proceed_calls_of_ne _ _ same, same]

variable (pushed : (state.mda.fill txbuf ⟨srcSta, delay⟩).Pushed txbuf nodes mda)
include pushed

/-- A message that is queued is held by the list. -/
theorem Coherent.queue (coherent : state.Coherent nodes) :
    ({ state with mda }.proceed call .idle).Coherent (txbuf :: nodes) where
  waiting := pushed.waiting
  fresh := coherent.fresh
  rxFresh := coherent.rxFresh
  live := by
    intro holder node holds
    rcases (holds_queue_iff stage).1 holds with ⟨-, rfl⟩ | ⟨-, earlier⟩
    · exact coherent.live (.call call) node (holds_of_created stage)
    · exact coherent.live holder node earlier
  sendable := by
    intro holder node holds
    have data : (mda.txbuf node).data = (state.mda.txbuf node).data := by
      rw [MdaEnvar.data_of_contents pushed.contents, MdaEnvar.data_fill]
    change Sendable (mda.txbuf node).data
    rw [data]
    rcases (holds_queue_iff stage).1 holds with ⟨-, rfl⟩ | ⟨-, earlier⟩
    · exact coherent.sendable (.call call) node (holds_of_created stage)
    · exact coherent.sendable holder node earlier
  alone := by
    intro holder other node left right
    have stands : state.Holds nodes (.call call) txbuf := holds_of_created stage
    rcases (holds_queue_iff stage).1 left with ⟨rfl, rfl⟩ | ⟨notCall, earlier⟩ <;>
      rcases (holds_queue_iff stage).1 right with ⟨rfl, same⟩ | ⟨notCall', before⟩
    · rfl
    · exact absurd (coherent.alone other (.call call) node before stands) notCall'
    · rw [same] at earlier
      exact absurd (coherent.alone holder (.call call) txbuf earlier stands) notCall
    · exact coherent.alone holder other node earlier before
  message := coherent.message_update (by simp)

/-- Queueing changes no account. -/
theorem Coherent.queue_accounted (coherent : state.Coherent nodes)
    (accounted : state.Accounted) : ({ state with mda }.proceed call .idle).Accounted := by
  rw [(coherent.queue stage pushed).accounted_iff]
  obtain ⟨free, unspoilt, txbufs, rxbufs⟩ := coherent.accounted_iff.1 accounted
  refine ⟨free, unspoilt, txbufs.mono ?_, rxbufs⟩
  rintro node ⟨holder, holds⟩
  by_cases moved : holder = .call call
  · subst moved
    have same : node = txbuf := by
      rw [Holds, stage] at holds
      exact (Option.some.inj holds).symm
    exact ⟨.list, (holds_queue_iff stage).2 (.inl ⟨rfl, same⟩)⟩
  · exact ⟨holder, (holds_queue_iff stage).2 (.inr ⟨moved, holds⟩)⟩

end Queue

/-- A copy is taken off the list by the call that will give it back. -/
def cancel (state : LifeState) (call txbuf : Nat) : LifeState :=
  { state.touch txbuf with
    mda := state.mda.removeFromForwardList txbuf }.proceed call (.removed txbuf)

section Cancel

variable {call : Nat} {front back : List Nat} (stage : state.calls call = .cancelling txbuf)
  (coherent : state.Coherent (front ++ txbuf :: back))
include stage coherent

/-- Who is responsible for what after a copy was cancelled. -/
theorem Coherent.holds_cancel_iff {node : Nat} :
    (state.cancel call txbuf).Holds (front ++ back) holder node ↔
      holder = .call call ∧ node = txbuf ∨
      node ≠ txbuf ∧ state.Holds (front ++ txbuf :: back) holder node := by
  have onList : state.Holds (front ++ txbuf :: back) .list txbuf := by simp [Holds]
  have elsewhere : ∀ other, other ≠ .list → state.Holds (front ++ txbuf :: back) other node →
      node ≠ txbuf := by
    rintro other different holds rfl
    exact different (coherent.alone other .list node holds onList)
  cases holder with
  | list =>
      have nodup := coherent.waiting.distinct
      rw [List.perm_middle.nodup_iff, List.nodup_cons] at nodup
      simp only [Holds, List.mem_append, List.mem_cons, reduceCtorEq, false_and, false_or] at nodup ⊢
      constructor
      · intro member
        have different : node ≠ txbuf := by
          rintro rfl
          exact nodup.1 member
        exact ⟨different, member.imp_right .inr⟩
      · rintro ⟨different, inFront | same | inBack⟩
        · exact .inl inFront
        · exact absurd same different
        · exact .inr inBack
  | handler =>
      simp only [reduceCtorEq, false_and, false_or]
      exact ⟨fun holds => ⟨elsewhere .handler (by simp) holds, holds⟩, fun both => both.2⟩
  | call other =>
      by_cases same : other = call
      · subst same
        simp [Holds, LifeState.cancel, Call.holding, stage, eq_comm]
      · simp only [Holder.call.injEq, same, false_and, false_or]
        have kept : (state.cancel call txbuf).calls other = state.calls other :=
          proceed_calls_of_ne _ _ same
        rw [Holds, kept]
        exact ⟨fun holds => ⟨elsewhere (.call other) (by simp) holds, holds⟩, fun both => both.2⟩

/-- Whoever is responsible after the removal was so before, or took it off the list. -/
theorem Coherent.holds_of_cancel {node : Nat}
    (holds : (state.cancel call txbuf).Holds (front ++ back) holder node) :
    ∃ prior, state.Holds (front ++ txbuf :: back) prior node := by
  rcases (coherent.holds_cancel_iff stage).1 holds with ⟨-, rfl⟩ | ⟨-, earlier⟩
  · exact ⟨.list, by simp [Holds]⟩
  · exact ⟨holder, earlier⟩

/-- A message that is cancelled is held by the call. -/
theorem Coherent.cancel : (state.cancel call txbuf).Coherent (front ++ back) where
  waiting := MdaEnvar.removeFromForwardList_waiting coherent.waiting
  fresh := coherent.fresh
  rxFresh := coherent.rxFresh
  live := by
    intro holder node holds
    obtain ⟨prior, earlier⟩ := coherent.holds_of_cancel stage holds
    exact coherent.live prior node earlier
  sendable := by
    intro holder node holds
    obtain ⟨prior, earlier⟩ := coherent.holds_of_cancel stage holds
    exact coherent.sendable prior node earlier
  alone := by
    intro holder other node left right
    rcases (coherent.holds_cancel_iff stage).1 left with ⟨rfl, rfl⟩ | ⟨different, earlier⟩ <;>
      rcases (coherent.holds_cancel_iff stage).1 right with ⟨rfl, same⟩ | ⟨other', before⟩
    · rfl
    · exact absurd rfl other'
    · exact absurd same different
    · exact coherent.alone holder other node earlier before
  message := coherent.message_update (by simp)

theorem Coherent.cancel_accounted (accounted : state.Accounted) :
    (state.cancel call txbuf).Accounted := by
  rw [(coherent.cancel stage).accounted_iff]
  obtain ⟨free, unspoilt, txbufs, rxbufs⟩ := coherent.accounted_iff.1 accounted
  have live := coherent.live .list txbuf (by simp [Holds])
  have clean : (state.cancel call txbuf).misused = false := by
    simp [LifeState.cancel, LifeState.proceed, touch, unspoilt, live.unreleased]
  refine ⟨free, clean, txbufs.mono ?_, rxbufs⟩
  rintro node ⟨holder, holds⟩
  by_cases same : node = txbuf
  · exact ⟨.call call, (coherent.holds_cancel_iff stage).2 (.inl ⟨rfl, same⟩)⟩
  · exact ⟨holder, (coherent.holds_cancel_iff stage).2 (.inr ⟨same, holds⟩)⟩

end Cancel

/-- The first message that is due leaves the list. -/
def pop (state : LifeState) : LifeState :=
  { state with
    mda := state.mda.forwardHandler.1
    handler := match state.mda.forwardHandler.2 with
      | some txbuf => .popped txbuf
      | none => .idle }

/-- What `forward_handler` holds is what left the list. -/
theorem pop_handler_iff {node : Nat} :
    state.pop.handler = .popped node ↔ state.mda.forwardHandler.2 = some node := by
  cases first : state.mda.forwardHandler.2 <;> simp [pop, first]

section Pop

variable {left : List Nat} (coherent : state.Coherent nodes) (idle : state.handler = .idle)
  (leaves : nodes = state.mda.forwardHandler.2.toList ++ left)
include coherent leaves

/-- Who is responsible for what after the first message left the list. -/
theorem Coherent.holds_pop_iff {node : Nat} :
    state.pop.Holds left holder node ↔
      holder = .handler ∧ state.mda.forwardHandler.2 = some node ∨
      holder ≠ .handler ∧ state.mda.forwardHandler.2 ≠ some node ∧
        state.Holds nodes holder node := by
  have split : ∀ node, state.Holds nodes .list node ↔
      state.mda.forwardHandler.2 = some node ∨ node ∈ left := by
    intro node
    rw [Holds, leaves, List.mem_append, Option.mem_toList]
  cases holder with
  | handler =>
      rw [← pop_handler_iff]
      simp [Holds]
  | list =>
      have nodup := coherent.waiting.distinct
      rw [leaves, List.nodup_append] at nodup
      have apart : node ∈ left → state.mda.forwardHandler.2 ≠ some node := fun member first =>
        nodup.2.2 node (Option.mem_toList.2 first) node member rfl
      rw [split node]
      simp only [Holds, reduceCtorEq, false_and, ne_eq, not_false_eq_true, true_and, false_or]
      exact ⟨fun member => ⟨apart member, .inr member⟩, fun both => both.2.resolve_left both.1⟩
  | call other =>
      have apart : state.Holds nodes (.call other) node → state.mda.forwardHandler.2 ≠ some node := by
        intro holds first
        have same := coherent.alone (.call other) .list node holds ((split node).2 (.inl first))
        cases same
      simp only [reduceCtorEq, false_and, ne_eq, not_false_eq_true, true_and, false_or]
      exact ⟨fun holds => ⟨apart holds, holds⟩, fun both => both.2⟩

/-- Whoever is responsible after the pop was so before, or took it off the list. -/
theorem Coherent.holds_of_pop {node : Nat} (holds : state.pop.Holds left holder node) :
    ∃ prior, state.Holds nodes prior node := by
  rcases (coherent.holds_pop_iff leaves).1 holds with ⟨-, first⟩ | ⟨-, -, earlier⟩
  · refine ⟨.list, ?_⟩
    rw [Holds, leaves, first]
    exact List.mem_append_left _ (List.mem_singleton_self node)
  · exact ⟨holder, earlier⟩

variable (waiting : state.mda.forwardHandler.1.Waiting left)
  (contents : state.mda.forwardHandler.1.contents = state.mda.contents)
include waiting contents

/-- A message whose time has come is held by the timer. -/
theorem Coherent.pop : state.pop.Coherent left where
  waiting := waiting
  fresh := coherent.fresh
  rxFresh := coherent.rxFresh
  live := by
    intro holder node holds
    obtain ⟨prior, earlier⟩ := coherent.holds_of_pop leaves holds
    exact coherent.live prior node earlier
  sendable := by
    intro holder node holds
    obtain ⟨prior, earlier⟩ := coherent.holds_of_pop leaves holds
    have data : (state.mda.forwardHandler.1.txbuf node).data = (state.mda.txbuf node).data :=
      MdaEnvar.data_of_contents contents node
    change Sendable (state.mda.forwardHandler.1.txbuf node).data
    rw [data]
    exact coherent.sendable prior node earlier
  alone := by
    intro holder other node left' right'
    rcases (coherent.holds_pop_iff leaves).1 left' with ⟨rfl, first⟩ | ⟨-, notFirst, earlier⟩ <;>
      rcases (coherent.holds_pop_iff leaves).1 right' with ⟨rfl, second⟩ | ⟨-, notSecond, before⟩
    · rfl
    · exact absurd first notSecond
    · exact absurd second notFirst
    · exact coherent.alone holder other node earlier before
  message := coherent.message

include idle in

theorem Coherent.pop_accounted (accounted : state.Accounted) : state.pop.Accounted := by
  rw [(coherent.pop leaves waiting contents).accounted_iff]
  obtain ⟨free, unspoilt, txbufs, rxbufs⟩ := coherent.accounted_iff.1 accounted
  refine ⟨free, unspoilt, txbufs.mono ?_, rxbufs⟩
  rintro node ⟨holder, holds⟩
  by_cases first : state.mda.forwardHandler.2 = some node
  · exact ⟨.handler, (coherent.holds_pop_iff leaves).2 (.inl ⟨rfl, first⟩)⟩
  · have notHandler : holder ≠ .handler := by
      rintro rfl
      rw [Holds, idle] at holds
      cases holds
    exact ⟨holder, (coherent.holds_pop_iff leaves).2 (.inr ⟨notHandler, first, holds⟩)⟩

end Pop

section GiveBack

variable {next : LifeState} (coherent : state.Coherent nodes)
  (held : state.Holds nodes holder txbuf) (mda : next.mda = state.mda)
  (given : next.txbufs = state.txbufs.release txbuf) (kept : next.rxbufs = state.rxbufs)
  (fewer : ∀ other node, next.Holds nodes other node ↔ node ≠ txbuf ∧ state.Holds nodes other node)
  (message : ∀ call srcSta msgData delay, next.calls call = .unknown srcSta msgData delay →
    Sendable msgData ∧ 0 < msgData.length)
include coherent held mda given kept fewer message

/-- Whoever is responsible for a buffer gives it back and forgets it. -/
theorem Coherent.giveBack : next.Coherent nodes where
  waiting := by
    rw [MdaEnvar.Waiting, mda]
    exact coherent.waiting
  fresh := by
    rw [given]
    exact coherent.fresh.release (coherent.live holder txbuf held).obtained
  rxFresh := by
    rw [kept]
    exact coherent.rxFresh
  live := by
    intro other node holds
    obtain ⟨different, earlier⟩ := (fewer other node).1 holds
    rw [given]
    exact (coherent.live other node earlier).release different
  sendable := by
    intro other node holds
    rw [mda]
    exact coherent.sendable other node ((fewer other node).1 holds).2
  alone := fun left right node holds also => coherent.alone left right node
    ((fewer left node).1 holds).2 ((fewer right node).1 also).2
  message := message

/-- A buffer that is held is released once. -/
theorem Coherent.giveBack_accounted (accounted : state.Accounted)
    (blocked : next.blocked = state.blocked) (misused : next.misused = state.misused) :
    next.Accounted := by
  rw [(coherent.giveBack held mda given kept fewer message).accounted_iff]
  obtain ⟨free, unspoilt, txbufs, rxbufs⟩ := coherent.accounted_iff.1 accounted
  refine ⟨blocked.trans free, misused.trans unspoilt, ?_, kept ▸ rxbufs⟩
  rw [given]
  refine txbufs.release (coherent.live holder txbuf held) ?_
  rintro node different ⟨other, holds⟩
  exact ⟨other, (fewer other node).2 ⟨different, holds⟩⟩

end GiveBack

/-- A message leaves, and its buffer is given back. -/
def forward (state : LifeState) (txbuf : Nat) : LifeState :=
  { state.touch txbuf with handler := .idle, txbufs := state.txbufs.release txbuf }

/-- Who is responsible for what after a message was sent. -/
theorem Coherent.holds_forward_iff (coherent : state.Coherent nodes)
    (stage : state.handler = .popped txbuf) (other : Holder) (node : Nat) :
    (state.forward txbuf).Holds nodes other node ↔
      node ≠ txbuf ∧ state.Holds nodes other node := by
  have apart : other ≠ .handler → state.Holds nodes other node → node ≠ txbuf := by
    rintro different holds rfl
    exact different (coherent.alone other .handler node holds stage)
  cases other with
  | list => exact ⟨fun holds => ⟨apart (by simp) holds, holds⟩, fun both => both.2⟩
  | call other => exact ⟨fun holds => ⟨apart (by simp) holds, holds⟩, fun both => both.2⟩
  | handler =>
      have gone : (state.forward txbuf).handler = .idle := rfl
      simp only [Holds, gone, stage, reduceCtorEq, Handler.popped.injEq, false_iff, not_and]
      exact fun different same => different same.symm

/-- The call that removed a copy gives its buffer back. -/
def releaseRemoved (state : LifeState) (call txbuf : Nat) : LifeState :=
  { state with txbufs := state.txbufs.release txbuf }.proceed call .idle

/-- Who is responsible for what after a removed copy was given back. -/
theorem Coherent.holds_releaseRemoved_iff (coherent : state.Coherent nodes) {call : Nat}
    (stage : state.calls call = .removed txbuf) (other : Holder) (node : Nat) :
    (state.releaseRemoved call txbuf).Holds nodes other node ↔
      node ≠ txbuf ∧ state.Holds nodes other node := by
  have held : state.Holds nodes (.call call) txbuf := by
    rw [Holds, stage]
    rfl
  have apart : other ≠ .call call → state.Holds nodes other node → node ≠ txbuf := by
    rintro different holds rfl
    exact different (coherent.alone other (.call call) node holds held)
  cases other with
  | list => exact ⟨fun holds => ⟨apart (by simp) holds, holds⟩, fun both => both.2⟩
  | handler => exact ⟨fun holds => ⟨apart (by simp) holds, holds⟩, fun both => both.2⟩
  | call other =>
      by_cases same : other = call
      · subst same
        simp [Holds, releaseRemoved, Call.holding, stage, eq_comm]
      · have kept : (state.releaseRemoved call txbuf).calls other = state.calls other :=
          proceed_calls_of_ne _ _ same
        have different : Holder.call other ≠ .call call := by simpa using same
        rw [Holds, kept]
        exact ⟨fun holds => ⟨apart different holds, holds⟩, fun both => both.2⟩

/-- A use of a buffer is all that changes. -/
theorem Coherent.touch (coherent : state.Coherent nodes) : (state.touch txbuf).Coherent nodes where
  waiting := coherent.waiting
  fresh := coherent.fresh
  rxFresh := coherent.rxFresh
  live := coherent.live
  sendable := coherent.sendable
  alone := coherent.alone
  message := coherent.message

/-- Using a buffer is in order exactly if it was not released. -/
theorem Coherent.touch_accounted_iff (coherent : state.Coherent nodes)
    (accounted : state.Accounted) :
    (state.touch txbuf).Accounted ↔ state.txbufs.releases txbuf = 0 := by
  obtain ⟨free, unspoilt, txbufs, rxbufs⟩ := coherent.accounted_iff.1 accounted
  have spoilt : (state.touch txbuf).misused = false ↔ state.txbufs.releases txbuf = 0 := by
    simp [LifeState.touch, unspoilt]
  rw [coherent.touch.accounted_iff, spoilt]
  exact ⟨fun both => both.2.1, fun unreleased => ⟨free, unreleased, txbufs, rxbufs⟩⟩

/-- The history timer changes neither the list nor the buffers. -/
theorem Coherent.age (coherent : state.Coherent nodes) :
    ({ state with mda := state.mda.timerRxHistoryCallback.historyHandler }).Coherent nodes where
  waiting := by
    rw [MdaEnvar.Waiting, MdaEnvar.historyHandler_links]
    exact coherent.waiting
  fresh := coherent.fresh
  rxFresh := coherent.rxFresh
  live := coherent.live
  sendable := by
    rw [MdaEnvar.historyHandler_txbuf]
    exact coherent.sendable
  alone := coherent.alone
  message := coherent.message

/-- The accounts are as they were. -/
theorem Coherent.age_accounted (coherent : state.Coherent nodes) (accounted : state.Accounted) :
    ({ state with mda := state.mda.timerRxHistoryCallback.historyHandler }).Accounted := by
  rw [coherent.age.accounted_iff]
  exact coherent.accounted_iff.1 accounted

variable {rangeDelay : Int → Int}

/-- A step that always keeps the accounts. -/
theorem keeps_of_accounted {next : LifeState} {action : LifeAction}
    (keeps : state.KeepsAccounts action) (accounted : next.Accounted) (sound : next.Sound) :
    (next.Accounted ↔ state.KeepsAccounts action) ∧ (state.KeepsAccounts action → next.Sound) :=
  ⟨iff_of_true accounted keeps, fun _ => sound⟩

/-- A step that always spoils the accounts. -/
theorem keeps_of_not_accounted {next : LifeState} {action : LifeAction}
    (spoils : ¬ state.KeepsAccounts action) (unaccounted : ¬ next.Accounted) :
    (next.Accounted ↔ state.KeepsAccounts action) ∧ (state.KeepsAccounts action → next.Sound) :=
  ⟨iff_of_false unaccounted spoils, fun keeps => absurd keeps spoils⟩

/-- A call that moves between stages without a buffer keeps the accounts. -/
theorem Coherent.keeps_proceed (coherent : state.Coherent nodes) (accounted : state.Accounted)
    (action : LifeAction) (keeps : state.KeepsAccounts action) {call : Nat} {stage : Call}
    (before : (state.calls call).holding = none) (after : stage.holding = none)
    (message : ∀ srcSta msgData delay, stage = .unknown srcSta msgData delay →
      Sendable msgData ∧ 0 < msgData.length) :
    ((state.proceed call stage).Accounted ↔ state.KeepsAccounts action) ∧
      (state.KeepsAccounts action → (state.proceed call stage).Sound) :=
  keeps_of_accounted keeps ((coherent.proceed_accounted_iff before after message).2 accounted)
    ⟨nodes, coherent.proceed before after message⟩

/-- One step on accounts in order: they stay so exactly in the stated circumstances, and
then the state stays coherent. -/
theorem Coherent.step (coherent : state.Coherent nodes) (accounted : state.Accounted)
    {action : LifeAction} {next : LifeState} (step : LifeStep rangeDelay state action next) :
    (next.Accounted ↔ state.KeepsAccounts action) ∧
      (state.KeepsAccounts action → next.Sound) := by
  cases step with
  | received => exact keeps_of_not_accounted id coherent.not_accounted_of_received
  | sent =>
      exact keeps_of_accounted trivial (coherent.send_accounted accounted) ⟨nodes, coherent.send⟩
  | dropped idle unknown useless => exact keeps_of_accounted trivial accounted ⟨nodes, coherent⟩
  | @judged call rx dis idle unknown left ahead =>
      refine coherent.keeps_proceed accounted (.lookup call rx dis) trivial
        (by simp [Call.holding, idle]) rfl ?_
      rintro _ _ _ ⟨⟩
      exact ⟨sendable_of_received rx, rx.nonempty⟩
  | @recognised call rx dis slot idle known =>
      exact coherent.keeps_proceed accounted (.lookup call rx dis) trivial
        (by simp [Call.holding, idle]) rfl (by simp)
  | created stage =>
      exact keeps_of_accounted trivial (coherent.create_accounted stage accounted)
        ⟨nodes, coherent.create stage⟩
  | @queued call txbuf srcSta delay mda stage free returns =>
      have fresh := coherent.created_not_linked stage
      rcases MdaEnvar.addForwardList_cases coherent.waiting fresh srcSta delay with
        ⟨sooner, mda', returns', pushed⟩ | ⟨-, diverges⟩
      · obtain rfl := returns.unique (MdaEnvar.addForwardList_persistent _ _ _ _) returns'
        refine keeps_of_accounted ?_ (coherent.queue_accounted stage pushed accounted)
          ⟨_, coherent.queue stage pushed⟩
        intro other src wait stands
        rw [stage, Call.created.injEq] at stands
        obtain ⟨-, -, rfl⟩ := stands
        exact ⟨nodes, coherent.waiting, sooner⟩
      · exact absurd diverges returns.not_diverges
  | @hung call txbuf srcSta delay stage free diverges =>
      have fresh := coherent.created_not_linked stage
      refine keeps_of_not_accounted (fun keeps => ?_) fun spoilt => by
        have held := spoilt.free
        cases held
      obtain ⟨others, waiting, sooner⟩ := keeps txbuf srcSta delay stage
      obtain rfl := coherent.waiting.unique waiting
      obtain ⟨mda, returns, -⟩ := MdaEnvar.addForwardList_returns coherent.waiting fresh srcSta sooner
      exact returns.not_diverges diverges
  | @searched call srcSta txbuf stage returns =>
      have before : (state.calls call).holding = none := by simp [Call.holding, stage]
      cases txbuf with
      | none => exact coherent.keeps_proceed accounted (.search call) trivial before rfl (by simp)
      | some txbuf => exact coherent.keeps_proceed accounted (.search call) trivial before rfl (by simp)
  | @compared call txbuf srcSta stage =>
      have touched : (state.touch txbuf).Coherent nodes := coherent.touch
      have before : ((state.touch txbuf).calls call).holding = none := by
        rw [show (state.touch txbuf).calls call = .found txbuf srcSta from stage]
        rfl
      generalize decided : (if srcSta.leftHops < (state.mda.txbuf txbuf).forward.msg.leftHops then
        Call.cancelling txbuf else .idle) = result
      have after : result.holding = none := by
        rw [← decided]
        split <;> rfl
      have message : ∀ srcSta msgData delay, result = .unknown srcSta msgData delay →
          Sendable msgData ∧ 0 < msgData.length := by
        rw [← decided]
        split <;> simp
      have exact : ((state.touch txbuf).proceed call result).Accounted ↔
          state.txbufs.releases txbuf = 0 :=
        (touched.proceed_accounted_iff before after message).trans
          (coherent.touch_accounted_iff accounted)
      refine ⟨exact.trans ?_, fun _ => ⟨nodes, touched.proceed before after message⟩⟩
      constructor
      · intro unreleased other src stands
        rw [stage, Call.found.injEq] at stands
        exact stands.1 ▸ unreleased
      · exact fun keeps => keeps txbuf srcSta stage
  | @cancelled call txbuf stage free linked =>
      obtain ⟨front, back, rfl⟩ := List.append_of_mem (coherent.linked_iff.1 linked)
      refine keeps_of_accounted ?_ (coherent.cancel_accounted stage accounted)
        ⟨_, coherent.cancel stage⟩
      intro other stands
      rw [stage, Call.cancelling.injEq] at stands
      exact stands ▸ linked
  | @cancelledAgain call txbuf stage free unlinked =>
      refine keeps_of_not_accounted (fun keeps => unlinked (keeps txbuf stage)) fun spoilt => ?_
      have misused := spoilt.unspoilt
      cases misused
  | @released call txbuf stage =>
      have held : state.Holds nodes (.call call) txbuf := by
        rw [Holds, stage]
        rfl
      have fewer := coherent.holds_releaseRemoved_iff stage
      have message : ∀ other srcSta msgData delay,
          Function.update state.calls call .idle other = .unknown srcSta msgData delay →
          Sendable msgData ∧ 0 < msgData.length := coherent.message_update (by simp)
      exact keeps_of_accounted trivial
        (coherent.giveBack_accounted held rfl rfl rfl fewer message accounted rfl rfl)
        ⟨nodes, coherent.giveBack held rfl rfl rfl fewer message⟩
  | popped idle free =>
      obtain ⟨left, waiting, leaves, contents, -⟩ := MdaEnvar.forwardHandler_tick (fun node => node)
        coherent.waiting
      exact keeps_of_accounted trivial
        (coherent.pop_accounted idle leaves waiting contents accounted)
        ⟨left, coherent.pop leaves waiting contents⟩
  | @forwarded txbuf pid stage =>
      obtain ⟨frame, sends⟩ := rcpSendForwardMsg_sendable (coherent.sendable .handler txbuf stage) pid
      simp only [sends, wnetSendRelease_plain]
      have held : state.Holds nodes .handler txbuf := stage
      have clean : (state.forward txbuf).misused = state.misused := by
        simp [LifeState.forward, LifeState.touch, (coherent.live .handler txbuf held).unreleased]
      have fewer := coherent.holds_forward_iff stage
      exact keeps_of_accounted trivial
        (coherent.giveBack_accounted held rfl rfl rfl fewer coherent.message accounted rfl clean)
        ⟨nodes, coherent.giveBack held rfl rfl rfl fewer coherent.message⟩
  | aged => exact keeps_of_accounted trivial (coherent.age_accounted accounted) ⟨nodes, coherent.age⟩

theorem initial_coherent : initial.Coherent [] where
  waiting := MdaEnvar.mdaInit_waiting
  fresh := Pool.empty_fresh
  rxFresh := Pool.empty_fresh
  live := by
    intro holder txbuf holds
    cases holder <;> simp [Holds, Call.holding, initial] at holds
  sendable := by
    intro holder txbuf holds
    cases holder <;> simp [Holds, Call.holding, initial] at holds
  alone := by
    intro holder other txbuf holds
    cases holder <;> simp [Holds, Call.holding, initial] at holds
  message := by simp [initial]

section Race

/-- A safety message with three hops. -/
def carBsm : Received where
  kind := .bsm
  frame := [0x62, 0, 7, 7, 7, 7] ++ List.replicate 36 0
  idEq := by decide
  long := by decide

end Race
end LifeState

end Rsu.Mda
