import Rsu.Cli.LoopBuf

/-!
# The two threads of a telnet session

The control thread reads the socket, pushes the bytes into the ring and signals; the command
thread waits for the signal and pops. It waits whether or not there is something to pop, so a
signal that comes between its last look at the ring and the wait is lost.
-/

namespace Rsu.Cli

open Rsu.Rcp

/-- `status` of `struct vty`. -/
inductive VtyStatus where
  /-- `VTY_NORMAL` -/
  | normal
  /-- `VTY_CLOSE` -/
  | close
  /-- `VTY_MORE` -/
  | more
  /-- `VTY_MORELINE` -/
  | moreline
  deriving DecidableEq

/-- `buffer_status_t`, what flushing the output came to. -/
inductive BufferStatus where
  /-- `BUFFER_ERROR` -/
  | error
  /-- `BUFFER_EMPTY` -/
  | empty
  /-- `BUFFER_PENDING` -/
  | pending
  deriving DecidableEq

/-- What `vty_flush` makes of the status. -/
def vtyFlush (status : VtyStatus) : BufferStatus → VtyStatus
  | .error => .close
  | .empty => if status ≠ .close then .normal else status
  | .pending => .more

/-- The loop of `vty_read_ctrl` over the pseudo terminal, which ends at an error. -/
def flushTerminal (status : VtyStatus) : List BufferStatus → VtyStatus
  | [] => status
  | .error :: _ => .close
  | flushrc :: rest => flushTerminal (vtyFlush status flushrc) rest

/-- `VTY_READ_BUFSIZ` -/
def vtyReadBufsiz : Nat := 512

/-- What `read` of the socket gave, if `select` reported it. -/
inductive SocketInput where
  | none
  | data (bytes : List Byte)
  /-- The bytes contain a control-C and a program is to be stopped. -/
  | interrupt
  /-- an error after which one tries again -/
  | retry
  /-- any other error -/
  | failed
  | eof

/-- Where the command thread is. -/
inductive CmdStage where
  /-- in front of `vty_flush` in `vty_exe` -/
  | flushing
  /-- in front of `pthread_cond_wait` -/
  | waiting
  /-- in `pthread_cond_wait` -/
  | blocked
  /-- in front of `loop_buf_pop_n` -/
  | popping
  /-- in the loop over the bytes -/
  | processing (bytes : List Byte)
  /-- in front of the test for `VTY_CLOSE` in `vty_read` -/
  | checking
  /-- in front of `loop_buf_isempty` -/
  | looping
  /-- in front of the test for `VTY_CLOSE` in `vty_exe` -/
  | leaving
  | done
  deriving DecidableEq

/-- Where the control thread is. -/
inductive CtrlStage where
  /-- in `select` -/
  | selecting
  /-- in front of `loop_buf_push_n` -/
  | pushing (bytes : List Byte)
  /-- in the loop that pushes a negative number of bytes -/
  | stuck
  /-- in front of `pthread_cond_signal` in `vty_read_ctrl` -/
  | pushed
  /-- in front of the test for `VTY_CLOSE` in `vty_accept` -/
  | returned
  /-- in front of `pthread_cond_signal` in `vty_accept` -/
  | closing
  /-- in `pthread_join` -/
  | joining
  deriving DecidableEq

/-- A session. -/
structure WakeState where
  ring : LoopBuf
  status : VtyStatus
  cmd : CmdStage
  ctrl : CtrlStage

/-- The steps of the threads. -/
inductive WakeAction where
  | flush (flushrc : BufferStatus)
  | wait
  | spuriousWakeup
  | pop
  | process (status : VtyStatus)
  | check
  | isempty
  | leave
  | select (flushrcs : List BufferStatus) (input : SocketInput)
  | timeout
  | selectError
  | push
  | signal
  | testClose
  | signalClose

namespace WakeState

/-- After `vty_create`. -/
def initial : WakeState := ⟨initLoopBuf, .normal, .flushing, .selecting⟩

/-- `pthread_cond_signal` -/
def signalled (state : WakeState) : WakeState :=
  { state with cmd := if state.cmd = .blocked then .popping else state.cmd }

/-- `vty_read_ctrl` from `select` to the next operation on the mutex. -/
def received (state : WakeState) (flushrcs : List BufferStatus) (input : SocketInput) :
    WakeState :=
  let state := { state with status := flushTerminal state.status flushrcs }
  match input with
  | .none | .retry => { state with ctrl := .returned }
  | .data bytes => { state with ctrl := .pushing bytes }
  | .interrupt => { state with ring := loopBufReset state.ring, ctrl := .returned }
  | .failed => { state with ctrl := .stuck }
  | .eof => { state with status := .close, ctrl := .returned }

/-- One turn of the loop that pushes; it sleeps when the bytes do not fit. -/
def tryPush (state : WakeState) (bytes : List Byte) : WakeState :=
  let (ring, ret) := loopBufPushN state.ring bytes
  if bytes.length = ret then { state with ring := ring, ctrl := .pushed } else state

end WakeState

/-- The steps of a session. -/
inductive WakeStep : WakeState → WakeAction → WakeState → Prop
  | flush {state : WakeState} (stage : state.cmd = .flushing) (flushrc : BufferStatus) :
      WakeStep state (.flush flushrc)
        { state with status := vtyFlush state.status flushrc, cmd := .waiting }
  | wait {state : WakeState} (stage : state.cmd = .waiting) :
      WakeStep state .wait { state with cmd := .blocked }
  | spuriousWakeup {state : WakeState} (stage : state.cmd = .blocked) :
      WakeStep state .spuriousWakeup { state with cmd := .popping }
  | pop {state : WakeState} (stage : state.cmd = .popping) :
      WakeStep state .pop
        { state with
          ring := (loopBufPopN state.ring (BitVec.ofNat 32 vtyReadBufsiz)).1
          cmd := .processing (loopBufPopN state.ring (BitVec.ofNat 32 vtyReadBufsiz)).2 }
  | process {state : WakeState} {bytes : List Byte} (stage : state.cmd = .processing bytes)
      (status : VtyStatus) :
      WakeStep state (.process status) { state with status := status, cmd := .checking }
  | check {state : WakeState} (stage : state.cmd = .checking) :
      WakeStep state .check
        { state with cmd := if state.status = .close then .leaving else .looping }
  | isempty {state : WakeState} (stage : state.cmd = .looping) :
      WakeStep state .isempty
        { state with cmd := if loopBufIsempty state.ring then .leaving else .popping }
  | leave {state : WakeState} (stage : state.cmd = .leaving) :
      WakeStep state .leave
        { state with cmd := if state.status = .close then .done else .flushing }
  | select {state : WakeState} (stage : state.ctrl = .selecting) (flushrcs : List BufferStatus)
      (input : SocketInput)
      (room : ∀ bytes, input = .data bytes → bytes ≠ [] ∧ bytes.length ≤ vtyReadBufsiz) :
      WakeStep state (.select flushrcs input) (state.received flushrcs input)
  | timeout {state : WakeState} (stage : state.ctrl = .selecting) :
      WakeStep state .timeout { state with status := .close, ctrl := .returned }
  | selectError {state : WakeState} (stage : state.ctrl = .selecting) :
      WakeStep state .selectError { state with ctrl := .returned }
  | push {state : WakeState} {bytes : List Byte} (stage : state.ctrl = .pushing bytes) :
      WakeStep state .push (state.tryPush bytes)
  | signal {state : WakeState} (stage : state.ctrl = .pushed) :
      WakeStep state .signal { state.signalled with ctrl := .returned }
  | testClose {state : WakeState} (stage : state.ctrl = .returned) :
      WakeStep state .testClose
        { state with ctrl := if state.status = .close then .closing else .selecting }
  | signalClose {state : WakeState} (stage : state.ctrl = .closing) :
      WakeStep state .signalClose { state.signalled with ctrl := .joining }

/-- A session as an action system. -/
def wakeSystem : ActionSystem WakeAction where
  State := WakeState
  Initial state := state = .initial
  Step := WakeStep

namespace WakeState

/-- The control thread is about to signal for what it received: its push will succeed, or has
succeeded, or it will find `VTY_CLOSE`. -/
def SignalComing (state : WakeState) : Prop :=
  match state.ctrl with
  | .pushing bytes => bytes.length ≤ (loopBufRemain state.ring).toNat
  | .pushed | .closing => True
  | .returned => state.status = .close
  | _ => False

/-- There is nothing to do for the command thread. -/
def Quiet (state : WakeState) : Prop := loopBufIsempty state.ring = true ∧ state.status ≠ .close

/-- The indexes of the ring are inside it. -/
def InBounds (state : WakeState) : Prop := state.ring.InBounds

/-- The command thread is not blocked with something to do and no signal to come. -/
def Awake (state : WakeState) : Prop := state.cmd = .blocked → state.SignalComing ∨ state.Quiet

/-- The command thread waits only if there is nothing to do or a signal is to come, and no hard
error of `read` follows a failed flush while it is blocked. -/
def Watches (state : WakeState) : WakeAction → Prop
  | .wait => state.SignalComing ∨ state.Quiet
  | .select flushrcs .failed => state.cmd = .blocked → flushTerminal state.status flushrcs ≠ .close
  | _ => True

variable {state next : WakeState} {action : WakeAction}

/-- A reader that does not wait is awake. -/
theorem awake_of_ne_blocked (running : state.cmd ≠ .blocked) : state.Awake :=
  fun blocked => absurd blocked running

/-- A reader that waits is woken, or there is nothing to read. -/
theorem awake_iff (blocked : state.cmd = .blocked) :
    state.Awake ↔ state.SignalComing ∨ state.Quiet :=
  ⟨fun awake => awake blocked, fun coming _ => coming⟩

/-- While the control thread is in `select`, no signal comes for what is in the ring. -/
theorem quiet_of_selecting (awake : state.Awake) (stage : state.ctrl = .selecting)
    (blocked : state.cmd = .blocked) : state.Quiet := by
  refine (awake blocked).resolve_left ?_
  rw [SignalComing, stage]
  exact id

/-- An empty ring has room for what one `read` gives. -/
theorem fits_of_isempty {buf : LoopBuf} (inBounds : buf.InBounds)
    (empty : loopBufIsempty buf = true) {bytes : List Byte} (room : bytes.length ≤ vtyReadBufsiz) :
    bytes.length ≤ (loopBufRemain buf).toNat := by
  have same : buf.outAt = buf.inAt := of_decide_eq_true empty
  have inAt := inBounds.inAt
  rw [inBounds.toNat_loopBufRemain, same]
  simp only [vtyReadBufsiz, loopBufLen] at room inAt ⊢
  omega

/-- A push takes all bytes or waits for room. -/
theorem tryPush_eq (state : WakeState) (bytes : List Byte) :
    state.tryPush bytes =
      if bytes.length = (loopBufPushN state.ring bytes).2
      then { state with ring := (loopBufPushN state.ring bytes).1, ctrl := .pushed }
      else state := rfl

/-- Bytes that fit are pushed, and the signal is next. -/
theorem tryPush_of_fits {bytes : List Byte}
    (fits : bytes.length ≤ (loopBufRemain state.ring).toNat) :
    (state.tryPush bytes).ctrl = .pushed := by
  have pushed : (loopBufPushN state.ring bytes).2 = bytes.length := by
    rw [loopBufPushN, if_neg (Nat.not_lt.2 fits)]
  rw [tryPush_eq, if_pos pushed.symm]

/-- Bytes that do not fit change nothing, unless there are none. -/
theorem tryPush_of_full {bytes : List Byte}
    (full : (loopBufRemain state.ring).toNat < bytes.length) : state.tryPush bytes = state := by
  have refused : (loopBufPushN state.ring bytes).2 = 0 := by rw [loopBufPushN, if_pos full]
  rw [tryPush_eq, if_neg]
  rw [refused]
  exact Nat.ne_of_gt (Nat.zero_lt_of_lt full)

/-- A signal wakes the reader. -/
theorem signalled_cmd (state : WakeState) : state.signalled.cmd ≠ .blocked := by
  unfold signalled
  by_cases blocked : state.cmd = .blocked
  · rw [if_pos blocked]
    exact CmdStage.noConfusion
  · rw [if_neg blocked]
    exact blocked

/-- `vty_flush` and `read` leave the command thread where it is. -/
theorem received_cmd (state : WakeState) (flushrcs : List BufferStatus) (input : SocketInput) :
    (state.received flushrcs input).cmd = state.cmd := by
  cases input <;> rfl

/-- Back from `vty_read_ctrl` with an empty ring, the control thread signals or nothing is to be
done. -/
theorem awake_of_returned (stage : state.ctrl = .returned)
    (empty : loopBufIsempty state.ring = true) : state.Awake := by
  intro _
  by_cases close : state.status = .close
  · left
    rw [SignalComing, stage]
    exact close
  · exact .inr ⟨empty, close⟩

/-- What is received is signalled, unless `read` fails. -/
theorem awake_received_iff (inBounds : state.InBounds) (awake : state.Awake)
    (stage : state.ctrl = .selecting) (flushrcs : List BufferStatus) (input : SocketInput)
    (room : ∀ bytes, input = .data bytes → bytes ≠ [] ∧ bytes.length ≤ vtyReadBufsiz) :
    (state.received flushrcs input).Awake ↔ state.Watches (.select flushrcs input) := by
  by_cases blocked : state.cmd = .blocked
  · obtain ⟨empty, open_⟩ := quiet_of_selecting awake stage blocked
    cases input with
    | none => exact iff_of_true (awake_of_returned rfl empty) trivial
    | data bytes =>
        have fits := fits_of_isempty inBounds empty (room bytes rfl).2
        exact iff_of_true (fun _ => .inl fits) trivial
    | interrupt => exact iff_of_true (awake_of_returned rfl (decide_eq_true rfl)) trivial
    | retry => exact iff_of_true (awake_of_returned rfl empty) trivial
    | failed =>
        rw [awake_iff ((received_cmd ..).trans blocked)]
        exact ⟨fun coming _ => (coming.resolve_left id).2,
          fun watches => .inr ⟨empty, watches blocked⟩⟩
    | eof => exact iff_of_true (awake_of_returned rfl empty) trivial
  · refine iff_of_true (awake_of_ne_blocked ((received_cmd ..).trans_ne blocked)) ?_
    cases input with
    | failed => exact fun stopped => absurd stopped blocked
    | _ => trivial

/-- A push keeps the ring in its bounds. -/
theorem tryPush_inBounds (inBounds : state.ring.InBounds) (bytes : List Byte) :
    (state.tryPush bytes).ring.InBounds := by
  rw [tryPush_eq]
  split
  · exact (inBounds.loopBufPushN bytes).1
  · exact inBounds

theorem received_inBounds (inBounds : state.ring.InBounds) (flushrcs : List BufferStatus)
    (input : SocketInput) : (state.received flushrcs input).ring.InBounds := by
  cases input with
  | interrupt => exact ⟨LoopBuf.initLoopBuf_inBounds.inAt, LoopBuf.initLoopBuf_inBounds.outAt⟩
  | _ => exact inBounds

/-- Every step keeps the ring in its bounds. -/
theorem InBounds.step (inBounds : state.InBounds) (step : WakeStep state action next) :
    next.InBounds := by
  cases step with
  | pop =>
      unfold InBounds
      dsimp only
      exact (LoopBuf.InBounds.loopBufPopN inBounds _).1
  | select _ flushrcs input => exact received_inBounds inBounds flushrcs input
  | push => exact tryPush_inBounds inBounds _
  | _ => exact inBounds

/-- A step keeps the command thread awake exactly if it watches. -/
theorem awake_step_iff (inBounds : state.InBounds) (awake : state.Awake)
    (step : WakeStep state action next) : next.Awake ↔ state.Watches action := by
  cases step with
  | wait => exact awake_iff rfl
  | select stage flushrcs input room =>
      exact awake_received_iff inBounds awake stage flushrcs input room
  | flush | spuriousWakeup | pop | process => exact iff_of_true (awake_of_ne_blocked nofun) trivial
  | check | isempty | leave =>
      refine iff_of_true (awake_of_ne_blocked ?_) trivial
      dsimp only
      split <;> exact nofun
  | timeout => exact iff_of_true (fun _ => .inl rfl) trivial
  | selectError stage =>
      have quiet : state.cmd = .blocked → state.Quiet := quiet_of_selecting awake stage
      exact iff_of_true (fun blocked => .inr (quiet blocked)) trivial
  | @push bytes stage =>
      refine iff_of_true ?_ trivial
      rcases Nat.lt_or_ge (loopBufRemain state.ring).toNat bytes.length with full | fits
      · rw [tryPush_of_full full]
        exact awake
      · intro _
        left
        rw [SignalComing, tryPush_of_fits fits]
        trivial
  | signal | signalClose =>
      exact iff_of_true (awake_of_ne_blocked (signalled_cmd state)) trivial
  | testClose stage =>
      refine iff_of_true (fun blocked => ?_) trivial
      by_cases close : state.status = .close
      · left
        rw [SignalComing, if_pos close]
        trivial
      · right
        refine (awake blocked).resolve_left ?_
        rw [SignalComing, stage]
        exact close

/-- The command thread is never left blocked with something to do exactly if it never waits while
there is something to do and no signal to come, and `read` does not fail behind a failed flush. -/
theorem no_lost_wakeup_iff {finish : WakeState} (path : wakeSystem.Path initial finish) :
    path.Always Awake ↔ path.StepsMeet Watches := by
  have start : initial.InBounds := LoopBuf.initLoopBuf_inBounds
  refine path.always_iff_stepsMeet start (awake_of_ne_blocked CmdStage.noConfusion) ?_ ?_
  · intro state action next inBounds _ step _
    exact inBounds.step step
  · intro state action next inBounds awake step
    exact awake_step_iff inBounds awake step

/-- A carriage return arrives between the flush and the wait of the command thread: it stays in
the ring, and the command thread is blocked. -/
theorem carriage_return_not_signalled :
    ∃ (finish : WakeState) (path : wakeSystem.Path initial finish), ¬path.Always Awake := by
  let flushed : WakeState := { initial with cmd := .waiting }
  let received : WakeState := { flushed with ctrl := .pushing [carriageReturn] }
  let pushed : WakeState :=
    { flushed with ring := (loopBufPushN initLoopBuf [carriageReturn]).1, ctrl := .pushed }
  have flush : WakeStep initial (.flush .empty) flushed := .flush rfl .empty
  have select : WakeStep flushed (.select [] (.data [carriageReturn])) received := by
    refine .select rfl [] _ ?_
    rintro bytes ⟨⟩
    decide
  have push : WakeStep received .push pushed := by
    have step : WakeStep received .push (received.tryPush [carriageReturn]) := .push rfl
    rwa [tryPush_eq, if_pos (by decide +kernel)] at step
  have signal : WakeStep pushed .signal { pushed with ctrl := .returned } := .signal rfl
  have testClose : WakeStep { pushed with ctrl := .returned } .testClose
      { pushed with ctrl := .selecting } := .testClose rfl
  have wait : WakeStep { pushed with ctrl := .selecting } .wait
      { pushed with ctrl := .selecting, cmd := .blocked } := .wait rfl
  let start : wakeSystem.Path initial initial := .nil
  let path := (((((start.snoc _ _ flush).snoc _ _ select).snoc _ _ push).snoc _ _ signal).snoc
    _ _ testClose).snoc _ _ wait
  refine ⟨_, path, fun always => ?_⟩
  obtain coming | quiet := always.last rfl
  · exact coming
  · exact absurd quiet.1 (by decide +kernel)

end WakeState

end Rsu.Cli
