import Rsu.Cli.Vty

/-!
# No command before the login

`vty_auth` leaves the login before it looks at the password, and a login that fails for good is
stopped by `VTY_CLOSE` alone. The control thread flushes the output of the pseudo terminal, and
its flush writes the same field.
-/

namespace Rsu.Cli

open Rsu.Rcp

variable {editor : LineEditor}

/-- What the command thread does after `vty_flush`. -/
inductive AfterFlush where
  /-- It reads, in `vty_exe`. -/
  | read
  /-- It executes the line, in `vty_read`, and goes on with the rest. -/
  | execute (rest : List Byte)
  deriving DecidableEq

/-- Where the command thread is. -/
inductive ExePlace where
  /-- in front of the test of `flushrc` -/
  | flushing (after : AfterFlush)
  /-- in front of `vty->status = VTY_NORMAL` -/
  | emptied (after : AfterFlush)
  /-- in front of the wait -/
  | waiting
  /-- in front of `loop_buf_pop_n` -/
  | popping
  /-- in the loop over the bytes -/
  | reading (bytes : List Byte)
  /-- in front of `vty_execute` -/
  | executing (rest : List Byte)
  /-- in front of the test for `VTY_CLOSE` in `vty_read` -/
  | checking
  /-- in front of `loop_buf_isempty` -/
  | looping
  /-- in front of the test for `VTY_CLOSE` in `vty_exe` -/
  | leaving
  | done
  deriving DecidableEq

/-- The next place after `vty_flush`. -/
def AfterFlush.place : AfterFlush → ExePlace
  | .read => .waiting
  | .execute rest => .executing rest

/-- Where the control thread is. -/
inductive AcceptPlace where
  /-- in front of `select` -/
  | selecting
  /-- in front of `read` of the pseudo terminal -/
  | readingPtm
  /-- in front of the test of `flushrc` -/
  | flushing
  /-- in front of `vty->status = VTY_NORMAL` -/
  | emptied
  /-- in front of `read` of the socket -/
  | readingSocket
  /-- in front of `loop_buf_push_n` -/
  | pushing (bytes : List Byte)
  /-- in the loop that pushes a negative number of bytes -/
  | stuck
  /-- in front of the test for `VTY_CLOSE` in `vty_accept` -/
  | returned
  | joining
  deriving DecidableEq

/-- What `select` gave. -/
inductive SelectResult where
  | error
  | timeout
  | ptm
  | fd

/-- What a step of the command thread meets outside of the session. -/
structure ExeInput where
  flushrc : BufferStatus
  auth : AuthInput
  command : CommandEffect

/-- What a step of the control thread meets outside of the session. -/
structure AcceptInput where
  select : SelectResult
  /-- There is more to be read from the pseudo terminal. -/
  more : Bool
  flushrc : BufferStatus
  socket : SocketInput

/-- A session. -/
structure LoginState (editor : LineEditor) where
  vty : Vty editor
  ring : LoopBuf
  exe : ExePlace
  accept : AcceptPlace
  /-- How many passwords `use_auth` did not accept. -/
  failures : Nat
  /-- `use_auth` accepted a password and `registe_user` gave a slot. -/
  loggedIn : Bool

/-- A step of one of the threads. -/
inductive LoginAction where
  | exe (input : ExeInput)
  | accept (input : AcceptInput)

/-- The first half of `vty_flush`: the status, and whether `VTY_NORMAL` is written next. -/
def flushTest (status : VtyStatus) : BufferStatus → VtyStatus × Bool
  | .error => (.close, false)
  | .empty => (status, status ≠ .close)
  | .pending => (.more, false)

/-- Both halves are `vty_flush`. -/
theorem flushTest_eq_vtyFlush (status : VtyStatus) (flushrc : BufferStatus) :
    (if (flushTest status flushrc).2 then .normal else (flushTest status flushrc).1) =
      vtyFlush status flushrc := by
  cases flushrc with
  | empty => simp [flushTest, vtyFlush]
  | _ => rfl

/-- `loop_buf_pop_n` in `vty_read`. -/
@[irreducible] def popLine (ring : LoopBuf) : LoopBuf × List Byte :=
  loopBufPopN ring (BitVec.ofNat 32 vtyReadBufsiz)

namespace LoginState

/-- The session with another status. -/
def withStatus (state : LoginState editor) (status : VtyStatus) : LoginState editor :=
  { state with vty := { state.vty with status := status } }

/-- `vty_execute` -/
def execute (state : LoginState editor) (input : ExeInput) (rest : List Byte) : LoginState editor :=
  let buf := editor.text state.vty.line
  { state with
    vty := state.vty.vtyExecute input.auth input.command
    exe := .reading rest
    failures :=
      if state.vty.node = .auth ∧ state.vty.verdict buf input.auth ≠ .success
      then state.failures + 1 else state.failures
    loggedIn := state.loggedIn ||
      decide (state.vty.node = .auth ∧ state.vty.verdict buf input.auth = .success ∧
        state.vty.slot input.auth ≠ maxCliUser) }

/-- The command thread goes on. -/
def exeStep (state : LoginState editor) (input : ExeInput) : LoginState editor :=
  match state.exe with
  | .flushing after =>
      let (status, empty) := flushTest state.vty.status input.flushrc
      { state.withStatus status with exe := if empty then .emptied after else after.place }
  | .emptied after => { state.withStatus .normal with exe := after.place }
  | .waiting => { state with exe := .popping }
  | .popping =>
      let (ring, bytes) := popLine state.ring
      { state with ring := ring, exe := .reading bytes }
  | .reading [] => { state with exe := .checking }
  | .reading (byte :: rest) =>
      match state.vty.readByte byte rest with
      | .next vty more => { state with vty := vty, exe := .reading more }
      | .carriageReturn => { state with exe := .flushing (.execute rest) }
  | .executing rest => state.execute input rest
  | .checking =>
      { state with exe := if state.vty.status = .close then .leaving else .looping }
  | .looping => { state with exe := if loopBufIsempty state.ring then .leaving else .popping }
  | .leaving =>
      { state with exe := if state.vty.status = .close then .done else .flushing .read }
  | .done => state

/-- The socket is read. -/
def received (state : LoginState editor) : SocketInput → LoginState editor
  | .none | .retry => { state with accept := .returned }
  | .data bytes => { state with accept := .pushing bytes }
  | .interrupt =>
      { state with
        ring := loopBufReset state.ring
        vty := state.vty.edit .clearBuf
        accept := .returned }
  | .failed => { state with accept := .stuck }
  | .eof => { state.withStatus .close with accept := .returned }

/-- The control thread goes on. -/
def acceptStep (state : LoginState editor) (input : AcceptInput) : LoginState editor :=
  match state.accept with
  | .selecting =>
      match input.select with
      | .error => { state with accept := .returned }
      | .timeout => { state.withStatus .close with accept := .returned }
      | .ptm => { state with accept := .readingPtm }
      | .fd => { state with accept := .readingSocket }
  | .readingPtm => { state with accept := if input.more then .flushing else .readingSocket }
  | .flushing =>
      let (status, empty) := flushTest state.vty.status input.flushrc
      let next := if input.flushrc = .error then .readingSocket else .readingPtm
      { state.withStatus status with accept := if empty then .emptied else next }
  | .emptied => { state.withStatus .normal with accept := .readingPtm }
  | .readingSocket => state.received input.socket
  | .pushing bytes =>
      let (ring, ret) := loopBufPushN state.ring bytes
      if bytes.length = ret then { state with ring := ring, accept := .returned } else state
  | .stuck => state
  | .returned =>
      { state with accept := if state.vty.status = .close then .joining else .selecting }
  | .joining => state

/-- One thread goes on. -/
def step (state : LoginState editor) : LoginAction → LoginState editor
  | .exe input => state.exeStep input
  | .accept input => state.acceptStep input

/-- After `vty_create` with the line `line` for the session number `iVtyIndex`. -/
def initial (line : editor.Line) (iVtyIndex : Nat) : LoginState editor where
  vty :=
    { node := .user
      status := .normal
      pcBuf := []
      iInvLogin := 0
      userIndex := maxCliUser
      iVtyIndex := iVtyIndex
      line := line
      escape := .normal
      iac := false
      iacSbInProgress := false }
  ring := initLoopBuf
  exe := .flushing .read
  accept := .selecting
  failures := 0
  loggedIn := false

end LoginState

/-- A session as an action system. -/
def loginSystem (editor : LineEditor) : ActionSystem LoginAction :=
  .ofFunction (fun state => ∃ line iVtyIndex, state = .initial line iVtyIndex)
    (@LoginState.step editor)

namespace LoginState

/-- `execute_command` is called only in a session that is logged in. -/
def Authorised (state : LoginState editor) : LoginAction → Prop
  | .exe _ => ∀ rest, state.exe = .executing rest → state.vty.node.TakesCommands →
      state.loggedIn = true
  | .accept _ => True

/-- `use_auth` failed at most three times. -/
def FewFailures (state : LoginState editor) : Prop := state.failures ≤ 3

/-- The login has failed for good: the node is past it, without a slot. -/
def Refused (state : LoginState editor) : Prop :=
  ¬ state.vty.node.LoggingIn ∧ state.loggedIn = false

/-- As long as the command thread of a session whose login has failed for good runs, the flush of
the control thread writes neither `VTY_MORE` nor `VTY_NORMAL`. -/
def KeepsClose (state : LoginState editor) : LoginAction → Prop
  | .exe _ => True
  | .accept input => state.Refused → state.exe ≠ .done →
      (state.accept = .flushing → input.flushrc ≠ .pending) ∧ state.accept ≠ .emptied

end LoginState

/-! ### Lines -/

/-- What is taken from the ring ends at a carriage return, so nothing is left behind one. -/
def ExePlace.Whole : ExePlace → Prop
  | .flushing (.execute rest) | .emptied (.execute rest) | .executing rest => rest = []
  | .reading bytes => carriageReturn ∉ bytes.dropLast
  | _ => True

/-- The command thread has nothing to read before it looks for `VTY_CLOSE`. -/
def ExePlace.Ending : ExePlace → Prop
  | .reading bytes => bytes = []
  | .checking | .leaving => True
  | _ => False

/-- Emptying the buffer leaves what is to be read behind it. -/
theorem AfterFlush.whole_emptied_iff {after : AfterFlush} :
    (ExePlace.emptied after).Whole ↔ (ExePlace.flushing after).Whole := by
  cases after <;> rfl

theorem AfterFlush.whole_place {after : AfterFlush} (whole : (ExePlace.flushing after).Whole) :
    after.place.Whole := by
  cases after with
  | read => trivial
  | execute rest => exact whole

/-- A carriage return that may only be the last byte is the last byte. -/
theorem eq_nil_of_line {rest : List Byte} (line : carriageReturn ∉ (carriageReturn :: rest).dropLast) :
    rest = [] := by
  cases rest with
  | nil => rfl
  | cons byte rest => exact absurd (List.mem_cons_self ..) line

/-- Bytes behind others are a line if these are. -/
theorem line_of_suffix {byte : Byte} {rest more : List Byte} (suffix : more <:+ rest)
    (line : carriageReturn ∉ (byte :: rest).dropLast) : carriageReturn ∉ more.dropLast := by
  intro member
  obtain ⟨front, rfl⟩ := suffix
  cases more with
  | nil => cases member
  | cons first more =>
      have nonempty : first :: more ≠ [] := List.cons_ne_nil _ _
      rw [← List.cons_append, List.dropLast_append_of_ne_nil nonempty] at line
      exact line (List.mem_append_right _ member)

/-- Taking a line keeps the ring in its bounds. -/
theorem popLine_inBounds {ring : LoopBuf} (inBounds : ring.InBounds) :
    (popLine ring).1.InBounds := by
  unfold popLine
  exact (inBounds.loopBufPopN _).1

/-- A line that is taken ends at its first carriage return. -/
theorem popLine_line {ring : LoopBuf} (inBounds : ring.InBounds) :
    carriageReturn ∉ (popLine ring).2.dropLast := by
  unfold popLine
  exact inBounds.line_loopBufPopN _

namespace LoginState

variable {state : LoginState editor}

/-- How far the login has come. -/
inductive Phase (state : LoginState editor) : Prop
  /-- The password is still to be checked. -/
  | asking (node : state.vty.node.LoggingIn) (out : state.loggedIn = false)
      (count : state.failures = state.vty.iInvLogin) (few : state.vty.iInvLogin ≤ 2)
  /-- The session is logged in. -/
  | inside (node : ¬ state.vty.node.LoggingIn) (entered : state.loggedIn = true)
      (few : state.failures ≤ 2)
  /-- The login has failed for good, and the command thread is about to find `VTY_CLOSE`. -/
  | refused (node : ¬ state.vty.node.LoggingIn) (out : state.loggedIn = false)
      (few : state.failures ≤ 3)
      (ends : state.exe = .done ∨ state.vty.status = .close ∧ state.exe.Ending)

/-- What steps keep that leave `VTY_CLOSE` alone. -/
structure Guarded (state : LoginState editor) : Prop where
  inBounds : state.ring.InBounds
  whole : state.exe.Whole
  phase : state.Phase

/-- A step that leaves the login where it was. -/
structure Idle (state next : LoginState editor) : Prop where
  login : state.vty.SameLogin next.vty
  failures : next.failures = state.failures
  loggedIn : next.loggedIn = state.loggedIn

/-- An idle step of a session whose login has not failed for good. -/
theorem Phase.idle {next : LoginState editor} (phase : state.Phase) (idle : state.Idle next)
    (running : state.Refused → next.exe = .done ∨ next.vty.status = .close ∧ next.exe.Ending) :
    next.Phase := by
  obtain ⟨login, failures, loggedIn⟩ := idle
  cases phase with
  | asking node out count few =>
      refine .asking (login.node.2 node) (loggedIn.trans out) ?_ ?_
      · rw [failures, count, login.iInvLogin]
      · rwa [login.iInvLogin]
  | inside node entered few =>
      refine .inside (fun back => node (login.node.1 back)) (loggedIn.trans entered) ?_
      rwa [failures]
  | refused node out few ends =>
      refine .refused (fun back => node (login.node.1 back)) (loggedIn.trans out) ?_
        (running ⟨node, out⟩)
      rwa [failures]

/-- A refused login is at its end. -/
theorem Phase.ends_of_refused (phase : state.Phase) (refused : state.Refused) :
    state.exe = .done ∨ state.vty.status = .close ∧ state.exe.Ending := by
  cases phase with
  | asking node => exact absurd node refused.1
  | inside _ entered => exact absurd entered (by rw [refused.2]; nofun)
  | refused _ _ _ ends => exact ends

/-- A step that keeps the node and the counters is idle. -/
theorem Idle.of_eq {next : LoginState editor} (node : next.vty.node = state.vty.node)
    (iInvLogin : next.vty.iInvLogin = state.vty.iInvLogin)
    (failures : next.failures = state.failures) (loggedIn : next.loggedIn = state.loggedIn) :
    state.Idle next := ⟨.of_eq iInvLogin node, failures, loggedIn⟩

/-! ### The command thread -/

/-- Only `vty_execute` moves the login. -/
theorem idle_exeStep (state : LoginState editor) (input : ExeInput)
    (elsewhere : ∀ rest, state.exe ≠ .executing rest) : state.Idle (state.exeStep input) := by
  unfold exeStep
  split
  all_goals try exact .of_eq rfl rfl rfl rfl
  · next byte rest reading =>
      have sound := state.vty.sound_readByte byte rest
      split
      · next vty more effect =>
          rw [effect] at sound
          exact ⟨sound.1, rfl, rfl⟩
      · exact .of_eq rfl rfl rfl rfl
  · next rest executing => exact absurd executing (elsewhere rest)

/-- A command thread at its end finds `VTY_CLOSE`. -/
theorem ends_exeStep (input : ExeInput)
    (ends : state.exe = .done ∨ state.vty.status = .close ∧ state.exe.Ending) :
    (state.exeStep input).exe = .done ∨
      (state.exeStep input).vty.status = .close ∧ (state.exeStep input).exe.Ending := by
  rcases ends with done | ⟨close, ending⟩
  · left
    rw [exeStep, done]
    exact done
  · unfold exeStep
    cases place : state.exe with
    | reading bytes =>
        rw [place] at ending
        obtain rfl : bytes = [] := ending
        exact .inr ⟨close, trivial⟩
    | checking =>
        refine .inr ⟨close, ?_⟩
        dsimp only
        rw [if_pos close]
        trivial
    | leaving =>
        left
        dsimp only
        rw [if_pos close]
    | _ =>
        rw [place] at ending
        exact ending.elim

/-- The command thread reads lines that end at their first carriage return. -/
theorem whole_exeStep (guarded : state.Guarded) (input : ExeInput) :
    (state.exeStep input).exe.Whole := by
  have whole := guarded.whole
  unfold exeStep
  cases place : state.exe with
  | flushing after =>
      rw [place] at whole
      dsimp only
      split
      · exact AfterFlush.whole_emptied_iff.2 whole
      · exact AfterFlush.whole_place whole
  | emptied after =>
      rw [place] at whole
      exact AfterFlush.whole_place (AfterFlush.whole_emptied_iff.1 whole)
  | popping => exact popLine_line guarded.inBounds
  | reading bytes =>
      rw [place] at whole
      cases bytes with
      | nil => trivial
      | cons byte rest =>
          have sound := state.vty.sound_readByte byte rest
          dsimp only
          split
          · next vty more effect =>
              rw [effect] at sound
              exact line_of_suffix sound.2 whole
          · next effect =>
              rw [effect] at sound
              obtain rfl : byte = carriageReturn := sound
              exact eq_nil_of_line whole
  | executing rest =>
      rw [place] at whole
      obtain rfl : rest = [] := whole
      exact List.not_mem_nil
  | checking | looping | leaving =>
      dsimp only
      split <;> trivial
  | waiting => trivial
  | done =>
      dsimp only
      rw [place]
      trivial

/-- The command thread keeps the ring in its bounds. -/
theorem inBounds_exeStep (inBounds : state.ring.InBounds) (input : ExeInput) :
    (state.exeStep input).ring.InBounds := by
  unfold exeStep
  split
  all_goals try exact inBounds
  · exact popLine_inBounds inBounds
  · split <;> exact inBounds

/-- A name is asked for once more, or the password next. -/
theorem phase_execute_user (asking : state.vty.node = .user) (out : state.loggedIn = false)
    (count : state.failures = state.vty.iInvLogin) (few : state.vty.iInvLogin ≤ 2)
    (input : ExeInput) : (state.execute input []).Phase := by
  have noAuth : state.vty.node ≠ .auth := by
    rw [asking]
    nofun
  have same : state.vty.SameLogin (state.execute input []).vty := by
    change state.vty.SameLogin (state.vty.vtyExecute input.auth input.command)
    rw [Vty.vtyExecute_of_loggingIn (.inl asking)]
    exact (Vty.vtyAuth_of_user asking _).trans (Vty.sameLogin_edit ..)
  have failures : (state.execute input []).failures = state.failures :=
    if_neg fun failed => noAuth failed.1
  have loggedIn : (state.execute input []).loggedIn = false := by
    simp [execute, out, noAuth]
  refine .asking (same.node.2 (.inl asking)) loggedIn ?_ ?_
  · rw [failures, count, same.iInvLogin]
  · rwa [same.iInvLogin]

/-- The password is checked. -/
theorem phase_execute_auth (asking : state.vty.node = .auth) (out : state.loggedIn = false)
    (count : state.failures = state.vty.iInvLogin) (few : state.vty.iInvLogin ≤ 2)
    (input : ExeInput) : (state.execute input []).Phase := by
  have executed : (state.execute input []).vty =
      (state.vty.vtyAuth (editor.text state.vty.line) input.auth).edit .clearBuf :=
    Vty.vtyExecute_of_loggingIn (.inr asking)
  by_cases accepted :
      state.vty.verdict (editor.text state.vty.line) input.auth = .success
  · have failures : (state.execute input []).failures = state.failures :=
      if_neg fun failed => failed.2 accepted
    have node : (state.execute input []).vty.node = .view := by
      rw [executed]
      simp [Vty.vtyAuth, Vty.edit, asking, accepted]
    have past : ¬ (state.execute input []).vty.node.LoggingIn := by
      rw [node]
      simp [VtyNode.LoggingIn]
    by_cases full : state.vty.slot input.auth = maxCliUser
    · have status : (state.execute input []).vty.status = .close := by
        rw [executed]
        simp [Vty.vtyAuth, Vty.edit, asking, accepted, full]
      refine .refused past ?_ ?_ (.inr ⟨status, rfl⟩)
      · simp [execute, out, full]
      · omega
    · refine .inside past ?_ ?_
      · simp [execute, asking, accepted, full]
      · omega
  · have failures : (state.execute input []).failures = state.failures + 1 :=
      if_pos ⟨asking, accepted⟩
    have loggedIn : (state.execute input []).loggedIn = false := by
      simp [execute, out, accepted]
    by_cases again : state.vty.iInvLogin < 2
    · have vty : (state.execute input []).vty.node = .user ∧
          (state.execute input []).vty.iInvLogin = state.vty.iInvLogin + 1 := by
        rw [executed]
        simp [Vty.vtyAuth, Vty.edit, asking, accepted, again]
      refine .asking (.inl vty.1) loggedIn ?_ ?_
      · rw [failures, count, vty.2]
      · rw [vty.2]
        exact again
    · have vty : (state.execute input []).vty.node = .view ∧
          (state.execute input []).vty.status = .close := by
        rw [executed]
        simp [Vty.vtyAuth, Vty.edit, asking, accepted, again]
      refine .refused ?_ loggedIn ?_ (.inr ⟨vty.2, rfl⟩)
      · rw [vty.1]
        simp [VtyNode.LoggingIn]
      · omega

/-- `vty_execute` takes the login from phase to phase. -/
theorem phase_execute (phase : state.Phase) (place : state.exe = .executing []) (input : ExeInput) :
    (state.execute input []).Phase := by
  cases phase with
  | asking node out count few =>
      rcases node with user | auth
      · exact phase_execute_user user out count few input
      · exact phase_execute_auth auth out count few input
  | inside node entered few =>
      have failures : (state.execute input []).failures = state.failures :=
        if_neg fun failed => node (.inr failed.1)
      refine .inside (Vty.vtyExecute_not_loggingIn node) ?_ ?_
      · simp [execute, entered]
      · rwa [failures]
  | refused node out few ends =>
      rcases ends with done | ⟨-, ending⟩
      · rw [place] at done
        cases done
      · rw [place] at ending
        exact ending.elim

/-- A step of the command thread keeps the session guarded. -/
theorem Guarded.exeStep (guarded : state.Guarded) (input : ExeInput) :
    (state.exeStep input).Guarded where
  inBounds := inBounds_exeStep guarded.inBounds input
  whole := whole_exeStep guarded input
  phase := by
    by_cases executes : ∃ rest, state.exe = .executing rest
    · obtain ⟨rest, place⟩ := executes
      have whole := guarded.whole
      rw [place] at whole
      obtain rfl : rest = [] := whole
      rw [LoginState.exeStep, place]
      exact phase_execute guarded.phase place input
    · have idle := state.idle_exeStep input fun rest place => executes ⟨rest, place⟩
      exact guarded.phase.idle idle fun refused =>
        ends_exeStep input (guarded.phase.ends_of_refused refused)

/-! ### The control thread -/

/-- The thread that reads the socket leaves the login alone. -/
theorem idle_acceptStep (state : LoginState editor) (input : AcceptInput) :
    state.Idle (state.acceptStep input) := by
  unfold acceptStep
  split
  all_goals try exact .of_eq rfl rfl rfl rfl
  · split <;> exact .of_eq rfl rfl rfl rfl
  · unfold received
    split <;> exact .of_eq rfl rfl rfl rfl
  · dsimp only
    split <;> exact .of_eq rfl rfl rfl rfl

/-- It leaves the command thread where it is. -/
theorem exe_acceptStep (state : LoginState editor) (input : AcceptInput) :
    (state.acceptStep input).exe = state.exe := by
  unfold acceptStep
  split
  all_goals try rfl
  · split <;> rfl
  · unfold received
    split <;> rfl
  · dsimp only
    split <;> rfl

/-- It keeps the ring in its bounds. -/
theorem inBounds_acceptStep (inBounds : state.ring.InBounds) (input : AcceptInput) :
    (state.acceptStep input).ring.InBounds := by
  unfold acceptStep
  split
  all_goals try exact inBounds
  · split <;> exact inBounds
  · unfold received
    split
    all_goals try exact inBounds
    exact ⟨LoopBuf.initLoopBuf_inBounds.inAt, LoopBuf.initLoopBuf_inBounds.outAt⟩
  · dsimp only
    split
    · exact (inBounds.loopBufPushN _).1
    · exact inBounds

/-- A control thread that keeps to the condition leaves `VTY_CLOSE` alone. -/
theorem close_acceptStep (close : state.vty.status = .close) (input : AcceptInput)
    (flushes : state.accept = .flushing → input.flushrc ≠ .pending)
    (empties : state.accept ≠ .emptied) : (state.acceptStep input).vty.status = .close := by
  unfold acceptStep
  split
  all_goals try exact close
  · split
    all_goals first | exact close | rfl
  · next place =>
      dsimp only [withStatus]
      cases result : input.flushrc with
      | error => rfl
      | empty => exact close
      | pending => exact absurd result (flushes place)
  · next place => exact absurd place empties
  · unfold received
    split
    all_goals first | exact close | rfl
  · dsimp only
    split <;> exact close

/-- It keeps the session guarded unless it clears `VTY_CLOSE`. -/
theorem Guarded.acceptStep (guarded : state.Guarded) {input : AcceptInput}
    (keeps : state.KeepsClose (.accept input)) : (state.acceptStep input).Guarded where
  inBounds := inBounds_acceptStep guarded.inBounds input
  whole := by
    rw [exe_acceptStep]
    exact guarded.whole
  phase := by
    refine guarded.phase.idle (state.idle_acceptStep input) fun refused => ?_
    rw [exe_acceptStep]
    rcases guarded.phase.ends_of_refused refused with done | ⟨close, ending⟩
    · exact .inl done
    · have running : state.exe ≠ .done := by
        intro done
        rw [done] at ending
        exact ending
      obtain ⟨flushes, empties⟩ := keeps refused running
      exact .inr ⟨close_acceptStep close input flushes empties, ending⟩

/-! ### Runs -/

theorem initial_guarded (line : editor.Line) (iVtyIndex : Nat) :
    (initial line iVtyIndex).Guarded where
  inBounds := LoopBuf.initLoopBuf_inBounds
  whole := trivial
  phase := .asking (.inl rfl) rfl rfl (Nat.zero_le _)

/-- Every step that leaves `VTY_CLOSE` alone keeps the session guarded. -/
theorem Guarded.step (guarded : state.Guarded) {action : LoginAction}
    (keeps : state.KeepsClose action) : (state.step action).Guarded := by
  cases action with
  | exe input => exact guarded.exeStep input
  | accept input => exact guarded.acceptStep keeps

/-- No more than three logins fail. -/
theorem Guarded.fewFailures (guarded : state.Guarded) : state.FewFailures := by
  cases guarded.phase with
  | asking node out count few => exact (count.trans_le few).trans (Nat.le_succ 2)
  | inside node entered few => exact few.trans (Nat.le_succ 2)
  | refused node out few => exact few

/-- A command is executed only for a user who is logged in. -/
theorem Guarded.authorised (guarded : state.Guarded) (action : LoginAction) :
    state.Authorised action := by
  cases action with
  | accept input => trivial
  | exe input =>
      intro rest place takes
      cases guarded.phase with
      | asking node =>
          rcases node with user | auth
          · rw [user] at takes
            exact takes.elim
          · rw [auth] at takes
            exact takes.elim
      | inside node entered => exact entered
      | refused node out few ends =>
          rw [place] at ends
          rcases ends with done | ⟨-, ending⟩
          · cases done
          · exact ending.elim

/-- As long as the control thread leaves the `VTY_CLOSE` of a failed login alone, commands are
executed only in a session that is logged in, and at most three passwords are not accepted. -/
theorem no_command_before_login (line : editor.Line) (iVtyIndex : Nat) {finish : LoginState editor}
    (path : (loginSystem editor).Path (initial line iVtyIndex) finish)
    (keeps : path.StepsMeet KeepsClose) : path.StepsMeet Authorised ∧ path.Always FewFailures := by
  have start := initial_guarded line iVtyIndex
  have preserved : ∀ {state : LoginState editor} {action next}, state.Guarded →
      (loginSystem editor).Step state action next → state.KeepsClose action → next.Guarded := by
    rintro state action next guarded rfl kept
    exact guarded.step kept
  constructor
  · exact path.stepsMeet_of_stepsMeet start preserved
      (fun guarded _ => Guarded.authorised guarded _) keeps
  · exact (path.always_of_stepsMeet start preserved keeps).mono fun _ => Guarded.fewFailures

section Typed

/-- A line that is typed without corrections. -/
def typedLine : LineEditor where
  Line := List Byte
  edit
    | .selfInsert c, _, line => line ++ [c]
    | .clearBuf, _, _ => []
    | _, _, line => line
  length := List.length
  text := id

/-- The output is empty whenever it is flushed, and a command changes nothing. -/
def exeInput (table : UserTable) : ExeInput where
  flushrc := .empty
  auth := ⟨0, 0, table, table, .empty _, 0⟩
  command := ⟨⟨.view, by simp [VtyNode.LoggingIn]⟩, .normal⟩

/-- The control thread reads the name `a`, the empty password and an empty command. -/
def typed : AcceptInput :=
  ⟨.fd, false, .empty, .data [0x61, carriageReturn, carriageReturn, carriageReturn]⟩

/-- The control thread flushes twice, a first page and the rest. -/
def twoPages : List LoginAction :=
  [.accept ⟨.ptm, true, .pending, .none⟩, .accept ⟨.ptm, true, .pending, .none⟩,
    .accept ⟨.ptm, true, .pending, .none⟩, .accept ⟨.ptm, true, .empty, .none⟩,
    .accept ⟨.ptm, true, .empty, .none⟩, .accept ⟨.ptm, true, .empty, .none⟩]

/-- A table in which every slot is taken. -/
def fullTable : UserTable :=
  .replicate maxCliUser { StrUserInfo.unused with iTerminalType := 1 }

/-- The session before anything is typed. -/
def untyped : LoginState typedLine := .initial ([] : List Byte) 0

/-- The login of a user for whom there is no slot, the two pages, and a line that is executed
next. -/
def unslotted : List LoginAction :=
  List.replicate 4 (.accept typed) ++ List.replicate 17 (.exe (exeInput fullTable)) ++ twoPages ++
    List.replicate 7 (.exe (exeInput fullTable))

/-- A session that logs in executes a command. -/
theorem slotted_executes :
    ∃ (finish : LoginState typedLine) (path : (loginSystem typedLine).Path untyped finish),
      finish.loggedIn = true ∧ path.StepsMeet Authorised ∧ path.Always FewFailures := by
  let table : UserTable := .replicate maxCliUser .unused
  let start : (loginSystem typedLine).Path untyped untyped := .nil
  let prior := (((start.snoc (.accept typed) _ rfl).snoc (.accept typed) _ rfl).snoc
    (.accept typed) _ rfl).snoc (.accept typed) _ rfl
  have asking : ∀ {state : LoginState typedLine} {input}, state.vty.node = .user →
      state.KeepsClose (.accept input) := fun user refused => absurd (.inl user) refused.1
  have keeps : prior.StepsMeet KeepsClose :=
    ⟨⟨⟨⟨trivial, asking rfl⟩, asking rfl⟩, asking rfl⟩, asking rfl⟩
  obtain ⟨path, keeps⟩ := prior.exists_extension keeps
    (List.replicate 25 (.exe (exeInput table)))
    (fun action member state => List.eq_of_mem_replicate member ▸ trivial)
  exact ⟨_, path, by decide +kernel, @no_command_before_login typedLine ([] : List Byte) 0 _ path keeps⟩

/-- The flush of the control thread takes `VTY_CLOSE` away, and the session without a slot
executes a command. -/
theorem unslotted_executes :
    ∃ (finish : LoginState typedLine) (path : (loginSystem typedLine).Path untyped finish),
      ¬ (path.StepsMeet Authorised ∧ path.Always FewFailures) := by
  obtain ⟨prior⟩ : Nonempty ((loginSystem typedLine).Path untyped (unslotted.foldl step untyped)) :=
    ActionSystem.Path.exists_path unslotted rfl
  have place : (unslotted.foldl step untyped).exe = .executing [] := by decide +kernel
  have node : (unslotted.foldl step untyped).vty.node = .view := by decide +kernel
  have out : (unslotted.foldl step untyped).loggedIn = false := by decide +kernel
  have takes : (unslotted.foldl step untyped).vty.node.TakesCommands := by
    rw [node]
    trivial
  refine ⟨_, prior.snoc (.exe (exeInput fullTable)) _ rfl, ?_⟩
  rintro ⟨⟨-, authorised⟩, -⟩
  exact absurd (out.symm.trans (authorised [] place takes)) nofun

end Typed

end LoginState

end Rsu.Cli
