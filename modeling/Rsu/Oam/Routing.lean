import Rsu.Oam.Clients
import Rsu.Oam.Validation

/-!
# Where the management server reads and replies

All receive threads get the address of one variable of the accept loop. A thread reads it
once when it starts, to know where to read from, and again for every request, to know
where to reply. `replies_routed_iff` says when it finds its own descriptor there.
-/

namespace Rsu.Oam

open Rsu.Rcp Checked

/-- Where a receive thread stands. -/
inductive RxStage where
  | absent
  | created
  /-- in its loop, with its local `sockfd` -/
  | running (sockfd : Int)
  | ended
  deriving DecidableEq

/-- A reply: the connection of the request, the connection it was sent on, if any, and what
was sent. -/
structure Response where
  asked : Nat
  answered : Option Nat
  frame : Frame

/-- A step of the accept loop or of a receive thread. -/
inductive RouteAction where
  /-- `accept` returns a descriptor, the thread is created and the client added. -/
  | accept (fd : Int)
  /-- `accept` returns zero or less. -/
  | acceptFails (result : Int)
  /-- The thread reads `*(int *)arg`. -/
  | start (thread : Nat)
  /-- `recv` returns a string, and it is processed. -/
  | receive (thread : Nat) (string : RecvString)
  /-- `recv` returns zero or less: the client is freed and the descriptor closed. -/
  | leave (thread : Nat)

/-- The server. Connections are numbered as they are accepted, and each has one thread. -/
structure RouteState where
  srv : OamServer
  world : OamWorld
  /-- the local variable `client_sockfd` of `cv_oam_proc_thread` -/
  clientSockfd : Int
  accepted : Nat
  fd : Nat → Int
  isOpen : Nat → Bool
  stage : Nat → RxStage
  /-- the connection the last `accept` returned -/
  lastAccepted : Option Nat
  responses : List Response

namespace RouteState

/-- The start of `cv_oam_proc_thread`. -/
def initial (world : OamWorld) : RouteState where
  srv := cvOamServerInit
  world := world
  clientSockfd := -1
  accepted := 0
  fd := fun _ => 0
  isOpen := fun _ => false
  stage := fun _ => .absent
  lastAccepted := none
  responses := []

/-- A descriptor belongs to a connection. -/
def Serves (state : RouteState) (fd : Int) (connection : Nat) : Prop :=
  state.isOpen connection = true ∧ state.fd connection = fd

instance (state : RouteState) (fd : Int) (connection : Nat) :
    Decidable (state.Serves fd connection) := inferInstanceAs (Decidable (_ ∧ _))

/-- The connection of a descriptor. -/
def owner (state : RouteState) (fd : Int) : Option Nat :=
  (List.range state.accepted).find? fun connection => state.Serves fd connection

/-- A connection is accepted. -/
def accept (state : RouteState) (fd : Int) : RouteState :=
  { state with
    srv := cvOamServerAddClient state.srv fd
    clientSockfd := fd
    accepted := state.accepted + 1
    fd := Function.update state.fd state.accepted fd
    isOpen := Function.update state.isOpen state.accepted true
    stage := Function.update state.stage state.accepted .created
    lastAccepted := some state.accepted }

/-- A thread moves on. -/
def setStage (state : RouteState) (thread : Nat) (stage : RxStage) : RouteState :=
  { state with stage := Function.update state.stage thread stage }

/-- A string from a connection was processed: the reply goes to the descriptor that the
variable of the accept loop holds. -/
def answer (state : RouteState) (connection : Nat) (outcome : FrameOutcome) : RouteState :=
  { state with
    world := outcome.world
    responses := match outcome.reply with
      | some frame => ⟨connection, state.owner state.clientSockfd, frame⟩ :: state.responses
      | none => state.responses }

/-- A thread closes its descriptor and ends. -/
def leave (state : RouteState) (thread : Nat) (sockfd : Int) : RouteState :=
  { state with
    srv := cvOamServerFreeClient state.srv sockfd
    isOpen := fun connection => state.isOpen connection && state.fd connection != sockfd
    stage := Function.update state.stage thread .ended }

end RouteState

/-- The steps of the server. -/
inductive RouteStep (order : ByteOrder) : RouteState → RouteAction → RouteState → Prop
  | accepted {state : RouteState} {fd : Int} (accepts : state.srv.Accepts) (positive : 0 < fd)
      (unused : ∀ connection, ¬ state.Serves fd connection) :
      RouteStep order state (.accept fd) (state.accept fd)
  | failed {state : RouteState} {result : Int} (accepts : state.srv.Accepts)
      (refused : result ≤ 0) :
      RouteStep order state (.acceptFails result)
        { state with clientSockfd := result, lastAccepted := none }
  | started {state : RouteState} {thread : Nat} (stage : state.stage thread = .created) :
      RouteStep order state (.start thread) (state.setStage thread (.running state.clientSockfd))
  | received {state : RouteState} {thread connection : Nat} {sockfd : Int} {string : RecvString}
      {outcome : FrameOutcome} (stage : state.stage thread = .running sockfd)
      (reads : state.owner sockfd = some connection)
      (processed : cvOamFrameProc order state.world string.buffer = .ok outcome) :
      RouteStep order state (.receive thread string) (state.answer connection outcome)
  | left {state : RouteState} {thread : Nat} {sockfd : Int}
      (stage : state.stage thread = .running sockfd) :
      RouteStep order state (.leave thread) (state.leave thread sockfd)

/-- The server as an action system. -/
def routeSystem (order : ByteOrder) : ActionSystem RouteAction where
  State := RouteState
  Initial state := ∃ world, state = .initial world
  Step := RouteStep order

namespace RouteState

/-- Every thread reads from the connection it was created for, and every reply went out on
the connection of its request. -/
structure Routed (state : RouteState) : Prop where
  reads : ∀ thread sockfd, state.stage thread = .running sockfd →
    state.owner sockfd = some thread
  replies : ∀ response ∈ state.responses, response.answered = some response.asked

/-- A thread starts, and a string that is answered arrives, only while the connection
accepted last is the thread's own. -/
def OwnIsLast (order : ByteOrder) (state : RouteState) : RouteAction → Prop
  | .start thread => state.stage thread = .created → state.lastAccepted = some thread
  | .receive thread string => Answered order string.bytes → state.lastAccepted = some thread
  | _ => True

/-- What the server keeps as long as its threads read where they should. -/
structure Wired (state : RouteState) : Prop where
  known : ∀ connection, state.isOpen connection = true →
    connection < state.accepted ∧ 0 < state.fd connection
  distinct : ∀ left right, state.isOpen left = true → state.isOpen right = true →
    state.fd left = state.fd right → left = right
  waiting : ∀ thread, state.stage thread = .created → state.isOpen thread = true
  absent : ∀ thread, state.accepted ≤ thread → state.stage thread = .absent
  last : ∀ connection, state.lastAccepted = some connection →
    state.clientSockfd = state.fd connection ∧
      ∀ other, state.Serves (state.fd connection) other → other = connection
  failed : state.lastAccepted = none → state.clientSockfd ≤ 0

variable {state next : RouteState} {action : RouteAction} {order : ByteOrder} {thread : Nat}
  {fd : Int}

/-- Descriptors in use belong to one connection. -/
theorem Wired.owner_eq_some_iff (wired : state.Wired) {connection : Nat} :
    state.owner fd = some connection ↔ state.Serves fd connection := by
  constructor
  · intro found
    simpa using List.find?_some found
  · intro serves
    cases found : state.owner fd with
    | none =>
        have nobody := List.find?_eq_none.1 found connection
          (List.mem_range.2 (wired.known connection serves.1).1)
        exact absurd serves (by simpa using nobody)
    | some other =>
        have also : state.Serves fd other := by simpa using List.find?_some found
        rw [wired.distinct other connection also.1 serves.1 (also.2.trans serves.2.symm)]

/-- The variable holds the descriptor of an open connection exactly if that was accepted
last. -/
theorem Wired.owner_clientSockfd_iff (wired : state.Wired) (isOpen : state.isOpen thread = true) :
    state.owner state.clientSockfd = some thread ↔ state.lastAccepted = some thread := by
  rw [wired.owner_eq_some_iff]
  cases last : state.lastAccepted with
  | none =>
      refine iff_of_false (fun serves => ?_) (by simp)
      have refused := wired.failed last
      have positive := (wired.known thread isOpen).2
      rw [serves.2] at positive
      omega
  | some connection =>
      obtain ⟨holds, only⟩ := wired.last connection last
      rw [holds, Option.some.injEq]
      constructor
      · exact fun serves => (only thread serves).symm
      · rintro rfl
        exact ⟨isOpen, rfl⟩

/-- The next connection is not open yet. -/
theorem Wired.accepted_closed (wired : state.Wired) : state.isOpen state.accepted = false := by
  rw [Bool.eq_false_iff]
  exact fun isOpen => Nat.lt_irrefl _ (wired.known _ isOpen).1

/-- Who owns which descriptor after a connection was accepted. -/
theorem Wired.serves_accept_iff (wired : state.Wired) {other : Int} {connection : Nat} :
    (state.accept fd).Serves other connection ↔
      connection = state.accepted ∧ other = fd ∨ state.Serves other connection := by
  by_cases new : connection = state.accepted
  · subst new
    simp [Serves, accept, wired.accepted_closed, eq_comm]
  · simp [Serves, accept, new]

/-- A new connection is served by a thread of its own. -/
theorem Wired.accept (wired : state.Wired) (unused : ∀ connection, ¬ state.Serves fd connection)
    (positive : 0 < fd) : (state.accept fd).Wired where
  known := by
    intro connection isOpen
    have serves : (state.accept fd).Serves ((state.accept fd).fd connection) connection :=
      ⟨isOpen, rfl⟩
    rcases (wired.serves_accept_iff).1 serves with ⟨rfl, same⟩ | ⟨earlier, same⟩
    · rw [same]
      exact ⟨Nat.lt_succ_self _, positive⟩
    · rw [← same]
      exact ⟨Nat.lt_succ_of_lt (wired.known connection earlier).1, (wired.known connection earlier).2⟩
  distinct := by
    intro left right leftOpen rightOpen same
    have serves : (state.accept fd).Serves ((state.accept fd).fd left) left := ⟨leftOpen, rfl⟩
    have also : (state.accept fd).Serves ((state.accept fd).fd left) right := ⟨rightOpen, same.symm⟩
    rcases (wired.serves_accept_iff).1 serves with ⟨rfl, new⟩ | earlier <;>
      rcases (wired.serves_accept_iff).1 also with ⟨rfl, new'⟩ | earlier'
    · rfl
    · exact absurd (new ▸ earlier') (unused right)
    · exact absurd (new' ▸ earlier) (unused left)
    · exact wired.distinct left right earlier.1 earlier'.1 (earlier.2.trans earlier'.2.symm)
  waiting := by
    intro thread created
    by_cases new : thread = state.accepted
    · subst new
      simp [RouteState.accept]
    · have before : state.stage thread = .created := by
        simpa [RouteState.accept, Function.update_of_ne new] using created
      simpa [RouteState.accept, Function.update_of_ne new] using wired.waiting thread before
  absent := by
    intro thread later
    have old : thread ≠ state.accepted := Nat.ne_of_gt later
    simpa [RouteState.accept, Function.update_of_ne old] using
      wired.absent thread (Nat.le_of_succ_le later)
  last := by
    intro connection last
    obtain rfl : state.accepted = connection := Option.some.inj last
    have holds : (state.accept fd).fd state.accepted = fd := Function.update_self ..
    refine ⟨holds.symm, fun other serves => ?_⟩
    rw [holds, wired.serves_accept_iff] at serves
    exact (serves.resolve_right (unused other)).1
  failed := nofun

/-- After a thread has closed its descriptor, the others keep theirs. -/
theorem serves_leave_iff {sockfd other : Int} {connection : Nat} :
    (state.leave thread sockfd).Serves other connection ↔
      other ≠ sockfd ∧ state.Serves other connection := by
  simp only [Serves, leave, Bool.and_eq_true, bne_iff_ne, ne_eq]
  constructor
  · rintro ⟨⟨isOpen, different⟩, rfl⟩
    exact ⟨different, isOpen, rfl⟩
  · rintro ⟨different, isOpen, rfl⟩
    exact ⟨⟨isOpen, different⟩, rfl⟩

/-- A thread that leaves closes its connection. -/
theorem Wired.leave (wired : state.Wired) {sockfd : Int}
    (stage : state.stage thread = .running sockfd) (own : state.Serves sockfd thread) :
    (state.leave thread sockfd).Wired := by
  have earlier : ∀ connection, (state.leave thread sockfd).isOpen connection = true →
      state.isOpen connection = true ∧ state.fd connection ≠ sockfd := by
    intro connection isOpen
    simpa [RouteState.leave] using isOpen
  constructor
  · exact fun connection isOpen => wired.known connection (earlier connection isOpen).1
  · exact fun left right leftOpen rightOpen same =>
      wired.distinct left right (earlier left leftOpen).1 (earlier right rightOpen).1 same
  · intro other created
    have notSelf : other ≠ thread := by
      rintro rfl
      simp [RouteState.leave] at created
    have before : state.stage other = .created := by
      simpa [RouteState.leave, Function.update_of_ne notSelf] using created
    have isOpen := wired.waiting other before
    have different : state.fd other ≠ sockfd := fun same =>
      notSelf (wired.distinct other thread isOpen own.1 (same.trans own.2.symm))
    simp [RouteState.leave, isOpen, different]
  · intro other later
    have notSelf : other ≠ thread := by
      rintro rfl
      rw [wired.absent _ later] at stage
      cases stage
    simpa [RouteState.leave, Function.update_of_ne notSelf] using wired.absent other later
  · intro connection last
    obtain ⟨holds, only⟩ := wired.last connection last
    exact ⟨holds, fun other serves => only other (serves_leave_iff.1 serves).2⟩
  · exact wired.failed

/-- A thread that moves on without having been created anew. -/
theorem Wired.setStage (wired : state.Wired) {stage : RxStage} (known : state.stage thread ≠ .absent)
    (other : stage ≠ .created) : (state.setStage thread stage).Wired where
  known := wired.known
  distinct := wired.distinct
  waiting := by
    intro waiting created
    by_cases same : waiting = thread
    · subst same
      exact absurd (by simpa [RouteState.setStage] using created) other
    · exact wired.waiting waiting
        (by simpa [RouteState.setStage, Function.update_of_ne same] using created)
  absent := by
    intro later outside
    have notSelf : later ≠ thread := by
      rintro rfl
      exact known (wired.absent _ outside)
    simpa [RouteState.setStage, Function.update_of_ne notSelf] using wired.absent later outside
  last := wired.last
  failed := wired.failed

/-- One step keeps the descriptors in order as long as the threads read where they should. -/
theorem Wired.step (wired : state.Wired) (routed : state.Routed)
    (step : RouteStep order state action next) : next.Wired := by
  cases step with
  | accepted accepts positive unused => exact wired.accept unused positive
  | failed accepts refused =>
      exact ⟨wired.known, wired.distinct, wired.waiting, wired.absent, nofun, fun _ => refused⟩
  | started stage => exact wired.setStage (by simp [stage]) nofun
  | received stage reads processed =>
      exact ⟨wired.known, wired.distinct, wired.waiting, wired.absent, wired.last, wired.failed⟩
  | left stage =>
      exact wired.leave stage (wired.owner_eq_some_iff.1 (routed.reads _ _ stage))

/-- A thread that starts reads from its own connection exactly if that was accepted last. -/
theorem Wired.routed_start_iff (wired : state.Wired) (routed : state.Routed)
    (stage : state.stage thread = .created) :
    (state.setStage thread (.running state.clientSockfd)).Routed ↔
      state.lastAccepted = some thread := by
  rw [← wired.owner_clientSockfd_iff (wired.waiting thread stage)]
  constructor
  · exact fun next => next.reads thread state.clientSockfd (by simp [RouteState.setStage])
  · intro own
    refine ⟨fun other sockfd running => ?_, routed.replies⟩
    by_cases same : other = thread
    · subst same
      obtain rfl : state.clientSockfd = sockfd := by simpa [RouteState.setStage] using running
      exact own
    · exact routed.reads other sockfd
        (by simpa [RouteState.setStage, Function.update_of_ne same] using running)

/-- A reply goes out on the connection of its request exactly if that was accepted last. -/
theorem Wired.routed_answer_iff (wired : state.Wired) (routed : state.Routed)
    (isOpen : state.isOpen thread = true) (outcome : FrameOutcome) :
    (state.answer thread outcome).Routed ↔
      (outcome.reply.isSome → state.lastAccepted = some thread) := by
  rw [← wired.owner_clientSockfd_iff isOpen]
  cases reply : outcome.reply with
  | none =>
      have same : (state.answer thread outcome).responses = state.responses := by
        simp [answer, reply]
      exact iff_of_true ⟨routed.reads, same ▸ routed.replies⟩ nofun
  | some frame =>
      have longer : (state.answer thread outcome).responses =
          ⟨thread, state.owner state.clientSockfd, frame⟩ :: state.responses := by
        simp [answer, reply]
      constructor
      · intro next _
        have sent := next.replies
        rw [longer] at sent
        exact sent _ (List.mem_cons_self ..)
      · intro own
        refine ⟨routed.reads, ?_⟩
        rw [longer]
        intro response member
        rcases List.mem_cons.1 member with rfl | earlier
        · exact own rfl
        · exact routed.replies response earlier

/-- Accepting a connection disturbs no thread. -/
theorem Wired.routed_accept (wired : state.Wired) (routed : state.Routed)
    (unused : ∀ connection, ¬ state.Serves fd connection) (positive : 0 < fd) :
    (state.accept fd).Routed where
  reads := by
    intro thread sockfd running
    have old : thread ≠ state.accepted := by
      rintro rfl
      simp [RouteState.accept] at running
    have before := routed.reads thread sockfd
      (by simpa [RouteState.accept, Function.update_of_ne old] using running)
    rw [(wired.accept unused positive).owner_eq_some_iff, wired.serves_accept_iff]
    exact .inr (wired.owner_eq_some_iff.1 before)
  replies := routed.replies

/-- Neither does a thread that ends. -/
theorem Wired.routed_leave (wired : state.Wired) (routed : state.Routed) {sockfd : Int}
    (stage : state.stage thread = .running sockfd) : (state.leave thread sockfd).Routed where
  reads := by
    intro other read running
    have own := wired.owner_eq_some_iff.1 (routed.reads thread sockfd stage)
    have notSelf : other ≠ thread := by
      rintro rfl
      simp [RouteState.leave] at running
    have serves := wired.owner_eq_some_iff.1 (routed.reads other read
      (by simpa [RouteState.leave, Function.update_of_ne notSelf] using running))
    have different : read ≠ sockfd := by
      rintro rfl
      exact notSelf (wired.distinct other thread serves.1 own.1 (serves.2.trans own.2.symm))
    rw [(wired.leave stage own).owner_eq_some_iff, serves_leave_iff]
    exact ⟨different, serves⟩
  replies := routed.replies

/-- One step on threads in order: they stay so exactly in the stated circumstances. -/
theorem Wired.routed_step_iff (wired : state.Wired) (routed : state.Routed)
    (step : RouteStep order state action next) : next.Routed ↔ OwnIsLast order state action := by
  cases step with
  | accepted accepts positive unused =>
      exact iff_of_true (wired.routed_accept routed unused positive) trivial
  | failed accepts refused => exact iff_of_true ⟨routed.reads, routed.replies⟩ trivial
  | started stage =>
      rw [wired.routed_start_iff routed stage]
      exact ⟨fun own _ => own, fun own => own stage⟩
  | @received thread connection sockfd string outcome stage reads processed =>
      obtain rfl : thread = connection :=
        Option.some.inj ((routed.reads thread sockfd stage).symm.trans reads)
      have isOpen := (wired.owner_eq_some_iff.1 reads).1
      obtain ⟨also, same, answered⟩ := frameProc_reply order state.world string
      obtain rfl : outcome = also := Except.ok.inj (processed.symm.trans same)
      rw [wired.routed_answer_iff routed isOpen, answered]
      exact Iff.rfl
  | left stage => exact iff_of_true (wired.routed_leave routed stage) trivial

theorem initial_wired (world : OamWorld) : (initial world).Wired := by
  constructor <;> simp [initial]

theorem initial_routed (world : OamWorld) : (initial world).Routed := by
  constructor <;> simp [initial]

/-- In a run of the server every thread reads from its own connection and every reply goes
out on the connection of its request, exactly if whenever a thread starts or receives a
string that is answered the connection accepted last is its own. -/
theorem replies_routed_iff (order : ByteOrder) (world : OamWorld) {finish : RouteState}
    (path : (routeSystem order).Path (RouteState.initial world) finish) :
    path.Always Routed ↔ path.StepsMeet (OwnIsLast order) :=
  path.always_iff_stepsMeet (initial_wired world) (initial_routed world)
    (fun wired routed step _ => Wired.step wired routed step)
    (fun wired routed step => Wired.routed_step_iff wired routed step)

section TwoClients

/-- A request for the configuration. -/
def cfgGetString : RecvString where
  bytes := [0, 2, 0, 1] ++ List.replicate 12 0 ++ [0, 0, 0, 12] ++ List.replicate 12 0
  nonempty := by decide
  fits := by decide

/-- A first client whose thread has started, and a second one. -/
def twoClients (world : OamWorld) : RouteState :=
  (((initial world).accept 5).setStage 0 (.running 5)).accept 6

/-- The second client may get its descriptor. -/
theorem six_unused (world : OamWorld) (connection : Nat) :
    ¬ (((initial world).accept 5).setStage 0 (.running 5)).Serves 6 connection := by
  rintro ⟨-, same⟩
  by_cases first : connection = 0
  · subst first
    simp [setStage, accept, initial] at same
  · simp [setStage, accept, initial, Function.update_of_ne first] at same

/-- The second client connects after the thread of the first has started. -/
def twoClientsPath (world : OamWorld) :
    (routeSystem .little).Path (initial world) (twoClients world) :=
  @ActionSystem.Path.snoc _ (routeSystem .little) _ _
    (@ActionSystem.Path.snoc _ (routeSystem .little) _ _
      (@ActionSystem.Path.snoc _ (routeSystem .little) _ _ .nil (.accept 5) _
        (@RouteStep.accepted _ (initial world) 5 (Nat.zero_le _) (by decide)
          (fun _ => by simp [Serves, initial])))
      (.start 0) _ (@RouteStep.started _ ((initial world).accept 5) 0 rfl))
    (.accept 6) _ (@RouteStep.accepted _ (((initial world).accept 5).setStage 0 (.running 5)) 6
      (Nat.le_add_left 1 9) (by decide) (six_unused world))

/-- The reply to the first client is sent to the second one. -/
theorem exists_misrouted (world : OamWorld) :
    ∃ (finish : RouteState) (path : (routeSystem .little).Path (initial world) finish),
      ¬ path.Always Routed := by
  obtain ⟨outcome, processed, sent⟩ := frameProc_reply .little world cfgGetString
  have answered : Answered .little cfgGetString.bytes := by
    refine ⟨by unfold IsRequest; decide, by decide, by decide⟩
  obtain ⟨frame, reply⟩ := Option.isSome_iff_exists.1 (sent.2 answered)
  have step : RouteStep .little (twoClients world) (.receive 0 cfgGetString)
      ((twoClients world).answer 0 outcome) :=
    .received (rfl : _ = RxStage.running 5) rfl processed
  refine ⟨_, (twoClientsPath world).snoc _ _ step, fun always => ?_⟩
  have logged : ⟨0, some 1, frame⟩ ∈ ((twoClients world).answer 0 outcome).responses := by
    have owner : (twoClients world).owner (twoClients world).clientSockfd = some 1 := rfl
    simp [answer, reply, owner]
  have misrouted := always.last.replies _ logged
  cases misrouted

/-- The vehicle module as it is after `vam_init`. -/
def defaultWorld : OamWorld where
  vam := Vam.vamInit ⟨id, id⟩ Vam.loadDefaultParam Vam.loadDefaultPid fun _ => true
  padding := 0
  dbgPrintType := 0

/-- The reply to one client is sent to another one. -/
theorem reply_sent_to_other_client :
    ∃ (finish : RouteState) (path : (routeSystem .little).Path (initial defaultWorld) finish),
      ¬ path.Always Routed :=
  exists_misrouted defaultWorld

end TwoClients

end RouteState

end Rsu.Oam
