import Mathlib.Data.List.Perm.Basic
import Rsu.Semantics.ActionSystem

/-!
# The client table of the management server

`cv_oam_server_add_client` looks for an entry that is not valid and never marks the one it
takes; `cv_oam_server_free_client` clears valid entries only. So the first entry is taken
again and again, and the count only grows.
-/

namespace Rsu.Oam

/-- `OAM_MAX_CLIENT_NUM` -/
def oamMaxClientNum : Nat := 10

/-- The fields of `oam_client_t` that are read. -/
structure OamClient where
  valid : BitVec 8
  sockFd : Int
  deriving DecidableEq

/-- `oam_server_t` without the listening socket. -/
structure OamServer where
  client : List OamClient
  clientCnt : BitVec 32

/-- An entry after `memset`. -/
def OamClient.zero : OamClient := ⟨0, 0⟩

/-- `cv_oam_server_init` -/
def cvOamServerInit : OamServer where
  client := List.replicate oamMaxClientNum .zero
  clientCnt := 0

/-- The loop of `cv_oam_server_free_client`: the entries and how many were cleared. -/
def freeClient (clientfd : Int) : List OamClient → List OamClient × Nat
  | [] => ([], 0)
  | client :: rest =>
      let (freed, count) := freeClient clientfd rest
      if client.valid = 1 ∧ client.sockFd = clientfd then (⟨0, -1⟩ :: freed, count + 1)
      else (client :: freed, count)

/-- `cv_oam_server_free_client` -/
def cvOamServerFreeClient (srv : OamServer) (clientfd : Int) : OamServer where
  client := (freeClient clientfd srv.client).1
  clientCnt := srv.clientCnt - BitVec.ofNat 32 (freeClient clientfd srv.client).2

/-- The loop of `cv_oam_server_add_client`: the entries, and whether one was taken. -/
def addClient (clientfd : Int) : List OamClient → List OamClient × Bool
  | [] => ([], false)
  | client :: rest =>
      if client.sockFd = clientfd then (client :: rest, false)
      else if client.valid = 0 then ({ client with sockFd := clientfd } :: rest, true)
      else
        let (added, taken) := addClient clientfd rest
        (client :: added, taken)

/-- `cv_oam_server_add_client` -/
def cvOamServerAddClient (srv : OamServer) (clientfd : Int) : OamServer where
  client := (addClient clientfd srv.client).1
  clientCnt := if (addClient clientfd srv.client).2 then srv.clientCnt + 1 else srv.clientCnt

/-- The loop of `cv_oam_proc_thread` gets to `accept`. -/
def OamServer.Accepts (srv : OamServer) : Prop := srv.clientCnt.toNat ≤ oamMaxClientNum

/-- The descriptors in the entries marked valid. -/
def OamServer.validFds (srv : OamServer) : List Int :=
  (srv.client.filter fun client => client.valid = 1).map OamClient.sockFd

/-- A connection begins or ends. -/
inductive ClientAction where
  | connect (fd : Int)
  | disconnect (fd : Int)

/-- The server and the descriptors of the live connections. -/
structure ClientState where
  srv : OamServer
  live : List Int

/-- No connection yet. -/
def ClientState.initial : ClientState := ⟨cvOamServerInit, []⟩

/-- The connections as seen by the server. The kernel hands out descriptors that are not in
use. -/
inductive ClientStep : ClientState → ClientAction → ClientState → Prop
  | connected {state : ClientState} {fd : Int} (accepts : state.srv.Accepts) (positive : 0 < fd)
      (unused : fd ∉ state.live) :
      ClientStep state (.connect fd) ⟨cvOamServerAddClient state.srv fd, fd :: state.live⟩
  | disconnected {state : ClientState} {fd : Int} (live : fd ∈ state.live) :
      ClientStep state (.disconnect fd)
        ⟨cvOamServerFreeClient state.srv fd, state.live.erase fd⟩

/-- The connections as an action system. -/
def clientSystem : ActionSystem ClientAction where
  State := ClientState
  Initial state := state = .initial
  Step := ClientStep

namespace ClientState

/-- The table and the count describe the live connections, and their number is limited. -/
structure Accounted (state : ClientState) : Prop where
  count : state.srv.clientCnt.toNat = state.live.length
  valid : state.srv.validFds.Perm state.live
  accepts : state.live.length < oamMaxClientNum → state.srv.Accepts
  bounded : state.live.length ≤ oamMaxClientNum

/-- The count is right. -/
def Counted (state : ClientState) : Prop := state.srv.clientCnt.toNat = state.live.length

/-- Only the first entry was ever taken, and it is not marked. -/
def FirstOnly (state : ClientState) (last : Int) : Prop :=
  state.srv.client = ⟨0, last⟩ :: List.replicate 9 .zero

/-- No other entry was ever taken. -/
def Unmarked (state : ClientState) : Prop := ∃ last, state.FirstOnly last

end ClientState

/-- Without a valid entry nothing is cleared. -/
theorem freeClient_of_unmarked {clientfd : Int} {clients : List OamClient}
    (unmarked : ∀ client ∈ clients, client.valid ≠ 1) :
    freeClient clientfd clients = (clients, 0) := by
  induction clients with
  | nil => rfl
  | cons client rest inductionHypothesis =>
      have later := inductionHypothesis fun other member => unmarked other (List.mem_cons_of_mem _ member)
      have first := unmarked client (List.mem_cons_self ..)
      have skipped : ¬ (client.valid = 1 ∧ client.sockFd = clientfd) := fun both => first both.1
      simp only [freeClient, later, if_neg skipped]

namespace ClientState

variable {state next : ClientState} {action : ClientAction} {last fd : Int}

/-- No client is marked. -/
theorem FirstOnly.unmarked (only : state.FirstOnly last) :
    ∀ client ∈ state.srv.client, client.valid ≠ 1 := by
  rw [FirstOnly] at only
  rw [only]
  intro client member
  have marked : client.valid = 0 := by
    rcases List.mem_cons.1 member with rfl | zero
    · rfl
    · rw [List.eq_of_mem_replicate zero]
      rfl
  rw [marked]
  decide

/-- No entry is marked valid. -/
theorem FirstOnly.validFds (only : state.FirstOnly last) : state.srv.validFds = [] := by
  have none : state.srv.client.filter (fun client => client.valid = 1) = [] := by
    rw [List.filter_eq_nil_iff]
    simpa using only.unmarked
  rw [OamServer.validFds, none]
  rfl

/-- A client that leaves changes nothing. -/
theorem FirstOnly.free (only : state.FirstOnly last) (clientfd : Int) :
    cvOamServerFreeClient state.srv clientfd = state.srv := by
  rw [cvOamServerFreeClient, freeClient_of_unmarked only.unmarked]
  simp

/-- A client that comes takes the first entry. -/
theorem FirstOnly.add_client (only : state.FirstOnly last) (clientfd : Int) :
    (cvOamServerAddClient state.srv clientfd).client = ⟨0, clientfd⟩ :: List.replicate 9 .zero := by
  rw [FirstOnly] at only
  by_cases same : last = clientfd
  · subst same
    simp [cvOamServerAddClient, only, addClient]
  · simp [cvOamServerAddClient, only, addClient, same]

/-- It is counted unless its descriptor is the one in the first entry. -/
theorem FirstOnly.add_clientCnt (only : state.FirstOnly last) (clientfd : Int)
    (accepts : state.srv.Accepts) :
    (cvOamServerAddClient state.srv clientfd).clientCnt.toNat =
      if last = clientfd then state.srv.clientCnt.toNat else state.srv.clientCnt.toNat + 1 := by
  rw [FirstOnly] at only
  have small : state.srv.clientCnt.toNat ≤ 10 := accepts
  by_cases same : last = clientfd
  · simp [cvOamServerAddClient, only, addClient, same]
  · have one : (1 : BitVec 32).toNat = 1 := rfl
    simp only [cvOamServerAddClient, only, addClient, same, if_false, if_true, BitVec.toNat_add, one]
    omega

theorem initial_firstOnly : initial.FirstOnly 0 := rfl

/-- Whatever happens, only the first entry is ever taken. -/
theorem Unmarked.step (unmarked : state.Unmarked) (step : ClientStep state action next) :
    next.Unmarked := by
  obtain ⟨last, only⟩ := unmarked
  cases step with
  | @connected fd accepts positive unused => exact ⟨fd, only.add_client fd⟩
  | @disconnected fd live =>
      refine ⟨last, ?_⟩
      rw [FirstOnly, only.free]
      exact only

/-- The table and the count describe the connections of a run exactly if there are none. -/
theorem clients_accounted_iff {finish : ClientState}
    (path : clientSystem.Path ClientState.initial finish) :
    path.Always Accounted ↔ path.StepsMeet fun _ action => ∀ fd, action ≠ .connect fd := by
  have start : initial.Accounted := ⟨rfl, .refl _, fun _ => Nat.zero_le _, Nat.zero_le _⟩
  have unmarked : initial.Unmarked := ⟨0, initial_firstOnly⟩
  apply path.always_iff_stepsMeet unmarked start
  · exact fun unmarked _ step _ => Unmarked.step unmarked step
  · rintro state action next ⟨last, only⟩ accounted step
    cases step with
    | @connected fd accepts positive unused =>
        refine iff_of_false (fun accounted => ?_) fun none => none fd rfl
        have taken : FirstOnly ⟨cvOamServerAddClient state.srv fd, fd :: state.live⟩ fd :=
          only.add_client fd
        have perm := accounted.valid
        rw [taken.validFds] at perm
        exact absurd perm.nil_eq.symm (List.cons_ne_nil _ _)
    | @disconnected fd live =>
        have perm := accounted.valid
        rw [only.validFds] at perm
        rw [← perm.nil_eq] at live
        exact absurd live List.not_mem_nil

/-- The first entry holds the descriptor of a live connection, once there was one. -/
structure Recent (state : ClientState) (last : Int) : Prop where
  only : state.FirstOnly last
  positive : ∀ fd ∈ state.live, 0 < fd
  held : last = 0 ∨ last ∈ state.live

/-- Some entry is the last one that was taken. -/
def SomeRecent (state : ClientState) : Prop := ∃ last, state.Recent last

/-- As long as nobody leaves, a new descriptor is not the one in the first entry. -/
theorem Recent.apart (recent : state.Recent last) (positive : 0 < fd) (unused : fd ∉ state.live) :
    last ≠ fd := by
  rintro rfl
  rcases recent.held with rfl | member
  · exact absurd positive (Int.lt_irrefl 0)
  · exact unused member

/-- The count is right in a run exactly if nobody leaves. -/
theorem count_right_iff {finish : ClientState}
    (path : clientSystem.Path ClientState.initial finish) :
    path.Always Counted ↔ path.StepsMeet fun _ action => ∀ fd, action ≠ .disconnect fd := by
  have recent : initial.SomeRecent := ⟨0, initial_firstOnly, by simp [initial], .inl rfl⟩
  apply path.always_iff_stepsMeet recent (rfl : initial.Counted)
  · rintro state action next ⟨last, recent⟩ counted step stays
    cases step with
    | @connected fd accepts positive unused =>
        refine ⟨fd, recent.only.add_client fd, ?_, .inr (List.mem_cons_self ..)⟩
        intro other member
        rcases List.mem_cons.1 member with rfl | earlier
        · exact positive
        · exact recent.positive other earlier
    | @disconnected fd live => exact absurd rfl (stays fd)
  · rintro state action next ⟨last, recent⟩ counted step
    cases step with
    | @connected fd accepts positive unused =>
        refine iff_of_true ?_ fun other => nofun
        rw [Counted, recent.only.add_clientCnt fd accepts, if_neg (recent.apart positive unused),
          List.length_cons, counted]
    | @disconnected fd live =>
        refine iff_of_false (fun counted' => ?_) fun stays => stays fd rfl
        have shorter : (state.live.erase fd).length + 1 = state.live.length :=
          List.length_erase_add_one live
        rw [Counted, recent.only.free] at counted'
        have same : state.live.length = (state.live.erase fd).length := counted.symm.trans counted'
        omega

/-- A server that has stopped accepting never accepts again. -/
theorem refuses_forever {start finish : ClientState} (path : clientSystem.Path start finish)
    (unmarked : start.Unmarked) (refuses : ¬ start.srv.Accepts) :
    path.Always fun state : ClientState => ¬ state.srv.Accepts := by
  have both : path.Always fun state : ClientState => state.Unmarked ∧ ¬ state.srv.Accepts := by
    apply path.always_of_invariant ⟨unmarked, refuses⟩
    rintro state action next ⟨unmarked, refuses⟩ step
    refine ⟨unmarked.step step, ?_⟩
    obtain ⟨last, only⟩ := unmarked
    cases step with
    | connected accepts positive unused => exact absurd accepts refuses
    | disconnected live =>
        rw [only.free]
        exact refuses
  exact both.mono fun _ holds => holds.2

/-- Connections that come and go with two descriptors in turn use up the count. -/
theorem exists_run_with_count {count : Nat} (bounded : count ≤ oamMaxClientNum + 1) :
    ∃ (finish : ClientState) (last : Int), Nonempty (clientSystem.Path initial finish) ∧
      finish.FirstOnly last ∧ finish.live = [] ∧ finish.srv.clientCnt.toNat = count := by
  induction count with
  | zero => exact ⟨initial, 0, ⟨.nil⟩, initial_firstOnly, rfl, rfl⟩
  | succ count inductionHypothesis =>
      obtain ⟨state, last, ⟨path⟩, only, nobody, counted⟩ := inductionHypothesis (by omega)
      obtain ⟨fd, positive, apart⟩ : ∃ fd : Int, 0 < fd ∧ last ≠ fd := by
        by_cases five : last = 5
        · exact ⟨6, by decide, by omega⟩
        · exact ⟨5, by decide, five⟩
      have accepts : state.srv.Accepts := by
        rw [OamServer.Accepts, counted]
        omega
      have connected : ClientStep state (.connect fd) ⟨cvOamServerAddClient state.srv fd, [fd]⟩ := by
        have step : ClientStep state (.connect fd) _ :=
          .connected accepts positive (by simp [nobody])
        rwa [nobody] at step
      have taken : FirstOnly ⟨cvOamServerAddClient state.srv fd, [fd]⟩ fd := only.add_client fd
      have left : ClientStep ⟨cvOamServerAddClient state.srv fd, [fd]⟩ (.disconnect fd)
          ⟨cvOamServerAddClient state.srv fd, []⟩ := by
        have step : ClientStep ⟨cvOamServerAddClient state.srv fd, [fd]⟩ (.disconnect fd) _ :=
          .disconnected (List.mem_singleton_self fd)
        simpa [taken.free] using step
      refine ⟨_, fd, ⟨(path.snoc _ _ connected).snoc _ _ left⟩, taken, rfl, ?_⟩
      change (cvOamServerAddClient state.srv fd).clientCnt.toNat = count + 1
      rw [only.add_clientCnt fd accepts, if_neg apart, counted]

/-- After eleven connections that have all ended the server takes no other one. -/
theorem empty_server_refuses :
    ∃ (finish : ClientState) (path : clientSystem.Path initial finish),
      finish.live = [] ∧ ¬ finish.srv.Accepts ∧ ¬ path.Always Accounted := by
  obtain ⟨finish, -, ⟨path⟩, -, nobody, counted⟩ := exists_run_with_count (Nat.le_refl _)
  have refuses : ¬ finish.srv.Accepts := by
    rw [OamServer.Accepts, counted]
    decide
  refine ⟨finish, path, nobody, refuses, fun always => ?_⟩
  have few : finish.live.length < oamMaxClientNum := by
    rw [nobody]
    decide
  exact refuses (always.last.accepts few)

end ClientState

end Rsu.Oam
