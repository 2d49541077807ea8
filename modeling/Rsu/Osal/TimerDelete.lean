import Rsu.Osal.TimerThreads

/-!
# Deletion and the callback in progress

`__timer_delete` waits while the thread of the timer has it as its `current_timer`, but only if the
timer is armed. A stop clears `armed` while the callback runs, and then a deletion does not wait.
After a wait the node is deleted without another look: its callback may have deleted it, and
`os_timer_add` may have given it to another thread.

A timer is a node with the number of the `os_timer_add` that filled it. `live` says which timer is
in a node and which thread serves it; that is all the proofs need of the module.
-/

namespace Rsu.Osal

namespace TimerModule

/-- The timer in a node, with its thread. -/
def live (m : TimerModule) (id : TimerId) : Option (Nat × ThreadId) :=
  if (m.timer id).inuse = .inuse then
    (m.timer id).thread.map fun t => ((m.timer id).event, t)
  else none

section Live

variable {m next : TimerModule} {id : TimerId} {t : ThreadId} {event : Nat}
  {write : TimerNode → TimerNode}

/-- A live timer is in use and has its event and its thread. -/
theorem live_eq_some : m.live id = some (event, t) ↔ (m.timer id).inuse = .inuse ∧
    (m.timer id).event = event ∧ (m.timer id).thread = some t := by
  unfold live
  split
  next inUse => simp [inUse, Option.map_eq_some_iff, and_comm]
  next unused => simp [unused]

/-- What is not in use is not live. -/
theorem live_eq_none_of_unused (unused : (m.timer id).inuse ≠ .inuse) : m.live id = none :=
  if_neg unused

/-- A valid node has a timer and a thread. -/
theorem SoundBut.exists_live (sound : m.Sound) (valid : m.valid id = true) :
    ∃ t, m.live id = some ((m.timer id).event, t) := by
  obtain ⟨t, thread, _⟩ := sound.exists_thread valid
  exact ⟨t, live_eq_some.2 ⟨of_decide_eq_true valid, rfl, thread⟩⟩

/-- A live timer is valid. -/
theorem valid_of_live (found : m.live id = some (event, t)) : m.valid id = true :=
  decide_eq_true (live_eq_some.1 found).1

/-- A function about one timer changes no other. -/
theorem Spares.live_eq (spares : m.Spares next id) :
    next.live = Function.update m.live id (next.live id) := by
  funext other
  by_cases same : other = id
  · rw [same, Function.update_self]
  · rw [Function.update_of_ne same]
    unfold live
    rw [spares.timer same]

/-- What keeps the use, the event and the thread of its timer keeps the live timers. -/
theorem Spares.live_of_same (spares : m.Spares next id)
    (inuse : (next.timer id).inuse = (m.timer id).inuse)
    (event : (next.timer id).event = (m.timer id).event)
    (thread : (next.timer id).thread = (m.timer id).thread) : next.live = m.live := by
  have own : next.live id = m.live id := by
    unfold live
    rw [inuse, event, thread]
  rw [spares.live_eq, own, Function.update_eq_self]

/-- A deleted timer is not live any more. -/
theorem live_timerDelete : (m.timerDelete id).live = Function.update m.live id none := by
  rw [Spares.live_eq .timerDelete, live_eq_none_of_unused timerDelete_inuse]

/-- Setting the rate keeps the live timers. -/
theorem SoundBut.live_timerSettime (sound : m.Sound) {abstime : Bool} {value : Itimerspec}
    {now : Timespec} : (m.timerSettime id abstime value now).live = m.live := by
  cases valid : m.valid id with
  | true =>
      have written : (m.timerSettime id abstime value now).timer id =
          rated abstime value now (m.timer id) := sound.timerSettime_timer valid
      obtain ⟨inuse, event, thread, _⟩ :=
        (rated_modest : TimerNode.Modest (rated abstime value now)) (m.timer id)
      apply sound.spares_timerSettime.live_of_same <;> rwa [written]
  | false =>
      have still : ((m.timerSettime id abstime value now).timer id).inuse ≠ .inuse :=
        of_decide_eq_false (sound.timerSettime_valid.trans valid)
      rw [sound.spares_timerSettime.live_eq, live_eq_none_of_unused still,
        ← live_eq_none_of_unused (of_decide_eq_false valid), Function.update_eq_self]

theorem live_setTimer (modest : TimerNode.Modest write) :
    (m.setTimer id write).live = m.live := by
  obtain ⟨inuse, event, thread, _⟩ := modest (m.timer id)
  apply Spares.live_of_same .setTimer <;> rwa [setTimer_timer_self]

theorem live_requeue {rearmed : Timespec × Nat} : (m.requeue t id rearmed).live = m.live := by
  apply Spares.live_of_same .requeue <;> rw [requeue_timer] <;> split <;> rfl

end Live

end TimerModule

/-! ### Specification -/

/-- The thread has taken this timer and is about to call its callback, or runs it. -/
def ThreadPlace.Serves (place : ThreadPlace) (id : TimerId) (event : Nat) : Prop :=
  match place with
  | .waiting => False
  | .calling taken => taken.id = id ∧ taken.event = event
  | .running taken called => taken.id = id ∧ (taken.event = event ∨ called = event)

/-- A thread serves the timer it has taken. -/
theorem ThreadPlace.serves_of_taken {place : ThreadPlace} {taken : Taken}
    (busy : place.taken = some taken) : place.Serves taken.id taken.event := by
  cases place with
  | waiting => cases busy
  | calling other =>
      cases busy
      exact ⟨rfl, rfl⟩
  | running other called =>
      cases busy
      exact ⟨rfl, .inl rfl⟩

namespace TimerState

/-- A thread that took this timer still has the node as its `current_timer`. A thread that took
another timer does not count, whatever its node was before. -/
def Holds (state : TimerState) (t : ThreadId) (id : TimerId) (event : Nat) : Prop :=
  (state.timers.thread t).currentTimer = some id ∧
    ∃ taken, (state.place t).taken = some taken ∧ taken.event = event

/-- The callback of a timer whose deletion has returned to another thread than its own neither runs
nor is called, and no thread still holds the node. -/
def Quiescent (state : TimerState) : Prop :=
  ∀ id event, (id, event) ∈ state.deleted → ∀ t,
    ¬ (state.place t).Serves id event ∧ ¬ state.Holds t id event

/-- The callback of the timer in a node is in progress. -/
def InProgress (state : TimerState) (id : TimerId) : Prop :=
  ∃ t, (state.place t).Serves id (state.timers.timer id).event

/-- Another thread deletes only an armed timer or one whose callback is not in progress, and so does
a deletion that has waited if it finds another timer in the node. -/
def DeletesIdle (state : TimerState) : TimerAction → Prop
  | .del c id => state.timers.valid id = true → ¬ state.Own c id →
      (state.timers.timer id).armed = true ∨ ¬ state.InProgress id
  | .resume c => ∀ id event t, state.call c = .deleting id event t →
      (state.timers.thread t).currentTimer ≠ some id → state.timers.valid id = true →
        (state.timers.timer id).event ≠ event → ¬ state.InProgress id
  | _ => True

/-! ### The invariant -/

/-- Which timers the nodes, the threads and the waiting callers are concerned with. -/
structure Watched (state : TimerState) : Prop where
  ruled : state.Ruled
  liveRecent {id : TimerId} {event : Nat} {t : ThreadId} :
    state.timers.live id = some (event, t) → event < state.adds
  takenRecent {t : ThreadId} {taken : Taken} :
    (state.place t).taken = some taken → taken.event < state.adds
  deletedRecent {id : TimerId} {event : Nat} :
    (id, event) ∈ state.deleted → event < state.adds
  namedRecent {c : Caller} {id : TimerId} {event : Nat} {t : ThreadId} :
    state.call c = .deleting id event t → event < state.adds
  /-- A timer that a thread has taken belongs to the thread. -/
  home {t own : ThreadId} {taken : Taken} : (state.place t).taken = some taken →
    state.timers.live taken.id = some (taken.event, own) → own = t
  gone {id : TimerId} {event : Nat} {t : ThreadId} :
    (id, event) ∈ state.deleted → state.timers.live id ≠ some (event, t)
  /-- Who waits to delete a timer waits for its thread. -/
  named {c : Caller} {id : TimerId} {event : Nat} {t own : ThreadId} :
    state.call c = .deleting id event t → state.timers.live id = some (event, own) → own = t
  namedTaken {c : Caller} {id : TimerId} {event : Nat} {t own : ThreadId} {taken : Taken} :
    state.call c = .deleting id event t → (state.place own).taken = some taken →
      taken.id = id → taken.event = event → own = t
  /-- A thread calls the callback for which it took the timer. -/
  calling {t : ThreadId} {taken : Taken} :
    state.place t = .calling taken → state.timers.live taken.id = some (taken.event, t)
  running {t : ThreadId} {taken : Taken} {event : Nat} :
    state.place t = .running taken event → event = taken.event

section Watched

variable {state next : TimerState} {t : ThreadId} {id : TimerId} {event : Nat} {c : Caller}
  {taken : Taken}

/-- At the start nothing is live, taken or deleted. -/
theorem initial_watched (clock : Timespec) : (initial clock).Watched where
  ruled := initial_ruled clock
  liveRecent found := by cases found
  takenRecent found := by cases found
  deletedRecent member := by cases member
  namedRecent waits := by cases waits
  home found := by cases found
  gone member := by cases member
  named waits := by cases waits
  namedTaken waits := by cases waits
  calling calls := by cases calls
  running runs := by cases runs

/-- A step that concerns neither a timer nor a thread nor a deletion. -/
theorem Watched.of_same (watched : state.Watched) (ruled : next.Ruled)
    (live : next.timers.live = state.timers.live) (place : next.place = state.place)
    (deleted : next.deleted = state.deleted) (adds : state.adds ≤ next.adds)
    (calls : ∀ {c id event t}, next.call c = .deleting id event t →
      state.call c = .deleting id event t) : next.Watched where
  ruled := ruled
  liveRecent found := Nat.lt_of_lt_of_le (watched.liveRecent (live ▸ found)) adds
  takenRecent found := Nat.lt_of_lt_of_le (watched.takenRecent (place ▸ found)) adds
  deletedRecent member := Nat.lt_of_lt_of_le (watched.deletedRecent (deleted ▸ member)) adds
  namedRecent waits := Nat.lt_of_lt_of_le (watched.namedRecent (calls waits)) adds
  home found lives := watched.home (place ▸ found) (live ▸ lives)
  gone member lives := watched.gone (deleted ▸ member) (live ▸ lives)
  named waits lives := watched.named (calls waits) (live ▸ lives)
  namedTaken waits found := watched.namedTaken (calls waits) (place ▸ found)
  calling calls := live ▸ watched.calling (place ▸ calls)
  running runs := watched.running (place ▸ runs)

/-- A thread moves on: it rests, or it is busy with a timer of its own. -/
theorem Watched.move (watched : state.Watched) {place : ThreadPlace} (ruled : next.Ruled)
    (live : next.timers.live = state.timers.live)
    (placed : next.place = Function.update state.place t place)
    (deleted : next.deleted = state.deleted) (adds : next.adds = state.adds)
    (calls : next.call = state.call)
    (mine : ∀ taken, place.taken = some taken →
      state.timers.live taken.id = some (taken.event, t))
    (called : ∀ taken event, place = .running taken event → event = taken.event) :
    next.Watched where
  ruled := ruled
  liveRecent found := adds ▸ watched.liveRecent (live ▸ found)
  takenRecent {other taken} found := by
    rw [placed] at found
    rw [adds]
    by_cases moved : other = t
    · rw [moved, Function.update_self] at found
      exact watched.liveRecent (mine taken found)
    · rw [Function.update_of_ne moved] at found
      exact watched.takenRecent found
  deletedRecent member := adds ▸ watched.deletedRecent (deleted ▸ member)
  namedRecent waits := adds ▸ watched.namedRecent (calls ▸ waits)
  home {other own taken} found lives := by
    rw [placed] at found
    rw [live] at lives
    by_cases moved : other = t
    · rw [moved, Function.update_self] at found
      rw [mine taken found] at lives
      cases lives
      exact moved.symm
    · rw [Function.update_of_ne moved] at found
      exact watched.home found lives
  gone member lives := watched.gone (deleted ▸ member) (live ▸ lives)
  named waits lives := watched.named (calls ▸ waits) (live ▸ lives)
  namedTaken {c id event t' own taken} waits found same sameEvent := by
    rw [calls] at waits
    rw [placed] at found
    by_cases moved : own = t
    · rw [moved, Function.update_self] at found
      have lives := mine taken found
      rw [same, sameEvent] at lives
      exact moved ▸ watched.named waits lives
    · rw [Function.update_of_ne moved] at found
      exact watched.namedTaken waits found same sameEvent
  calling {other taken} calls := by
    rw [placed] at calls
    rw [live]
    by_cases moved : other = t
    · rw [moved, Function.update_self] at calls
      rw [moved]
      exact mine taken (by rw [calls]; rfl)
    · rw [Function.update_of_ne moved] at calls
      exact watched.calling calls
  running {other taken event} runs := by
    rw [placed] at runs
    by_cases moved : other = t
    · rw [moved, Function.update_self] at runs
      exact called taken event runs
    · rw [Function.update_of_ne moved] at runs
      exact watched.running runs

/-- A timer comes into a free node. -/
theorem Watched.create (watched : state.Watched) (ruled : next.Ruled)
    (empty : state.timers.live id = none)
    (live : next.timers.live = Function.update state.timers.live id (some (state.adds, t)))
    (place : next.place = state.place) (deleted : next.deleted = state.deleted)
    (adds : next.adds = state.adds + 1)
    (calls : ∀ {c id event t}, next.call c = .deleting id event t →
      state.call c = .deleting id event t) : next.Watched := by
  have lives {other : TimerId} {event : Nat} {own : ThreadId}
      (found : next.timers.live other = some (event, own)) :
      event = state.adds ∧ other = id ∨ state.timers.live other = some (event, own) := by
    rw [live] at found
    by_cases same : other = id
    · rw [same, Function.update_self] at found
      cases found
      exact .inl ⟨rfl, same⟩
    · rw [Function.update_of_ne same] at found
      exact .inr found
  constructor
  case ruled => exact ruled
  case liveRecent =>
    intro other event own found
    rcases lives found with ⟨new, _⟩ | before
    · omega
    · have := watched.liveRecent before
      omega
  case takenRecent =>
    intro other taken found
    have := watched.takenRecent (place ▸ found)
    omega
  case deletedRecent =>
    intro other event member
    have := watched.deletedRecent (deleted ▸ member)
    omega
  case namedRecent =>
    intro c other event own waits
    have := watched.namedRecent (calls waits)
    omega
  case home =>
    intro other own taken found present
    have recent := watched.takenRecent (place ▸ found)
    rcases lives present with ⟨new, _⟩ | before
    · omega
    · exact watched.home (place ▸ found) before
  case gone =>
    intro other event own member present
    have recent := watched.deletedRecent (deleted ▸ member)
    rcases lives present with ⟨new, _⟩ | before
    · omega
    · exact watched.gone (deleted ▸ member) before
  case named =>
    intro c other event t own waits present
    have recent := watched.namedRecent (calls waits)
    rcases lives present with ⟨new, _⟩ | before
    · omega
    · exact watched.named (calls waits) before
  case namedTaken =>
    intro c other event t own taken waits found
    exact watched.namedTaken (calls waits) (place ▸ found)
  case calling =>
    intro other taken calling
    have before := watched.calling (place ▸ calling)
    have different : taken.id ≠ id := by
      intro same
      rw [same, empty] at before
      cases before
    rwa [live, Function.update_of_ne different]
  case running =>
    intro other taken event runs
    exact watched.running (place ▸ runs)

/-- A timer is deleted; no thread is about to call its callback. -/
theorem Watched.remove (watched : state.Watched) (ruled : next.Ruled)
    {others : List (TimerId × Nat)}
    (live : next.timers.live = Function.update state.timers.live id none)
    (place : next.place = state.place) (deleted : next.deleted = others ++ state.deleted)
    (adds : next.adds = state.adds)
    (calls : ∀ {c id event t}, next.call c = .deleting id event t →
      state.call c = .deleting id event t)
    (removed : ∀ other event, (other, event) ∈ others → other = id ∧ event < state.adds)
    (uncalled : ∀ t taken, state.place t = .calling taken → taken.id ≠ id) : next.Watched := by
  have lives {other : TimerId} {timer : Nat × ThreadId}
      (found : next.timers.live other = some timer) :
      other ≠ id ∧ state.timers.live other = some timer := by
    rw [live] at found
    by_cases same : other = id
    · rw [same, Function.update_self] at found
      cases found
    · rw [Function.update_of_ne same] at found
      exact ⟨same, found⟩
  constructor
  case ruled => exact ruled
  case liveRecent =>
    intro other event own found
    exact adds ▸ watched.liveRecent (lives found).2
  case takenRecent =>
    intro other taken found
    exact adds ▸ watched.takenRecent (place ▸ found)
  case deletedRecent =>
    intro other event member
    rw [deleted] at member
    rw [adds]
    rcases List.mem_append.1 member with new | before
    · exact (removed other event new).2
    · exact watched.deletedRecent before
  case namedRecent =>
    intro c other event own waits
    exact adds ▸ watched.namedRecent (calls waits)
  case home =>
    intro other own taken found present
    exact watched.home (place ▸ found) (lives present).2
  case gone =>
    intro other event own member present
    rw [deleted] at member
    obtain ⟨different, before⟩ := lives present
    rcases List.mem_append.1 member with new | old
    · exact different (removed other event new).1
    · exact watched.gone old before
  case named =>
    intro c other event t own waits present
    exact watched.named (calls waits) (lives present).2
  case namedTaken =>
    intro c other event t own taken waits found
    exact watched.namedTaken (calls waits) (place ▸ found)
  case calling =>
    intro other taken calling
    rw [live, Function.update_of_ne (uncalled other taken (place ▸ calling))]
    exact watched.calling (place ▸ calling)
  case running =>
    intro other taken event runs
    exact watched.running (place ▸ runs)

/-- A caller begins to wait for the thread of a timer. -/
theorem Watched.await (watched : state.Watched) (lives : state.timers.live id = some (event, t)) :
    (state.setCall c (.deleting id event t)).Watched := by
  have names {caller : Caller} {other : TimerId} {named : Nat} {own : ThreadId}
      (waits : (state.setCall c (.deleting id event t)).call caller = .deleting other named own) :
      id = other ∧ event = named ∧ t = own ∨ state.call caller = .deleting other named own := by
    by_cases same : caller = c
    · rw [same, setCall_self] at waits
      cases waits
      exact .inl ⟨rfl, rfl, rfl⟩
    · rw [setCall_of_ne same] at waits
      exact .inr waits
  refine { watched with
    ruled := watched.ruled.setCall ..
    namedRecent := ?_, named := ?_, namedTaken := ?_ }
  · intro caller other named own waits
    rcases names waits with ⟨rfl, rfl, rfl⟩ | before
    · exact watched.liveRecent lives
    · exact watched.namedRecent before
  · intro caller other named own home waits present
    rcases names waits with ⟨rfl, rfl, rfl⟩ | before
    · exact (Prod.mk.inj (Option.some.inj (lives.symm.trans present))).2.symm
    · exact watched.named before present
  · intro caller other named own home taken waits found same sameEvent
    rcases names waits with ⟨rfl, rfl, rfl⟩ | before
    · exact (watched.home found (by rw [same, sameEvent]; exact lives)).symm
    · exact watched.namedTaken before found same sameEvent

/-- With the invariant, a thread serves the timer it has taken. -/
theorem Watched.serves_iff (watched : state.Watched) : (state.place t).Serves id event ↔
    ∃ taken, (state.place t).taken = some taken ∧ taken.id = id ∧ taken.event = event := by
  constructor
  · intro serves
    cases place : state.place t with
    | waiting =>
        rw [place] at serves
        exact serves.elim
    | calling taken =>
        rw [place] at serves
        exact ⟨taken, rfl, serves⟩
    | running taken called =>
        rw [place] at serves
        refine ⟨taken, rfl, serves.1, ?_⟩
        rcases serves.2 with own | same
        · exact own
        · rw [← same, watched.running place]
  · rintro ⟨taken, busy, rfl, rfl⟩
    exact ThreadPlace.serves_of_taken busy

/-- The node a thread holds is the one it serves. -/
theorem Ruled.quiescent_iff (ruled : state.Ruled) : state.Quiescent ↔
    ∀ id event, (id, event) ∈ state.deleted → ∀ t, ¬ (state.place t).Serves id event := by
  constructor
  · exact fun quiescent id event member t => (quiescent id event member t).1
  · intro unserved id event member t
    refine ⟨unserved id event member t, ?_⟩
    rintro ⟨current, taken, busy, rfl⟩
    have serves := ThreadPlace.serves_of_taken busy
    have here := ruled.current t
    rw [current, busy] at here
    rw [← Option.some.inj here] at serves
    exact unserved id taken.event member t serves

/-- A step that moves no thread and deletes nothing keeps the deletions right. -/
theorem Ruled.quiescent_of_same (ruled : next.Ruled) (quiescent : state.Quiescent)
    (place : next.place = state.place) (deleted : next.deleted = state.deleted) :
    next.Quiescent := by
  rw [ruled.quiescent_iff, place, deleted]
  exact fun id event member t => (quiescent id event member t).1

/-- A thread that takes a timer does not take a deleted one. -/
theorem Watched.quiescent_move (watched : state.Watched) (after : next.Watched)
    (quiescent : state.Quiescent) {place : ThreadPlace}
    (placed : next.place = Function.update state.place t place)
    (deleted : next.deleted = state.deleted)
    (mine : ∀ taken, place.taken = some taken →
      state.timers.live taken.id = some (taken.event, t)) : next.Quiescent := by
  rw [after.ruled.quiescent_iff]
  intro id event member other serves
  obtain ⟨taken, busy, rfl, rfl⟩ := after.serves_iff.1 serves
  rw [deleted] at member
  rw [placed] at busy
  by_cases moved : other = t
  · rw [moved, Function.update_self] at busy
    exact watched.gone member (mine taken busy)
  · rw [Function.update_of_ne moved] at busy
    exact (quiescent _ _ member other).1 (ThreadPlace.serves_of_taken busy)

/-- A deletion is right if no thread serves what it deletes. -/
theorem Ruled.quiescent_remove_iff (ruled : next.Ruled) (quiescent : state.Quiescent)
    {others : List (TimerId × Nat)} (place : next.place = state.place)
    (deleted : next.deleted = others ++ state.deleted) : next.Quiescent ↔
      ∀ id event, (id, event) ∈ others → ∀ t, ¬ (state.place t).Serves id event := by
  rw [ruled.quiescent_iff, place, deleted]
  constructor
  · exact fun unserved id event member => unserved id event (List.mem_append_left _ member)
  · intro unserved id event member
    rcases List.mem_append.1 member with new | before
    · exact unserved id event new
    · exact fun t => (quiescent id event before t).1

/-! ### The steps -/

/-- A call that does not wait leaves those that do. -/
theorem deleting_of_setCall {call : Call} {caller : Caller}
    (idle : ∀ id event t, call ≠ .deleting id event t)
    (waits : (state.setCall c call).call caller = .deleting id event t) :
    state.call caller = .deleting id event t := by
  by_cases same : caller = c
  · rw [same, setCall_self] at waits
    exact absurd waits (idle id event t)
  · rwa [setCall_of_ne same] at waits

/-- A look at the queue takes no deleted timer. -/
theorem Watched.look (watched : state.Watched) (quiescent : state.Quiescent) {now : Timespec}
    (ruled : next.Ruled) (look : Look state t now next) : next.Watched ∧ next.Quiescent := by
  cases look with
  | wait quiet => exact ⟨watched, quiescent⟩
  | @take id rearmed due loop =>
      have member := (TimerModule.due_eq_some due).1
      obtain ⟨_, inUse, thread⟩ := watched.ruled.sound.queued member
      have mine : ∀ taken, (ThreadPlace.calling (state.taken id now)).taken = some taken →
          state.timers.live taken.id = some (taken.event, t) := by
        rintro _ ⟨⟩
        exact TimerModule.live_eq_some.2 ⟨inUse, rfl, thread⟩
      have after := watched.move ruled TimerModule.live_requeue rfl rfl rfl rfl mine nofun
      exact ⟨after, watched.quiescent_move after quiescent rfl rfl mine⟩

/-- A thread that goes back to its queue serves nothing. -/
theorem Watched.rest (watched : state.Watched) (quiescent : state.Quiescent)
    (away : state.place t ≠ .waiting) : (state.rest t).Watched ∧ (state.rest t).Quiescent := by
  have after := watched.move (watched.ruled.rest away) rfl rfl rfl rfl rfl nofun nofun
  exact ⟨after, watched.quiescent_move after quiescent rfl rfl nofun⟩

/-- A thread calls the handler of the timer it has taken. -/
theorem Watched.enter (watched : state.Watched) (quiescent : state.Quiescent)
    (calls : state.place t = .calling taken) :
    (state.setPlace t (.running taken (state.timers.timer taken.id).event)).Watched ∧
      (state.setPlace t (.running taken (state.timers.timer taken.id).event)).Quiescent := by
  have lives := watched.calling calls
  have same := (TimerModule.live_eq_some.1 lives).2.1
  rw [same]
  have mine : ∀ other, (ThreadPlace.running taken taken.event).taken = some other →
      state.timers.live other.id = some (other.event, t) := by
    rintro _ ⟨⟩
    exact lives
  have after := watched.move (watched.ruled.enter calls taken.event) rfl rfl rfl rfl rfl mine
    (by rintro _ _ ⟨⟩; rfl)
  exact ⟨after, watched.quiescent_move after quiescent rfl rfl mine⟩

/-- A callback deletes the timers of its own thread while none of them is being called. -/
theorem Watched.delOwn (watched : state.Watched) (quiescent : state.Quiescent) (free : state.Free c)
    (own : state.Own c id) : (state.delete id []).Watched ∧ (state.delete id []).Quiescent := by
  have ruled := watched.ruled.delete id []
  constructor
  · apply watched.remove ruled TimerModule.live_timerDelete rfl rfl rfl (fun waits => waits) nofun
    rintro other taken calls rfl
    obtain ⟨t, rfl, thread⟩ := own
    obtain ⟨_, _, runs⟩ := free.2 t rfl
    have home := (TimerModule.live_eq_some.1 (watched.calling calls)).2.2
    rw [thread] at home
    cases home
    rw [calls] at runs
    cases runs
  · exact (ruled.quiescent_remove_iff quiescent rfl rfl).2 nofun

/-- A deletion for another thread leaves no thread that is about to call the callback, if no thread
serves the timer in the node. -/
theorem Watched.uncalled (watched : state.Watched) (idle : ¬ state.InProgress id) (t : ThreadId)
    (taken : Taken) (calls : state.place t = .calling taken) : taken.id ≠ id := by
  rintro rfl
  have same := (TimerModule.live_eq_some.1 (watched.calling calls)).2.1
  apply idle
  refine ⟨t, ?_⟩
  rw [same, calls]
  exact ⟨rfl, rfl⟩

/-- A thread that serves the timer in a node is the thread of the timer, with the node as its
`current_timer`. -/
theorem Watched.current_of_serves (watched : state.Watched)
    (serves : (state.place t).Serves id event) :
    (state.timers.thread t).currentTimer = some id ∧
      ∀ own, state.timers.live id = some (event, own) → own = t := by
  obtain ⟨taken, busy, rfl, rfl⟩ := watched.serves_iff.1 serves
  refine ⟨?_, fun own lives => watched.home busy lives⟩
  rw [watched.ruled.current, busy]
  rfl

/-- A deletion that does not wait is right exactly if no thread serves the timer. -/
theorem Watched.delOther (watched : state.Watched) (quiescent : state.Quiescent)
    (valid : state.timers.valid id = true) (other : ¬ state.Own c id)
    (goesOn : ∀ t, ¬ state.Waits c id t) :
    ((state.delete id [(id, (state.timers.timer id).event)]).Quiescent ↔
        state.DeletesIdle (.del c id)) ∧
      (state.DeletesIdle (.del c id) →
        (state.delete id [(id, (state.timers.timer id).event)]).Watched) := by
  have ruled := watched.ruled.delete id [(id, (state.timers.timer id).event)]
  obtain ⟨own, lives⟩ := watched.ruled.sound.exists_live valid
  -- an armed timer that goes on is not in progress: its own thread would have it as `current_timer`
  have idle_of_armed (armed : (state.timers.timer id).armed = true) : ¬ state.InProgress id := by
    rintro ⟨t, serves⟩
    obtain ⟨current, home⟩ := watched.current_of_serves serves
    have thread := (TimerModule.live_eq_some.1 lives).2.2
    rw [home own lives] at thread
    exact goesOn t ⟨armed, thread, current, fun timer => other ⟨t, timer, thread⟩⟩
  have meets_iff : state.DeletesIdle (.del c id) ↔ ¬ state.InProgress id := by
    constructor
    · intro meets
      exact (meets valid other).elim idle_of_armed fun idle => idle
    · exact fun idle _ _ => .inr idle
  rw [meets_iff]
  constructor
  · rw [ruled.quiescent_remove_iff quiescent rfl rfl]
    constructor
    · rintro unserved ⟨t, serves⟩
      exact unserved id _ (List.mem_singleton.2 rfl) t serves
    · rintro idle _ _ member t serves
      cases List.mem_singleton.1 member
      exact idle ⟨t, serves⟩
  · intro idle
    apply watched.remove ruled TimerModule.live_timerDelete rfl rfl rfl (fun waits => waits)
    · intro _ _ member
      cases List.mem_singleton.1 member
      exact ⟨rfl, watched.liveRecent lives⟩
    · exact watched.uncalled idle

/-- So is one that has waited, exactly if no thread serves what it deletes. -/
theorem Watched.resume (watched : state.Watched) (quiescent : state.Quiescent)
    (calls : state.call c = .deleting id event t)
    (goesOn : (state.timers.thread t).currentTimer ≠ some id)
    (deletes : next = (state.delete id ((id, event) ::
      if state.timers.valid id = true then [(id, (state.timers.timer id).event)] else [])).setCall
        c .idle) :
    (next.Quiescent ↔ state.DeletesIdle (.resume c)) ∧
      (state.DeletesIdle (.resume c) → next.Watched) := by
  subst deletes
  have ruled := (watched.ruled.delete id ((id, event) ::
    if state.timers.valid id = true then [(id, (state.timers.timer id).event)] else [])).setCall
      c .idle
  -- the thread that was waited for is the only one that could serve the timer that was named
  have unserved (own : ThreadId) : ¬ (state.place own).Serves id event := by
    intro serves
    obtain ⟨taken, busy, same, sameEvent⟩ := watched.serves_iff.1 serves
    have current := (watched.current_of_serves serves).1
    rw [watched.namedTaken calls busy same sameEvent] at current
    exact goesOn current
  have meets_iff : state.DeletesIdle (.resume c) ↔
      (state.timers.valid id = true → ¬ state.InProgress id) := by
    constructor
    · intro meets valid
      by_cases same : (state.timers.timer id).event = event
      · rintro ⟨own, serves⟩
        exact unserved own (same ▸ serves)
      · exact meets id event t calls goesOn valid same
    · intro idle other named own waits _ valid _
      rw [calls] at waits
      cases waits
      exact idle valid
  rw [meets_iff]
  constructor
  · rw [ruled.quiescent_remove_iff quiescent rfl rfl]
    constructor
    · rintro unserved valid ⟨own, serves⟩
      refine unserved id _ (List.mem_cons_of_mem _ ?_) own serves
      rw [if_pos valid]
      exact List.mem_singleton.2 rfl
    · intro idle _ _ member own serves
      rcases List.mem_cons.1 member with named | present
      · cases named
        exact unserved own serves
      · split at present
        next valid =>
          cases List.mem_singleton.1 present
          exact idle valid ⟨own, serves⟩
        next => cases present
  · intro idle
    apply watched.remove ruled TimerModule.live_timerDelete rfl rfl rfl (deleting_of_setCall nofun)
    · intro _ _ member
      rcases List.mem_cons.1 member with named | present
      · cases named
        exact ⟨rfl, watched.namedRecent calls⟩
      · split at present
        next valid =>
          cases List.mem_singleton.1 present
          obtain ⟨_, lives⟩ := watched.ruled.sound.exists_live valid
          exact ⟨rfl, watched.liveRecent lives⟩
        next => cases present
    · rintro own taken calling rfl
      have lives := watched.calling calling
      exact watched.uncalled (idle (TimerModule.valid_of_live lives)) own taken calling rfl

/-- A new timer comes with nobody who serves it. -/
theorem Watched.add (watched : state.Watched) (quiescent : state.Quiescent) (c : Caller)
    (prio : Int) (args : AddArgs) (starts : Bool) :
    (state.add c prio args starts).Watched ∧ (state.add c prio args starts).Quiescent := by
  have ruled := watched.ruled.add c prio args starts
  unfold TimerState.add at *
  split at ruled
  next timers returned =>
    have live : timers.live = state.timers.live := by
      cases (watched.ruled.sound.timerCreate returned).2 with
      | exhausted same => rw [same]
      | failed free spares released =>
          rw [spares.live_eq, TimerModule.live_eq_none_of_unused (by rw [released]; nofun),
            ← TimerModule.live_eq_none_of_unused (by rw [free]; nofun), Function.update_eq_self]
    exact ⟨watched.of_same ruled live rfl rfl (Nat.le_succ _) fun waits => waits,
      ruled.quiescent_of_same quiescent rfl rfl⟩
  next timers id returned =>
    refine ⟨?_, ruled.quiescent_of_same quiescent rfl rfl⟩
    cases (watched.ruled.sound.timerCreate returned).2 with
    | @made _ t free spares unqueued node =>
        have empty : state.timers.live id = none :=
          TimerModule.live_eq_none_of_unused (by rw [free]; nofun)
        have filled : timers.live id = some (state.adds, t) :=
          TimerModule.live_eq_some.2 (by rw [node]; exact ⟨rfl, rfl, rfl⟩)
        have live := spares.live_eq
        rw [filled] at live
        exact watched.create ruled empty live rfl rfl rfl (deleting_of_setCall nofun)

/-- What one step does: the deletions stay right exactly if a deletion deletes what is idle, and
then all is as watched again. -/
theorem Watched.step {action : TimerAction} (watched : state.Watched) (quiescent : state.Quiescent)
    (step : TimerStep state action next) :
    (next.Quiescent ↔ state.DeletesIdle action) ∧ (state.DeletesIdle action → next.Watched) := by
  have ruled := watched.ruled.step step
  -- most steps neither delete a timer nor move a thread
  have still (live : next.timers.live = state.timers.live) (place : next.place = state.place)
      (deleted : next.deleted = state.deleted) (adds : next.adds = state.adds)
      (calls : ∀ {c id event t}, next.call c = .deleting id event t →
        state.call c = .deleting id event t) : next.Watched ∧ next.Quiescent :=
    ⟨watched.of_same ruled live place deleted (Nat.le_of_eq adds.symm) calls,
      ruled.quiescent_of_same quiescent place deleted⟩
  have exact_of (kept : next.Watched ∧ next.Quiescent) (meets : state.DeletesIdle action) :
      (next.Quiescent ↔ state.DeletesIdle action) ∧ (state.DeletesIdle action → next.Watched) :=
    ⟨iff_of_true kept.2 meets, fun _ => kept.1⟩
  cases step with
  | tick later => exact exact_of (still rfl rfl rfl rfl fun waits => waits) trivial
  | wake waits runs look => exact exact_of (watched.look quiescent ruled look) trivial
  | enter calls => exact exact_of (watched.enter quiescent calls) trivial
  | finish runs returned look =>
      obtain ⟨rested, quiet⟩ := watched.rest quiescent (by rw [runs]; nofun)
      exact exact_of (rested.look quiet ruled look) trivial
  | add free prio args starts => exact exact_of (watched.add quiescent ..) trivial
  | fields calls =>
      refine exact_of ?_ trivial
      unfold TimerState.fields at *
      split
      next valid =>
        rw [if_pos valid] at still
        refine still ?_ rfl rfl rfl (deleting_of_setCall nofun)
        dsimp only [setCall, change]
        exact TimerModule.live_setTimer fun _ => ⟨rfl, rfl, rfl, rfl⟩
      next invalid =>
        rw [if_neg invalid] at still
        exact still rfl rfl rfl rfl (deleting_of_setCall nofun)
  | start free id =>
      refine exact_of ?_ trivial
      unfold TimerState.start at *
      split
      next valid =>
        rw [if_pos valid] at still
        exact still rfl rfl rfl rfl (deleting_of_setCall nofun)
      next invalid => exact ⟨watched, quiescent⟩
  | stop free id => exact exact_of (still rfl rfl rfl rfl (deleting_of_setCall nofun)) trivial
  | clock calls => exact exact_of (still rfl rfl rfl rfl (deleting_of_setCall nofun)) trivial
  | set calls =>
      refine exact_of (still ?_ rfl rfl rfl (deleting_of_setCall nofun)) trivial
      exact watched.ruled.sound.live_timerSettime
  | settime free id millisec =>
      refine exact_of ?_ trivial
      unfold TimerState.settime at *
      split
      next accepted =>
        rw [if_pos accepted] at still
        refine still ?_ rfl rfl rfl fun waits => waits
        dsimp only [setCall, change]
        exact TimerModule.live_setTimer fun _ => ⟨rfl, rfl, rfl, rfl⟩
      next rejected => exact ⟨watched, quiescent⟩
  | delInvalid free invalid =>
      refine exact_of ⟨watched, quiescent⟩ fun valid => ?_
      rw [invalid] at valid
      cases valid
  | delWait free valid waits =>
      obtain ⟨armed, thread, _⟩ := waits
      have lives := TimerModule.live_eq_some.2 ⟨of_decide_eq_true valid, rfl, thread⟩
      exact exact_of ⟨watched.await lives, ruled.quiescent_of_same quiescent rfl rfl⟩
        fun _ _ => .inl armed
  | delOwn free valid own =>
      exact exact_of (watched.delOwn quiescent free own) fun _ other => absurd own other
  | delOther free valid other goesOn => exact watched.delOther quiescent valid other goesOn
  | @resumeWait c id event t calls waits =>
      refine exact_of ⟨watched, quiescent⟩ ?_
      intro other named own same goesOn
      rw [calls] at same
      cases same
      exact absurd waits goesOn
  | resume calls goesOn => exact watched.resume quiescent calls goesOn rfl

theorem initial_quiescent (clock : Timespec) : (initial clock).Quiescent := nofun

/-- In a run a deletion for another thread always leaves the callback at rest exactly if each finds
the timer armed or its callback not in progress, and so does each that waited and then found another
timer in the node. -/
theorem deletion_quiescent_iff (clock : Timespec) {finish : TimerState}
    (path : timerSystem.Path (initial clock) finish) :
    path.Always Quiescent ↔ path.StepsMeet DeletesIdle := by
  refine path.always_iff_stepsMeet (initial_watched clock) (initial_quiescent clock) ?_ ?_
  · intro state action next watched quiescent step meets
    exact (watched.step quiescent step).2 meets
  · intro state action next watched quiescent step
    exact (watched.step quiescent step).1

end Watched

/-- The thread calls the handler of the stopped timer. -/
def oneRunning : TimerState :=
  oneStopped.setPlace firstThread (.running (oneAdded.taken firstTimer (.ms2ts 1)) 0)

/-- After a stop the deletion does not wait for the callback that is running. -/
theorem stopped_timer_deleted : ∃ finish, ∃ path : timerSystem.Path (initial .zero) finish,
    ¬ path.Always Quiescent := by
  obtain ⟨prior⟩ := exists_path_oneStopped
  have calls : oneStopped.place firstThread =
      .calling (oneAdded.taken firstTimer (.ms2ts 1)) := by decide +kernel
  have enters : TimerStep oneStopped (.enter firstThread) oneRunning := .enter calls
  have deletes : TimerStep oneRunning (.del (.app 0) firstTimer)
      (oneRunning.delete firstTimer [(firstTimer, 0)]) := by
    apply TimerStep.delOther (free_app (by decide +kernel)) (by decide +kernel)
    · rintro ⟨t, timer, _⟩
      cases timer
    · rintro t ⟨armed, _⟩
      revert armed
      decide +kernel
  refine ⟨_, (prior.snoc _ _ enters).snoc _ _ deletes, ?_⟩
  rintro ⟨_, quiescent⟩
  apply (quiescent firstTimer 0 (List.mem_cons_self ..) firstThread).1
  change (oneRunning.place firstThread).Serves firstTimer 0
  rw [oneRunning, setPlace_self]
  exact ⟨rfl, .inr rfl⟩

end TimerState

end Rsu.Osal
