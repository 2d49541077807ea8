import Rsu.Osal.TimerSound
import Rsu.Semantics.ActionSystem

/-!
# The timer threads and their callers

What a function of `os_timer.c` does while it holds `__timer_mutex` is one step, and so are the
reading of the clock in `__timer_settime` and the call of a handler, which happen without the lock.
A waiting thread may wake up at any time, so no step needs to wake it.

A stop does not wait: a handler can be called after its timer was stopped. What the queues do
guarantee is `timers_orderly`.
-/

namespace Rsu.Osal

/-- A timer that a thread has taken from its queue. -/
structure Taken where
  id : TimerId
  /-- its callback at that time -/
  event : Nat
  /-- the expiry for which it was taken -/
  expirytime : Timespec
  /-- the time `thread_func` has read -/
  now : Timespec
  deriving DecidableEq

/-- Where a timer thread is. -/
inductive ThreadPlace where
  /-- in `thread_func`, where it waits -/
  | waiting
  /-- in `thread_expire_timer`, behind the unlock -/
  | calling (taken : Taken)
  /-- in the callback `event` -/
  | running (taken : Taken) (event : Nat)
  deriving DecidableEq

/-- The timer a thread is busy with. -/
def ThreadPlace.taken : ThreadPlace → Option Taken
  | .waiting => none
  | .calling taken => some taken
  | .running taken _ => some taken

/-- A thread of the application or the callback in a timer thread. -/
inductive Caller where
  | app (n : Nat)
  | timer (t : ThreadId)
  deriving DecidableEq

/-- A periodic timer has its first expiry after one interval. -/
abbrev Setting :=
  { value : Itimerspec //
    value.itInterval = Timespec.zero ∨ value.itInterval = value.itValue }

/-- The setting of a timer that expires after `itValue`. -/
def Setting.after (type : TimerType) (itValue : Timespec) : Setting where
  val :=
    { itInterval :=
        match type with
        | .oneshot => .zero
        | .interval => itValue
      itValue := itValue }
  property := by
    cases type with
    | oneshot => exact .inl rfl
    | interval => exact .inr rfl

/-- The `millisec` and `flag` of `os_timer_add`. -/
structure AddArgs where
  millisec : Nat
  positive : 0 < millisec
  type : TimerType
  /-- `TIMER_STOPPED` -/
  stopped : Bool
  /-- `TIMER_ABSTIME` -/
  abstime : Bool
  deriving DecidableEq

/-- How far a caller has come in the function it calls. -/
inductive Call where
  | idle
  /-- `os_timer_add` behind `__timer_create` -/
  | added (id : TimerId) (args : AddArgs)
  /-- `__timer_settime` -/
  | timing (id : TimerId) (abstime : Bool) (value : Setting)
  /-- `__timer_settime` in front of its lock -/
  | timed (id : TimerId) (abstime : Bool) (value : Setting) (now : Timespec)
  /-- `__timer_delete` waiting for `thread`; at its call the callback was `event` -/
  | deleting (id : TimerId) (event : Nat) (thread : ThreadId)
  deriving DecidableEq

/-- What has become of a timer since it was started. -/
structure Schedule where
  start : Timespec
  /-- the expiries for which it was taken, oldest first -/
  fired : List Timespec
  deriving DecidableEq

/-- The module, its threads and their callers. -/
structure TimerState where
  timers : TimerModule
  place : ThreadId → ThreadPlace
  call : Caller → Call
  clock : Timespec
  /-- the number of calls of `os_timer_add` -/
  adds : Nat
  /-- for every timer that was started and not stopped since -/
  schedule : TimerId → Option Schedule
  /-- the nodes and callbacks that `os_timer_del` has deleted for another thread than their own -/
  deleted : List (TimerId × Nat)

/-- What the threads and the callers do. -/
inductive TimerAction where
  | tick (now : Timespec)
  /-- `thread_func` behind its wait -/
  | wake (t : ThreadId)
  /-- the call of the handler -/
  | enter (t : ThreadId)
  /-- the end of `thread_expire_timer` and `thread_func` behind it -/
  | finish (t : ThreadId)
  /-- `os_timer_add` to the end of `__timer_create` -/
  | add (c : Caller) (prio : Int) (args : AddArgs) (starts : Bool)
  /-- the next critical section of `os_timer_add` -/
  | fields (c : Caller)
  /-- `os_timer_start` to `__timer_settime` -/
  | start (c : Caller) (id : TimerId)
  /-- `os_timer_stop` to `__timer_settime` -/
  | stop (c : Caller) (id : TimerId)
  /-- the clock in `__timer_settime` -/
  | clock (c : Caller)
  /-- the critical section of `__timer_settime` -/
  | set (c : Caller)
  /-- `os_timer_settime` -/
  | settime (c : Caller) (id : TimerId) (millisec : Nat)
  /-- `os_timer_del` to its wait, or to its end -/
  | del (c : Caller) (id : TimerId)
  /-- `os_timer_del` behind its wait -/
  | resume (c : Caller)

namespace TimerState

/-- Nothing has happened yet. -/
def initial (clock : Timespec) : TimerState where
  timers := .initModule
  place _ := .waiting
  call _ := .idle
  clock := clock
  adds := 0
  schedule _ := none
  deleted := []

/-- A caller can call a function; the callback of a timer thread does while it runs. -/
def Free (state : TimerState) (c : Caller) : Prop :=
  state.call c = .idle ∧ ∀ t, c = .timer t → ∃ taken event, state.place t = .running taken event

/-- A thread moves on. -/
def setPlace (state : TimerState) (t : ThreadId) (place : ThreadPlace) : TimerState :=
  { state with place := Function.update state.place t place }

/-- A caller moves on. -/
def setCall (state : TimerState) (c : Caller) (call : Call) : TimerState :=
  { state with call := Function.update state.call c call }

/-- The critical section about a timer, which then has this schedule. -/
def change (state : TimerState) (id : TimerId) (next : TimerModule) (schedule : Option Schedule) :
    TimerState :=
  { state with timers := next, schedule := Function.update state.schedule id schedule }

/-- The timer a thread takes from its queue. -/
def taken (state : TimerState) (id : TimerId) (now : Timespec) : Taken where
  id := id
  event := (state.timers.timer id).event
  expirytime := (state.timers.timer id).expirytime
  now := now

/-- `thread_func` takes a timer, to the unlock in `thread_expire_timer`. -/
def take (state : TimerState) (t : ThreadId) (id : TimerId) (now : Timespec)
    (rearmed : Timespec × Nat) : TimerState :=
  let fired := (state.schedule id).map fun schedule =>
    { schedule with fired := schedule.fired ++ [(state.timers.timer id).expirytime] }
  let next := (state.timers.requeue t id rearmed).setCurrentTimer t (some id)
  (state.change id next fired).setPlace t (.calling (state.taken id now))

/-- The handler has returned. -/
def rest (state : TimerState) (t : ThreadId) : TimerState :=
  { state with timers := state.timers.setCurrentTimer t none }.setPlace t .waiting

/-- `os_timer_add`, the part in `__timer_create`. -/
def add (state : TimerState) (c : Caller) (prio : Int) (args : AddArgs) (starts : Bool) :
    TimerState :=
  match state.timers.timerCreate state.adds prio starts with
  | (next, none) => { state with timers := next, adds := state.adds + 1 }
  | (next, some id) =>
      { state.change id next none with adds := state.adds + 1 }.setCall c (.added id args)

/-- `os_timer_add`, its own critical section. -/
def fields (state : TimerState) (c : Caller) (id : TimerId) (args : AddArgs) : TimerState :=
  if state.timers.valid id = true then
    let next := state.timers.setTimer id fun timer =>
      { timer with type := args.type, millisec := args.millisec }
    let itValue := if args.stopped then Timespec.zero else .ms2ts args.millisec
    (state.change id next (state.schedule id)).setCall c
      (.timing id args.abstime (.after args.type itValue))
  else state.setCall c .idle

/-- `os_timer_start` -/
def start (state : TimerState) (c : Caller) (id : TimerId) : TimerState :=
  if state.timers.valid id = true then
    let timer := state.timers.timer id
    state.setCall c (.timing id false (.after timer.type (.ms2ts timer.millisec)))
  else state

/-- `os_timer_stop` -/
def stop (state : TimerState) (c : Caller) (id : TimerId) : TimerState :=
  state.setCall c (.timing id false (.after .oneshot .zero))

/-- `__timer_settime` -/
def set (state : TimerState) (c : Caller) (id : TimerId) (abstime : Bool) (value : Setting)
    (now : Timespec) : TimerState :=
  let next := state.timers.timerSettime id abstime value now
  let schedule :=
    if state.timers.valid id = false then state.schedule id
    else if value.val.itValue = Timespec.zero then none
    else some ⟨if abstime then .zero else now, []⟩
  (state.change id next schedule).setCall c .idle

/-- `os_timer_settime` -/
def settime (state : TimerState) (id : TimerId) (millisec : Nat) : TimerState :=
  if 0 < millisec ∧ state.timers.valid id = true then
    let next := state.timers.setTimer id fun timer => { timer with millisec := millisec }
    state.change id next (state.schedule id)
  else state

/-- The end of `__timer_delete`; `others` are the timers it deletes for another thread. -/
def delete (state : TimerState) (id : TimerId) (others : List (TimerId × Nat)) : TimerState :=
  { state.change id (state.timers.timerDelete id) none with deleted := others ++ state.deleted }

/-- `timer->armed && (NULL != timer->thread)` and the condition of the loop, for the first time. -/
def Waits (state : TimerState) (c : Caller) (id : TimerId) (t : ThreadId) : Prop :=
  (state.timers.timer id).armed = true ∧ (state.timers.timer id).thread = some t ∧
    (state.timers.thread t).currentTimer = some id ∧ c ≠ .timer t

/-- The caller is the thread of the timer. -/
def Own (state : TimerState) (c : Caller) (id : TimerId) : Prop :=
  ∃ t, c = .timer t ∧ (state.timers.timer id).thread = some t

end TimerState

/-- `thread_func` looks at the first timer of its queue: nothing is due, or it takes the timer when
the loop for its next expiry has ended. -/
inductive Look (state : TimerState) (t : ThreadId) (now : Timespec) : TimerState → Prop
  | wait (quiet : state.timers.due t now = none) : Look state t now state
  | take {id : TimerId} {rearmed : Timespec × Nat} (due : state.timers.due t now = some id)
      (loop : (state.timers.timer id).value.itInterval ≠ Timespec.zero →
        Returns (state.timers.rearm id now) rearmed) :
      Look state t now (state.take t id now rearmed)

/-- The steps. -/
inductive TimerStep : TimerState → TimerAction → TimerState → Prop
  | tick {state : TimerState} {now : Timespec} (later : state.clock.nanos ≤ now.nanos) :
      TimerStep state (.tick now) { state with clock := now }
  | wake {state next : TimerState} {t : ThreadId} (waits : state.place t = .waiting)
      (runs : (state.timers.thread t).running = true) (look : Look state t state.clock next) :
      TimerStep state (.wake t) next
  | enter {state : TimerState} {t : ThreadId} {taken : Taken}
      (calls : state.place t = .calling taken) :
      TimerStep state (.enter t)
        (state.setPlace t (.running taken (state.timers.timer taken.id).event))
  | finish {state next : TimerState} {t : ThreadId} {taken : Taken} {event : Nat}
      (runs : state.place t = .running taken event) (returned : state.call (.timer t) = .idle)
      (look : Look (state.rest t) t taken.now next) : TimerStep state (.finish t) next
  | add {state : TimerState} {c : Caller} (free : state.Free c) (prio : Int) (args : AddArgs)
      (starts : Bool) : TimerStep state (.add c prio args starts) (state.add c prio args starts)
  | fields {state : TimerState} {c : Caller} {id : TimerId} {args : AddArgs}
      (calls : state.call c = .added id args) :
      TimerStep state (.fields c) (state.fields c id args)
  | start {state : TimerState} {c : Caller} (free : state.Free c) (id : TimerId) :
      TimerStep state (.start c id) (state.start c id)
  | stop {state : TimerState} {c : Caller} (free : state.Free c) (id : TimerId) :
      TimerStep state (.stop c id) (state.stop c id)
  | clock {state : TimerState} {c : Caller} {id : TimerId} {abstime : Bool} {value : Setting}
      (calls : state.call c = .timing id abstime value) :
      TimerStep state (.clock c) (state.setCall c (.timed id abstime value state.clock))
  | set {state : TimerState} {c : Caller} {id : TimerId} {abstime : Bool} {value : Setting}
      {now : Timespec} (calls : state.call c = .timed id abstime value now) :
      TimerStep state (.set c) (state.set c id abstime value now)
  | settime {state : TimerState} {c : Caller} (free : state.Free c) (id : TimerId)
      (millisec : Nat) : TimerStep state (.settime c id millisec) (state.settime id millisec)
  | delInvalid {state : TimerState} {c : Caller} {id : TimerId} (free : state.Free c)
      (invalid : state.timers.valid id = false) : TimerStep state (.del c id) state
  | delWait {state : TimerState} {c : Caller} {id : TimerId} {t : ThreadId} (free : state.Free c)
      (valid : state.timers.valid id = true) (waits : state.Waits c id t) :
      TimerStep state (.del c id)
        (state.setCall c (.deleting id (state.timers.timer id).event t))
  | delOwn {state : TimerState} {c : Caller} {id : TimerId} (free : state.Free c)
      (valid : state.timers.valid id = true) (own : state.Own c id) :
      TimerStep state (.del c id) (state.delete id [])
  | delOther {state : TimerState} {c : Caller} {id : TimerId} (free : state.Free c)
      (valid : state.timers.valid id = true) (other : ¬ state.Own c id)
      (goesOn : ∀ t, ¬ state.Waits c id t) :
      TimerStep state (.del c id) (state.delete id [(id, (state.timers.timer id).event)])
  | resumeWait {state : TimerState} {c : Caller} {id : TimerId} {event : Nat} {t : ThreadId}
      (calls : state.call c = .deleting id event t)
      (waits : (state.timers.thread t).currentTimer = some id) :
      TimerStep state (.resume c) state
  | resume {state : TimerState} {c : Caller} {id : TimerId} {event : Nat} {t : ThreadId}
      (calls : state.call c = .deleting id event t)
      (goesOn : (state.timers.thread t).currentTimer ≠ some id) :
      TimerStep state (.resume c)
        ((state.delete id ((id, event) ::
          if state.timers.valid id = true then [(id, (state.timers.timer id).event)] else [])).setCall
          c .idle)

/-- The timers as an action system. -/
def timerSystem : ActionSystem TimerAction where
  State := TimerState
  Initial state := ∃ clock, state = .initial clock
  Step := TimerStep

/-! ### Specification -/

/-- The expiries for which a periodic timer was taken, and the next one, are those of its start. -/
structure Schedule.Regular (schedule : Schedule) (timer : TimerNode) : Prop where
  next : ∃ k, timer.expirytime.nanos =
    schedule.start.nanos + (k + 1) * timer.value.itInterval.nanos
  increasing : schedule.fired.Pairwise fun earlier later => earlier.nanos < later.nanos
  fired {expiry : Timespec} : expiry ∈ schedule.fired → expiry.nanos < timer.expirytime.nanos ∧
    ∃ k, expiry.nanos = schedule.start.nanos + (k + 1) * timer.value.itInterval.nanos

namespace TimerState

/-- What a state owes to its queues, its clock and its periodic timers. -/
structure Orderly (state : TimerState) : Prop where
  sorted (t : ThreadId) : Sorted (fun timer => (state.timers.timer timer).expirytime)
    (state.timers.thread t).timerQueue
  once (t : ThreadId) : (state.timers.thread t).timerQueue.Nodup
  inUse {t : ThreadId} {id : TimerId} : id ∈ (state.timers.thread t).timerQueue →
    (state.timers.timer id).inuse = .inuse
  /-- A thread calls a handler, and its callback runs, after the expiry of the timer. -/
  punctual {t : ThreadId} {taken : Taken} : (state.place t).taken = some taken →
    taken.expirytime.nanos ≤ taken.now.nanos ∧ taken.now.nanos ≤ state.clock.nanos
  increasing {id : TimerId} {schedule : Schedule} : state.schedule id = some schedule →
    (state.timers.timer id).value.itInterval ≠ Timespec.zero →
      schedule.fired.Pairwise fun earlier later => earlier.nanos < later.nanos
  multiples {id : TimerId} {schedule : Schedule} : state.schedule id = some schedule →
    (state.timers.timer id).value.itInterval ≠ Timespec.zero → ∀ expiry ∈ schedule.fired,
      ∃ k, expiry.nanos = schedule.start.nanos +
        (k + 1) * (state.timers.timer id).value.itInterval.nanos
  rearms {id : TimerId} (now : Timespec) :
    (state.timers.timer id).value.itInterval ≠ Timespec.zero →
      ∃ result, Returns (state.timers.rearm id now) result

/-- A thread takes only timers that were started and not stopped since. -/
def TakesStarted (state : TimerState) : TimerAction → Prop
  | .wake t => ∀ id, state.timers.due t state.clock = some id → state.schedule id ≠ none
  | .finish t => ∀ taken event id, state.place t = .running taken event →
      state.timers.due t taken.now = some id → state.schedule id ≠ none
  | _ => True

/-- A thread calls only handlers of timers that were started and not stopped since. -/
def CallsStarted (state : TimerState) : TimerAction → Prop
  | .enter t => ∀ taken, state.place t = .calling taken → state.schedule taken.id ≠ none
  | _ => True

/-! ### The invariant -/

/-- The queues, the threads and the schedules, between any two steps. -/
structure Ruled (state : TimerState) : Prop where
  sound : state.timers.Sound
  current (t : ThreadId) :
    (state.timers.thread t).currentTimer = (state.place t).taken.map Taken.id
  runs {t : ThreadId} : state.place t ≠ .waiting → (state.timers.thread t).running = true
  punctual {t : ThreadId} {taken : Taken} : (state.place t).taken = some taken →
    taken.expirytime.nanos ≤ taken.now.nanos ∧ taken.now.nanos ≤ state.clock.nanos
  started {t : ThreadId} {id : TimerId} : id ∈ (state.timers.thread t).timerQueue →
    state.schedule id ≠ none
  used {id : TimerId} : state.schedule id ≠ none → (state.timers.timer id).inuse = .inuse
  regular {id : TimerId} {schedule : Schedule} : state.schedule id = some schedule →
    (state.timers.timer id).value.itInterval ≠ Timespec.zero →
      schedule.Regular (state.timers.timer id)

section Ruled

variable {state next : TimerState} {t : ThreadId} {id : TimerId} {now : Timespec} {c : Caller}

/-- What is ruled is orderly. -/
theorem Ruled.orderly (ruled : state.Ruled) : state.Orderly where
  sorted := ruled.sound.sorted
  once := ruled.sound.once
  inUse member := (ruled.sound.queued member).2.1
  punctual := ruled.punctual
  increasing found periodic := (ruled.regular found periodic).increasing
  multiples found periodic _ member := ((ruled.regular found periodic).fired member).2
  rearms _ periodic := rearmLoop_returns (Timespec.nanos_pos periodic) _ _

theorem initial_ruled (clock : Timespec) : (initial clock).Ruled where
  sound := TimerModule.initModule_sound
  current _ := rfl
  runs away := absurd rfl away
  punctual nothing := by cases nothing
  started member := by cases member
  used scheduled := absurd rfl scheduled
  regular found := by cases found

/-- The calls under way have no part in the rules. -/
theorem Ruled.setCall (ruled : state.Ruled) (c : Caller) (call : Call) : (state.setCall c call).Ruled :=
  { ruled with }

theorem Ruled.tick (ruled : state.Ruled) (later : state.clock.nanos ≤ now.nanos) :
    { state with clock := now : TimerState }.Ruled :=
  { ruled with
    punctual := fun taken =>
      ⟨(ruled.punctual taken).1, (ruled.punctual taken).2.trans later⟩ }

/-- A critical section about one timer. -/
theorem Ruled.change (ruled : state.Ruled) {timers : TimerModule} {schedule : Option Schedule}
    (spares : state.timers.Spares timers id) (sound : timers.Sound)
    (started : ∀ t, id ∈ (timers.thread t).timerQueue → schedule ≠ none)
    (used : schedule ≠ none → (timers.timer id).inuse = .inuse)
    (regular : ∀ s, schedule = some s → (timers.timer id).value.itInterval ≠ Timespec.zero →
      s.Regular (timers.timer id)) : (state.change id timers schedule).Ruled where
  sound := sound
  current t := by
    have before := ruled.current t
    cases runs : (state.timers.thread t).running with
    | true => exact (spares.thread runs).2.trans before
    | false =>
        have waits : state.place t = .waiting := by
          by_contra away
          rw [ruled.runs away] at runs
          cases runs
        rcases spares.resting runs with same | reset
        · exact same.trans before
        · refine reset.trans ?_
          change none = (state.place t).taken.map Taken.id
          rw [waits]
          rfl
  runs away := (spares.thread (ruled.runs away)).1
  punctual := ruled.punctual
  started {t other} member := by
    change Function.update state.schedule id schedule other ≠ none
    by_cases same : other = id
    · subst same
      rw [Function.update_self]
      exact started t member
    · rw [Function.update_of_ne same]
      exact ruled.started (spares.queue same member)
  used {other} scheduled := by
    change Function.update state.schedule id schedule other ≠ none at scheduled
    by_cases same : other = id
    · subst same
      rw [Function.update_self] at scheduled
      exact used scheduled
    · rw [Function.update_of_ne same] at scheduled
      exact (congrArg TimerNode.inuse (spares.timer same)).trans (ruled.used scheduled)
  regular {other s} found := by
    change Function.update state.schedule id schedule other = some s at found
    change (timers.timer other).value.itInterval ≠ Timespec.zero → s.Regular (timers.timer other)
    by_cases same : other = id
    · subst same
      rw [Function.update_self] at found
      exact regular s found
    · rw [Function.update_of_ne same] at found
      rw [spares.timer same]
      exact ruled.regular found

/-- The timer is in no queue afterwards. -/
theorem Ruled.unschedule (ruled : state.Ruled) {timers : TimerModule}
    (spares : state.timers.Spares timers id) (sound : timers.Sound)
    (unqueued : ∀ t, id ∉ (timers.thread t).timerQueue) :
    (state.change id timers none).Ruled := by
  apply ruled.change spares sound
  · exact fun t member => absurd member (unqueued t)
  · exact fun scheduled => absurd rfl scheduled
  · nofun

/-- What is not in use is in no queue. -/
theorem not_queued {timers : TimerModule} (sound : timers.Sound)
    (unused : (timers.timer id).inuse ≠ .inuse) (t : ThreadId) :
    id ∉ (timers.thread t).timerQueue :=
  fun member => unused (sound.queued member).2.1

/-- Fields are written that neither a list nor a schedule depends on. -/
theorem Ruled.write (ruled : state.Ruled) (id : TimerId) {write : TimerNode → TimerNode}
    (modest : TimerNode.Modest write)
    (expiry : ∀ timer, (write timer).expirytime = timer.expirytime)
    (value : ∀ timer, (write timer).value = timer.value) :
    (state.change id (state.timers.setTimer id write) (state.schedule id)).Ruled := by
  apply ruled.change .setTimer (ruled.sound.setTimer_modest modest expiry)
  · exact fun t member => ruled.started member
  · intro scheduled
    rw [TimerModule.setTimer_timer_self, (modest _).1]
    exact ruled.used scheduled
  · intro s found periodic
    rw [TimerModule.setTimer_timer_self, value] at periodic
    have regular := ruled.regular found periodic
    constructor
    · rw [TimerModule.setTimer_timer_self, value, expiry]
      exact regular.next
    · exact regular.increasing
    · rw [TimerModule.setTimer_timer_self, value, expiry]
      exact regular.fired

/-- A timer may be deleted. -/
theorem Ruled.delete (ruled : state.Ruled) (id : TimerId) (others : List (TimerId × Nat)) :
    (state.delete id others).Ruled := by
  have gone := ruled.sound.timerDelete id
  have changed : (state.change id (state.timers.timerDelete id) none).Ruled :=
    ruled.unschedule .timerDelete gone (not_queued gone TimerModule.timerDelete_inuse)
  exact { changed with }

/-- An invalid timer has no schedule. -/
theorem Ruled.schedule_none (ruled : state.Ruled) (invalid : state.timers.valid id = false) :
    state.schedule id = none := by
  by_contra scheduled
  exact of_decide_eq_false invalid (ruled.used scheduled)

/-- A periodic timer that has just been started expires after one interval. -/
theorem regular_rated {value : Setting} (abstime : Bool) (timer : TimerNode)
    (starts : value.val.itValue ≠ Timespec.zero)
    (periodic : (TimerModule.rated abstime value now timer).value.itInterval ≠ Timespec.zero) :
    Schedule.Regular ⟨if abstime then .zero else now, []⟩
      (TimerModule.rated abstime value now timer) := by
  unfold TimerModule.rated at *
  rw [if_pos starts] at periodic ⊢
  have interval := value.property.resolve_left periodic
  refine ⟨⟨0, ?_⟩, .nil, nofun⟩
  dsimp only
  rw [interval]
  cases abstime <;> simp

/-- A timer may be set. -/
theorem Ruled.set (ruled : state.Ruled) (id : TimerId) (abstime : Bool) (value : Setting)
    (now : Timespec) : (state.set c id abstime value now).Ruled := by
  have sound := ruled.sound
  have after : (state.timers.timerSettime id abstime value.val now).Sound := sound.timerSettime
  have spares : state.timers.Spares (state.timers.timerSettime id abstime value.val now) id :=
    sound.spares_timerSettime
  unfold TimerState.set
  apply Ruled.setCall
  cases valid : state.timers.valid id with
  | false =>
      rw [if_pos rfl, ruled.schedule_none valid]
      apply ruled.unschedule spares after
      apply not_queued after
      apply of_decide_eq_false
      rw [← TimerModule.valid, sound.timerSettime_valid, valid]
  | true =>
      have written : (state.timers.timerSettime id abstime value.val now).timer id =
          TimerModule.rated abstime value.val now (state.timers.timer id) :=
        sound.timerSettime_timer valid
      have inUse := of_decide_eq_true valid
      rw [if_neg (by decide)]
      by_cases stops : value.val.itValue = Timespec.zero
      · rw [if_pos stops]
        exact ruled.unschedule spares after fun t => sound.timerSettime_unqueued valid stops
      · rw [if_neg stops]
        apply ruled.change spares after
        · nofun
        · intro _
          rwa [written, (TimerModule.rated_modest _).1]
        · intro s found periodic
          cases found
          rw [written] at periodic ⊢
          exact regular_rated abstime _ stops periodic

/-- A timer may be added. -/
theorem Ruled.add (ruled : state.Ruled) (c : Caller) (prio : Int) (args : AddArgs)
    (starts : Bool) : (state.add c prio args starts).Ruled := by
  unfold TimerState.add
  split
  next timers returned =>
    obtain ⟨sound, creation⟩ := ruled.sound.timerCreate returned
    cases creation with
    | exhausted same =>
        subst same
        exact { ruled with }
    | @failed id free spares released =>
        have idle : state.schedule id = none := by
          by_contra scheduled
          rw [ruled.used scheduled] at free
          cases free
        have changed : (state.change id timers (state.schedule id)).Ruled := by
          rw [idle]
          exact ruled.unschedule spares sound (not_queued sound (by rw [released]; nofun))
        simp only [TimerState.change, Function.update_eq_self] at changed
        exact { changed with }
  next timers id returned =>
    obtain ⟨sound, creation⟩ := ruled.sound.timerCreate returned
    cases creation with
    | made free spares unqueued node =>
        apply Ruled.setCall
        exact { ruled.unschedule spares sound unqueued with }

/-- The thread is at its new place. -/
theorem setPlace_self {place : ThreadPlace} : (state.setPlace t place).place t = place :=
  Function.update_self ..

theorem setPlace_of_ne {place : ThreadPlace} {other : ThreadId} (different : other ≠ t) :
    (state.setPlace t place).place other = state.place other :=
  Function.update_of_ne different ..

/-- The caller is at its new place. -/
theorem setCall_self {call : Call} : (state.setCall c call).call c = call :=
  Function.update_self ..

theorem setCall_of_ne {call : Call} {other : Caller} (different : other ≠ c) :
    (state.setCall c call).call other = state.call other := Function.update_of_ne different ..

/-- A thread moves on, and its `current_timer` with it. -/
theorem Ruled.move (ruled : state.Ruled) {place : ThreadPlace} {current : Option TimerId}
    (runs : (state.timers.thread t).running = true) (same : current = place.taken.map Taken.id)
    (punctual : ∀ taken, place.taken = some taken →
      taken.expirytime.nanos ≤ taken.now.nanos ∧ taken.now.nanos ≤ state.clock.nanos) :
    ({ state with timers := state.timers.setCurrentTimer t current }.setPlace t place).Ruled where
  sound := ruled.sound.setCurrentTimer t current
  current other := by
    by_cases moved : other = t
    · subst moved
      rw [setPlace_self, ← same]
      exact TimerModule.setCurrentTimer_self
    · rw [setPlace_of_ne moved]
      exact (TimerModule.setCurrentTimer_of_ne moved).trans (ruled.current other)
  runs {other} away := by
    refine TimerModule.setCurrentTimer_thread.2.trans ?_
    by_cases moved : other = t
    · exact moved ▸ runs
    · rw [setPlace_of_ne moved] at away
      exact ruled.runs away
  punctual {other taken} := by
    by_cases moved : other = t
    · subst moved
      rw [setPlace_self]
      exact punctual taken
    · rw [setPlace_of_ne moved]
      exact ruled.punctual
  started member := ruled.started (TimerModule.setCurrentTimer_thread.1 ▸ member)
  used := ruled.used
  regular := ruled.regular

/-- A thread may call the handler of what it has taken. -/
theorem Ruled.enter (ruled : state.Ruled) {taken : Taken} (calls : state.place t = .calling taken)
    (event : Nat) : (state.setPlace t (.running taken event)).Ruled := by
  have same (other : ThreadId) :
      ((state.setPlace t (.running taken event)).place other).taken = (state.place other).taken := by
    by_cases moved : other = t
    · rw [moved, setPlace_self, calls]
      rfl
    · rw [setPlace_of_ne moved]
  refine { ruled with current := ?_, runs := ?_, punctual := ?_ }
  · intro other
    rw [same]
    exact ruled.current other
  · intro other away
    by_cases moved : other = t
    · subst moved
      exact ruled.runs (by rw [calls]; nofun)
    · rw [setPlace_of_ne moved] at away
      exact ruled.runs away
  · intro other found
    rw [same]
    exact ruled.punctual

/-- A thread may go back to its queue. -/
theorem Ruled.rest (ruled : state.Ruled) (away : state.place t ≠ .waiting) : (state.rest t).Ruled :=
  ruled.move (ruled.runs away) rfl nofun

/-- A periodic timer is taken for its next expiry. -/
theorem fire_regular {schedule : Schedule} {timer : TimerNode} {rearmed : Timespec × Nat} {k : Nat}
    (regular : schedule.Regular timer) (interval : 0 < timer.value.itInterval.nanos)
    (moved : rearmed.1.nanos = (timer.expirytime.add timer.value.itInterval).nanos +
      k * timer.value.itInterval.nanos) :
    Schedule.Regular { schedule with fired := schedule.fired ++ [timer.expirytime] }
      { timer with expirytime := rearmed.1, overrunCount := rearmed.2 } := by
  rw [Timespec.nanos_add] at moved
  obtain ⟨count, position⟩ := regular.next
  constructor
  · refine ⟨count + 1 + k, ?_⟩
    dsimp only
    rw [moved, position]
    simp only [Nat.add_mul]
    omega
  · refine List.pairwise_append.2 ⟨regular.increasing, List.pairwise_singleton .., ?_⟩
    intro earlier member later last
    rw [List.mem_singleton.1 last]
    exact (regular.fired member).1
  · intro expiry member
    dsimp only
    rcases List.mem_append.1 member with before | last
    · obtain ⟨below, multiple⟩ := regular.fired before
      exact ⟨by omega, multiple⟩
    · rw [List.mem_singleton.1 last]
      exact ⟨by omega, count, position⟩

/-- A thread may take the timer that is due, and queue it again if it is periodic. -/
theorem Ruled.take (ruled : state.Ruled) {rearmed : Timespec × Nat}
    (runs : (state.timers.thread t).running = true) (past : now.nanos ≤ state.clock.nanos)
    (due : state.timers.due t now = some id)
    (loop : (state.timers.timer id).value.itInterval ≠ Timespec.zero →
      Returns (state.timers.rearm id now) rearmed) : (state.take t id now rearmed).Ruled := by
  obtain ⟨member, expired⟩ := TimerModule.due_eq_some due
  obtain ⟨schedule, scheduled⟩ := Option.ne_none_iff_exists'.1 (ruled.started member)
  have spares : state.timers.Spares (state.timers.requeue t id rearmed) id := .requeue
  have changed : (state.change id (state.timers.requeue t id rearmed)
      ((state.schedule id).map fun schedule =>
        { schedule with fired := schedule.fired ++ [(state.timers.timer id).expirytime] })).Ruled := by
    rw [scheduled]
    apply ruled.change spares (ruled.sound.requeue member rearmed)
    · nofun
    · intro _
      have inUse := (ruled.sound.queued member).2.1
      rw [TimerModule.requeue_timer]
      split <;> exact inUse
    · intro s found periodic
      cases found
      rw [TimerModule.requeue_timer] at periodic ⊢
      split at periodic
      next repeats =>
        rw [if_pos repeats]
        obtain ⟨fuel, returned⟩ := loop repeats
        obtain ⟨k, moved⟩ := rearmLoop_eq_some returned
        exact fire_regular (ruled.regular scheduled repeats) (Timespec.nanos_pos repeats) moved
      next once => exact absurd periodic once
  refine changed.move (spares.thread runs).1 rfl ?_
  rintro _ ⟨⟩
  exact ⟨expired, past⟩

/-- What follows from looking at the queue. -/
theorem Ruled.look (ruled : state.Ruled) (runs : (state.timers.thread t).running = true)
    (past : now.nanos ≤ state.clock.nanos) (look : Look state t now next) : next.Ruled := by
  cases look with
  | wait quiet => exact ruled
  | take due loop => exact ruled.take runs past due loop

/-- A timer that is due was started. -/
theorem Ruled.started_of_due (ruled : state.Ruled) (due : state.timers.due t now = some id) :
    state.schedule id ≠ none :=
  ruled.started (TimerModule.due_eq_some due).1

/-- Every step keeps the rules. -/
theorem Ruled.step {action : TimerAction} (ruled : state.Ruled)
    (step : TimerStep state action next) : next.Ruled := by
  cases step with
  | tick later => exact ruled.tick later
  | wake waits runs look => exact ruled.look runs (Nat.le_refl _) look
  | enter calls => exact ruled.enter calls _
  | @finish _ t taken event runs returned look =>
      have away : state.place t ≠ .waiting := by rw [runs]; nofun
      have past := (ruled.punctual (t := t) (by rw [runs]; rfl)).2
      refine (ruled.rest away).look ?_ past look
      exact TimerModule.setCurrentTimer_thread.2.trans (ruled.runs away)
  | add free prio args starts => exact ruled.add ..
  | @fields c id args calls =>
      unfold TimerState.fields
      split
      · apply Ruled.setCall
        exact ruled.write id (fun _ => ⟨rfl, rfl, rfl, rfl⟩) (fun _ => rfl) fun _ => rfl
      · exact ruled.setCall ..
  | start free id =>
      unfold TimerState.start
      split
      · exact ruled.setCall ..
      · exact ruled
  | stop free id => exact ruled.setCall ..
  | clock calls => exact ruled.setCall ..
  | set calls => exact ruled.set ..
  | settime free id millisec =>
      unfold TimerState.settime
      split
      · exact ruled.write id (fun _ => ⟨rfl, rfl, rfl, rfl⟩) (fun _ => rfl) fun _ => rfl
      · exact ruled
  | delInvalid free invalid => exact ruled
  | delWait free valid waits => exact ruled.setCall ..
  | delOwn free valid own => exact ruled.delete ..
  | delOther free valid other goesOn => exact ruled.delete ..
  | resumeWait calls waits => exact ruled
  | resume calls goesOn => exact (ruled.delete ..).setCall ..

/-- Where the rules hold, only a started timer is taken. -/
theorem Ruled.takesStarted (ruled : state.Ruled) (action : TimerAction) :
    state.TakesStarted action := by
  cases action with
  | wake t => exact fun id due => ruled.started_of_due due
  | finish t => exact fun taken event id _ due => ruled.started_of_due due
  | _ => trivial

/-- Every run keeps the queues sorted and each timer in them once and only while it is in use; a
thread calls a handler after the expiry for which it took the timer, and it takes a timer only if it
was started and not stopped since; the expiries of a periodic timer are increasing multiples of its
interval after its start; and the loop for the next one ends. -/
theorem timers_orderly (clock : Timespec) {finish : TimerState}
    (path : timerSystem.Path (initial clock) finish) :
    path.Always Orderly ∧ path.StepsMeet TakesStarted := by
  have invariant {state next : TimerState} {action : TimerAction} (ruled : state.Ruled)
      (step : timerSystem.Step state action next) : next.Ruled := ruled.step step
  have always := path.always_of_invariant (initial_ruled clock) invariant
  constructor
  · exact always.mono fun _ => Ruled.orderly
  · exact path.stepsMeet_of_invariant (initial_ruled clock) invariant fun ruled =>
      ruled.takesStarted _

end Ruled

/-! ### A stop between the expiry and the call of the handler -/

section Stopped

/-- A timer that is to expire once, after a millisecond. -/
def oneArgs : AddArgs := ⟨1, by decide, .oneshot, false, false⟩

/-- The first element of `__timer_array`. -/
def firstTimer : TimerId := ⟨0, by decide⟩

/-- The first element of `thread_array`. -/
def firstThread : ThreadId := ⟨0, by decide⟩

/-- The timer is added. -/
def oneAdded : TimerState :=
  ((((initial .zero).add (.app 0) 0 oneArgs true).fields (.app 0) firstTimer oneArgs).setCall (.app 0)
    (.timed firstTimer false (.after .oneshot (.ms2ts 1)) .zero)).set (.app 0) firstTimer false
      (.after .oneshot (.ms2ts 1)) .zero

/-- The millisecond passes, and the thread of the timer takes it. -/
def oneTaken : TimerState :=
  { oneAdded with clock := .ms2ts 1 }.take firstThread firstTimer (.ms2ts 1) (.zero, 0)

/-- The timer is stopped before the thread calls the handler. -/
def oneStopped : TimerState :=
  ((oneTaken.stop (.app 0) firstTimer).setCall (.app 0)
    (.timed firstTimer false (.after .oneshot .zero) (.ms2ts 1))).set (.app 0) firstTimer false
      (.after .oneshot .zero) (.ms2ts 1)

/-- An idle caller that is no handler is free. -/
theorem free_app {state : TimerState} {n : Nat} (idle : state.call (.app n) = .idle) :
    state.Free (.app n) := ⟨idle, fun _ timer => nomatch timer⟩

/-- The calls and the thread lead there. -/
theorem exists_path_oneStopped : Nonempty (timerSystem.Path (initial .zero) oneStopped) := by
  have creates : TimerStep (initial .zero) (.add (.app 0) 0 oneArgs true) _ :=
    .add (free_app rfl) 0 oneArgs true
  have created : timerSystem.Path (initial .zero) _ := .snoc .nil _ _ creates
  have typed := created.snoc (.fields (.app 0)) _
    (@TimerStep.fields _ (.app 0) firstTimer oneArgs (by decide +kernel))
  have read := typed.snoc (.clock (.app 0)) _
    (@TimerStep.clock _ (.app 0) firstTimer false (.after .oneshot (.ms2ts 1)) (by decide +kernel))
  have added := read.snoc (.set (.app 0)) oneAdded
    (@TimerStep.set _ (.app 0) firstTimer false (.after .oneshot (.ms2ts 1)) .zero (by decide +kernel))
  have later := added.snoc (.tick (.ms2ts 1)) _ (TimerStep.tick (by decide +kernel))
  have taken := later.snoc (.wake firstThread) oneTaken
    (TimerStep.wake (by decide +kernel) (by decide +kernel)
      (Look.take (by decide +kernel) fun periodic => absurd (by decide +kernel) periodic))
  have stops := taken.snoc (.stop (.app 0) firstTimer) _
    (TimerStep.stop (free_app (by decide +kernel)) firstTimer)
  have readAgain := stops.snoc (.clock (.app 0)) _
    (@TimerStep.clock _ (.app 0) firstTimer false (.after .oneshot .zero) (by decide +kernel))
  exact ⟨readAgain.snoc (.set (.app 0)) oneStopped
    (@TimerStep.set _ (.app 0) firstTimer false (.after .oneshot .zero) (.ms2ts 1)
      (by decide +kernel))⟩

/-- A thread calls the handler of a timer that was stopped after the thread had taken it. -/
theorem stopped_timer_called : ∃ finish, ∃ path : timerSystem.Path (initial .zero) finish,
    ¬ path.StepsMeet CallsStarted := by
  obtain ⟨prior⟩ := exists_path_oneStopped
  have calls : oneStopped.place firstThread =
      .calling (oneAdded.taken firstTimer (.ms2ts 1)) := by decide +kernel
  refine ⟨_, prior.snoc (.enter firstThread) _ (TimerStep.enter calls), ?_⟩
  rintro ⟨_, met⟩
  exact met _ calls (by decide +kernel)

end Stopped

end TimerState

end Rsu.Osal
