import Mathlib.Algebra.Order.Ring.Int
import Rsu.Osal.TimerNode

/-!
# The lists of `os_timer.c` at every unlock

A function takes the timer it is about out of its list, writes it and puts it back at most once.
`SoundBut` describes the time in between: every other timer is as it should be, and this one is in
no list. The proofs about the functions are chains of its rules.
-/

namespace Rsu.Osal

/-- The reference count of a timer that no function is working on. -/
def TimerNode.Counted (timer : TimerNode) : Prop :=
  match timer.inuse with
  | .inuse => timer.refcount = 1
  | .free => timer.refcount = 0
  | .deleted => timer.refcount < 0

/-- A write that leaves alone whose timer it is and who refers to it. -/
def TimerNode.Modest (write : TimerNode → TimerNode) : Prop :=
  ∀ timer, (write timer).inuse = timer.inuse ∧ (write timer).event = timer.event ∧
    (write timer).thread = timer.thread ∧ (write timer).refcount = timer.refcount

namespace TimerModule

/-- The lists and nodes, but for the node of the timer that is being written. -/
structure SoundBut (m : TimerModule) (written : Option TimerId) : Prop where
  sorted (t : ThreadId) : Sorted (fun timer => (m.timer timer).expirytime) (m.thread t).timerQueue
  once (t : ThreadId) : (m.thread t).timerQueue.Nodup
  queued {t : ThreadId} {id : TimerId} : id ∈ (m.thread t).timerQueue →
    some id ≠ written ∧ (m.timer id).inuse = .inuse ∧ (m.timer id).thread = some t
  listed {id : TimerId} : id ∈ m.timerFreeList →
    some id ≠ written ∧ (m.timer id).inuse = .free
  counted (id : TimerId) : some id ≠ written → (m.timer id).Counted
  manned {id : TimerId} : some id ≠ written → (m.timer id).inuse = .inuse →
    ∃ t, (m.timer id).thread = some t ∧ (m.thread t).running = true
  resting {t : ThreadId} : t ∈ m.threadFreeList → (m.thread t).running = false
  restingOnce : m.threadFreeList.Nodup
  active {t : ThreadId} : t ∈ m.threadActiveList → (m.thread t).running = true

/-- The lists and nodes while nobody has the lock. -/
abbrev Sound (m : TimerModule) : Prop := m.SoundBut none

/-- What a function about one timer leaves as it was. -/
structure Spares (m next : TimerModule) (id : TimerId) : Prop where
  timer {other : TimerId} : other ≠ id → next.timer other = m.timer other
  queue {t : ThreadId} {other : TimerId} : other ≠ id →
    other ∈ (next.thread t).timerQueue → other ∈ (m.thread t).timerQueue
  thread {t : ThreadId} : (m.thread t).running = true →
    (next.thread t).running = true ∧ (next.thread t).currentTimer = (m.thread t).currentTimer
  resting {t : ThreadId} : (m.thread t).running = false →
    (next.thread t).currentTimer = (m.thread t).currentTimer ∨
      (next.thread t).currentTimer = none

section Fields

variable {m : TimerModule} {id other : TimerId} {t : ThreadId} {write again : TimerNode → TimerNode}

@[simp] theorem setTimer_timer_self : (m.setTimer id write).timer id = write (m.timer id) :=
  Function.update_self ..

theorem setTimer_timer_of_ne (different : other ≠ id) :
    (m.setTimer id write).timer other = m.timer other := Function.update_of_ne different ..

@[simp] theorem setTimer_thread : (m.setTimer id write).thread = m.thread := rfl

/-- Two writes of a node are one. -/
theorem setTimer_setTimer :
    (m.setTimer id write).setTimer id again = m.setTimer id fun timer => again (write timer) := by
  simp [setTimer]

/-- A node may be written before it is unlinked or after. -/
theorem setTimer_unlink : (m.setTimer id write).unlink other = (m.unlink other).setTimer id write :=
  rfl

@[simp] theorem unlink_timer : (m.unlink id).timer = m.timer := rfl

/-- An unlinked node is in no queue any more. -/
theorem mem_unlink : other ∈ ((m.unlink id).thread t).timerQueue ↔
    other ∈ (m.thread t).timerQueue ∧ other ≠ id := by
  simp [unlink]

theorem mem_unlink_free :
    other ∈ (m.unlink id).timerFreeList ↔ other ∈ m.timerFreeList ∧ other ≠ id := by
  simp [unlink]

@[simp] theorem setThread_timer {change : ThreadNode → ThreadNode} :
    (m.setThread t change).timer = m.timer := rfl

@[simp] theorem setThread_thread_self {change : ThreadNode → ThreadNode} :
    (m.setThread t change).thread t = change (m.thread t) := Function.update_self ..

@[simp] theorem threadDealloc_timer : (m.threadDealloc t).timer = m.timer := rfl

@[simp] theorem queueTimer_timer : (m.queueTimer t id).timer = m.timer := rfl

/-- The queue looks at nothing but the expiry. -/
theorem queueTimer_setTimer (same : (write (m.timer id)).expirytime = (m.timer id).expirytime) :
    (m.queueTimer t id).setTimer id write = (m.setTimer id write).queueTimer t id := by
  have expiries : (fun timer => ((m.setTimer id write).timer timer).expirytime) =
      fun timer => (m.timer timer).expirytime := by
    funext timer
    by_cases written : timer = id
    · rw [written, setTimer_timer_self, same]
    · rw [setTimer_timer_of_ne written]
  unfold queueTimer
  rw [expiries]
  rfl

end Fields

section Spares

variable {m next last : TimerModule} {id : TimerId}

theorem Spares.refl : m.Spares m id :=
  ⟨fun _ => rfl, fun _ member => member, fun running => ⟨running, rfl⟩, fun _ => .inl rfl⟩

/-- Two functions about one timer. -/
theorem Spares.trans (first : m.Spares next id) (second : next.Spares last id) :
    m.Spares last id where
  timer different := (second.timer different).trans (first.timer different)
  queue different member := first.queue different (second.queue different member)
  thread running := by
    obtain ⟨between, same⟩ := first.thread running
    obtain ⟨after, again⟩ := second.thread between
    exact ⟨after, again.trans same⟩
  resting {t} stopped := by
    have before := first.resting stopped
    cases between : (next.thread t).running with
    | true =>
        rw [(second.thread between).2]
        exact before
    | false =>
        rcases second.resting between with same | none
        · rw [same]
          exact before
        · exact .inr none

/-- Unlinking is about one timer. -/
theorem Spares.unlink : m.Spares (m.unlink id) id :=
  ⟨fun _ => rfl, fun _ member => (mem_unlink.1 member).1, fun running => ⟨running, rfl⟩,
    fun _ => .inl rfl⟩

theorem Spares.setTimer {write : TimerNode → TimerNode} : m.Spares (m.setTimer id write) id :=
  ⟨fun different => setTimer_timer_of_ne different, fun _ member => member,
    fun running => ⟨running, rfl⟩, fun _ => .inl rfl⟩

/-- The queue of the thread has one timer more. -/
theorem mem_queueTimer {t other : ThreadId} {timer : TimerId} :
    timer ∈ ((m.queueTimer t id).thread other).timerQueue ↔
      timer ∈ (m.thread other).timerQueue ∨ timer = id ∧ other = t := by
  unfold queueTimer setThread
  by_cases same : other = t
  · subst same
    dsimp only
    rw [Function.update_self, mem_insertTimer, or_comm]
    simp
  · dsimp only
    rw [Function.update_of_ne same]
    simp [same]

/-- Queueing changes nothing else of a thread. -/
theorem queueTimer_thread {t other : ThreadId} :
    ((m.queueTimer t id).thread other).running = (m.thread other).running ∧
      ((m.queueTimer t id).thread other).currentTimer = (m.thread other).currentTimer := by
  unfold queueTimer setThread
  by_cases same : other = t
  · subst same
    dsimp only
    rw [Function.update_self]
    exact ⟨rfl, rfl⟩
  · dsimp only
    rw [Function.update_of_ne same]
    exact ⟨rfl, rfl⟩

/-- Queueing is about one timer. -/
theorem Spares.queueTimer {t : ThreadId} : m.Spares (m.queueTimer t id) id where
  timer _ := rfl
  queue different member := (mem_queueTimer.1 member).resolve_right fun added => different added.1
  thread running := ⟨queueTimer_thread.1.trans running, queueTimer_thread.2⟩
  resting _ := .inl queueTimer_thread.2

end Spares

section SoundBut

variable {m : TimerModule} {id : TimerId} {t : ThreadId} {written : Option TimerId}
  {write : TimerNode → TimerNode}

/-- `list_unlink_ip` takes a timer out of every list. -/
theorem SoundBut.unlink (sound : m.SoundBut written) (id : TimerId)
    (only : written = none ∨ written = some id) :
    (m.unlink id).SoundBut (some id) where
  sorted t := (sound.sorted t).filter _
  once t := (sound.once t).filter _
  queued member := by
    obtain ⟨before, different⟩ := mem_unlink.1 member
    exact ⟨fun same => different (Option.some.inj same), (sound.queued before).2⟩
  listed member := by
    obtain ⟨before, different⟩ := mem_unlink_free.1 member
    exact ⟨fun same => different (Option.some.inj same), (sound.listed before).2⟩
  counted other different := by
    rcases only with rfl | rfl
    · exact sound.counted _ nofun
    · exact sound.counted _ different
  manned different inuse := by
    rcases only with rfl | rfl
    · exact sound.manned nofun inuse
    · exact sound.manned different inuse
  resting := sound.resting
  restingOnce := sound.restingOnce
  active := sound.active

/-- Whatever is written to it. -/
theorem SoundBut.setTimer (sound : m.SoundBut (some id)) (write : TimerNode → TimerNode) :
    (m.setTimer id write).SoundBut (some id) where
  sorted t := by
    refine (sound.sorted t).congr ?_
    intro timer member
    have different : timer ≠ id := fun same => (sound.queued member).1 (congrArg some same)
    rw [setTimer_timer_of_ne different]
  once := sound.once
  queued {t other} member := by
    obtain ⟨different, facts⟩ := sound.queued member
    rw [setTimer_timer_of_ne fun same => different (congrArg some same)]
    exact ⟨different, facts⟩
  listed {other} member := by
    obtain ⟨different, free⟩ := sound.listed member
    rw [setTimer_timer_of_ne fun same => different (congrArg some same)]
    exact ⟨different, free⟩
  counted other different := by
    rw [setTimer_timer_of_ne fun same => different (congrArg some same)]
    exact sound.counted other different
  manned {other} different inuse := by
    rw [setTimer_timer_of_ne fun same => different (congrArg some same)] at inuse ⊢
    exact sound.manned different inuse
  resting := sound.resting
  restingOnce := sound.restingOnce
  active := sound.active

/-- What a node must be when its function returns. -/
structure Settled (m : TimerModule) (id : TimerId) : Prop where
  counted : (m.timer id).Counted
  manned : (m.timer id).inuse = .inuse →
    ∃ t, (m.timer id).thread = some t ∧ (m.thread t).running = true

/-- A free node has to be unreferenced. -/
theorem settled_of_free (free : (m.timer id).inuse = .free)
    (unreferenced : (m.timer id).refcount = 0) : m.Settled id where
  counted := by
    unfold TimerNode.Counted
    rwa [free]
  manned inuse := by
    rw [free] at inuse
    cases inuse

/-- A deleted node has to have lost its last reference. -/
theorem settled_of_deleted (deleted : (m.timer id).inuse = .deleted)
    (unreferenced : (m.timer id).refcount < 0) : m.Settled id where
  counted := by
    unfold TimerNode.Counted
    rwa [deleted]
  manned inuse := by
    rw [deleted] at inuse
    cases inuse

/-- A timer that was in order is in order after such a write. -/
theorem SoundBut.settled_write (sound : m.Sound) (modest : TimerNode.Modest write) :
    ((m.unlink id).setTimer id write).Settled id := by
  obtain ⟨inuse, _, thread, refcount⟩ := modest (m.timer id)
  constructor
  · have counted := sound.counted id nofun
    unfold TimerNode.Counted at *
    rwa [setTimer_timer_self, unlink_timer, inuse, refcount]
  · rw [setTimer_timer_self, unlink_timer, inuse, thread]
    exact sound.manned nofun

/-- The timer stays in no list. -/
theorem SoundBut.settle (sound : m.SoundBut (some id)) (settled : m.Settled id) : m.Sound where
  sorted := sound.sorted
  once := sound.once
  queued member := ⟨nofun, (sound.queued member).2⟩
  listed member := ⟨nofun, (sound.listed member).2⟩
  counted other _ := by
    by_cases same : other = id
    · subst same
      exact settled.counted
    · exact sound.counted other fun equal => same (Option.some.inj equal)
  manned {other} _ inuse := by
    by_cases same : other = id
    · subst same
      exact settled.manned inuse
    · exact sound.manned (fun equal => same (Option.some.inj equal)) inuse
  resting := sound.resting
  restingOnce := sound.restingOnce
  active := sound.active

/-- The timer goes to the queue of its thread. -/
theorem SoundBut.queueTimer (sound : m.SoundBut (some id)) (settled : m.Settled id)
    (inuse : (m.timer id).inuse = .inuse) (thread : (m.timer id).thread = some t) :
    (m.queueTimer t id).Sound := by
  have settledSound := sound.settle settled
  have missing : id ∉ (m.thread t).timerQueue := fun member => (sound.queued member).1 rfl
  have queue (other : ThreadId) : ((m.queueTimer t id).thread other).timerQueue =
      if other = t then
        insertTimer (fun timer => (m.timer timer).expirytime) id (m.thread t).timerQueue
      else (m.thread other).timerQueue := by
    unfold TimerModule.queueTimer setThread
    by_cases same : other = t
    · subst same
      dsimp only
      rw [Function.update_self, if_pos rfl]
    · dsimp only
      rw [Function.update_of_ne same, if_neg same]
  constructor
  case sorted =>
    intro other
    rw [queue]
    split
    · exact (sound.sorted t).insertTimer
    · exact sound.sorted other
  case once =>
    intro other
    rw [queue]
    split
    · exact insertTimer_perm.nodup_iff.2 (List.nodup_cons.2 ⟨missing, sound.once t⟩)
    · exact sound.once other
  case queued =>
    intro other timer member
    rcases mem_queueTimer.1 member with before | ⟨rfl, rfl⟩
    · exact settledSound.queued before
    · exact ⟨nofun, inuse, thread⟩
  case listed => exact settledSound.listed
  case counted => exact settledSound.counted
  case manned =>
    intro other different used
    obtain ⟨own, found, runs⟩ := settledSound.manned different used
    exact ⟨own, found, queueTimer_thread.1.trans runs⟩
  case resting => exact fun member => queueTimer_thread.1.trans (sound.resting member)
  case restingOnce => exact sound.restingOnce
  case active => exact fun member => queueTimer_thread.1.trans (sound.active member)

/-- The timer goes to the free list. -/
theorem SoundBut.enlist (sound : m.SoundBut (some id)) (free : (m.timer id).inuse = .free)
    (unreferenced : (m.timer id).refcount = 0) :
    { m with timerFreeList := m.timerFreeList ++ [id] : TimerModule }.Sound where
  sorted := sound.sorted
  once := sound.once
  queued member := ⟨nofun, (sound.queued member).2⟩
  listed {other} member := by
    rcases List.mem_append.1 member with before | added
    · exact ⟨nofun, (sound.listed before).2⟩
    · rw [List.mem_singleton.1 added]
      exact ⟨nofun, free⟩
  counted := (sound.settle (settled_of_free free unreferenced)).counted
  manned := (sound.settle (settled_of_free free unreferenced)).manned
  resting := sound.resting
  restingOnce := sound.restingOnce
  active := sound.active

end SoundBut

/-! ### The functions -/

section Functions

variable {m : TimerModule} {id : TimerId} {t : ThreadId} {written : Option TimerId}
  {abstime : Bool} {value : Itimerspec} {now : Timespec}

/-- Deallocating is about one timer. -/
theorem Spares.timerDealloc : m.Spares (m.timerDealloc id) id := by
  have written : m.Spares ((m.unlink id).setTimer id fun timer =>
      { timer with thread := none, inuse := .free }) id := Spares.unlink.trans .setTimer
  exact ⟨written.timer, written.queue, written.thread, written.resting⟩

/-- A node without references may be deallocated, and all is in order again. -/
theorem SoundBut.timerDealloc (sound : m.SoundBut written)
    (only : written = none ∨ written = some id) (unreferenced : (m.timer id).refcount = 0) :
    (m.timerDealloc id).Sound := by
  apply ((sound.unlink id only).setTimer _).enlist
  · rw [setTimer_timer_self]
  · rw [setTimer_timer_self]
    exact unreferenced

/-- Releasing a reference is about one timer. -/
theorem Spares.timerDelref : m.Spares (m.timerDelref id) id := by
  unfold TimerModule.timerDelref
  dsimp only
  split
  · exact Spares.setTimer.trans .timerDealloc
  · exact .setTimer

/-- `__timer_delete` leaves everything else alone. -/
theorem Spares.timerDelete : m.Spares (m.timerDelete id) id :=
  (Spares.setTimer.trans .unlink).trans .timerDelref

/-- `__timer_delete` keeps the lists in order, also when the timer was deleted before. -/
theorem SoundBut.timerDelete (sound : m.Sound) (id : TimerId) : (m.timerDelete id).Sound := by
  have counted := sound.counted id nofun
  have taken := sound.unlink id (.inl rfl)
  unfold TimerModule.timerDelete TimerModule.timerDelref
  rw [setTimer_unlink, setTimer_setTimer]
  dsimp only
  rw [setTimer_timer_self, unlink_timer]
  dsimp only
  split
  next last =>
    apply (taken.setTimer _).timerDealloc (.inr rfl)
    rw [setTimer_timer_self]
    exact last
  next left =>
    apply (taken.setTimer _).settle
    apply settled_of_deleted
    · rw [setTimer_timer_self]
    · rw [setTimer_timer_self, unlink_timer]
      unfold TimerNode.Counted at counted
      dsimp only
      split at counted <;> omega

/-- A deleted node is not in use. -/
theorem timerDelete_inuse : ((m.timerDelete id).timer id).inuse ≠ .inuse := by
  unfold TimerModule.timerDelete TimerModule.timerDelref
  rw [setTimer_unlink, setTimer_setTimer]
  dsimp only
  split
  · unfold TimerModule.timerDealloc
    dsimp only
    rw [setTimer_timer_self]
    nofun
  · rw [setTimer_timer_self]
    nofun

/-- A timer in use has a running thread. -/
theorem SoundBut.exists_thread (sound : m.Sound) (valid : m.valid id = true) :
    ∃ t, (m.timer id).thread = some t ∧ (m.thread t).running = true :=
  sound.manned nofun (of_decide_eq_true valid)

/-- A node in use has one reference between two calls. -/
theorem SoundBut.refcount_of_valid (sound : m.Sound) (valid : m.valid id = true) :
    (m.timer id).refcount = 1 := by
  have counted := sound.counted id nofun
  unfold TimerNode.Counted at counted
  rwa [of_decide_eq_true valid] at counted

/-- What `__timer_settime` writes to a timer in use. -/
def rated (abstime : Bool) (value : Itimerspec) (now : Timespec) (timer : TimerNode) : TimerNode :=
  if value.itValue ≠ Timespec.zero then
    { timer with
      value := value
      expirytime := if abstime then value.itValue else now.add value.itValue
      armed := true }
  else { timer with value := value, armed := false }

/-- `__timer_settime` on a timer in use: the timer is written and, unless it is stopped, queued. -/
theorem SoundBut.timerSettime_eq (sound : m.Sound) (valid : m.valid id = true)
    (thread : (m.timer id).thread = some t) :
    m.timerSettime id abstime value now =
      if value.itValue ≠ Timespec.zero then
        ((m.unlink id).setTimer id (rated abstime value now)).queueTimer t id
      else (m.unlink id).setTimer id (rated abstime value now) := by
  have referenced := sound.refcount_of_valid valid
  have used : (m.timer id).inuse = .inuse := of_decide_eq_true valid
  unfold timerSettime timerAddref timerDelref TimerModule.valid rated
  by_cases starts : value.itValue ≠ Timespec.zero
  · simp only [if_pos starts, setTimer_timer_self, used, setTimer_unlink, setTimer_setTimer,
      thread, unlink_timer]
    rw [queueTimer_setTimer rfl]
    simp [setTimer_setTimer, referenced]
  · simp only [if_neg starts, setTimer_timer_self, used, setTimer_unlink, setTimer_setTimer,
      unlink_timer]
    simp [referenced]

/-- `__timer_settime` on any other timer puts one that is free to the end of the free list. -/
theorem timerSettime_of_invalid (invalid : m.valid id = false) :
    m.timerSettime id abstime value now =
      if (m.timer id).refcount = 0 then m.timerDealloc id else m := by
  have still : (m.timerAddref id).valid id = false := by
    unfold TimerModule.valid timerAddref at *
    rw [setTimer_timer_self]
    exact invalid
  have unchanged : (m.setTimer id fun timer =>
      { timer with refcount := timer.refcount + 1 - 1 }) = m := by
    simp [setTimer]
  unfold timerSettime
  rw [if_pos still]
  unfold timerDelref timerAddref
  rw [setTimer_setTimer, unchanged]

/-- A new rate leaves what the lists depend on. -/
theorem rated_modest : TimerNode.Modest (rated abstime value now) := by
  intro timer
  unfold rated
  split <;> exact ⟨rfl, rfl, rfl, rfl⟩

/-- `__timer_settime` keeps the lists in order. -/
theorem SoundBut.timerSettime (sound : m.Sound) :
    (m.timerSettime id abstime value now).Sound := by
  cases valid : m.valid id with
  | true =>
      obtain ⟨t, thread, running⟩ := sound.exists_thread valid
      obtain ⟨inuse, _, sameThread, _⟩ :=
        (rated_modest : TimerNode.Modest (rated abstime value now)) (m.timer id)
      have taken := (sound.unlink id (.inl rfl)).setTimer (rated abstime value now)
      have settled : ((m.unlink id).setTimer id (rated abstime value now)).Settled id :=
        sound.settled_write rated_modest
      rw [sound.timerSettime_eq valid thread]
      split
      · apply taken.queueTimer settled
        · rw [setTimer_timer_self, unlink_timer, inuse]
          exact of_decide_eq_true valid
        · rwa [setTimer_timer_self, unlink_timer, sameThread]
      · exact taken.settle settled
  | false =>
      rw [timerSettime_of_invalid valid]
      split
      next unreferenced => exact sound.timerDealloc (.inl rfl) unreferenced
      next => exact sound

/-- A valid timer gets its rate. -/
theorem SoundBut.timerSettime_timer (sound : m.Sound) (valid : m.valid id = true) :
    (m.timerSettime id abstime value now).timer id = rated abstime value now (m.timer id) := by
  obtain ⟨t, thread, _⟩ := sound.exists_thread valid
  rw [sound.timerSettime_eq valid thread]
  split
  · rw [queueTimer_timer, setTimer_timer_self, unlink_timer]
  · rw [setTimer_timer_self, unlink_timer]

/-- `timer_settime` neither takes a node into use nor out of it. -/
theorem SoundBut.timerSettime_valid (sound : m.Sound) :
    (m.timerSettime id abstime value now).valid id = m.valid id := by
  cases valid : m.valid id with
  | true =>
      unfold TimerModule.valid
      rw [sound.timerSettime_timer valid, (rated_modest _).1]
      exact valid
  | false =>
      rw [timerSettime_of_invalid valid]
      split
      · unfold TimerModule.timerDealloc TimerModule.valid
        dsimp only
        rw [setTimer_timer_self]
        rfl
      · exact valid

/-- A timer that is stopped is in no queue. -/
theorem SoundBut.timerSettime_unqueued (sound : m.Sound) (valid : m.valid id = true)
    (stops : value.itValue = Timespec.zero) :
    id ∉ ((m.timerSettime id abstime value now).thread t).timerQueue := by
  obtain ⟨own, thread, _⟩ := sound.exists_thread valid
  rw [sound.timerSettime_eq valid thread, if_neg (not_not_intro stops), setTimer_thread, mem_unlink]
  exact fun member => member.2 rfl

/-- `__timer_settime` leaves everything else alone. -/
theorem SoundBut.spares_timerSettime (sound : m.Sound) :
    m.Spares (m.timerSettime id abstime value now) id := by
  cases valid : m.valid id with
  | true =>
      obtain ⟨t, thread, running⟩ := sound.exists_thread valid
      rw [sound.timerSettime_eq valid thread]
      have written : m.Spares ((m.unlink id).setTimer id (rated abstime value now)) id :=
        Spares.unlink.trans .setTimer
      split
      · exact written.trans .queueTimer
      · exact written
  | false =>
      rw [timerSettime_of_invalid valid]
      split
      · exact .timerDealloc
      · exact .refl

/-- A timer that is due is queued and has expired. -/
theorem due_eq_some (due : m.due t now = some id) :
    id ∈ (m.thread t).timerQueue ∧ (m.timer id).expirytime.nanos ≤ now.nanos := by
  unfold TimerModule.due at due
  split at due
  · cases due
  next head rest queue =>
    split at due
    · cases due
    next expired =>
      cases due
      rw [Timespec.compare_neg_iff] at expired
      exact ⟨queue ▸ List.mem_cons_self .., Nat.le_of_not_lt expired⟩

/-- A timer that is in a queue can be taken out, written and put back. -/
theorem SoundBut.requeue (sound : m.Sound) (member : id ∈ (m.thread t).timerQueue)
    (rearmed : Timespec × Nat) : (m.requeue t id rearmed).Sound := by
  obtain ⟨_, used, thread⟩ := sound.queued member
  have taken := sound.unlink id (.inl rfl)
  unfold TimerModule.requeue
  dsimp only
  split
  · apply (taken.setTimer _).queueTimer
    · exact sound.settled_write fun _ => ⟨rfl, rfl, rfl, rfl⟩
    · rwa [setTimer_timer_self]
    · rwa [setTimer_timer_self]
  · exact taken.settle ⟨sound.counted id nofun, sound.manned nofun⟩

/-- Queueing a timer again is about one timer. -/
theorem Spares.requeue {rearmed : Timespec × Nat} : m.Spares (m.requeue t id rearmed) id := by
  unfold TimerModule.requeue
  dsimp only
  split
  · exact (Spares.unlink.trans .setTimer).trans .queueTimer
  · exact .unlink

/-- Only a periodic timer is written when it is queued again. -/
theorem requeue_timer {rearmed : Timespec × Nat} : (m.requeue t id rearmed).timer id =
    if (m.timer id).value.itInterval ≠ Timespec.zero then
      { m.timer id with expirytime := rearmed.1, overrunCount := rearmed.2 }
    else m.timer id := by
  unfold TimerModule.requeue
  dsimp only
  rw [unlink_timer]
  split
  · rw [queueTimer_timer, setTimer_timer_self, unlink_timer]
  · rfl

/-- The current timer is no part of a queue. -/
theorem setCurrentTimer_thread {current : Option TimerId} {other : ThreadId} :
    ((m.setCurrentTimer t current).thread other).timerQueue = (m.thread other).timerQueue ∧
      ((m.setCurrentTimer t current).thread other).running = (m.thread other).running := by
  unfold setCurrentTimer setThread
  by_cases same : other = t
  · subst same
    dsimp only
    rw [Function.update_self]
    exact ⟨rfl, rfl⟩
  · dsimp only
    rw [Function.update_of_ne same]
    exact ⟨rfl, rfl⟩

/-- The thread has its current timer. -/
theorem setCurrentTimer_self {current : Option TimerId} :
    ((m.setCurrentTimer t current).thread t).currentTimer = current := by
  rw [setCurrentTimer, setThread_thread_self]

theorem setCurrentTimer_of_ne {current : Option TimerId} {other : ThreadId}
    (different : other ≠ t) :
    ((m.setCurrentTimer t current).thread other).currentTimer = (m.thread other).currentTimer :=
  congrArg ThreadNode.currentTimer (Function.update_of_ne different ..)

/-- A thread may have any current timer. -/
theorem SoundBut.setCurrentTimer (sound : m.Sound) (t : ThreadId) (current : Option TimerId) :
    (m.setCurrentTimer t current).Sound where
  sorted other := by
    rw [setCurrentTimer_thread.1]
    exact sound.sorted other
  once other := by
    rw [setCurrentTimer_thread.1]
    exact sound.once other
  queued member := by
    rw [setCurrentTimer_thread.1] at member
    exact sound.queued member
  listed := sound.listed
  counted := sound.counted
  manned different inuse := by
    obtain ⟨own, thread, running⟩ := sound.manned different inuse
    exact ⟨own, thread, setCurrentTimer_thread.2.trans running⟩
  resting member := setCurrentTimer_thread.2.trans (sound.resting member)
  restingOnce := sound.restingOnce
  active member := setCurrentTimer_thread.2.trans (sound.active member)

/-- Fields that no list depends on are written in place. -/
theorem SoundBut.setTimer_modest (sound : m.Sound) {write : TimerNode → TimerNode}
    (modest : TimerNode.Modest write)
    (expiry : ∀ timer, (write timer).expirytime = timer.expirytime) :
    (m.setTimer id write).Sound := by
  have same (other : TimerId) : ((m.setTimer id write).timer other).expirytime =
        (m.timer other).expirytime ∧
      ((m.setTimer id write).timer other).inuse = (m.timer other).inuse ∧
      ((m.setTimer id write).timer other).thread = (m.timer other).thread ∧
      ((m.setTimer id write).timer other).refcount = (m.timer other).refcount := by
    by_cases written : other = id
    · subst written
      obtain ⟨inuse, _, thread, refcount⟩ := modest (m.timer other)
      rw [setTimer_timer_self]
      exact ⟨expiry _, inuse, thread, refcount⟩
    · rw [setTimer_timer_of_ne written]
      exact ⟨rfl, rfl, rfl, rfl⟩
  constructor
  case sorted => exact fun t => (sound.sorted t).congr fun timer _ => (same timer).1
  case once => exact sound.once
  case queued =>
    intro t other member
    obtain ⟨different, inuse, thread⟩ := sound.queued member
    exact ⟨different, (same other).2.1.trans inuse, (same other).2.2.1.trans thread⟩
  case listed =>
    intro other member
    obtain ⟨different, free⟩ := sound.listed member
    exact ⟨different, (same other).2.1.trans free⟩
  case counted =>
    intro other different
    have counted := sound.counted other different
    unfold TimerNode.Counted at *
    rwa [(same other).2.1, (same other).2.2.2]
  case manned =>
    intro other different inuse
    obtain ⟨t, thread, running⟩ := sound.manned different ((same other).2.1.symm.trans inuse)
    exact ⟨t, (same other).2.2.1.trans thread, running⟩
  case resting => exact sound.resting
  case restingOnce => exact sound.restingOnce
  case active => exact sound.active

/-- A new module is in order. -/
theorem initModule_sound : initModule.Sound where
  sorted _ := .nil
  once _ := .nil
  queued member := by cases member
  listed _ := ⟨nofun, rfl⟩
  counted _ _ := rfl
  manned _ inuse := by cases inuse
  resting _ := rfl
  restingOnce := List.nodup_finRange _
  active member := by cases member

end Functions

/-! ### New timers -/

section Create

variable {m next : TimerModule} {id : TimerId} {t : ThreadId} {written : Option TimerId}
  {prio : Int}

/-- A thread of the priority is found among the active ones, or the first free one becomes active.
-/
theorem threadFor_cases (found : m.threadFor prio = some (next, t)) :
    t ∈ m.threadActiveList ∧ next = m ∨
      ∃ rest, m.threadFreeList = t :: rest ∧
        next = { m.setThread t fun _ => threadInit prio with
          threadFreeList := rest, threadActiveList := m.threadActiveList ++ [t] } := by
  unfold threadFor at found
  split at found
  next matching =>
    cases found
    exact .inl ⟨List.mem_of_find?_eq_some matching, rfl⟩
  next =>
    unfold threadAlloc at found
    split at found
    · cases found
    next free =>
      cases found
      exact .inr ⟨_, free, rfl⟩

/-- Looking for a thread changes no node. -/
theorem threadFor_timer (found : m.threadFor prio = some (next, t)) : next.timer = m.timer := by
  rcases threadFor_cases found with ⟨_, rfl⟩ | ⟨_, _, rfl⟩ <;> rfl

/-- A thread that does not run has no timers, so it can be set up again. -/
theorem SoundBut.renew (sound : m.SoundBut written) (stopped : (m.thread t).running = false)
    (node : ThreadNode) (empty : node.timerQueue = []) (free active : List ThreadId)
    (resting : ∀ {other}, other ∈ free → (Function.update m.thread t node other).running = false)
    (restingOnce : free.Nodup)
    (runs : ∀ {other}, other ∈ active →
      (Function.update m.thread t node other).running = true) :
    { m with
      thread := Function.update m.thread t node
      threadFreeList := free
      threadActiveList := active : TimerModule }.SoundBut written where
  sorted other := by
    by_cases same : other = t
    · subst same
      dsimp only
      rw [Function.update_self, empty]
      exact .nil
    · dsimp only
      rw [Function.update_of_ne same]
      exact sound.sorted other
  once other := by
    by_cases same : other = t
    · subst same
      dsimp only
      rw [Function.update_self, empty]
      exact .nil
    · dsimp only
      rw [Function.update_of_ne same]
      exact sound.once other
  queued {other timer} member := by
    by_cases same : other = t
    · subst same
      dsimp only at member
      rw [Function.update_self, empty] at member
      cases member
    · dsimp only at member
      rw [Function.update_of_ne same] at member
      exact sound.queued member
  listed := sound.listed
  counted := sound.counted
  manned different inuse := by
    obtain ⟨own, thread, running⟩ := sound.manned different inuse
    have other : own ≠ t := by
      rintro rfl
      rw [stopped] at running
      cases running
    exact ⟨own, thread, by dsimp only; rwa [Function.update_of_ne other]⟩
  resting := resting
  restingOnce := restingOnce
  active := runs

/-- A thread that did not run had no timer to lose. -/
theorem Spares.renew (stopped : (m.thread t).running = false) (node : ThreadNode)
    (empty : node.timerQueue = [] ∧ node.currentTimer = none) (free active : List ThreadId)
    (id : TimerId) : m.Spares { m with
      thread := Function.update m.thread t node
      threadFreeList := free
      threadActiveList := active : TimerModule } id where
  timer _ := rfl
  queue {other timer} _ member := by
    by_cases same : other = t
    · subst same
      dsimp only at member
      rw [Function.update_self, empty.1] at member
      cases member
    · dsimp only at member
      rwa [Function.update_of_ne same] at member
  resting {other} _ := by
    by_cases same : other = t
    · subst same
      dsimp only
      rw [Function.update_self, empty.2]
      exact .inr rfl
    · dsimp only
      rw [Function.update_of_ne same]
      exact .inl rfl
  thread {other} running := by
    have different : other ≠ t := by
      rintro rfl
      rw [stopped] at running
      cases running
    dsimp only
    rw [Function.update_of_ne different]
    exact ⟨running, rfl⟩

theorem update_running_of_ne {node : ThreadNode} {other : ThreadId} (different : other ≠ t) :
    (Function.update m.thread t node other).running = (m.thread other).running := by
  rw [Function.update_of_ne different]

/-- A thread for the priority that runs, or that `pthread_create` has just started. -/
theorem SoundBut.hire (sound : m.SoundBut written) (found : m.threadFor prio = some (next, t)) :
    (next.setThread t fun thread => { thread with running := true }).SoundBut written ∧
      ∀ id, m.Spares (next.setThread t fun thread => { thread with running := true }) id := by
  rcases threadFor_cases found with ⟨active, rfl⟩ | ⟨rest, free, rfl⟩
  · -- its thread runs already
    have same : (next.setThread t fun thread => { thread with running := true }) = next := by
      have running := sound.active active
      have node : { next.thread t with running := true } = next.thread t := by
        rw [← running]
      simp [setThread, node]
    rw [same]
    exact ⟨sound, fun _ => .refl⟩
  · have once := sound.restingOnce
    rw [free] at once
    obtain ⟨missing, onceRest⟩ := List.nodup_cons.1 once
    have stopped := sound.resting (free ▸ List.mem_cons_self ..)
    simp only [setThread, Function.update_self, Function.update_idem]
    set node : ThreadNode := { threadInit prio with running := true }
    have renewed := sound.renew stopped node rfl rest (m.threadActiveList ++ [t])
    refine ⟨renewed ?_ onceRest ?_, Spares.renew stopped node ⟨rfl, rfl⟩ _ _⟩
    · intro other member
      have different : other ≠ t := fun same => missing (same ▸ member)
      rw [update_running_of_ne different]
      exact sound.resting (free ▸ List.mem_cons_of_mem _ member)
    · intro other member
      rcases List.mem_append.1 member with before | added
      · have different : other ≠ t := by
          rintro rfl
          rw [sound.active before] at stopped
          cases stopped
        rw [update_running_of_ne different]
        exact sound.active before
      · rw [List.mem_singleton.1 added, Function.update_self]

/-- A thread that could not be started goes back. -/
theorem SoundBut.dismiss (sound : m.SoundBut written) (found : m.threadFor prio = some (next, t))
    (stopped : (next.thread t).running ≠ true) :
    (next.threadDealloc t).SoundBut written ∧ ∀ id, m.Spares (next.threadDealloc t) id := by
  rcases threadFor_cases found with ⟨active, rfl⟩ | ⟨rest, free, rfl⟩
  · exact absurd (sound.active active) stopped
  · have once := sound.restingOnce
    rw [free] at once
    obtain ⟨missing, onceRest⟩ := List.nodup_cons.1 once
    have resting := sound.resting (free ▸ List.mem_cons_self ..)
    refine ⟨?_, Spares.renew resting (threadInit prio) ⟨rfl, rfl⟩ _ _⟩
    apply sound.renew resting (threadInit prio) rfl
    · intro other member
      by_cases same : other = t
      · rw [same, Function.update_self]
        rfl
      · rw [update_running_of_ne same]
        rcases List.mem_append.1 member with before | added
        · exact sound.resting (free ▸ List.mem_cons_of_mem _ before)
        · exact absurd (List.mem_singleton.1 added) same
    · exact List.nodup_append.2 ⟨onceRest, List.nodup_singleton t, by
        rintro other member _ added rfl
        exact missing (List.mem_singleton.1 added ▸ member)⟩
    · intro other member
      obtain ⟨inActive, different⟩ := List.mem_filter.1 member
      have different : other ≠ t := by simpa using different
      rw [update_running_of_ne different]
      rcases List.mem_append.1 inActive with before | added
      · exact sound.active before
      · exact absurd (List.mem_singleton.1 added) different

/-! #### `__timer_create` -/

/-- A node is taken out of the free list. -/
theorem timerAlloc_cases (found : m.timerAlloc = some (next, id)) :
    id ∈ m.timerFreeList ∧
      next = (m.unlink id).setTimer id fun timer => { timer with inuse := .inuse, refcount := 1 } := by
  unfold timerAlloc at found
  split at found
  · cases found
  next free =>
    cases found
    exact ⟨free ▸ List.mem_cons_self .., rfl⟩

/-- The bail-out returns the node to the free list, and then once more. -/
theorem SoundBut.unlockBail (sound : m.SoundBut (some id))
    (referenced : (m.timer id).refcount = 1) : (m.unlockBail id).Sound := by
  unfold TimerModule.unlockBail TimerModule.timerDelref
  dsimp only
  rw [setTimer_timer_self]
  dsimp only
  rw [if_pos (by omega)]
  have first := (sound.setTimer fun timer => { timer with refcount := timer.refcount - 1 }).timerDealloc
    (.inr rfl) (by rw [setTimer_timer_self]; dsimp only; omega)
  apply first.timerDealloc (.inl rfl)
  unfold TimerModule.timerDealloc
  dsimp only
  rw [setTimer_timer_self, unlink_timer, setTimer_timer_self]
  dsimp only
  omega

/-- The error path is about one timer. -/
theorem Spares.unlockBail : m.Spares (m.unlockBail id) id :=
  Spares.timerDelref.trans .timerDealloc

/-- The error path gives the node back. -/
theorem unlockBail_inuse : ((m.unlockBail id).timer id).inuse = .free := by
  unfold TimerModule.unlockBail TimerModule.timerDealloc
  dsimp only
  rw [setTimer_timer_self]

/-- A node as `__timer_create` returns it. -/
def created (event : Nat) (t : ThreadId) (timer : TimerNode) : TimerNode :=
  { timer with event := event, armed := false, inuse := .inuse, thread := some t, refcount := 1 }

/-- What `__timer_create` can do. -/
inductive Creation (m : TimerModule) (event : Nat) (next : TimerModule) : Option TimerId → Prop
  | exhausted (same : next = m) : Creation m event next none
  | failed {id : TimerId} (free : (m.timer id).inuse = .free) (spares : m.Spares next id)
      (released : (next.timer id).inuse = .free) : Creation m event next none
  | made {id : TimerId} {t : ThreadId} (free : (m.timer id).inuse = .free)
      (spares : m.Spares next id) (unqueued : ∀ t, id ∉ (next.thread t).timerQueue)
      (node : next.timer id = created event t (m.timer id)) : Creation m event next (some id)

/-- `__timer_create` keeps the lists in order, whether it succeeds or not. -/
theorem SoundBut.timerCreate (sound : m.Sound) {event : Nat} {starts : Bool}
    {result : Option TimerId} (returned : m.timerCreate event prio starts = (next, result)) :
    next.Sound ∧ m.Creation event next result := by
  unfold TimerModule.timerCreate at returned
  split at returned
  next =>
    cases returned
    exact ⟨sound, .exhausted rfl⟩
  next allocated id found =>
    obtain ⟨listed, rfl⟩ := timerAlloc_cases found
    have free := (sound.listed listed).2
    dsimp only at returned
    rw [setTimer_setTimer] at returned
    set node : TimerNode → TimerNode := fun timer =>
      { timer with event := event, inuse := .inuse, refcount := 1 } with nodeEq
    have writing := (sound.unlink id (.inl rfl)).setTimer node
    have spared : m.Spares ((m.unlink id).setTimer id node) id := Spares.unlink.trans .setTimer
    split at returned
    next =>
      cases returned
      refine ⟨writing.unlockBail ?_, .failed free (spared.trans .unlockBail) unlockBail_inuse⟩
      rw [setTimer_timer_self]
    next hired t thread =>
      split at returned
      next runs =>
        cases returned
        obtain ⟨manned, sparedThread⟩ := writing.hire thread
        set staffed := hired.setThread t fun thread => { thread with running := true } with staffedEq
        have node : (staffed.setTimer id fun timer =>
            { timer with armed := false, thread := some t }).timer id =
            created event t (m.timer id) := by
          rw [setTimer_timer_self, staffedEq, setThread_timer, threadFor_timer thread,
            setTimer_timer_self, unlink_timer]
          rfl
        have running : (staffed.thread t).running = true := by
          rw [staffedEq, setThread_thread_self]
        have written := manned.setTimer fun timer => { timer with armed := false, thread := some t }
        refine ⟨written.settle ⟨?_, ?_⟩, .made (t := t) free ?_ ?_ node⟩
        · rw [node]
          rfl
        · intro _
          exact ⟨t, by rw [node]; rfl, running⟩
        · exact (spared.trans (sparedThread id)).trans .setTimer
        · intro other member
          exact (written.queued member).1 rfl
      next stopped =>
        cases returned
        obtain ⟨unmanned, sparedThread⟩ := writing.dismiss thread fun runs => stopped (.inl runs)
        refine ⟨unmanned.unlockBail ?_,
          .failed free ((spared.trans (sparedThread id)).trans .unlockBail) unlockBail_inuse⟩
        rw [threadDealloc_timer, threadFor_timer thread, setTimer_timer_self]

end Create

end TimerModule

end Rsu.Osal
