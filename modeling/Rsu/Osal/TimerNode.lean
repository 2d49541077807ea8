import Mathlib.Data.List.FinRange
import Mathlib.Logic.Function.Basic
import Rsu.Osal.Timer
import Rsu.Osal.Timespec

/-!
# The nodes and queues of `os_timer.c`

Timers and threads are nodes of two arrays. A timer is in the free list, in the queue of its thread
or in no list. What the functions do with the lists while they hold `__timer_mutex` is one
definition each.
-/

namespace Rsu.Osal

/-- `TIMER_MAX` -/
def timerMax : Nat := 256

/-- `THREAD_MAXNODES` -/
def threadMaxnodes : Nat := 16

/-- An element of `__timer_array`. -/
abbrev TimerId := Fin timerMax

/-- An element of `thread_array`. -/
abbrev ThreadId := Fin threadMaxnodes

/-- `inuse` of a timer. -/
inductive Inuse where
  /-- `TIMER_FREE` -/
  | free
  /-- `TIMER_INUSE` -/
  | inuse
  /-- `TIMER_DELETED` -/
  | deleted
  deriving DecidableEq

/-- `struct itimerspec` -/
structure Itimerspec where
  itInterval : Timespec
  itValue : Timespec
  deriving DecidableEq

/-- `struct timer_node` without its links. All timers have the same clock. -/
structure TimerNode where
  /-- The callback with its argument: the number of the `os_timer_add` that set them. -/
  event : Nat
  type : TimerType
  millisec : Nat
  value : Itimerspec
  expirytime : Timespec
  armed : Bool
  inuse : Inuse
  thread : Option ThreadId
  refcount : Int
  overrunCount : Nat

/-- `struct thread_node` without its links. -/
structure ThreadNode where
  prio : Int
  running : Bool
  timerQueue : List TimerId
  currentTimer : Option TimerId

/-- The global variables. -/
structure TimerModule where
  timer : TimerId → TimerNode
  thread : ThreadId → ThreadNode
  timerFreeList : List TimerId
  threadFreeList : List ThreadId
  threadActiveList : List ThreadId

/-- `thread_init` -/
def threadInit (prio : Int) : ThreadNode :=
  { prio := prio, running := false, timerQueue := [], currentTimer := none }

/-- Where a timer goes that expires at `expirytime`: in front of the first that expires later. -/
def insertTimer (expirytime : TimerId → Timespec) (insert : TimerId) : List TimerId → List TimerId
  | [] => [insert]
  | timer :: rest =>
      if (expirytime insert).compare (expirytime timer) < 0 then insert :: timer :: rest
      else timer :: insertTimer expirytime insert rest

namespace TimerModule

/-- `init_module` on static memory. -/
def initModule : TimerModule where
  timer _ :=
    { event := 0
      type := .interval
      millisec := 0
      value := ⟨.zero, .zero⟩
      expirytime := .zero
      armed := false
      inuse := .free
      thread := none
      refcount := 0
      overrunCount := 0 }
  thread _ := threadInit 0
  timerFreeList := List.finRange timerMax
  threadFreeList := List.finRange threadMaxnodes
  threadActiveList := []

/-- Fields of a timer are written. -/
def setTimer (m : TimerModule) (id : TimerId) (write : TimerNode → TimerNode) : TimerModule :=
  { m with timer := Function.update m.timer id (write (m.timer id)) }

/-- Fields of a thread are written. -/
def setThread (m : TimerModule) (t : ThreadId) (write : ThreadNode → ThreadNode) : TimerModule :=
  { m with thread := Function.update m.thread t (write (m.thread t)) }

/-- `list_unlink_ip` on the links of a timer, which leaves the list it is in. -/
def unlink (m : TimerModule) (id : TimerId) : TimerModule :=
  { m with
    thread := fun t =>
      { m.thread t with timerQueue := (m.thread t).timerQueue.filter (· ≠ id) }
    timerFreeList := m.timerFreeList.filter (· ≠ id) }

/-- `__timer_thread_queue_timer` -/
def queueTimer (m : TimerModule) (t : ThreadId) (id : TimerId) : TimerModule :=
  m.setThread t fun thread =>
    { thread with
      timerQueue := insertTimer (fun timer => (m.timer timer).expirytime) id thread.timerQueue }

/-- `timer_valid` -/
def valid (m : TimerModule) (id : TimerId) : Bool := (m.timer id).inuse = .inuse

/-- `__timer_alloc` -/
def timerAlloc (m : TimerModule) : Option (TimerModule × TimerId) :=
  match m.timerFreeList with
  | [] => none
  | id :: _ =>
      some ((m.unlink id).setTimer id fun timer => { timer with inuse := .inuse, refcount := 1 }, id)

/-- `__timer_dealloc` -/
def timerDealloc (m : TimerModule) (id : TimerId) : TimerModule :=
  let m := (m.unlink id).setTimer id fun timer => { timer with thread := none, inuse := .free }
  { m with timerFreeList := m.timerFreeList ++ [id] }

/-- `timer_addref` -/
def timerAddref (m : TimerModule) (id : TimerId) : TimerModule :=
  m.setTimer id fun timer => { timer with refcount := timer.refcount + 1 }

/-- `timer_delref` -/
def timerDelref (m : TimerModule) (id : TimerId) : TimerModule :=
  let m := m.setTimer id fun timer => { timer with refcount := timer.refcount - 1 }
  if (m.timer id).refcount = 0 then m.timerDealloc id else m

/-- `__timer_thread_find_matching` -/
def findMatching (m : TimerModule) (prio : Int) : Option ThreadId :=
  m.threadActiveList.find? fun t => (m.thread t).prio = prio

/-- `__timer_thread_alloc` -/
def threadAlloc (m : TimerModule) (prio : Int) : Option (TimerModule × ThreadId) :=
  match m.threadFreeList with
  | [] => none
  | t :: rest =>
      let m := m.setThread t fun _ => threadInit prio
      some ({ m with threadFreeList := rest, threadActiveList := m.threadActiveList ++ [t] }, t)

/-- `__timer_thread_dealloc` -/
def threadDealloc (m : TimerModule) (t : ThreadId) : TimerModule :=
  { m with
    threadActiveList := m.threadActiveList.filter (· ≠ t)
    threadFreeList := m.threadFreeList ++ [t] }

/-- The thread for a priority. -/
def threadFor (m : TimerModule) (prio : Int) : Option (TimerModule × ThreadId) :=
  match m.findMatching prio with
  | some t => some (m, t)
  | none => m.threadAlloc prio

/-- The end of `__timer_create` when something failed. -/
def unlockBail (m : TimerModule) (id : TimerId) : TimerModule :=
  (m.timerDelref id).timerDealloc id

/-- `__timer_create` for the callback `event`; `starts` tells whether `pthread_create` succeeds. -/
def timerCreate (m : TimerModule) (event : Nat) (prio : Int) (starts : Bool) :
    TimerModule × Option TimerId :=
  match m.timerAlloc with
  | none => (m, none)
  | some (m, id) =>
      let m := m.setTimer id fun timer => { timer with event := event }
      match m.threadFor prio with
      | none => (m.unlockBail id, none)
      | some (m, t) =>
          if (m.thread t).running = true ∨ starts = true then
            let m := m.setThread t fun thread => { thread with running := true }
            (m.setTimer id fun timer => { timer with armed := false, thread := some t }, some id)
          else ((m.threadDealloc t).unlockBail id, none)

/-- `__timer_delete` after its wait. -/
def timerDelete (m : TimerModule) (id : TimerId) : TimerModule :=
  ((m.setTimer id fun timer => { timer with inuse := .deleted }).unlink id).timerDelref id

/-- `__timer_settime` while it holds the lock. -/
def timerSettime (m : TimerModule) (id : TimerId) (abstime : Bool) (value : Itimerspec)
    (now : Timespec) : TimerModule :=
  let m := m.timerAddref id
  if m.valid id = false then m.timerDelref id
  else
    let m := m.setTimer id fun timer => { timer with value := value }
    let m := (m.unlink id).setTimer id fun timer => { timer with armed := false }
    let m :=
      if value.itValue ≠ Timespec.zero then
        let m := m.setTimer id fun timer =>
          { timer with
            expirytime := if abstime then value.itValue else now.add value.itValue }
        let m :=
          match (m.timer id).thread with
          | some t => m.queueTimer t id
          | none => m
        m.setTimer id fun timer => { timer with armed := true }
      else m
    m.timerDelref id

/-- The loop for a periodic timer that expired. -/
def rearm (m : TimerModule) (id : TimerId) (now : Timespec) (fuel : Nat) :
    Option (Timespec × Nat) :=
  rearmLoop (m.timer id).value.itInterval now fuel
    ((m.timer id).expirytime.add (m.timer id).value.itInterval) 0

/-- The timer `thread_func` takes from the queue next. -/
def due (m : TimerModule) (t : ThreadId) (now : Timespec) : Option TimerId :=
  match (m.thread t).timerQueue with
  | [] => none
  | id :: _ => if now.compare (m.timer id).expirytime < 0 then none else some id

/-- `thread_func` for a timer that is due, to the call of `thread_expire_timer`. A periodic timer
comes back with what the loop made of its expiry. -/
def requeue (m : TimerModule) (t : ThreadId) (id : TimerId) (rearmed : Timespec × Nat) :
    TimerModule :=
  let m := m.unlink id
  if (m.timer id).value.itInterval ≠ Timespec.zero then
    let m := m.setTimer id fun timer =>
      { timer with expirytime := rearmed.1, overrunCount := rearmed.2 }
    m.queueTimer t id
  else m

/-- The writes of `thread_expire_timer`, before its unlock and after its lock. -/
def setCurrentTimer (m : TimerModule) (t : ThreadId) (timer : Option TimerId) : TimerModule :=
  m.setThread t fun thread => { thread with currentTimer := timer }

end TimerModule

/-! ### The queue of a thread -/

section Queue

variable {expirytime other : TimerId → Timespec} {id timer : TimerId} {queue : List TimerId}

/-- A queue in the order in which its timers expire. -/
def Sorted (expirytime : TimerId → Timespec) (queue : List TimerId) : Prop :=
  queue.Pairwise fun left right => (expirytime left).nanos ≤ (expirytime right).nanos

/-- Inserting adds the timer and changes nothing else. -/
theorem insertTimer_perm : (insertTimer expirytime id queue).Perm (id :: queue) := by
  induction queue with
  | nil => exact .refl _
  | cons timer rest inductionHypothesis =>
      rw [insertTimer]
      split
      · exact .refl _
      · exact (inductionHypothesis.cons timer).trans (.swap id timer rest)

/-- Membership in a queue with one timer more. -/
theorem mem_insertTimer : timer ∈ insertTimer expirytime id queue ↔ timer = id ∨ timer ∈ queue :=
  insertTimer_perm.mem_iff.trans List.mem_cons

/-- A sorted queue stays sorted. -/
theorem Sorted.insertTimer (sorted : Sorted expirytime queue) :
    Sorted expirytime (insertTimer expirytime id queue) := by
  induction queue with
  | nil => exact List.pairwise_singleton ..
  | cons timer rest inductionHypothesis =>
      obtain ⟨first, sortedRest⟩ := List.pairwise_cons.1 sorted
      rw [Osal.insertTimer]
      split
      next earlier =>
        rw [Timespec.compare_neg_iff] at earlier
        refine List.pairwise_cons.2 ⟨?_, sorted⟩
        intro later member
        rcases List.mem_cons.1 member with rfl | inRest
        · omega
        · have := first later inRest
          omega
      next notEarlier =>
        rw [Timespec.compare_neg_iff] at notEarlier
        refine List.pairwise_cons.2 ⟨?_, inductionHypothesis sortedRest⟩
        intro later member
        rcases mem_insertTimer.1 member with rfl | inRest
        · omega
        · exact first later inRest

/-- Only the expiries of its own timers matter to a queue. -/
theorem Sorted.congr (sorted : Sorted expirytime queue)
    (same : ∀ timer ∈ queue, other timer = expirytime timer) : Sorted other queue := by
  refine sorted.imp_of_mem ?_
  intro left right leftMember rightMember ordered
  rwa [same left leftMember, same right rightMember]

/-- What is left of a sorted queue is sorted. -/
theorem Sorted.filter (sorted : Sorted expirytime queue) (keep : TimerId → Bool) :
    Sorted expirytime (queue.filter keep) :=
  List.Pairwise.filter keep sorted

end Queue

end Rsu.Osal
