import Mathlib.Tactic.Common

/-!
# `osal_queue.c`

A message queue of fixed size. Every message of the modules is sent with the
same priority and without waiting, so a queue is a list that takes new messages
at its end while it is not full.
-/

namespace Rsu.Osal

universe u

/-- `osal_queue_t`, with the messages it holds, oldest first. -/
structure OsalQueue (Msg : Type u) where
  maxMsgs : Nat
  msgs : List Msg
  bounded : msgs.length ≤ maxMsgs

namespace OsalQueue

variable {Msg : Type u}

/-- `osal_queue_create` -/
def create (maxMsgs : Nat) : OsalQueue Msg where
  maxMsgs := maxMsgs
  msgs := []
  bounded := Nat.zero_le maxMsgs

/-- The queue has room for a message. -/
def hasRoom (queue : OsalQueue Msg) : Bool := queue.msgs.length < queue.maxMsgs

/-- `osal_queue_send` with `OSAL_NO_WAIT`: whether it succeeded, and the queue. -/
def send (queue : OsalQueue Msg) (msg : Msg) : Bool × OsalQueue Msg :=
  if room : queue.msgs.length < queue.maxMsgs then
    (true, { queue with
      msgs := queue.msgs ++ [msg]
      bounded := by
        rw [List.length_append, List.length_singleton]
        exact room })
  else (false, queue)

/-- `osal_queue_recv`: the oldest message, and the queue without it. -/
def recv (queue : OsalQueue Msg) : Option (Msg × OsalQueue Msg) :=
  match queue with
  | ⟨_, [], _⟩ => none
  | ⟨maxMsgs, msg :: rest, bounded⟩ =>
      some (msg, ⟨maxMsgs, rest, Nat.le_of_succ_le bounded⟩)

@[simp] theorem create_msgs (maxMsgs : Nat) : (create maxMsgs : OsalQueue Msg).msgs = [] := rfl

@[simp] theorem send_fst (queue : OsalQueue Msg) (msg : Msg) :
    (queue.send msg).1 = queue.hasRoom := by
  by_cases room : queue.msgs.length < queue.maxMsgs <;> simp [send, hasRoom, room]

/-- A message is appended exactly when there is room for it. -/
theorem send_msgs (queue : OsalQueue Msg) (msg : Msg) :
    (queue.send msg).2.msgs = if queue.hasRoom then queue.msgs ++ [msg] else queue.msgs := by
  by_cases room : queue.msgs.length < queue.maxMsgs <;> simp [send, hasRoom, room]

/-- Receiving takes the messages in the order they were sent. -/
theorem recv_eq_some {queue rest : OsalQueue Msg} {msg : Msg}
    (received : queue.recv = some (msg, rest)) : queue.msgs = msg :: rest.msgs := by
  obtain ⟨maxMsgs, msgs, bounded⟩ := queue
  cases msgs with
  | nil => simp [recv] at received
  | cons first others =>
      simp only [recv, Option.some.injEq, Prod.mk.injEq] at received
      obtain ⟨rfl, rfl⟩ := received
      rfl

end OsalQueue

end Rsu.Osal
