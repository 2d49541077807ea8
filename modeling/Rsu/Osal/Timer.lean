import Mathlib.Data.Nat.Notation

/-!
# `osal_timer.c`

One software timer as its owner sees it. A timer always has a positive period:
`os_timer_add` and `os_timer_settime` reject any other.
-/

namespace Rsu.Osal

/-- `timer_node::type`. -/
inductive TimerType where
  | oneshot
  | interval
  deriving DecidableEq, Repr

/-- The fields of `timer_node` its owner can change, and the milliseconds until
the next expiry while it waits in the queue of its thread. -/
structure OsalTimer where
  type : TimerType
  millisec : Nat
  due : Option Nat
  positive : 0 < millisec

namespace OsalTimer

/-- `osal_timer_create` with `TIMER_STOPPED`. -/
def create (type : TimerType) (millisec : Nat) (positive : 0 < millisec) : OsalTimer where
  type := type
  millisec := millisec
  due := none
  positive := positive

/-- `osal_timer_start`: a running timer starts again. -/
def start (timer : OsalTimer) : OsalTimer := { timer with due := some timer.millisec }

/-- `osal_timer_stop`. -/
def stop (timer : OsalTimer) : OsalTimer := { timer with due := none }

/-- `os_timer_settime`: a period of 0 is rejected and the old one stays. -/
def settime (timer : OsalTimer) (millisec : Nat) : OsalTimer :=
  if positive : 0 < millisec then { timer with millisec := millisec, positive := positive }
  else timer

/-- `osal_timer_change`: goes on to start the timer when the period was rejected. -/
def change (timer : OsalTimer) (millisec : Nat) : OsalTimer :=
  ((timer.stop).settime millisec).start

/-- The thread takes an expired timer from its queue; an interval timer goes back. -/
def expire (timer : OsalTimer) : OsalTimer :=
  match timer.type with
  | .oneshot => { timer with due := none }
  | .interval => { timer with due := some timer.millisec }

/-- Time passes; the thread expires a timer before its time is exceeded. -/
def elapse (timer : OsalTimer) (millisec : Nat) : OsalTimer :=
  { timer with due := timer.due.map (· - millisec) }

/-- The timer lets this time pass before it expires. -/
def lasts (timer : OsalTimer) (millisec : Nat) : Bool := timer.due.all fun left => millisec ≤ left

@[simp] theorem start_due (timer : OsalTimer) : timer.start.due = some timer.millisec := rfl

@[simp] theorem start_millisec (timer : OsalTimer) : timer.start.millisec = timer.millisec := rfl

@[simp] theorem stop_due (timer : OsalTimer) : timer.stop.due = none := rfl

@[simp] theorem elapse_due (timer : OsalTimer) (millisec : Nat) :
    (timer.elapse millisec).due = timer.due.map (· - millisec) := rfl

@[simp] theorem start_type (timer : OsalTimer) : timer.start.type = timer.type := rfl

@[simp] theorem stop_type (timer : OsalTimer) : timer.stop.type = timer.type := rfl

@[simp] theorem change_type (timer : OsalTimer) (millisec : Nat) :
    (timer.change millisec).type = timer.type := by
  by_cases positive : 0 < millisec <;> simp [change, settime, positive]

@[simp] theorem expire_type (timer : OsalTimer) : timer.expire.type = timer.type := by
  unfold expire
  split <;> rfl

/-- A change to a positive period takes effect at once. -/
theorem change_millisec (timer : OsalTimer) {millisec : Nat} (positive : 0 < millisec) :
    (timer.change millisec).millisec = millisec := by
  simp [change, settime, positive]

/-- A change to 0 restarts the timer with the period it had. -/
theorem change_zero_millisec (timer : OsalTimer) : (timer.change 0).millisec = timer.millisec := by
  simp [change, settime, stop]

/-- A change always leaves the timer running. -/
@[simp] theorem change_due (timer : OsalTimer) (millisec : Nat) :
    (timer.change millisec).due = some (timer.change millisec).millisec := rfl

end OsalTimer

end Rsu.Osal
