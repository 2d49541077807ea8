import Mathlib.Tactic.SplitIfs
import Rsu.Semantics.Loop

/-!
# Time in `os_timer.c`

The helpers for `struct timespec`, and the loop that moves a periodic timer past the time that was
read. Every helper is arithmetic on nanoseconds.
-/

namespace Rsu.Osal

/-- `struct timespec` of a time that is not negative. -/
@[ext]
structure Timespec where
  sec : Nat
  nsec : Nat
  valid : nsec < 1000000000
  deriving DecidableEq

namespace Timespec

/-- `zero_timespec` -/
def zero : Timespec := ⟨0, 0, by decide⟩

/-- `ms2ts` -/
def ms2ts (ms : Nat) : Timespec := ⟨ms / 1000, ms % 1000 * 1000000, by omega⟩

/-- `timespec_compare` -/
def compare (left right : Timespec) : Int :=
  if left.sec < right.sec then -1
  else if left.sec > right.sec then 1
  else if left.nsec < right.nsec then -1
  else if left.nsec > right.nsec then 1
  else 0

/-- `timespec_add` -/
def add (left right : Timespec) : Timespec :=
  if carries : left.nsec + right.nsec ≥ 1000000000 then
    ⟨left.sec + right.sec + 1, left.nsec + right.nsec - 1000000000, by
      have := left.valid
      have := right.valid
      omega⟩
  else ⟨left.sec + right.sec, left.nsec + right.nsec, by omega⟩

/-- The time in nanoseconds. -/
def nanos (time : Timespec) : Nat := time.sec * 1000000000 + time.nsec

variable {left right interval now expiry : Timespec}

@[simp] theorem nanos_zero : zero.nanos = 0 := rfl

@[simp] theorem nanos_add (left right : Timespec) :
    (left.add right).nanos = left.nanos + right.nanos := by
  unfold add
  split <;> simp only [nanos] <;> omega

/-- The comparison is that of the nanoseconds. -/
theorem compare_neg_iff : left.compare right < 0 ↔ left.nanos < right.nanos := by
  have leftValid := left.valid
  have rightValid := right.valid
  unfold compare nanos
  split_ifs <;> omega

/-- A time is the number of its nanoseconds. -/
theorem eq_of_nanos_eq (same : left.nanos = right.nanos) : left = right := by
  have leftValid := left.valid
  have rightValid := right.valid
  unfold nanos at same
  ext <;> omega

/-- Only the zero time has none. -/
theorem nanos_pos (nonzero : interval ≠ zero) : 0 < interval.nanos := by
  apply Nat.pos_of_ne_zero
  intro none
  exact nonzero (eq_of_nanos_eq none)

end Timespec

/-- `DELAYTIMER_MAX` -/
def delaytimerMax : Nat := 2147483647

/-- The loop of `thread_func` that moves a periodic timer on: its expiry and its overrun count
after at most `fuel` tests. -/
def rearmLoop (interval now : Timespec) : Nat → Timespec → Nat → Option (Timespec × Nat)
  | 0, _, _ => none
  | fuel + 1, expirytime, overrunCount =>
      if expirytime.compare now < 0 then
        rearmLoop interval now fuel (expirytime.add interval)
          (if overrunCount < delaytimerMax then overrunCount + 1 else overrunCount)
      else some (expirytime, overrunCount)

section Rearm

variable {interval now expirytime : Timespec} {overrunCount fuel : Nat}

/-- With an interval the loop ends, at the latest after as many turns as there are nanoseconds to
catch up. -/
theorem rearmLoop_returns (positive : 0 < interval.nanos) (expirytime : Timespec)
    (overrunCount : Nat) :
    ∃ result, Returns (fun fuel => rearmLoop interval now fuel expirytime overrunCount) result := by
  have ends : ∀ turns (expirytime : Timespec) overrunCount,
      now.nanos ≤ expirytime.nanos + turns →
        ∃ result, rearmLoop interval now (turns + 1) expirytime overrunCount = some result := by
    intro turns
    induction turns with
    | zero =>
        intro expirytime overrunCount reached
        refine ⟨(expirytime, overrunCount), if_neg ?_⟩
        rw [Timespec.compare_neg_iff]
        omega
    | succ turns inductionHypothesis =>
        intro expirytime overrunCount reached
        rw [rearmLoop]
        split
        · apply inductionHypothesis
          rw [Timespec.nanos_add]
          omega
        · exact ⟨_, rfl⟩
  obtain ⟨result, returned⟩ := ends now.nanos expirytime overrunCount (Nat.le_add_left ..)
  exact ⟨result, _, returned⟩

/-- The loop adds intervals. -/
theorem rearmLoop_eq_some {result : Timespec × Nat}
    (returned : rearmLoop interval now fuel expirytime overrunCount = some result) :
    ∃ count, result.1.nanos = expirytime.nanos + count * interval.nanos := by
  induction fuel generalizing expirytime overrunCount with
  | zero => cases returned
  | succ fuel inductionHypothesis =>
      rw [rearmLoop] at returned
      split at returned
      · obtain ⟨count, sum⟩ := inductionHypothesis returned
        refine ⟨count + 1, ?_⟩
        rw [sum, Timespec.nanos_add, Nat.succ_mul]
        omega
      · cases returned
        exact ⟨0, by simp⟩

end Rearm

end Rsu.Osal
