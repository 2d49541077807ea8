import Mathlib.Data.List.Basic
import Mathlib.Tactic.Common

/-!
# Delta queues

A delta queue keeps timed entries in the order in which they leave. Every entry
stores its delay relative to its predecessor, a clock tick decrements the first
entry only, and at most one entry leaves on a tick. `schedule` gives the tick on
which each entry leaves when nothing but ticks happens; `schedule_tick` says that a
tick changes neither who leaves nor when. The remaining lemmas say how an edit
of the queue moves the schedule of the entries behind it. `deadlines` adds the
delays up, which is what they mean as long as every entry leaves on its tick.
-/

namespace Rsu.Data.DeltaQueue

universe u

variable {α : Type u}

/-- The number of ticks an entry stays once it is first: at least one. -/
def service (delta : Int) : Nat := max delta.toNat 1

/-- One clock tick: the entry that leaves, if any, and what remains. -/
def tick : List (α × Int) → Option α × List (α × Int)
  | [] => (none, [])
  | (entry, delta) :: rest =>
      if delta - 1 ≤ 0 then (some entry, rest) else (none, (entry, delta - 1) :: rest)

/-- Lower the delays of all entries of a queue. -/
def lower (amount : Int) (queue : List (α × Int)) : List (α × Int) :=
  queue.map fun entry => (entry.1, entry.2 - amount)

/-- Every entry with the tick on which it leaves, seen from tick `now`. -/
def schedule (now : Nat) : List (α × Int) → List (α × Nat)
  | [] => []
  | (entry, delta) :: rest =>
      (entry, now + service delta) :: schedule (now + service delta) rest

@[simp] theorem schedule_nil (now : Nat) : schedule now ([] : List (α × Int)) = [] := rfl

@[simp] theorem schedule_cons (now : Nat) (entry : α) (delta : Int) (rest : List (α × Int)) :
    schedule now ((entry, delta) :: rest) =
      (entry, now + service delta) :: schedule (now + service delta) rest := rfl

@[simp] theorem lower_keys (amount : Int) (queue : List (α × Int)) :
    (lower amount queue).map Prod.fst = queue.map Prod.fst := by
  simp [lower]

/-- A service takes time. -/
theorem service_pos (delta : Int) : 0 < service delta := by
  unfold service
  omega

/-- Scheduling does not reorder the entries. -/
@[simp] theorem schedule_keys (now : Nat) (queue : List (α × Int)) :
    (schedule now queue).map Prod.fst = queue.map Prod.fst := by
  induction queue generalizing now with
  | nil => rfl
  | cons first rest inductionHypothesis => simp [schedule, inductionHypothesis]

/-- Every entry leaves after `now`. -/
theorem lt_of_mem_schedule {now : Nat} {queue : List (α × Int)} {item : α × Nat}
    (member : item ∈ schedule now queue) : now < item.2 := by
  induction queue generalizing now with
  | nil => cases member
  | cons first rest inductionHypothesis =>
      have positive := service_pos first.2
      rcases List.mem_cons.1 member with rfl | later
      · exact Nat.lt_add_of_pos_right positive
      · have bound := inductionHypothesis later
        omega

/-- A tick changes neither who leaves nor when. -/
theorem schedule_tick (now : Nat) (queue : List (α × Int)) :
    schedule now queue =
      (tick queue).1.toList.map (fun entry => (entry, now + 1)) ++
        schedule (now + 1) (tick queue).2 := by
  cases queue with
  | nil => rfl
  | cons first rest =>
      obtain ⟨entry, delta⟩ := first
      by_cases leaves : delta - 1 ≤ 0
      · have single : service delta = 1 := by unfold service; omega
        simp [tick, leaves, single]
      · have shifted : now + 1 + service (delta - 1) = now + service delta := by
          unfold service
          omega
        simp [tick, leaves, shifted]

/-- Two association lists with the same keys that agree with one partial
function are equal. -/
theorem eq_of_keys_of_lookup {due : α → Option Nat} {left right : List (α × Nat)}
    (keys : left.map Prod.fst = right.map Prod.fst)
    (leftDue : ∀ item ∈ left, due item.1 = some item.2)
    (rightDue : ∀ item ∈ right, due item.1 = some item.2) : left = right := by
  induction left generalizing right with
  | nil => simpa using keys.symm
  | cons first rest inductionHypothesis =>
      cases right with
      | nil => cases keys
      | cons other others =>
          simp only [List.map_cons, List.cons.injEq] at keys
          have value : first.2 = other.2 := by
            have known := leftDue first List.mem_cons_self
            rw [keys.1, rightDue other List.mem_cons_self] at known
            exact (Option.some.inj known).symm
          rw [Prod.ext keys.1 value, inductionHypothesis keys.2
            (fun item member => leftDue item (List.mem_cons_of_mem first member))
            (fun item member => rightDue item (List.mem_cons_of_mem other member))]

/-- Entries that wait at most one tick each do not notice that their delays
are lowered; every other queue does. -/
theorem schedule_lower_iff {amount : Int} (positive : 1 ≤ amount) (now : Nat)
    (queue : List (α × Int)) :
    schedule now (lower amount queue) = schedule now queue ↔
      ∀ entry ∈ queue, entry.2 ≤ 1 := by
  induction queue generalizing now with
  | nil => simp [lower]
  | cons first rest inductionHypothesis =>
      obtain ⟨entry, delta⟩ := first
      simp only [lower, List.map_cons, schedule_cons, List.cons.injEq, Prod.mk.injEq, true_and,
        List.forall_mem_cons]
      rw [← lower]
      constructor
      · rintro ⟨sameTick, sameRest⟩
        have small : delta ≤ 1 := by
          unfold service at sameTick
          omega
        rw [sameTick, inductionHypothesis] at sameRest
        exact ⟨small, sameRest⟩
      · rintro ⟨small, smallRest⟩
        have sameTick : now + service (delta - amount) = now + service delta := by
          unfold service
          omega
        rw [sameTick, inductionHypothesis]
        exact ⟨rfl, smallRest⟩

/-- A queue seen from a later tick leaves later, unless it is empty. -/
theorem schedule_later_iff {now later : Nat} (after : now < later) (queue : List (α × Int)) :
    schedule now queue = schedule later queue ↔ queue = [] := by
  cases queue with
  | nil => simp
  | cons first rest =>
      simp only [schedule, List.cons.injEq, Prod.mk.injEq, true_and, reduceCtorEq, iff_false]
      omega

/-- The tick on which the last entry of a queue leaves. -/
def finish (now : Nat) : List (α × Int) → Nat
  | [] => now
  | (_, delta) :: rest => finish (now + service delta) rest

/-- The entries behind a prefix are scheduled from its finish on. -/
theorem schedule_append (now : Nat) (front back : List (α × Int)) :
    schedule now (front ++ back) = schedule now front ++ schedule (finish now front) back := by
  induction front generalizing now with
  | nil => rfl
  | cons first rest inductionHypothesis =>
      simp [schedule, finish, inductionHypothesis]

/-- Putting an entry in front and lowering all others by its delay keeps the
schedule of the others only in the stated case. -/
theorem schedule_push_iff {delay delta : Int} (nonneg : 0 ≤ delay) (shorter : delay < delta)
    (now : Nat) (entry : α) (rest : List (α × Int)) :
    schedule (now + service delay) (lower delay ((entry, delta) :: rest)) =
      schedule now ((entry, delta) :: rest) ↔ 1 ≤ delay ∧ ∀ other ∈ rest, other.2 ≤ 1 := by
  rw [lower, List.map_cons, ← lower, schedule_cons, schedule_cons]
  by_cases positive : 1 ≤ delay
  · have sameTick : now + service delay + service (delta - delay) = now + service delta := by
      unfold service
      omega
    simp only [positive, sameTick, List.cons.injEq, true_and, schedule_lower_iff positive]
  · have differs : now + service delay + service (delta - delay) ≠ now + service delta := by
      unfold service
      omega
    simp [positive, differs]

/-- Every entry with its absolute deadline, the sum of the delays up to it. -/
def deadlines (base : Int) : List (α × Int) → List (α × Int)
  | [] => []
  | (entry, delta) :: rest => (entry, base + delta) :: deadlines (base + delta) rest

@[simp] theorem deadlines_nil (base : Int) : deadlines base ([] : List (α × Int)) = [] := rfl

@[simp] theorem deadlines_cons (base : Int) (entry : α) (delta : Int) (rest : List (α × Int)) :
    deadlines base ((entry, delta) :: rest) =
      (entry, base + delta) :: deadlines (base + delta) rest := rfl

/-- Computing the deadlines does not reorder the entries. -/
@[simp] theorem deadlines_keys (base : Int) (queue : List (α × Int)) :
    (deadlines base queue).map Prod.fst = queue.map Prod.fst := by
  induction queue generalizing base with
  | nil => rfl
  | cons first rest inductionHypothesis => simp [deadlines, inductionHypothesis]

/-- Lowering all delays makes up for a later start of the first entry only. -/
theorem deadlines_lower_iff {amount : Int} (base : Int) (queue : List (α × Int)) :
    deadlines (base + amount) (lower amount queue) = deadlines base queue ↔
      amount = 0 ∨ queue.length ≤ 1 := by
  match queue with
  | [] => simp [lower]
  | [(entry, delta)] =>
      have same : base + amount + (delta - amount) = base + delta := by omega
      simp [lower, same]
  | (first, delta) :: (second, other) :: rest =>
      constructor
      · intro same
        simp only [lower, List.map_cons, deadlines_cons, List.cons.injEq, Prod.mk.injEq, true_and]
          at same
        exact .inl (by omega)
      · rintro (rfl | short)
        · simp [lower]
        · simp at short

end Rsu.Data.DeltaQueue
