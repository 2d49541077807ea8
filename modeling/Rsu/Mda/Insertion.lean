import Rsu.Mda.ForwardList

/-!
# One insertion into the waiting list

The delays on the list are differences: a message is due when the delays up to
its own have passed. `Inserted` says what an insertion by deadline should leave
behind, `addForwardList_inserts_iff` when `add_forward_list` does.
-/

namespace Rsu.Mda

open Rsu.Common Rsu.Data Rsu.Data.DeltaQueue

universe u

namespace MdaEnvar

variable {Buf : Type u}

/-- The waiting messages with their deadlines. -/
def deadlines (mda : MdaEnvar Buf) (nodes : List Buf) : List (Buf × Int) :=
  DeltaQueue.deadlines 0 (queue id mda nodes)

/-- The list is the old one with the new message behind every message that is due
no later and in front of every other one, and no deadline has moved. -/
def Inserted (mda : MdaEnvar Buf) (txbuf : Buf) (nodes : List Buf) (delay : Int)
    (next : MdaEnvar Buf) : Prop :=
  ∃ front back, mda.deadlines nodes = front ++ back ∧
    (∀ entry ∈ front, entry.2 ≤ delay) ∧ (∀ entry ∈ back, delay < entry.2) ∧
    ∃ after, next.Waiting after ∧ next.deadlines after = front ++ (txbuf, delay) :: back

variable {mda next : MdaEnvar Buf} {txbuf : Buf} {nodes : List Buf} {delay : Int}

@[simp] theorem deadlines_keys (mda : MdaEnvar Buf) (nodes : List Buf) :
    (mda.deadlines nodes).map Prod.fst = nodes := by
  simp [deadlines]

/-- The first deadline is the first delay. -/
theorem deadlines_cons (mda : MdaEnvar Buf) (first : Buf) (rest : List Buf) :
    mda.deadlines (first :: rest) = (first, mda.delayTime first) ::
      DeltaQueue.deadlines (mda.delayTime first) (queue id mda rest) := by
  simp [deadlines]

/-- A message put in front comes first, and the delays behind it are lowered. -/
theorem Pushed.deadlines (pushed : mda.Pushed txbuf nodes next)
    (nonneg : 0 ≤ mda.delayTime txbuf) :
    next.deadlines (txbuf :: nodes) = (txbuf, mda.delayTime txbuf) ::
      DeltaQueue.deadlines (0 + mda.delayTime txbuf)
        (lower (mda.delayTime txbuf) (queue id mda nodes)) := by
  have lowered : queue id next nodes = lower (mda.delayTime txbuf) (queue id mda nodes) := by
    rw [queue, queue, lower, List.map_map]
    apply List.map_congr_left
    intro node member
    rw [pushed.lowered node member]
    by_cases positive : 0 < mda.delayTime txbuf
    · simp [positive]
    · have zero : mda.delayTime txbuf = 0 := by omega
      simp [zero]
  rw [deadlines_cons, pushed.delayTime, lowered, Int.zero_add]

/-- A message put in front of later ones is inserted when no deadline behind it moves. -/
theorem Pushed.inserted_iff (pushed : mda.Pushed txbuf nodes next) (fresh : txbuf ∉ nodes)
    (nonneg : 0 ≤ mda.delayTime txbuf) :
    mda.Inserted txbuf nodes (mda.delayTime txbuf) next ↔
      (∀ entry ∈ mda.deadlines nodes, mda.delayTime txbuf < entry.2) ∧
        (mda.delayTime txbuf = 0 ∨ nodes.length ≤ 1) := by
  have stays : DeltaQueue.deadlines (0 + mda.delayTime txbuf)
      (lower (mda.delayTime txbuf) (queue id mda nodes)) = mda.deadlines nodes ↔
        mda.delayTime txbuf = 0 ∨ nodes.length ≤ 1 := by
    rw [MdaEnvar.deadlines, deadlines_lower_iff, queue, List.length_map]
  constructor
  · rintro ⟨front, back, split, earlier, later, after, waiting, inserted⟩
    -- the new message is first on the list, so nothing is in front of it
    obtain rfl := waiting.unique pushed.waiting
    rw [pushed.deadlines nonneg] at inserted
    cases front with
    | nil =>
        obtain rfl : mda.deadlines nodes = back := split
        exact ⟨later, stays.1 (List.cons.inj inserted).2⟩
    | cons entry front =>
        have head : (txbuf, mda.delayTime txbuf) = entry := (List.cons.inj inserted).1
        have member : txbuf ∈ (mda.deadlines nodes).map Prod.fst := by
          rw [split, ← head]
          simp
        exact absurd (by simpa using member) fresh
  · rintro ⟨later, unmoved⟩
    refine ⟨[], mda.deadlines nodes, rfl, by simp, later, txbuf :: nodes, pushed.waiting, ?_⟩
    rw [pushed.deadlines nonneg, stays.2 unmoved, List.nil_append]

variable [DecidableEq Buf]

/-- Filling in a buffer that is not on the list moves no deadline. -/
theorem deadlines_fill (fresh : txbuf ∉ nodes) (forward : MdaForward) :
    (mda.fill txbuf forward).deadlines nodes = mda.deadlines nodes := by
  have same : queue id (mda.fill txbuf forward) nodes = queue id mda nodes := by
    apply List.map_congr_left
    intro node member
    have different : node ≠ txbuf := fun equal => fresh (equal ▸ member)
    rw [delayTime_fill_of_ne mda forward different]
  rw [deadlines, same, deadlines]

/-- `add_forward_list` inserts a message by its deadline exactly when all others are
due later and there is at most one of them, unless the message is due at once. -/
theorem addForwardList_inserts_iff (waiting : mda.Waiting nodes) (fresh : txbuf ∉ nodes)
    (srcSta : MdaMsgInfo) (delay : Nat) :
    (∃ next, Returns (mda.addForwardList txbuf srcSta delay) next ∧
        mda.Inserted txbuf nodes delay next) ↔
      (∀ entry ∈ mda.deadlines nodes, (delay : Int) < entry.2) ∧
        (delay = 0 ∨ nodes.length ≤ 1) := by
  have unmoved : (mda.fill txbuf ⟨srcSta, delay⟩).deadlines nodes = mda.deadlines nodes :=
    deadlines_fill fresh ⟨srcSta, delay⟩
  have exact : ∀ {next}, (mda.fill txbuf ⟨srcSta, delay⟩).Pushed txbuf nodes next →
      (mda.Inserted txbuf nodes delay next ↔
        (∀ entry ∈ mda.deadlines nodes, (delay : Int) < entry.2) ∧
          (delay = 0 ∨ nodes.length ≤ 1)) := by
    intro next pushed
    have filled := pushed.inserted_iff fresh (by simp)
    rw [Inserted, unmoved, delayTime_fill] at filled
    simpa [Inserted] using filled
  rcases addForwardList_cases waiting fresh srcSta delay with
    ⟨-, next, returns, pushed⟩ | ⟨⟨first, rest, rfl, notSooner⟩, diverges⟩
  · constructor
    · rintro ⟨result, returned, inserted⟩
      obtain rfl := returned.unique (addForwardList_persistent mda txbuf srcSta delay) returns
      exact (exact pushed).1 inserted
    · exact fun conditions => ⟨next, returns, (exact pushed).2 conditions⟩
  · constructor
    · rintro ⟨result, returned, -⟩
      exact absurd diverges returned.not_diverges
    · rintro ⟨later, -⟩
      have first := later (first, mda.delayTime first) (by simp [deadlines_cons])
      exact absurd first (Int.not_lt.2 notSooner)

section Cases

/-- One message waits for five ticks. -/
def oneWaiting : MdaEnvar Nat :=
  ((mdaInit : MdaEnvar Nat).relink
    (listAddTail (mdaInit : MdaEnvar Nat).forwardWaitingList (some 0) none)).setDelayTime 0 5

/-- One message is waiting. -/
theorem oneWaiting_waiting : oneWaiting.Waiting [0] :=
  listAddTail_ring mdaInit_waiting (by simp)

/-- A message due earlier is inserted in front of it. -/
theorem earlier_message_inserted :
    ∃ next, Returns (oneWaiting.addForwardList 1 MdaMsgInfo.zero (3 : Nat)) next ∧
      oneWaiting.Inserted 1 [0] (3 : Nat) next := by
  refine (addForwardList_inserts_iff oneWaiting_waiting (by decide) MdaMsgInfo.zero 3).2 ⟨?_, ?_⟩
  · decide
  · exact .inr (by decide)

/-- A message due later is never inserted: the call does not return. -/
theorem later_message_hangs :
    oneWaiting.Waiting [0] ∧ 1 ∉ [0] ∧ oneWaiting.deadlines [0] = [(0, 5)] ∧
      ¬ ∃ next, Returns (oneWaiting.addForwardList 1 MdaMsgInfo.zero (7 : Nat)) next ∧
        oneWaiting.Inserted 1 [0] (7 : Nat) next := by
  refine ⟨oneWaiting_waiting, by decide, by decide, ?_⟩
  rintro ⟨next, returns, -⟩
  have fresh : 1 ∉ [0] := by decide
  have notSooner : oneWaiting.delayTime 0 ≤ (7 : Nat) := by decide
  have diverges := addForwardList_diverges oneWaiting_waiting fresh MdaMsgInfo.zero notSooner
  exact returns.not_diverges diverges

end Cases

end MdaEnvar

end Rsu.Mda
