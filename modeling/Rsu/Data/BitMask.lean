import Mathlib.Tactic.Common

/-!
# Flag words

A word whose bits are independent flags. `has` is the test `flags & mask`, `set`
and `clear` are the two assignments; a test commutes with both, so a chain of
assignments is decided by what each of them does to the tested mask. `update` replaces
the values of a record whose bits are set in a mask.
-/

namespace Rsu.Data.BitMask

variable {w : Nat}

/-- `flags & mask` as a condition. -/
def has (flags mask : BitVec w) : Bool := flags &&& mask != 0#w

/-- `flags |= mask`. -/
def set (flags mask : BitVec w) : BitVec w := flags ||| mask

/-- `flags &= ~mask`. -/
def clear (flags mask : BitVec w) : BitVec w := flags &&& ~~~mask

variable {flags mask other : BitVec w}

/-- Some bit of the mask is set exactly when the test succeeds. -/
theorem has_iff : has flags mask = true ↔ ∃ index, flags.getLsbD index ∧ mask.getLsbD index := by
  rw [has, bne_iff_ne, ne_eq]
  constructor
  · intro different
    by_contra none
    apply different
    apply BitVec.eq_of_getLsbD_eq
    intro index _
    rw [BitVec.getLsbD_and, BitVec.getLsbD_zero, Bool.and_eq_false_iff]
    by_contra both
    simp only [not_or, Bool.not_eq_false] at both
    exact none ⟨index, both⟩
  · rintro ⟨index, inFlags, inMask⟩ zero
    have bit := congrArg (fun word => word.getLsbD index) zero
    simp [BitVec.getLsbD_and, inFlags, inMask] at bit

/-- A test sees what was set. -/
@[simp] theorem has_set (flags mask other : BitVec w) :
    has (set flags mask) other = (has flags other || has mask other) := by
  rw [Bool.eq_iff_iff, Bool.or_eq_true, has_iff, has_iff, has_iff, ← exists_or]
  apply exists_congr
  intro index
  rw [set, BitVec.getLsbD_or, Bool.or_eq_true]
  tauto

/-- Setting a bit that is set. -/
theorem set_of_has {index : Nat} (present : has flags (BitVec.twoPow w index) = true) :
    set flags (BitVec.twoPow w index) = flags := by
  obtain ⟨place, inFlags, inMask⟩ := has_iff.1 present
  obtain ⟨-, rfl⟩ : index < w ∧ index = place := by simpa [BitVec.getLsbD_twoPow] using inMask
  apply BitVec.eq_of_getLsbD_eq
  intro other bound
  rw [set, BitVec.getLsbD_or, BitVec.getLsbD_twoPow]
  by_cases here : index = other
  · simp [← here, inFlags]
  · simp [here]

/-- A test of part of a word. -/
@[simp] theorem has_and (flags mask other : BitVec w) :
    has (flags &&& mask) other = has flags (mask &&& other) := by
  rw [has, has, BitVec.and_assoc]

/-- A test no longer sees what was cleared. -/
@[simp] theorem has_clear (flags mask other : BitVec w) :
    has (clear flags mask) other = has flags (clear other mask) := by
  rw [has, has, clear, clear, BitVec.and_assoc, BitVec.and_comm (~~~mask) other]

/-- No bit of an empty mask is set. -/
@[simp] theorem has_zero (flags : BitVec w) : has flags 0#w = false := by simp [has]

/-- No bit of an empty word is set. -/
@[simp] theorem zero_has (mask : BitVec w) : has 0#w mask = false := by simp [has]

/-- A test does not see a disjoint mask. -/
theorem has_of_disjoint (disjoint : mask &&& other = 0#w) : has mask other = false := by
  simp [has, disjoint]

/-- Clearing a mask does not touch a disjoint one. -/
theorem clear_of_disjoint (disjoint : mask &&& other = 0#w) : clear mask other = mask := by
  apply BitVec.eq_of_getLsbD_eq
  intro index bound
  have bit := congrArg (fun word => word.getLsbD index) disjoint
  simp only [BitVec.getLsbD_and, BitVec.getLsbD_zero, Bool.and_eq_false_iff] at bit
  rw [clear, BitVec.getLsbD_and, BitVec.getLsbD_not]
  rcases bit with absent | absent <;> rw [absent] <;> simp [bound]

/-- Nothing is left of a cleared mask. -/
@[simp] theorem has_clear_self (flags mask : BitVec w) : has flags (clear mask mask) = false := by
  have empty : clear mask mask = 0#w := by
    apply BitVec.eq_of_getLsbD_eq
    intro index bound
    simp [clear]
  simp [has, empty]

/-- No bit of disjoint words is set in both. -/
theorem not_has_both (disjoint : mask &&& other = 0#w) (index : Nat) :
    ¬ (has mask (BitVec.twoPow w index) = true ∧ has other (BitVec.twoPow w index) = true) := by
  rintro ⟨first, second⟩
  obtain ⟨place, inMask, at_index⟩ := has_iff.1 first
  obtain ⟨place', inOther, at_index'⟩ := has_iff.1 second
  simp only [BitVec.getLsbD_twoPow, Bool.and_eq_true, decide_eq_true_eq] at at_index at_index'
  obtain rfl : place = place' := at_index.2.symm.trans at_index'.2
  have bit := congrArg (fun word => word.getLsbD place) disjoint
  simp [BitVec.getLsbD_and, inMask, inOther] at bit

section Update

variable {ι : Type} {α : ι → Type} {bit : ι → BitVec w} {given again current : (index : ι) → α index}

/-- The values whose bits are set in the mask are replaced. -/
def update (bit : ι → BitVec w) (mask : BitVec w) (given current : (index : ι) → α index) :
    (index : ι) → α index :=
  fun index => if has mask (bit index) then given index else current index

/-- No value has more than one bit. -/
def Single (bit : ι → BitVec w) : Prop :=
  ∀ index, bit index = 0#w ∨ ∃ place, bit index = BitVec.twoPow w place

/-- What was replaced is replaced by the same. -/
@[simp] theorem update_update (bit : ι → BitVec w) (mask : BitVec w)
    (given current : (index : ι) → α index) :
    update bit mask given (update bit mask given current) = update bit mask given current := by
  funext index
  unfold update
  split <;> rfl

/-- Updates with disjoint masks commute. -/
theorem update_comm (single : Single bit) (disjoint : mask &&& other = 0#w)
    (given again current : (index : ι) → α index) :
    update bit other again (update bit mask given current) =
      update bit mask given (update bit other again current) := by
  funext index
  have apart : ¬ (has mask (bit index) = true ∧ has other (bit index) = true) := by
    rcases single index with none | ⟨place, one⟩
    · simp [none]
    · rw [one]
      exact not_has_both disjoint place
  unfold update
  by_cases first : has mask (bit index) = true
  · have second : ¬ has other (bit index) = true := fun both => apart ⟨first, both⟩
    simp [first, second]
  · simp [first]

/-- Two assignments of bits give the same update exactly if they differ only where the values
agree. -/
theorem update_eq_iff {served : ι → BitVec w} :
    update served mask given current = update bit mask given current ↔
      ∀ index, has mask (served index) ≠ has mask (bit index) → given index = current index := by
  rw [funext_iff]
  apply forall_congr'
  intro index
  unfold update
  cases has mask (served index) <;> cases has mask (bit index) <;> simp [eq_comm]

end Update

end Rsu.Data.BitMask
