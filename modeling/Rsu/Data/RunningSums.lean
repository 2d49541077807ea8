import Mathlib.Algebra.BigOperators.Group.List.Basic
import Mathlib.Algebra.GroupWithZero.Nat
import Mathlib.Data.List.Induction

/-!
# Nested sums

Two accumulators: the sum of the values, and the sum of what the first one was after each of
them. A map that keeps addition carries both along, so sums in words agree with those in natural
numbers as far as the words reach.
-/

namespace Rsu.Data.RunningSums

section Accumulate

variable {M N : Type} [Add M] [Add N]

/-- One value is taken into both sums. -/
def accumulate (sums : M × M) (value : M) : M × M :=
  (sums.1 + value, sums.2 + (sums.1 + value))

/-- A map that keeps addition may be applied before or after. -/
theorem foldl_accumulate_map {change : M → N}
    (additive : ∀ left right, change (left + right) = change left + change right) (values : List M)
    (start : M × M) :
    (values.map change).foldl accumulate (start.map change change) =
      (values.foldl accumulate start).map change change := by
  induction values generalizing start with
  | nil => rfl
  | cons value values inductionHypothesis =>
      have step : accumulate (start.map change change) (change value) =
          (accumulate start value).map change change := by
        simp [accumulate, additive]
      rw [List.map_cons, List.foldl_cons, List.foldl_cons, step, inductionHypothesis]

end Accumulate

/-- The sums of the beginnings of a list that are not empty. -/
def partialSums (values : List Nat) : List Nat :=
  (List.range values.length).map fun index => (values.take (index + 1)).sum

theorem partialSums_concat (values : List Nat) (value : Nat) :
    partialSums (values ++ [value]) = partialSums values ++ [values.sum + value] := by
  have earlier : ∀ index ∈ List.range values.length,
      ((values ++ [value]).take (index + 1)).sum = (values.take (index + 1)).sum := by
    intro index inside
    have bound := List.mem_range.1 inside
    rw [List.take_append_of_le_length (by omega)]
  rw [partialSums, List.length_append, List.length_singleton, List.range_succ, List.map_append,
    List.map_congr_left earlier, partialSums]
  simp

/-- What the accumulators hold at the end. -/
theorem foldl_accumulate (values : List Nat) :
    values.foldl accumulate (0, 0) = (values.sum, (partialSums values).sum) := by
  induction values using List.reverseRecOn with
  | nil => rfl
  | append_singleton values value inductionHypothesis =>
      rw [List.foldl_append, inductionHypothesis, partialSums_concat]
      simp [accumulate]

end Rsu.Data.RunningSums
