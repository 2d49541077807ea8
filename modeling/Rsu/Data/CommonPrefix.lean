import Mathlib.Data.List.Basic
import Mathlib.Order.MinMax

/-!
# Common beginnings of lists

How far two lists agree, and how far several lists do: as far as every two neighbours among them.
-/

namespace Rsu.Data

universe u

variable {α : Type u}

/-- How far two lists agree. -/
def commonLength [DecidableEq α] : List α → List α → Nat
  | left :: lefts, right :: rights =>
      if left = right then commonLength lefts rights + 1 else 0
  | _, _ => 0

/-- How far every two neighbours agree; there is no bound for a single list. -/
def neighbourLength [DecidableEq α] (s : List α) : List (List α) → Option Nat
  | [] => none
  | t :: later =>
      some ((neighbourLength t later).elim (commonLength s t) (min (commonLength s t)))

/-- The lists agree up to some place. -/
def AgreeTo (n : Nat) (s t : List α) : Prop := n ≤ s.length ∧ n ≤ t.length ∧ s.take n = t.take n

/-- Texts that agree with a third one agree. -/
theorem AgreeTo.trans {n : Nat} {s t u : List α} (first : AgreeTo n s t) (second : AgreeTo n t u) :
    AgreeTo n s u :=
  ⟨first.1, second.2.1, first.2.2.trans second.2.2⟩

/-- Texts agree with one another. -/
theorem AgreeTo.symm {n : Nat} {s t : List α} (agree : AgreeTo n s t) : AgreeTo n t s :=
  ⟨agree.2.1, agree.1, agree.2.2.symm⟩

/-- Where lists agree, the beginning of one is the beginning of another. -/
theorem AgreeTo.starts {n : Nat} {s t : List α} (agree : AgreeTo n s t) : s.take n <+: t := by
  rw [agree.2.2]
  exact List.take_prefix n t

variable [DecidableEq α]

/-- The common length is the greatest to which two texts agree. -/
theorem le_commonLength_iff (n : Nat) (s t : List α) : n ≤ commonLength s t ↔ AgreeTo n s t := by
  induction s generalizing n t with
  | nil =>
      rw [commonLength]
      · simp only [AgreeTo, List.length_nil, Nat.le_zero]
        constructor
        · rintro rfl
          exact ⟨rfl, Nat.zero_le _, rfl⟩
        · exact fun agree => agree.1
      · rintro left lefts right rights ⟨⟩
  | cons left lefts inductionHypothesis =>
      cases t with
      | nil =>
          rw [commonLength]
          · simp only [AgreeTo, List.length_nil, Nat.le_zero]
            constructor
            · rintro rfl
              exact ⟨Nat.zero_le _, rfl, rfl⟩
            · exact fun agree => agree.2.1
          · rintro left lefts right rights _ ⟨⟩
      | cons right rights =>
          rw [commonLength]
          cases n with
          | zero => simp [AgreeTo]
          | succ n =>
              split_ifs with same
              · rw [Nat.add_le_add_iff_right, inductionHypothesis]
                simp [AgreeTo, same]
              · simp [AgreeTo, same]

/-- Lists agree as far as their neighbours do. -/
theorem le_neighbourLength_iff (n : Nat) (s : List α) (later : List (List α)) :
    (∀ length ∈ neighbourLength s later, n ≤ length) ↔ ∀ t ∈ later, AgreeTo n s t := by
  induction later generalizing s with
  | nil => simp [neighbourLength]
  | cons t later inductionHypothesis =>
      have split : (∀ length ∈ neighbourLength s (t :: later), n ≤ length) ↔
          n ≤ commonLength s t ∧ ∀ length ∈ neighbourLength t later, n ≤ length := by
        rw [neighbourLength]
        cases neighbourLength t later <;> simp
      rw [split, inductionHypothesis, le_commonLength_iff, List.forall_mem_cons]
      refine and_congr_right fun agree => forall_congr' fun u => imp_congr_right fun _ => ?_
      exact ⟨agree.trans, agree.symm.trans⟩

end Rsu.Data
