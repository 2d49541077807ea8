import Mathlib.Data.List.Basic
import Mathlib.Tactic.Common

/-!
# Portions of a stream

A portion is as much of a stream as fits a resource: items are taken one by one, each
changes the state of the resource, and a full resource ends the portion. A portion that
is taken from several pieces one after the other is the portion of the whole.
-/

namespace Rsu.Data

universe u v

variable {σ : Type u} {α : Type v}

/-- What became of a stream: the resource, what was taken, and what was left. -/
structure Portion (σ : Type u) (α : Type v) where
  state : σ
  taken : List α
  left : List α
  deriving DecidableEq

/-- Take items until the resource is full. -/
def portion (advance : σ → α → σ) (full : σ → Bool) (state : σ) : List α → Portion σ α
  | [] => ⟨state, [], []⟩
  | item :: later =>
      if full state then ⟨state, [], item :: later⟩
      else
        let rest := portion advance full (advance state item) later
        { rest with taken := item :: rest.taken }

section Portion

variable {advance : σ → α → σ} {full : σ → Bool}

@[simp] theorem portion_nil (state : σ) : portion advance full state [] = ⟨state, [], []⟩ := rfl

/-- Nothing is taken when it is full. -/
theorem portion_full {state : σ} (filled : full state = true) (items : List α) :
    portion advance full state items = ⟨state, [], items⟩ := by
  cases items with
  | nil => rfl
  | cons item later => rw [portion, if_pos filled]

/-- Where there is room, the first item is taken. -/
theorem portion_cons {state : σ} (room : full state = false) (item : α) (later : List α) :
    portion advance full state (item :: later) =
      { portion advance full (advance state item) later with
        taken := item :: (portion advance full (advance state item) later).taken } := by
  rw [portion, if_neg (by simp [room])]

/-- Nothing is lost between what is taken and what is left. -/
theorem portion_taken_append_left (state : σ) (items : List α) :
    (portion advance full state items).taken ++ (portion advance full state items).left =
      items := by
  induction items generalizing state with
  | nil => rfl
  | cons item later inductionHypothesis =>
      cases filled : full state with
      | true => rw [portion_full filled]; rfl
      | false =>
          rw [portion_cons filled]
          exact congrArg (item :: ·) (inductionHypothesis (advance state item))

theorem portion_taken_length_le (state : σ) (items : List α) :
    (portion advance full state items).taken.length ≤ items.length := by
  have whole := congrArg List.length
    (@portion_taken_append_left _ _ advance full state items)
  rw [List.length_append] at whole
  omega

/-- Something is left only if the resource is full. -/
theorem full_of_left {state : σ} {items : List α}
    (some : (portion advance full state items).left ≠ []) :
    full (portion advance full state items).state = true := by
  induction items generalizing state with
  | nil => exact absurd rfl some
  | cons item later inductionHypothesis =>
      cases filled : full state with
      | true =>
          rw [portion_full filled]
          exact filled
      | false =>
          rw [portion_cons filled] at some ⊢
          exact inductionHypothesis some

/-- The portion of two pieces, if the first one was taken whole. -/
theorem portion_append {state : σ} {first : List α}
    (whole : (portion advance full state first).left = []) (second : List α) :
    portion advance full state (first ++ second) =
      { portion advance full (portion advance full state first).state second with
        taken := first ++
          (portion advance full (portion advance full state first).state second).taken } := by
  induction first generalizing state with
  | nil => rfl
  | cons item later inductionHypothesis =>
      cases filled : full state with
      | true =>
          rw [portion_full filled] at whole
          cases whole
      | false =>
          rw [portion_cons filled] at whole ⊢
          rw [List.cons_append, portion_cons filled, inductionHypothesis whole]
          rfl

/-- The portion of two pieces, if the first one was cut. -/
theorem portion_append_cut {state : σ} {first : List α}
    (cut : (portion advance full state first).left ≠ []) (second : List α) :
    portion advance full state (first ++ second) =
      { portion advance full state first with
        left := (portion advance full state first).left ++ second } := by
  induction first generalizing state with
  | nil => exact absurd rfl cut
  | cons item later inductionHypothesis =>
      cases filled : full state with
      | true => rw [portion_full filled, List.cons_append, portion_full filled]; rfl
      | false =>
          rw [portion_cons filled] at cut ⊢
          rw [List.cons_append, portion_cons filled, inductionHypothesis cut]

end Portion

end Rsu.Data
