import Mathlib.Data.List.TakeDrop

/-!
# A row of a terminal

A terminal writes a character over what is at its cursor, and goes on to the right; a backspace
goes back to the left and leaves what is there.
-/

namespace Rsu.Data

/-- A row of a terminal, from some place on. -/
structure Row (α : Type) where
  cells : List α
  cursor : Nat

namespace Row

variable {α : Type} [DecidableEq α] {back : α}

/-- What the terminal does with a character. -/
def put (back : α) (row : Row α) (char : α) : Row α :=
  if char = back then { row with cursor := row.cursor - 1 }
  else
    { cells := row.cells.take row.cursor ++ char :: row.cells.drop (row.cursor + 1)
      cursor := row.cursor + 1 }

/-- What the terminal does with several characters. -/
def puts (back : α) (row : Row α) (chars : List α) : Row α := chars.foldl (put back) row

/-- Characters are put one after the other. -/
theorem puts_append (row : Row α) (chars more : List α) :
    row.puts back (chars ++ more) = (row.puts back chars).puts back more := List.foldl_append

/-- Text is written over what was there. -/
theorem puts_text (front rear text : List α) (plain : ∀ char ∈ text, char ≠ back) :
    puts back ⟨front ++ rear, front.length⟩ text =
      ⟨front ++ text ++ rear.drop text.length, (front ++ text).length⟩ := by
  induction text generalizing front rear with
  | nil => simp [puts]
  | cons char text inductionHypothesis =>
      have here : put back ⟨front ++ rear, front.length⟩ char =
          ⟨(front ++ [char]) ++ rear.drop 1, (front ++ [char]).length⟩ := by
        rw [put, if_neg (plain char List.mem_cons_self)]
        simp [List.drop_append]
      rw [puts, List.foldl_cons, here]
      have later := inductionHypothesis (front ++ [char]) (rear.drop 1)
        fun other member => plain other (List.mem_cons_of_mem _ member)
      rw [puts] at later
      rw [later]
      simp

/-- Backspaces move the cursor. -/
theorem puts_backs (row : Row α) (count : Nat) :
    row.puts back (List.replicate count back) = { row with cursor := row.cursor - count } := by
  induction count generalizing row with
  | zero => rfl
  | succ count inductionHypothesis =>
      rw [List.replicate_succ, puts, List.foldl_cons, put, if_pos rfl]
      have later := inductionHypothesis { row with cursor := row.cursor - 1 }
      rw [puts] at later
      rw [later]
      simp only [Nat.sub_sub, Nat.add_comm]

/-- Text is written over what was there, and the cursor goes back. -/
theorem puts_text_backs (front rear text : List α) (plain : ∀ char ∈ text, char ≠ back)
    (count : Nat) :
    puts back ⟨front ++ rear, front.length⟩ (text ++ List.replicate count back) =
      ⟨front ++ text ++ rear.drop text.length, front.length + text.length - count⟩ := by
  rw [puts_append, puts_text front rear text plain, puts_backs, List.length_append]

end Row

end Rsu.Data
