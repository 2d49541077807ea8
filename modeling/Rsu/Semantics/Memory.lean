import Mathlib.Data.List.TakeDrop
import Rsu.Semantics.Checked

/-!
# Copying within an object

`memcpy`, `memmove` and `memset` read or write some bytes of an object at an offset. An object that
is known as a concatenation is read and written piece by piece.
-/

namespace Rsu.Checked

variable {α : Type}

/-- Read `count` cells at an offset. -/
def loadCells (cells : List α) (offset count : Nat) : Checked (List α) := do
  readable cells.length offset count
  return (cells.drop offset).take count

/-- Write cells at an offset. -/
def storeCells (cells : List α) (offset : Nat) (values : List α) : Checked (List α) := do
  writable cells.length offset values.length
  return cells.take offset ++ values ++ cells.drop (offset + values.length)

/-- `memmove` within an object. -/
def moveCells (cells : List α) (target source count : Nat) : Checked (List α) := do
  let values ← loadCells cells source count
  storeCells cells target values

/-- A piece is read. -/
theorem loadCells_append {front piece rear cells : List α} {offset count : Nat}
    (shape : cells = front ++ piece ++ rear) (start : offset = front.length)
    (size : count = piece.length) : loadCells cells offset count = .ok piece := by
  subst shape start size
  rw [loadCells, readable_bind (by simp only [List.length_append]; omega), List.append_assoc,
    List.drop_left, List.take_left]
  rfl

/-- A piece is replaced. -/
theorem storeCells_append {front piece rear cells values : List α} {offset : Nat}
    (shape : cells = front ++ piece ++ rear) (start : offset = front.length)
    (size : values.length = piece.length) :
    storeCells cells offset values = .ok (front ++ values ++ rear) := by
  subst shape start
  rw [storeCells, writable_bind (by simp only [List.length_append]; omega), List.append_assoc front,
    List.take_left, size, ← List.append_assoc, ← List.length_append, List.drop_left]
  rfl

/-- A piece is moved onto others. -/
theorem moveCells_append {front piece rear front' piece' rear' cells : List α}
    {target source count : Nat} (shape : cells = front ++ piece ++ rear)
    (start : source = front.length) (size : count = piece.length)
    (shape' : cells = front' ++ piece' ++ rear') (start' : target = front'.length)
    (size' : piece.length = piece'.length) :
    moveCells cells target source count = .ok (front' ++ piece ++ rear') := by
  rw [moveCells, loadCells_append shape start size, ok_bind]
  exact storeCells_append shape' start' size'

end Rsu.Checked
