import Mathlib.Data.List.Range
import Mathlib.Logic.Function.Basic

/-!
# Windows of a circular array

An array of some capacity is read from a start, and from its end goes on at its beginning. A
window is what is read so; it grows at its end, shrinks at its start, and does not notice a
cell that it does not reach.
-/

namespace Rsu.Data

universe u

variable {α : Type u} {cells : Nat → α} {capacity start count place : Nat}

/-- The values of `count` cells from `start` on. -/
def window (cells : Nat → α) (capacity start count : Nat) : List α :=
  (List.range count).map fun index => cells ((start + index) % capacity)

@[simp] theorem window_zero : window cells capacity start 0 = [] := rfl

@[simp] theorem length_window : (window cells capacity start count).length = count := by
  simp [window]

/-- A window grows at its end. -/
theorem window_concat :
    window cells capacity start (count + 1) =
      window cells capacity start count ++ [cells ((start + count) % capacity)] := by
  simp [window, List.range_succ]

/-- A window shrinks at its start. -/
theorem window_cons :
    window cells capacity start (count + 1) =
      cells (start % capacity) :: window cells capacity ((start + 1) % capacity) count := by
  simp only [window, List.range_succ_eq_map, List.map_cons, List.map_map, Nat.add_zero]
  congr 1
  apply List.map_congr_left
  intro index _
  simp only [Function.comp_apply, Nat.mod_add_mod]
  congr 2
  omega

/-- The cells of a window are those within its length of its start. -/
theorem place_ne_of_lt {index : Nat} (inside : index < count) (room : count < capacity) :
    (start + index) % capacity ≠ (start + count) % capacity := by
  intro same
  have between : (start + count - (start + index)) % capacity = 0 :=
    Nat.sub_mod_eq_zero_of_mod_eq same.symm
  rw [Nat.add_sub_add_left, Nat.mod_eq_of_lt (by omega)] at between
  omega

/-- The cell behind a window is not part of it. -/
theorem window_update (value : α) (room : count < capacity) :
    window (Function.update cells ((start + count) % capacity) value) capacity start count =
      window cells capacity start count := by
  apply List.map_congr_left
  intro index inside
  exact Function.update_of_ne (place_ne_of_lt (List.mem_range.1 inside) room) ..

end Rsu.Data
