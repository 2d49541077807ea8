import Mathlib.Data.List.Basic
import Mathlib.Data.List.GetD
import Mathlib.Tactic.Common

/-!
# Stores that are read and written in blocks

A store keeps a value at every address. A block is an address and the values from
there on; `writeAll` writes blocks one after another. Blocks that are apart do not
overwrite each other, so each of them is read back as it was written.
-/

namespace Rsu.Data

universe u

/-- A value at every address. -/
abbrev Store (α : Type u) := Nat → α

namespace Store

variable {α : Type u}

/-- The values of a range of addresses. -/
def read (store : Store α) (address length : Nat) : List α :=
  (List.range length).map fun offset => store (address + offset)

/-- Write values to consecutive addresses. -/
def write (store : Store α) (address : Nat) (values : List α) : Store α := fun place =>
  if address ≤ place then values.getD (place - address) (store place) else store place

/-- Write blocks, the first one first. -/
def writeAll (store : Store α) (blocks : List (Nat × List α)) : Store α :=
  blocks.foldl (fun store block => store.write block.1 block.2) store

/-- Two blocks have no address in common. -/
def Apart (block other : Nat × List α) : Prop :=
  block.1 + block.2.length ≤ other.1 ∨ other.1 + other.2.length ≤ block.1

variable {store : Store α} {address length other : Nat} {values : List α}
  {block : Nat × List α} {blocks : List (Nat × List α)}

@[simp] theorem read_length : (store.read address length).length = length := by
  rw [read, List.length_map, List.length_range]

/-- What was written is read. -/
theorem read_write_self : (store.write address values).read address values.length = values := by
  apply List.ext_getElem
  · exact read_length
  · intro index _ inside
    simp [read, write, inside]

/-- What was written elsewhere makes no difference. -/
theorem read_write_of_apart
    (apart : address + values.length ≤ other ∨ other + length ≤ address) :
    (store.write address values).read other length = store.read other length := by
  apply List.map_congr_left
  intro offset member
  have inside := List.mem_range.1 member
  unfold write
  split
  · apply List.getD_eq_default
    omega
  · rfl

/-- A block is not touched by blocks that are apart from it. -/
theorem read_writeAll_of_apart (apart : ∀ later ∈ blocks, Apart later block) :
    (store.writeAll blocks).read block.1 block.2.length =
      store.read block.1 block.2.length := by
  induction blocks generalizing store with
  | nil => rfl
  | cons first rest inductionHypothesis =>
      rw [List.forall_mem_cons] at apart
      change ((store.write first.1 first.2).writeAll rest).read block.1 block.2.length = _
      rw [inductionHypothesis apart.2, read_write_of_apart apart.1]

/-- Every one of the blocks is read back. -/
theorem read_writeAll (apart : blocks.Pairwise Apart) (member : block ∈ blocks) :
    (store.writeAll blocks).read block.1 block.2.length = block.2 := by
  induction blocks generalizing store with
  | nil => cases member
  | cons first rest inductionHypothesis =>
      rw [List.pairwise_cons] at apart
      change ((store.write first.1 first.2).writeAll rest).read block.1 block.2.length = block.2
      rcases List.mem_cons.1 member with rfl | later
      · rw [read_writeAll_of_apart, read_write_self]
        intro later among
        exact (apart.1 later among).symm
      · exact inductionHypothesis apart.2 later

end Store

end Rsu.Data
