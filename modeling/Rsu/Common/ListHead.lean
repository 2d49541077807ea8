import Rsu.Semantics.Loop

/-!
# `list.h`

The list operations the modules use, as compositions of the two pointer updates
of `Rsu.Data.Links`, each with its effect on well-formed rings.
-/

namespace Rsu.Common

open Rsu.Data Rsu.Data.Links

universe u

variable {α : Type u} [DecidableEq α]

/-- `list_add`: link `new` right after `head`. -/
def listAdd (links : Links α) (new head : α) : Links α :=
  links.insertBetween new head (links.next head)

/-- `list_add_tail`: link `new` right before `head`. -/
def listAddTail (links : Links α) (new head : α) : Links α :=
  links.insertBetween new (links.prev head) head

/-- `list_del`: the entry keeps its own stale pointers. -/
def listDel (links : Links α) (entry : α) : Links α :=
  links.unlink (links.prev entry) (links.next entry)

/-- `list_move`: unlink an entry and link it right after `head`. -/
def listMove (links : Links α) (entry head : α) : Links α :=
  listAdd (listDel links entry) entry head

/-- `list_move_tail`: unlink an entry and link it right before `head`. -/
def listMoveTail (links : Links α) (entry head : α) : Links α :=
  listAddTail (listDel links entry) entry head

/-- `list_empty`. -/
def listEmpty (links : Links α) (head : α) : Bool := links.next head = head

variable {links : Links α} {head other entry new : α} {nodes front back : List α}

/-- A ring is empty exactly when its sentinel points to itself. -/
theorem listEmpty_iff (ring : links.Ring head nodes) : listEmpty links head = true ↔ nodes = [] := by
  rw [listEmpty, decide_eq_true_iff, ring.next_head]
  cases nodes with
  | nil => simp
  | cons node rest =>
      have outside := (List.nodup_cons.1 ring.nodup).1
      simp only [firstOr_cons, reduceCtorEq, iff_false]
      exact fun equal => outside (by simp [equal])

/-- `list_add` puts a node in front. -/
theorem listAdd_ring (ring : links.Ring head nodes) (fresh : new ∉ head :: nodes) :
    (listAdd links new head).Ring head (new :: nodes) := by
  have whole : links.Ring head ([] ++ nodes) := ring
  have linked := whole.insert fresh
  rwa [lastOr_nil, ← ring.next_head] at linked

/-- `list_add_tail` puts a node at the end. -/
theorem listAddTail_ring (ring : links.Ring head nodes) (fresh : new ∉ head :: nodes) :
    (listAddTail links new head).Ring head (nodes ++ [new]) := by
  have whole : links.Ring head (nodes ++ []) := by simpa using ring
  have linked := whole.insert (by simpa using fresh)
  rwa [firstOr_nil, ← ring.prev_head] at linked

/-- `list_del` takes a node out. -/
theorem listDel_ring (ring : links.Ring head (front ++ entry :: back)) :
    (listDel links entry).Ring head (front ++ back) :=
  ring.erase

section Pair

variable {others : List α}

/-- Linking an entry into one of two rings. -/
theorem listAdd_rings (rings : links.Rings head nodes other others)
    (fresh : new ∉ head :: nodes) (foreign : new ∉ other :: others) :
    (listAdd links new head).Rings head (new :: nodes) other others := by
  refine ⟨listAdd_ring rings.left fresh, ?_, ?_⟩
  · refine rings.right.insert_frame foreign (rings.apart head (by simp)) (rings.apart _ ?_)
    rw [rings.left.next_head]
    cases nodes <;> simp
  · intro node member
    rcases List.mem_cons.1 member with rfl | member
    · exact rings.apart node (by simp)
    · rcases List.mem_cons.1 member with rfl | member
      · exact foreign
      · exact rings.apart node (List.mem_cons_of_mem head member)

/-- The other ring stays as it is. -/
theorem listAddTail_rings (rings : links.Rings head nodes other others)
    (fresh : new ∉ head :: nodes) (foreign : new ∉ other :: others) :
    (listAddTail links new head).Rings head (nodes ++ [new]) other others := by
  refine ⟨listAddTail_ring rings.left fresh, ?_, ?_⟩
  · refine rings.right.insert_frame foreign (rings.apart _ ?_) (rings.apart head (by simp))
    rw [rings.left.prev_head]
    exact lastOr_mem_cons head nodes
  · intro node member
    rw [← List.cons_append, List.mem_append] at member
    rcases member with member | member
    · exact rings.apart node member
    · rw [List.mem_singleton.1 member]
      exact foreign

/-- Deleting an entry of one ring leaves the other one alone. -/
theorem listDel_rings (rings : links.Rings head (front ++ entry :: back) other others) :
    (listDel links entry).Rings head (front ++ back) other others := by
  refine ⟨listDel_ring rings.left, ?_, ?_⟩
  · refine rings.right.unlink_frame (rings.apart _ ?_) (rings.apart _ ?_)
    · rw [rings.left.prev_node]
      exact List.mem_append_left (entry :: back) (lastOr_mem_cons head front)
    · rw [rings.left.next_node]
      cases back <;> simp
  · intro node member
    refine rings.apart node ?_
    simp only [List.mem_cons, List.mem_append] at member ⊢
    tauto

/-- Moving an entry from one ring to the front of the other one. -/
theorem listMove_rings (rings : links.Rings head (front ++ entry :: back) other others) :
    (listMove links entry other).Rings head (front ++ back) other (entry :: others) := by
  have deleted := (listDel_rings rings).symm
  exact (listAdd_rings deleted (rings.apart entry (by simp)) rings.left.node_outside).symm

/-- Moving an entry from one ring to the end of the other one. -/
theorem listMoveTail_rings (rings : links.Rings head (front ++ entry :: back) other others) :
    (listMoveTail links entry other).Rings head (front ++ back) other (others ++ [entry]) := by
  have deleted := (listDel_rings rings).symm
  exact (listAddTail_rings deleted (rings.apart entry (by simp)) rings.left.node_outside).symm

end Pair

end Rsu.Common
