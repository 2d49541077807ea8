import Mathlib.Data.List.Nodup
import Mathlib.Logic.Function.Basic

/-!
# Singly linked lists on a heap

A heap gives the node at an address, or nothing where no node lives. `Chain` says
that the pointers lead from a first pointer through the given nodes to `NULL`. A
chain is determined by its first pointer, so it visits no address twice. A change
of the heap outside a chain keeps it, `Chain.push` puts a node in front, and a
pointer that still leads to a freed node starts no chain.
-/

namespace Rsu.Data

universe u v

variable {α : Type u} {β : Type v}

/-- The pointers lead from `first` through `nodes` and end. -/
def Chain (heap : α → Option β) (next : β → Option α) : Option α → List (α × β) → Prop
  | first, [] => first = none
  | first, entry :: rest =>
      first = some entry.1 ∧ heap entry.1 = some entry.2 ∧ Chain heap next (next entry.2) rest

namespace Chain

variable {heap changed : α → Option β} {next : β → Option α} {first : Option α}
  {entry : α × β} {nodes others front back rest : List (α × β)}

/-- The first pointer leads to the first node. -/
theorem first_eq (chain : Chain heap next first nodes) : first = (nodes.head?).map Prod.fst := by
  cases nodes with
  | nil => exact chain
  | cons entry rest => exact chain.1

/-- No node is reached exactly from `NULL`. -/
theorem nil_iff_first (chain : Chain heap next first nodes) : nodes = [] ↔ first = none := by
  rw [chain.first_eq, Option.map_eq_none_iff, List.head?_eq_none_iff]

/-- Every node of a chain is where the chain says. -/
theorem heap_eq (chain : Chain heap next first nodes) (member : entry ∈ nodes) :
    heap entry.1 = some entry.2 := by
  induction nodes generalizing first with
  | nil => cases member
  | cons head rest inductionHypothesis =>
      rcases List.mem_cons.1 member with rfl | later
      · exact chain.2.1
      · exact inductionHypothesis chain.2.2 later

/-- What follows a part of a chain is a chain. -/
theorem of_append (chain : Chain heap next first (front ++ back)) :
    ∃ middle, Chain heap next middle back := by
  induction front generalizing first with
  | nil => exact ⟨first, chain⟩
  | cons head rest inductionHypothesis => exact inductionHypothesis chain.2.2

/-- A chain from an address begins with the node there. -/
theorem exists_cons {address : α} (chain : Chain heap next (some address) nodes) :
    ∃ node rest, nodes = (address, node) :: rest ∧ heap address = some node ∧
      Chain heap next (next node) rest := by
  cases nodes with
  | nil => cases chain
  | cons entry rest =>
      obtain ⟨same, here, later⟩ := chain
      cases same
      exact ⟨entry.2, rest, rfl, here, later⟩

/-- The first pointer determines the chain. -/
theorem unique (chain : Chain heap next first nodes) (other : Chain heap next first others) :
    nodes = others := by
  induction nodes generalizing first others with
  | nil => exact ((other.nil_iff_first).2 chain).symm
  | cons head rest inductionHypothesis =>
      obtain ⟨rfl, here, later⟩ := chain
      obtain ⟨node, others, rfl, there, behind⟩ := other.exists_cons
      cases here.symm.trans there
      rw [inductionHypothesis later behind]

/-- A chain visits no address twice. -/
theorem nodup (chain : Chain heap next first nodes) : (nodes.map Prod.fst).Nodup := by
  induction nodes generalizing first with
  | nil => exact List.nodup_nil
  | cons head rest inductionHypothesis =>
      rw [List.map_cons, List.nodup_cons]
      refine ⟨fun again => ?_, inductionHypothesis chain.2.2⟩
      obtain ⟨twin, member, address⟩ := List.mem_map.1 again
      obtain ⟨front, back, rfl⟩ := List.append_of_mem member
      obtain ⟨middle, suffix⟩ := of_append chain.2.2
      -- The later visit would start the same chain, only shorter.
      have same : Chain heap next first (twin :: back) :=
        ⟨by rw [chain.1, address], suffix.2⟩
      have lengths := congrArg List.length (unique chain same)
      simp only [List.length_cons, List.length_append] at lengths
      omega

/-- Heaps that agree on the addresses of a chain both hold it. -/
theorem congr (chain : Chain heap next first nodes)
    (agree : ∀ address ∈ nodes.map Prod.fst, changed address = heap address) :
    Chain changed next first nodes := by
  induction nodes generalizing first with
  | nil => exact chain
  | cons head rest inductionHypothesis =>
      rw [List.map_cons, List.forall_mem_cons] at agree
      exact ⟨chain.1, agree.1.trans chain.2.1, inductionHypothesis chain.2.2 agree.2⟩

/-- An address where no node lives is outside. -/
theorem notMem_of_free {address : α} (chain : Chain heap next first nodes)
    (free : heap address = none) : address ∉ nodes.map Prod.fst := by
  intro member
  obtain ⟨entry, inside, rfl⟩ := List.mem_map.1 member
  rw [chain.heap_eq inside] at free
  cases free

section Update

variable [DecidableEq α] {address : α} {content : Option β}

/-- A change of one address outside a chain keeps it. -/
theorem frame (chain : Chain heap next first nodes) (outside : address ∉ nodes.map Prod.fst) :
    Chain (Function.update heap address content) next first nodes := by
  apply chain.congr
  intro other member
  have different : other ≠ address := by
    rintro rfl
    exact outside member
  exact Function.update_of_ne different ..

/-- A node at a new address is put in front. -/
theorem push {node : β} (chain : Chain heap next first nodes) (free : heap address = none)
    (link : next node = first) :
    Chain (Function.update heap address (some node)) next (some address)
      ((address, node) :: nodes) := by
  refine ⟨rfl, Function.update_self .., ?_⟩
  rw [link]
  exact chain.frame (chain.notMem_of_free free)

end Update

/-- Nodes that change, but neither their address nor their pointer. -/
theorem map {change : β → β} (chain : Chain heap next first nodes)
    (changes : ∀ entry ∈ nodes, changed entry.1 = some (change entry.2))
    (links : ∀ entry ∈ nodes, next (change entry.2) = next entry.2) :
    Chain changed next first (nodes.map fun entry => (entry.1, change entry.2)) := by
  induction nodes generalizing first with
  | nil => exact chain
  | cons head rest inductionHypothesis =>
      rw [List.forall_mem_cons] at changes links
      refine ⟨chain.1, changes.1, ?_⟩
      rw [links.1]
      exact inductionHypothesis chain.2.2 changes.2 links.2

/-- A pointer that leads to a freed node starts no chain. -/
theorem not_of_dangling (chain : Chain heap next first (front ++ entry :: back))
    (links : ∀ earlier ∈ front,
      ∃ node, changed earlier.1 = some node ∧ next node = next earlier.2)
    (freed : changed entry.1 = none) : ¬ ∃ nodes, Chain changed next first nodes := by
  rintro ⟨nodes, other⟩
  induction front generalizing first nodes with
  | nil =>
      obtain ⟨rfl, -, -⟩ := chain
      obtain ⟨node, rest, -, there, -⟩ := other.exists_cons
      cases there.symm.trans freed
  | cons head rest inductionHypothesis =>
      rw [List.forall_mem_cons] at links
      obtain ⟨kept, same, link⟩ := links.1
      obtain ⟨rfl, -, later⟩ := chain
      obtain ⟨node, nodes, -, there, behind⟩ := other.exists_cons
      cases same.symm.trans there
      rw [link] at behind
      exact inductionHypothesis later links.2 nodes behind

end Chain

end Rsu.Data
