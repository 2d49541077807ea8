import Mathlib.Data.List.Nodup
import Mathlib.Logic.Function.Basic

/-!
# Circular doubly linked lists

`Links` holds the two pointers of every node of one heap of intrusive lists. A
sentinel node `head` and the nodes reached from it form a `Ring` when the
pointers in both directions agree and no node occurs twice. The two pointer
updates, `insertBetween` and `unlink`, are written as sequences of single
assignments, so their effect on aliased arguments is the effect of the code.
`Ring.insert`, `Ring.erase` and `Ring.congr` are the rules for verifying list
code; several rings may share one heap.
-/

namespace Rsu.Data

universe u

/-- The forward and backward pointers of every node of a heap of lists. -/
structure Links (α : Type u) where
  next : α → α
  prev : α → α

namespace Links

variable {α : Type u}

/-- The first node of a list, or what lies behind an empty one. -/
def firstOr (last : α) : List α → α
  | [] => last
  | node :: _ => node

/-- The last node of a list, or what lies in front of an empty one. -/
def lastOr (first : α) : List α → α
  | [] => first
  | node :: rest => lastOr node rest

@[simp] theorem firstOr_nil (last : α) : firstOr last [] = last := rfl

@[simp] theorem firstOr_cons (last node : α) (rest : List α) :
    firstOr last (node :: rest) = node := rfl

@[simp] theorem lastOr_nil (first : α) : lastOr first [] = first := rfl

@[simp] theorem lastOr_cons (first node : α) (rest : List α) :
    lastOr first (node :: rest) = lastOr node rest := rfl

/-- Following the pointers from `first` visits `nodes` and then `last`, and the
backward pointers retrace the way. -/
def Segment (links : Links α) : α → List α → α → Prop
  | first, [], last => links.next first = last ∧ links.prev last = first
  | first, node :: rest, last =>
      (links.next first = node ∧ links.prev node = first) ∧ links.Segment node rest last

/-- `head` is the sentinel of a well-formed circular list that holds `nodes`. -/
structure Ring (links : Links α) (head : α) (nodes : List α) : Prop where
  linked : links.Segment head nodes head
  nodup : (head :: nodes).Nodup

/-- Two well-formed lists on one heap that share no node. -/
structure Rings (links : Links α) (head : α) (nodes : List α) (other : α) (others : List α) :
    Prop where
  left : links.Ring head nodes
  right : links.Ring other others
  apart : ∀ node ∈ head :: nodes, node ∉ other :: others

/-- Either ring may be the first. -/
theorem Rings.symm {links : Links α} {head other : α} {nodes others : List α}
    (rings : links.Rings head nodes other others) : links.Rings other others head nodes :=
  ⟨rings.right, rings.left, fun node member outside => rings.apart node outside member⟩

variable {links other : Links α} {head : α} {nodes : List α}

/-- A segment splits at any position, both halves keeping the pointer pair
between them. -/
theorem segment_append_iff {first last : α} {front back : List α} :
    links.Segment first (front ++ back) last ↔
      links.Segment first front (firstOr last back) ∧
        links.Segment (lastOr first front) back last := by
  induction front generalizing first with
  | nil =>
      cases back with
      | nil => simp [Segment]
      | cons node rest => simp [Segment]
  | cons node rest inductionHypothesis =>
      simp only [List.cons_append, Segment, lastOr_cons, inductionHypothesis, and_assoc]

/-- The last node a segment starts from is its first node or one it visits. -/
theorem lastOr_mem_cons (first : α) (rest : List α) : lastOr first rest ∈ first :: rest := by
  induction rest generalizing first with
  | nil => simp
  | cons node rest inductionHypothesis =>
      rw [lastOr_cons]
      exact List.mem_cons_of_mem first (inductionHypothesis node)

/-- Redirect the end of a segment: only the last forward pointer may change. -/
theorem Segment.retarget {first last target : α} {front : List α}
    (segment : links.Segment first front last) (nodup : (first :: front).Nodup)
    (forward : ∀ node ∈ first :: front, node ≠ lastOr first front →
      other.next node = links.next node)
    (backward : ∀ node ∈ front, other.prev node = links.prev node)
    (lastForward : other.next (lastOr first front) = target)
    (lastBackward : other.prev target = lastOr first front) :
    other.Segment first front target := by
  induction front generalizing first with
  | nil => exact ⟨lastForward, lastBackward⟩
  | cons node rest inductionHypothesis =>
      obtain ⟨⟨nextEq, prevEq⟩, tail⟩ := segment
      have firstOutside : first ∉ node :: rest := (List.nodup_cons.1 nodup).1
      have firstKept : first ≠ lastOr node rest := fun equal =>
        firstOutside (equal ▸ lastOr_mem_cons node rest)
      rw [lastOr_cons] at lastForward lastBackward
      refine ⟨⟨?_, ?_⟩, ?_⟩
      · rw [forward first List.mem_cons_self (by simpa using firstKept), nextEq]
      · rw [backward node List.mem_cons_self, prevEq]
      · refine inductionHypothesis tail (List.nodup_cons.1 nodup).2 ?_ ?_ lastForward lastBackward
        · intro other member different
          exact forward other (List.mem_cons_of_mem first member) (by simpa using different)
        · exact fun other member => backward other (List.mem_cons_of_mem node member)

/-- A segment only depends on the pointers of its own nodes. -/
theorem Segment.congr {first last : α} {front : List α} (segment : links.Segment first front last)
    (forward : ∀ node ∈ first :: front, other.next node = links.next node)
    (backward : ∀ node ∈ front ++ [last], other.prev node = links.prev node) :
    other.Segment first front last := by
  induction front generalizing first with
  | nil =>
      exact ⟨(forward first List.mem_cons_self).trans segment.1,
        (backward last (by simp)).trans segment.2⟩
  | cons node rest inductionHypothesis =>
      refine ⟨⟨(forward first List.mem_cons_self).trans segment.1.1,
        (backward node (by simp)).trans segment.1.2⟩, inductionHypothesis segment.2 ?_ ?_⟩
      · exact fun other member => forward other (List.mem_cons_of_mem first member)
      · exact fun other member => backward other (List.mem_cons_of_mem node member)

/-- Redirect the start of a segment: only the first backward pointer may change. -/
theorem Segment.restart {first last start : α} {back : List α}
    (segment : links.Segment first back last) (nodup : (back ++ [last]).Nodup)
    (forward : ∀ node ∈ back, other.next node = links.next node)
    (backward : ∀ node ∈ back ++ [last], node ≠ firstOr last back →
      other.prev node = links.prev node)
    (firstForward : other.next start = firstOr last back)
    (firstBackward : other.prev (firstOr last back) = start) :
    other.Segment start back last := by
  cases back with
  | nil => exact ⟨firstForward, firstBackward⟩
  | cons node rest =>
      have nodeOutside : node ∉ rest ++ [last] := (List.nodup_cons.1 nodup).1
      refine ⟨⟨firstForward, firstBackward⟩, segment.2.congr forward ?_⟩
      intro entry member
      have different : entry ≠ node := fun equal => nodeOutside (equal ▸ member)
      exact backward entry (List.mem_cons_of_mem node member) different

/-- The pointers determine the nodes of a segment. -/
theorem Segment.unique {first last : α} {front back : List α}
    (left : links.Segment first front last) (right : links.Segment first back last)
    (leftOutside : last ∉ front) (rightOutside : last ∉ back) : front = back := by
  induction front generalizing first back with
  | nil =>
      cases back with
      | nil => rfl
      | cons node rest =>
          have equal : node = last := right.1.1.symm.trans left.1
          exact absurd (equal ▸ List.mem_cons_self) rightOutside
  | cons node rest inductionHypothesis =>
      cases back with
      | nil =>
          have equal : node = last := left.1.1.symm.trans right.1
          exact absurd (equal ▸ List.mem_cons_self) leftOutside
      | cons other others =>
          obtain rfl : node = other := left.1.1.symm.trans right.1.1
          rw [inductionHypothesis left.2 right.2 (fun member => leftOutside (List.mem_cons_of_mem _ member))
            (fun member => rightOutside (List.mem_cons_of_mem _ member))]

/-- A sentinel heads at most one ring. -/
theorem Ring.unique {others : List α} (left : links.Ring head nodes)
    (right : links.Ring head others) : nodes = others :=
  left.linked.unique right.linked (List.nodup_cons.1 left.nodup).1 (List.nodup_cons.1 right.nodup).1

/-- A ring is unaffected by changes to the pointers of other nodes. -/
theorem Ring.congr (ring : links.Ring head nodes)
    (forward : ∀ node ∈ head :: nodes, other.next node = links.next node)
    (backward : ∀ node ∈ head :: nodes, other.prev node = links.prev node) :
    other.Ring head nodes := by
  refine ⟨ring.linked.congr forward ?_, ring.nodup⟩
  intro node member
  exact backward node (by simpa [or_comm] using member)

/-- Where a duplicate-free ring is cut, neither part touches the cut of the other. -/
theorem nodup_cut {front back : List α} (nodup : (head :: (front ++ back)).Nodup) :
    (head :: front).Nodup ∧ (back ++ [head]).Nodup ∧
      (∀ node ∈ back, node ≠ lastOr head front) ∧
      (∀ node ∈ front, node ≠ firstOr head back) := by
  rw [← List.cons_append, List.nodup_append] at nodup
  obtain ⟨frontNodup, backNodup, apart⟩ := nodup
  refine ⟨frontNodup, ?_, ?_, ?_⟩
  · refine List.nodup_append.2 ⟨backNodup, by simp, ?_⟩
    intro node member entry isHead equal
    simp only [List.mem_singleton] at isHead
    exact apart head List.mem_cons_self node member (by rw [equal, isHead])
  · exact fun node member equal => apart _ (lastOr_mem_cons head front) node member equal.symm
  · intro node member equal
    cases back with
    | nil =>
        rw [firstOr_nil] at equal
        exact (List.nodup_cons.1 frontNodup).1 (equal ▸ member)
    | cons entry rest =>
        exact apart node (List.mem_cons_of_mem head member) entry List.mem_cons_self equal

/-- The sentinel points forward to the first node, or to itself. -/
theorem Ring.next_head (ring : links.Ring head nodes) : links.next head = firstOr head nodes := by
  have linked := ring.linked
  cases nodes with
  | nil => exact linked.1
  | cons node rest => exact linked.1.1

/-- The sentinel points backward to the last node, or to itself. -/
theorem Ring.prev_head (ring : links.Ring head nodes) : links.prev head = lastOr head nodes := by
  have edge : links.Segment head (nodes ++ []) head := by simpa using ring.linked
  exact (segment_append_iff.1 edge).2.2

/-- A node points forward to its successor on the ring. -/
theorem Ring.next_node {front back : List α} {node : α}
    (ring : links.Ring head (front ++ node :: back)) : links.next node = firstOr head back := by
  have split := (segment_append_iff.1 ring.linked).2
  cases back with
  | nil => exact split.2.1
  | cons entry rest => exact split.2.1.1

/-- A node points backward to its predecessor on the ring. -/
theorem Ring.prev_node {front back : List α} {node : α}
    (ring : links.Ring head (front ++ node :: back)) :
    links.prev node = lastOr head front :=
  (segment_append_iff.1 ring.linked).2.1.2

/-- A node occurs nowhere else on its ring. -/
theorem Ring.node_outside {front back : List α} {node : α}
    (ring : links.Ring head (front ++ node :: back)) : node ∉ head :: (front ++ back) := by
  have nodup := ring.nodup
  rw [(List.perm_middle.cons head).nodup_iff, (List.Perm.swap node head _).nodup_iff] at nodup
  exact (List.nodup_cons.1 nodup).1

variable [DecidableEq α]

/-- Link `new` between two nodes: the four assignments, in order. -/
def insertBetween (links : Links α) (new before after : α) : Links α where
  next := Function.update (Function.update links.next new after) before new
  prev := Function.update (Function.update links.prev after new) new before

/-- Make two nodes point to each other, dropping what was between them. -/
def unlink (links : Links α) (before after : α) : Links α where
  next := Function.update links.next before after
  prev := Function.update links.prev after before

/-- A sentinel that points to itself is an empty ring. -/
def initHead (links : Links α) (head : α) : Links α where
  next := Function.update links.next head head
  prev := Function.update links.prev head head

/-- A node linked between two others is the successor of the first. -/
@[simp] theorem next_insertBetween_before (links : Links α) (new before after : α) :
    (links.insertBetween new before after).next before = new := by
  simp [insertBetween]

/-- A node linked in front of itself is its own successor. -/
@[simp] theorem next_insertBetween_self (links : Links α) (new before : α) :
    (links.insertBetween new before new).next new = new := by
  by_cases same : new = before
  · simp [insertBetween, same]
  · simp [insertBetween, Function.update_of_ne same]

/-- A new head is an empty ring. -/
theorem initHead_ring (links : Links α) (head : α) : (links.initHead head).Ring head [] :=
  ⟨by simp [Segment, initHead], by simp⟩

/-- Linking a fresh node at any position of a ring. -/
theorem Ring.insert {front back : List α} {new : α} (ring : links.Ring head (front ++ back))
    (fresh : new ∉ head :: (front ++ back)) :
    (links.insertBetween new (lastOr head front) (firstOr head back)).Ring head
      (front ++ new :: back) := by
  obtain ⟨frontLinked, backLinked⟩ := segment_append_iff.1 ring.linked
  obtain ⟨frontNodup, backNodup, lastOutside, firstOutside⟩ := nodup_cut ring.nodup
  have frontFresh : ∀ node ∈ head :: front, node ≠ new := by
    rintro node member rfl
    exact fresh (List.mem_append_left back member)
  have backFresh : ∀ node ∈ back ++ [head], node ≠ new := by
    rintro node member rfl
    exact fresh (by simp at member ⊢; tauto)
  have lastFresh : new ≠ lastOr head front := (frontFresh _ (lastOr_mem_cons head front)).symm
  have firstFresh : firstOr head back ≠ new := backFresh _ (by cases back <;> simp)
  refine ⟨segment_append_iff.2 ⟨?_, ⟨by simp [insertBetween], by simp [insertBetween]⟩, ?_⟩, ?_⟩
  · refine frontLinked.retarget frontNodup ?_ ?_ (by simp [insertBetween])
      (by simp [insertBetween])
    · intro node member different
      simp [insertBetween, Function.update_of_ne different,
        Function.update_of_ne (frontFresh node member)]
    · intro node member
      simp [insertBetween, Function.update_of_ne (firstOutside node member),
        Function.update_of_ne (frontFresh node (List.mem_cons_of_mem head member))]
  · refine backLinked.restart backNodup ?_ ?_ ?_ ?_
    · intro node member
      simp [insertBetween, Function.update_of_ne (lastOutside node member),
        Function.update_of_ne (backFresh node (List.mem_append_left [head] member))]
    · intro node member different
      simp [insertBetween, Function.update_of_ne different,
        Function.update_of_ne (backFresh node member)]
    · simp [insertBetween, Function.update_of_ne lastFresh]
    · simp [insertBetween, Function.update_of_ne firstFresh]
  · have permuted : (head :: (front ++ new :: back)).Perm (new :: head :: (front ++ back)) :=
      (List.Perm.cons head List.perm_middle).trans (List.Perm.swap new head _)
    exact permuted.nodup_iff.2 (List.nodup_cons.2 ⟨fresh, ring.nodup⟩)

/-- Unlinking a node between its two neighbours. -/
theorem Ring.erase {front back : List α} {node : α}
    (ring : links.Ring head (front ++ node :: back)) :
    (links.unlink (links.prev node) (links.next node)).Ring head (front ++ back) := by
  obtain ⟨frontLinked, nodeLinked⟩ := segment_append_iff.1 ring.linked
  have kept : (head :: (front ++ back)).Sublist (head :: (front ++ node :: back)) :=
    ((List.Sublist.refl front).append (List.sublist_cons_self node back)).cons_cons head
  have nodup := ring.nodup.sublist kept
  obtain ⟨frontNodup, backNodup, lastOutside, firstOutside⟩ := nodup_cut nodup
  rw [ring.prev_node, ring.next_node]
  refine ⟨segment_append_iff.2 ⟨?_, ?_⟩, nodup⟩
  · refine frontLinked.retarget frontNodup ?_ ?_ (by simp [unlink]) (by simp [unlink])
    · intro entry member different
      simp [unlink, Function.update_of_ne different]
    · intro entry member
      simp [unlink, Function.update_of_ne (firstOutside entry member)]
  · refine nodeLinked.2.restart backNodup ?_ ?_ (by simp [unlink]) (by simp [unlink])
    · intro entry member
      simp [unlink, Function.update_of_ne (lastOutside entry member)]
    · intro entry member different
      simp [unlink, Function.update_of_ne different]

/-- Linking a node leaves a ring alone that holds none of the three nodes. -/
theorem Ring.insert_frame {new before after : α} (ring : links.Ring head nodes)
    (newOutside : new ∉ head :: nodes) (beforeOutside : before ∉ head :: nodes)
    (afterOutside : after ∉ head :: nodes) :
    (links.insertBetween new before after).Ring head nodes := by
  refine ring.congr ?_ ?_
  · intro node member
    have notNew : node ≠ new := fun equal => newOutside (equal ▸ member)
    have notBefore : node ≠ before := fun equal => beforeOutside (equal ▸ member)
    simp [insertBetween, Function.update_of_ne notBefore, Function.update_of_ne notNew]
  · intro node member
    have notNew : node ≠ new := fun equal => newOutside (equal ▸ member)
    have notAfter : node ≠ after := fun equal => afterOutside (equal ▸ member)
    simp [insertBetween, Function.update_of_ne notNew, Function.update_of_ne notAfter]

/-- Unlinking leaves a ring alone that holds neither of the two neighbours. -/
theorem Ring.unlink_frame {before after : α} (ring : links.Ring head nodes)
    (beforeOutside : before ∉ head :: nodes) (afterOutside : after ∉ head :: nodes) :
    (links.unlink before after).Ring head nodes := by
  refine ring.congr ?_ ?_
  · intro node member
    have notBefore : node ≠ before := fun equal => beforeOutside (equal ▸ member)
    simp [unlink, Function.update_of_ne notBefore]
  · intro node member
    have notAfter : node ≠ after := fun equal => afterOutside (equal ▸ member)
    simp [unlink, Function.update_of_ne notAfter]

end Links

end Rsu.Data
