import Mathlib.Data.List.Perm.Subperm
import Rsu.Cli.Users
import Rsu.Data.Chain
import Rsu.Data.Pool
import Rsu.Semantics.ActionSystem
import Rsu.Semantics.Checked

/-!
# The list of blocked addresses

An address from which too many logins failed is put in front of a list, in a node that counts
down from 60. The first node starts a thread that visits the list once a second, and frees the
nodes that have counted down. The pointer that leads to a freed node is changed only if it is
the head of the list.
-/

namespace Rsu.Cli

open Rsu.Rcp Rsu.Data Checked

/-- The text of an address as `sockunion_su2str` makes it: digits and dots. -/
structure DosIp where
  chars : List Byte
  plain : ∀ char ∈ chars, char = 46 ∨ 48 ≤ char ∧ char ≤ 57
  fits : chars.length ≤ 15
  deriving DecidableEq

/-- `StrDosNode`. `loan` numbers the allocations. -/
structure DosNode where
  iSecend : Nat
  szIp : DosIp
  next : Option Nat
  loan : Nat

def DosNode.counted (node : DosNode) : DosNode := { node with iSecend := node.iSecend - 1 }

/-- An address that was added, and the ticks since then. -/
structure AddedIp where
  szIp : DosIp
  age : Nat

def AddedIp.older (added : AddedIp) : AddedIp := { added with age := added.age + 1 }

/-- The memory of the nodes, `g_pstDosHead` and the threads that will visit the list again, with
what was allocated and what was added, newest first. -/
structure DosState where
  heap : Nat → Option DosNode
  dosHead : Option Nat
  threads : Nat
  loans : Pool
  added : List AddedIp

namespace DosState

def empty : DosState where
  heap := fun _ => none
  dosHead := none
  threads := 0
  loans := .empty
  added := []

/-- A node that goes on counting. -/
def countDown (state : DosState) (pstTmp : Nat) (node : DosNode) : DosState :=
  { state with heap := Function.update state.heap pstTmp (some node.counted) }

/-- A node that has counted down. -/
def drop (state : DosState) (pstTmp2 : Nat) (node : DosNode) : DosState :=
  { state with
    dosHead := if state.dosHead = some pstTmp2 then node.next else state.dosHead
    heap := Function.update state.heap pstTmp2 none
    loans := state.loans.release node.loan }

/-- The visit of one node. -/
def visit (state : DosState) (entry : Nat × DosNode) : DosState :=
  if entry.2.iSecend > 0 then state.countDown entry.1 entry.2 else state.drop entry.1 entry.2

/-- The visit of the nodes from a pointer on. Every step counts a node down or frees it. -/
def visitFrom : Nat → DosState → Option Nat → Checked DosState
  | _, state, none => .ok state
  | 0, _, some _ => .error .read
  | steps + 1, state, some pstTmp =>
      match state.heap pstTmp with
      | none => .error .read
      | some node => visitFrom steps (state.visit (pstTmp, node)) node.next

/-- One turn of the loop of `DosThread`. A thread that finds no node does not come back. -/
def dosThread (state : DosState) : Checked DosState :=
  match state.dosHead with
  | some first => visitFrom (61 * state.loans.obtained) state (some first)
  | none => .ok { state with threads := state.threads - 1 }

/-- What was added is a tick older. -/
def aged (state : DosState) : DosState :=
  { state with added := state.added.map AddedIp.older }

def tick (state : DosState) : Checked DosState := dosThread state.aged

/-- The node that `AddDos` fills. -/
def newNode (state : DosState) (pIp : DosIp) : DosNode where
  iSecend := 60
  szIp := pIp
  next := state.dosHead
  loan := state.loans.obtained

/-- The list with the new node in front. -/
def link (state : DosState) (pIp : DosIp) (pstTmp : Nat) : DosState :=
  { state with
    heap := Function.update state.heap pstTmp (some (state.newNode pIp))
    dosHead := some pstTmp
    loans := state.loans.get
    added := ⟨pIp, 0⟩ :: state.added }

/-- `AddDos`, given what `malloc` returns and whether the thread could be created. The name of a
thread that was not created has no value. -/
def addDos (state : DosState) (pIp : DosIp) (block : Option Nat) (created : Bool) :
    Checked DosState :=
  match block with
  | none => .ok state
  | some pstTmp =>
      let linked := state.link pIp pstTmp
      if (state.newNode pIp).next = none then
        if created then .ok { linked with threads := linked.threads + 1 } else .error .read
      else .ok linked

/-- The search of `FindDos` from a pointer on. A list of live nodes has at most as many as were
allocated. -/
def findFrom (heap : Nat → Option DosNode) (pIp : DosIp) : Nat → Option Nat → Checked Int
  | _, none => .ok 0
  | 0, some _ => .error .read
  | steps + 1, some pstTmp =>
      match heap pstTmp with
      | none => .error .read
      | some node => if pIp = node.szIp then .ok 1 else findFrom heap pIp steps node.next

/-- `FindDos` -/
def findDos (state : DosState) (pIp : DosIp) : Checked Int :=
  findFrom state.heap pIp state.loans.obtained state.dosHead

end DosState

inductive DosAction where
  | addDos (pIp : DosIp) (block : Option Nat) (created : Bool)
  | tick

/-- What may happen. `malloc` returns memory that is not in use, and a tick needs a thread. -/
inductive DosStep : Checked DosState → DosAction → Checked DosState → Prop where
  | addDos (state : DosState) (pIp : DosIp) (block : Option Nat) (created : Bool)
      (unused : ∀ pstTmp, block = some pstTmp → state.heap pstTmp = none) :
      DosStep (.ok state) (.addDos pIp block created) (state.addDos pIp block created)
  | tick (state : DosState) (running : 0 < state.threads) :
      DosStep (.ok state) .tick state.tick

def dosSystem : ActionSystem DosAction where
  State := Checked DosState
  Initial state := state = .ok .empty
  Step := DosStep

namespace DosState

/-- The address was added at most 60 ticks ago. -/
def Recent (state : DosState) (pIp : DosIp) : Prop :=
  ∃ added ∈ state.added, added.age ≤ 60 ∧ added.szIp = pIp

/-- The list holds what it should, in nodes that are in use, and one thread visits it. -/
structure BlockList (state : DosState) (nodes : List (Nat × DosNode)) : Prop where
  linked : Chain state.heap DosNode.next state.dosHead nodes
  exact : ∀ pIp, (∃ entry ∈ nodes, entry.2.szIp = pIp) ↔ state.Recent pIp
  found : ∀ pIp, Ends (state.findDos pIp) fun result => result = 1 ↔ state.Recent pIp
  live : ∀ entry ∈ nodes, state.loans.Live entry.2.loan
  freed : state.loans.Accounted fun loan => ∃ entry ∈ nodes, entry.2.loan = loan
  visited : nodes ≠ [] → state.threads = 1

end DosState

/-- The block list is as it should be. -/
def Blocking (state : Checked DosState) : Prop :=
  Ends state fun state => ∃ nodes, state.BlockList nodes

/-- No tick finds an address added 60 ticks ago behind a newer one, and the first node meets no
thread that is still there. -/
def DosMeets : Checked DosState → DosAction → Prop
  | .ok state, .tick =>
      (∃ added ∈ state.added, added.age = 60) → ∀ added ∈ state.added, 60 ≤ added.age
  | .ok state, .addDos _ block created =>
      block ≠ none → state.dosHead = none → created = true ∧ state.threads = 0
  | .error _, _ => True

namespace DosState

variable {state : DosState} {nodes rest : List (Nat × DosNode)} {entry : Nat × DosNode}
  {first : Option Nat} {address steps : Nat}

section Visits

/-- Visiting a node starts no thread. -/
theorem visit_threads (state : DosState) (entry : Nat × DosNode) :
    (state.visit entry).threads = state.threads := by
  unfold visit
  split <;> rfl

/-- Visiting a node adds no address. -/
theorem visit_added (state : DosState) (entry : Nat × DosNode) :
    (state.visit entry).added = state.added := by
  unfold visit
  split <;> rfl

/-- A visit leaves the other nodes alone. -/
theorem visit_heap_of_ne (other : address ≠ entry.1) :
    (state.visit entry).heap address = state.heap address := by
  unfold visit
  split
  · exact Function.update_of_ne other ..
  · exact Function.update_of_ne other ..

/-- What a visit makes of its node. -/
def visitedNode (node : DosNode) : Option DosNode :=
  if node.iSecend > 0 then some node.counted else none

/-- What a visit leaves of the node. -/
theorem visit_heap_self : (state.visit entry).heap entry.1 = visitedNode entry.2 := by
  unfold visit visitedNode
  split
  · exact Function.update_self ..
  · exact Function.update_self ..

/-- A visit changes the head only if it is the visited node. -/
theorem visit_head_of_ne (other : state.dosHead ≠ some entry.1) :
    (state.visit entry).dosHead = state.dosHead := by
  unfold visit
  split
  · rfl
  · exact if_neg other

/-- A node whose time is not over is counted down. -/
theorem visit_of_pos (counting : 0 < entry.2.iSecend) :
    state.visit entry = state.countDown entry.1 entry.2 := if_pos counting

/-- A node whose time is over is freed. -/
theorem visit_of_zero (done : entry.2.iSecend = 0) :
    state.visit entry = state.drop entry.1 entry.2 := if_neg (by omega)

/-- A turn of the thread visits the nodes of the list, in order. -/
theorem visitFrom_eq (chain : Chain state.heap DosNode.next first nodes)
    (enough : nodes.length ≤ steps) :
    visitFrom steps state first = .ok (nodes.foldl visit state) := by
  induction nodes generalizing state first steps with
  | nil =>
      obtain rfl : first = none := chain
      cases steps <;> rfl
  | cons entry rest inductionHypothesis =>
      obtain ⟨rfl, here, later⟩ := chain
      cases steps with
      | zero => exact absurd enough (Nat.not_succ_le_zero _)
      | succ steps =>
          have whole : Chain state.heap DosNode.next (some entry.1) (entry :: rest) :=
            ⟨rfl, here, later⟩
          have outside := (List.nodup_cons.1 whole.nodup).1
          rw [visitFrom, here]
          refine inductionHypothesis (later.congr ?_) (Nat.le_of_succ_le_succ enough)
          intro other member
          refine visit_heap_of_ne ?_
          rintro rfl
          exact outside member

/-- The visits keep what each visit keeps. -/
theorem visits_keep {Field : Type} {field : DosState → Field}
    (kept : ∀ state entry, field (visit state entry) = field state) :
    field (nodes.foldl visit state) = field state := by
  induction nodes generalizing state with
  | nil => rfl
  | cons head rest inductionHypothesis => rw [List.foldl_cons, inductionHypothesis, kept]

/-- Other blocks are left alone. -/
theorem visits_heap_of_notMem (outside : address ∉ nodes.map Prod.fst) :
    (nodes.foldl visit state).heap address = state.heap address := by
  induction nodes generalizing state with
  | nil => rfl
  | cons head rest inductionHypothesis =>
      rw [List.map_cons, List.mem_cons, not_or] at outside
      rw [List.foldl_cons, inductionHypothesis outside.2, visit_heap_of_ne outside.1]

/-- What the visits make of each node. -/
theorem visits_heap_of_mem (nodup : (nodes.map Prod.fst).Nodup) (member : entry ∈ nodes) :
    (nodes.foldl visit state).heap entry.1 = visitedNode entry.2 := by
  induction nodes generalizing state with
  | nil => cases member
  | cons head rest inductionHypothesis =>
      rw [List.map_cons, List.nodup_cons] at nodup
      rw [List.foldl_cons]
      rcases List.mem_cons.1 member with rfl | later
      · rw [visits_heap_of_notMem nodup.1, visit_heap_self]
      · exact inductionHypothesis nodup.2 later

/-- Nodes that are not the head leave it alone. -/
theorem visits_head_of_notMem (outside : ∀ entry ∈ nodes, state.dosHead ≠ some entry.1) :
    (nodes.foldl visit state).dosHead = state.dosHead := by
  induction nodes generalizing state with
  | nil => rfl
  | cons head rest inductionHypothesis =>
      rw [List.forall_mem_cons] at outside
      have same := visit_head_of_ne outside.1
      rw [List.foldl_cons, inductionHypothesis, same]
      rw [same]
      exact outside.2

/-- The head stays as long as its own node counts. -/
theorem visits_head_of_counting (chain : Chain state.heap DosNode.next state.dosHead nodes)
    (counting : ∀ entry ∈ nodes.head?, 0 < entry.2.iSecend) :
    (nodes.foldl visit state).dosHead = state.dosHead := by
  cases nodes with
  | nil => rfl
  | cons head rest =>
      have outside := (List.nodup_cons.1 chain.nodup).1
      have same : (state.visit head).dosHead = state.dosHead := by
        rw [visit_of_pos (counting head rfl)]
        rfl
      rw [List.foldl_cons, visits_head_of_notMem, same]
      intro entry member again
      rw [same, chain.1] at again
      exact outside (Option.some.inj again ▸ List.mem_map_of_mem member)

/-- Visits of nodes that count give nothing back. -/
theorem visits_loans_of_counting (counting : ∀ entry ∈ nodes, 0 < entry.2.iSecend) :
    (nodes.foldl visit state).loans = state.loans := by
  induction nodes generalizing state with
  | nil => rfl
  | cons head rest inductionHypothesis =>
      rw [List.forall_mem_cons] at counting
      rw [List.foldl_cons, inductionHypothesis counting.2, visit_of_pos counting.1]
      rfl

/-- Visits of nodes that have all counted down empty the list. -/
theorem visits_head_of_done (chain : Chain state.heap DosNode.next state.dosHead nodes)
    (done : ∀ entry ∈ nodes, entry.2.iSecend = 0) :
    (nodes.foldl visit state).dosHead = none := by
  induction nodes generalizing state with
  | nil => exact chain
  | cons head rest inductionHypothesis =>
      rw [List.forall_mem_cons] at done
      have outside := (List.nodup_cons.1 chain.nodup).1
      have moved : (state.visit head).dosHead = head.2.next := by
        rw [visit_of_zero done.1]
        exact if_pos chain.1
      refine inductionHypothesis ?_ done.2
      rw [moved]
      refine chain.2.2.congr fun other member => visit_heap_of_ne ?_
      rintro rfl
      exact outside member

end Visits

section Listed

/-- What was added at most 60 ticks ago. -/
def recent (added : List AddedIp) : List AddedIp := added.filter fun entry => entry.age ≤ 60

/-- What the list holds, and how the nodes were allocated. -/
structure Listed (state : DosState) (nodes : List (Nat × DosNode)) : Prop where
  linked : Chain state.heap DosNode.next state.dosHead nodes
  holds : nodes.map (fun entry => (entry.2.szIp, entry.2.iSecend)) =
    (recent state.added).map fun added => (added.szIp, 60 - added.age)
  sorted : state.added.Pairwise fun newer older => newer.age ≤ older.age
  fresh : state.loans.Fresh
  live : ∀ entry ∈ nodes, state.loans.Live entry.2.loan
  freed : state.loans.Accounted fun loan => ∃ entry ∈ nodes, entry.2.loan = loan
  apart : (nodes.map fun entry => entry.2.loan).Nodup

/-- At the start no address is blocked. -/
theorem listed_empty : empty.Listed [] where
  linked := rfl
  holds := rfl
  sorted := .nil
  fresh := Pool.empty_fresh
  live := fun _ member => absurd member List.not_mem_nil
  freed := Pool.empty_accounted
  apart := List.nodup_nil

namespace Listed

/-- Nodes have different loans, so there are at most as many as loans. -/
theorem length_le (listed : state.Listed nodes) : nodes.length ≤ state.loans.obtained := by
  have inside : (nodes.map fun entry => entry.2.loan) ⊆ List.range state.loans.obtained := by
    intro loan member
    obtain ⟨entry, here, rfl⟩ := List.mem_map.1 member
    exact List.mem_range.2 (listed.live entry here).obtained
  have bound := (listed.apart.subperm inside).length_le
  rwa [List.length_map, List.length_range] at bound

/-- The addresses of the list are the recent ones. -/
theorem mem_iff (listed : state.Listed nodes) (pIp : DosIp) :
    (∃ entry ∈ nodes, entry.2.szIp = pIp) ↔ state.Recent pIp := by
  have names := congrArg (List.map Prod.fst) listed.holds
  rw [List.map_map, List.map_map] at names
  have same : pIp ∈ nodes.map (fun entry => entry.2.szIp) ↔
      pIp ∈ (recent state.added).map AddedIp.szIp := by
    rw [show (nodes.map fun entry => entry.2.szIp) = (recent state.added).map AddedIp.szIp
      from names]
  simpa [recent, Recent, and_assoc] using same

/-- The counter of a node is what is left of the 60 ticks. -/
theorem counter_eq (listed : state.Listed nodes) (member : entry ∈ nodes) :
    ∃ added ∈ state.added, added.age ≤ 60 ∧ entry.2.iSecend = 60 - added.age := by
  have inside : (entry.2.szIp, entry.2.iSecend) ∈
      (recent state.added).map fun added => (added.szIp, 60 - added.age) := by
    rw [← listed.holds]
    exact List.mem_map_of_mem member
  obtain ⟨added, known, same⟩ := List.mem_map.1 inside
  obtain ⟨present, young⟩ := List.mem_filter.1 known
  exact ⟨added, present, of_decide_eq_true young, (Prod.ext_iff.1 same).2.symm⟩

/-- Whatever is recent has a node. -/
theorem exists_node (listed : state.Listed nodes) {added : AddedIp}
    (present : added ∈ state.added) (young : added.age ≤ 60) :
    ∃ entry ∈ nodes, entry.2.iSecend = 60 - added.age := by
  have inside : (added.szIp, 60 - added.age) ∈
      nodes.map fun entry => (entry.2.szIp, entry.2.iSecend) := by
    rw [listed.holds]
    exact List.mem_map_of_mem (List.mem_filter.2 ⟨present, decide_eq_true young⟩)
  obtain ⟨entry, member, same⟩ := List.mem_map.1 inside
  exact ⟨entry, member, (Prod.ext_iff.1 same).2⟩

end Listed

/-- The search ends on a list of live nodes, and finds the addresses of the list. -/
theorem findFrom_ends {pIp : DosIp} (chain : Chain state.heap DosNode.next first nodes)
    (enough : nodes.length ≤ steps) :
    Ends (findFrom state.heap pIp steps first) fun result =>
      result = 1 ↔ ∃ entry ∈ nodes, entry.2.szIp = pIp := by
  induction nodes generalizing first steps with
  | nil =>
      obtain rfl : first = none := chain
      refine ⟨0, by cases steps <;> rfl, ?_⟩
      simp
  | cons entry rest inductionHypothesis =>
      obtain ⟨rfl, here, later⟩ := chain
      cases steps with
      | zero => exact absurd enough (Nat.not_succ_le_zero _)
      | succ steps =>
          rw [findFrom, here]
          dsimp only
          by_cases same : pIp = entry.2.szIp
          · rw [if_pos same]
            exact ⟨1, rfl, by simp [same]⟩
          · rw [if_neg same]
            refine (inductionHypothesis later (Nat.le_of_succ_le_succ enough)).mono ?_
            intro result found
            rw [found, List.exists_mem_cons_iff]
            exact (or_iff_right fun equal => same equal.symm).symm

/-- A well kept list that one thread visits is as it should be. -/
theorem Listed.blockList (listed : state.Listed nodes)
    (visited : nodes ≠ [] → state.threads = 1) : state.BlockList nodes where
  linked := listed.linked
  exact := listed.mem_iff
  found := fun pIp => (findFrom_ends listed.linked listed.length_le).mono fun _ found =>
    found.trans (listed.mem_iff pIp)
  live := listed.live
  freed := listed.freed
  visited := visited

end Listed

section Steps

/-- Put a new node in front. -/
theorem Listed.link (listed : state.Listed nodes) (pIp : DosIp)
    (unused : state.heap address = none) :
    (state.link pIp address).Listed ((address, state.newNode pIp) :: nodes) where
  linked := listed.linked.push unused rfl
  holds := by
    have front : recent (state.link pIp address).added = ⟨pIp, 0⟩ :: recent state.added := rfl
    rw [front, List.map_cons, List.map_cons, listed.holds]
    rfl
  sorted := .cons (fun _ _ => Nat.zero_le _) listed.sorted
  fresh := listed.fresh.get
  live := by
    rw [List.forall_mem_cons]
    exact ⟨listed.fresh.live_get, fun entry member => (listed.live entry member).get⟩
  freed := by
    refine listed.freed.get ⟨_, List.mem_cons_self, rfl⟩ ?_
    rintro loan ⟨entry, member, same⟩
    exact ⟨entry, List.mem_cons_of_mem _ member, same⟩
  apart := by
    refine List.nodup_cons.2 ⟨fun again => ?_, listed.apart⟩
    obtain ⟨entry, member, same⟩ := List.mem_map.1 again
    have earlier := (listed.live entry member).obtained
    rw [same] at earlier
    exact Nat.lt_irrefl _ earlier

/-- A tick visits the nodes, and ends the thread only if there are none. -/
theorem Listed.tick_eq (listed : state.Listed nodes) :
    ∃ threads, state.tick = .ok { nodes.foldl visit state.aged with threads := threads } ∧
      (nodes ≠ [] → threads = state.threads) := by
  unfold tick dosThread
  cases nodes with
  | nil =>
      refine ⟨state.threads - 1, ?_, fun occupied => absurd rfl occupied⟩
      split
      case h_1 first linked => exact absurd (linked.symm.trans listed.linked) (by simp)
      case h_2 => rfl
  | cons head rest =>
      have chain : Chain state.aged.heap DosNode.next (some head.1) (head :: rest) :=
        ⟨rfl, listed.linked.2⟩
      have enough : (head :: rest).length ≤ 61 * state.aged.loans.obtained :=
        Nat.le_trans listed.length_le (Nat.le_mul_of_pos_left _ (by decide))
      rw [show state.aged.dosHead = some head.1 from listed.linked.1]
      refine ⟨state.threads, ?_, fun _ => rfl⟩
      dsimp only
      rw [visitFrom_eq chain enough]
      have threads : ((head :: rest).foldl visit state.aged).threads = state.threads :=
        visits_keep visit_threads
      rw [← threads]

/-- As long as nothing was added exactly 60 ticks ago, nothing leaves. -/
theorem recent_older {added : List AddedIp} (stay : ∀ entry ∈ added, entry.age ≠ 60) :
    recent (added.map AddedIp.older) = (recent added).map AddedIp.older := by
  unfold recent
  rw [List.filter_map]
  congr 1
  apply List.filter_congr
  intro entry member
  have different := stay entry member
  change decide (entry.age + 1 ≤ 60) = decide (entry.age ≤ 60)
  rw [decide_eq_decide]
  omega

/-- Once everything was added at least 60 ticks ago, everything leaves. -/
theorem recent_eq_nil {added : List AddedIp} (old : ∀ entry ∈ added, 60 ≤ entry.age) :
    recent (added.map AddedIp.older) = [] := by
  rw [recent, List.filter_eq_nil_iff]
  intro entry member
  obtain ⟨younger, known, rfl⟩ := List.mem_map.1 member
  have bound := old younger known
  change ¬ decide (younger.age + 1 ≤ 60) = true
  rw [decide_eq_true_eq]
  omega

/-- The newest address stays the first one. -/
theorem sorted_aged (listed : state.Listed nodes) :
    (nodes.foldl visit state.aged).added.Pairwise fun newer older => newer.age ≤ older.age := by
  rw [visits_keep visit_added]
  exact listed.sorted.map _ fun newer older => Nat.succ_le_succ

/-- A tick that counts every node down. -/
theorem Listed.count (listed : state.Listed nodes)
    (stay : ∀ added ∈ state.added, added.age ≠ 60) :
    (nodes.foldl visit state.aged).Listed
      (nodes.map fun entry => (entry.1, entry.2.counted)) := by
  have counting : ∀ entry ∈ nodes, 0 < entry.2.iSecend := by
    intro entry member
    obtain ⟨added, present, young, same⟩ := listed.counter_eq member
    have different := stay added present
    omega
  have chain : Chain state.aged.heap DosNode.next state.aged.dosHead nodes := listed.linked
  have loans : (nodes.foldl visit state.aged).loans = state.loans :=
    visits_loans_of_counting counting
  refine ⟨?_, ?_, sorted_aged listed, ?_, ?_, ?_, ?_⟩
  · rw [visits_head_of_counting chain fun entry first =>
      counting entry (List.mem_of_mem_head? first)]
    refine chain.map (fun entry member => ?_) fun _ _ => rfl
    rw [visits_heap_of_mem chain.nodup member]
    exact if_pos (counting entry member)
  · have later := congrArg (List.map fun pair => (pair.1, pair.2 - 1)) listed.holds
    rw [List.map_map, List.map_map] at later
    rw [visits_keep visit_added, aged, recent_older stay, List.map_map, List.map_map]
    exact later
  · rw [loans]
    exact listed.fresh
  · rw [loans, List.forall_mem_map]
    exact listed.live
  · rw [loans]
    refine listed.freed.mono ?_
    rintro loan ⟨entry, member, same⟩
    exact ⟨_, List.mem_map_of_mem member, same⟩
  · rw [List.map_map]
    exact listed.apart

/-- Nodes that are visited for the last time are given back. -/
theorem visits_freed (done : ∀ entry ∈ nodes, entry.2.iSecend = 0) (fresh : state.loans.Fresh)
    (live : ∀ entry ∈ nodes, state.loans.Live entry.2.loan)
    (apart : (nodes.map fun entry => entry.2.loan).Nodup)
    (freed : state.loans.Accounted fun loan => ∃ entry ∈ nodes, entry.2.loan = loan) :
    (nodes.foldl visit state).loans.Fresh ∧
      (nodes.foldl visit state).loans.Accounted fun _ => False := by
  induction nodes generalizing state with
  | nil => exact ⟨fresh, freed.mono fun loan owned => by simp at owned⟩
  | cons head rest inductionHypothesis =>
      rw [List.forall_mem_cons] at done live
      rw [List.map_cons, List.nodup_cons] at apart
      have given : (state.visit head).loans = state.loans.release head.2.loan := by
        rw [visit_of_zero done.1]
        rfl
      refine inductionHypothesis done.2 ?_ ?_ apart.2 ?_
      · rw [given]
        exact fresh.release live.1.obtained
      · intro entry member
        rw [given]
        refine (live.2 entry member).release fun same => apart.1 ?_
        exact same ▸ List.mem_map_of_mem (f := fun entry => entry.2.loan) member
      · rw [given]
        refine freed.release live.1 ?_
        rintro other different ⟨entry, member, rfl⟩
        rcases List.mem_cons.1 member with rfl | later
        · exact absurd rfl different
        · exact ⟨entry, later, rfl⟩

/-- A tick that empties the list. -/
theorem Listed.expire (listed : state.Listed nodes)
    (old : ∀ added ∈ state.added, 60 ≤ added.age) :
    (nodes.foldl visit state.aged).Listed [] := by
  have done : ∀ entry ∈ nodes, entry.2.iSecend = 0 := by
    intro entry member
    obtain ⟨added, present, -, same⟩ := listed.counter_eq member
    have bound := old added present
    omega
  have chain : Chain state.aged.heap DosNode.next state.aged.dosHead nodes := listed.linked
  have fresh : state.aged.loans.Fresh := listed.fresh
  obtain ⟨fresh, freed⟩ := visits_freed done fresh listed.live listed.apart listed.freed
  refine ⟨visits_head_of_done chain done, ?_, sorted_aged listed, fresh,
    fun _ member => absurd member List.not_mem_nil,
    freed.mono fun _ impossible => impossible.elim, List.nodup_nil⟩
  rw [visits_keep visit_added, aged, recent_eq_nil old]
  rfl

/-- A node that is freed behind a node that counts is still pointed to. -/
theorem Listed.dangles (listed : state.Listed nodes)
    (old : ∃ added ∈ state.added, added.age = 60)
    (young : ∃ added ∈ state.added, added.age < 60) :
    ¬ ∃ others, Chain (nodes.foldl visit state.aged).heap DosNode.next
      (nodes.foldl visit state.aged).dosHead others := by
  have chain : Chain state.aged.heap DosNode.next state.aged.dosHead nodes := listed.linked
  have nodup := chain.nodup
  -- The first node belongs to the newest address.
  have counting : ∀ entry ∈ nodes.head?, 0 < entry.2.iSecend := by
    intro head first
    obtain ⟨added, present, bound⟩ := young
    have holds := congrArg List.head? listed.holds
    have sorted := listed.sorted
    rw [List.head?_map, List.head?_map, first] at holds
    cases known : state.added with
    | nil =>
        rw [known] at present
        cases present
    | cons newest older =>
        rw [known] at present sorted holds
        have newer : newest.age ≤ added.age := by
          rcases List.mem_cons.1 present with rfl | later
          · exact Nat.le_refl _
          · exact (List.pairwise_cons.1 sorted).1 added later
        have kept : recent (newest :: older) = newest :: recent older :=
          List.filter_cons_of_pos (decide_eq_true (by omega))
        rw [kept] at holds
        have same := (Prod.ext_iff.1 (Option.some.inj holds)).2
        dsimp only at same
        omega
  obtain ⟨added, present, age⟩ := old
  obtain ⟨last, member, same⟩ := listed.exists_node present (Nat.le_of_eq age)
  have exhausted : last.2.iSecend = 0 := by omega
  -- The first node that has counted down, behind nodes that go on counting.
  cases found : nodes.find? fun entry => entry.2.iSecend = 0 with
  | none =>
      have missing := List.find?_eq_none.1 found last member
      exact absurd (decide_eq_true exhausted) missing
  | some node =>
      obtain ⟨done, front, back, rfl, earlier⟩ := List.find?_eq_some_iff_append.1 found
      rw [visits_head_of_counting chain counting]
      refine chain.not_of_dangling (fun entry inFront => ?_) ?_
      · have inside : entry ∈ front ++ node :: back := List.mem_append_left _ inFront
        have positive := earlier entry inFront
        refine ⟨entry.2.counted, ?_, rfl⟩
        rw [visits_heap_of_mem nodup inside]
        refine if_pos (Nat.pos_of_ne_zero fun zero => ?_)
        simp [zero] at positive
      · rw [visits_heap_of_mem nodup (List.mem_append_right _ List.mem_cons_self)]
        refine if_neg ?_
        rw [of_decide_eq_true done]
        exact Nat.lt_irrefl 0

end Steps

section Runs

/-- A tick before which nothing was added exactly 60 ticks ago. -/
theorem Listed.tick_ok (listed : state.Listed nodes)
    (stay : ∀ added ∈ state.added, added.age ≠ 60) :
    ∃ next others, state.tick = .ok next ∧ next.Listed others ∧
      (nodes ≠ [] → next.threads = state.threads) ∧ (others ≠ [] → nodes ≠ []) ∧
      next.added = state.added.map AddedIp.older ∧
      ∀ address, state.heap address = none → next.heap address = none := by
  obtain ⟨threads, ends, same⟩ := listed.tick_eq
  refine ⟨_, _, ends, { listed.count stay with }, same, ?_, visits_keep visit_added, ?_⟩
  · intro occupied vacant
    exact occupied (by rw [vacant, List.map_nil])
  · intro address unused
    exact (visits_heap_of_notMem (listed.linked.notMem_of_free unused)).trans unused

/-- The list is well kept, and one thread visits it. -/
def Kept (state : Checked DosState) : Prop :=
  Ends state fun state => ∃ nodes, state.Listed nodes ∧ (nodes ≠ [] → state.threads = 1)

/-- A list that is well kept is as it should be. -/
theorem Kept.blocking {state : Checked DosState} (kept : Kept state) : Blocking state :=
  kept.mono fun _ ⟨nodes, listed, visited⟩ => ⟨nodes, listed.blockList visited⟩

/-- The tick keeps the list if all addresses of the list may leave it together. -/
theorem Listed.tick_kept (listed : state.Listed nodes) (visited : nodes ≠ [] → state.threads = 1)
    (meets : DosMeets (.ok state) .tick) : Kept state.tick := by
  by_cases leaving : ∃ added ∈ state.added, added.age = 60
  · obtain ⟨threads, ends, -⟩ := listed.tick_eq
    have emptied := listed.expire (meets leaving)
    exact ⟨_, ends, [], { emptied with }, fun occupied => absurd rfl occupied⟩
  · have stay : ∀ added ∈ state.added, added.age ≠ 60 := fun added member equal =>
      leaving ⟨added, member, equal⟩
    obtain ⟨next, others, ends, kept, same, still, -, -⟩ := listed.tick_ok stay
    refine ⟨next, ends, others, kept, fun occupied => ?_⟩
    rw [same (still occupied)]
    exact visited (still occupied)

/-- The tick breaks the list if a newer address stays. -/
theorem Listed.not_blocking_tick (listed : state.Listed nodes)
    (fails : ¬ DosMeets (.ok state) .tick) : ¬ Blocking state.tick := by
  obtain ⟨old, newer⟩ := Classical.not_imp.1 fails
  have young : ∃ added ∈ state.added, added.age < 60 := by
    by_contra nobody
    exact newer fun added member => Nat.le_of_not_lt fun less => nobody ⟨added, member, less⟩
  obtain ⟨threads, ends, -⟩ := listed.tick_eq
  rintro ⟨next, same, others, sound⟩
  cases ends.symm.trans same
  exact listed.dangles old young ⟨others, sound.linked⟩

/-- The first node starts a thread. -/
theorem addDos_first (pIp : DosIp) (pstTmp : Nat) (first : state.dosHead = none) :
    state.addDos pIp (some pstTmp) true =
      .ok { state.link pIp pstTmp with threads := state.threads + 1 } := by
  have alone : (state.newNode pIp).next = none := first
  exact if_pos alone

/-- Without its thread the first address is written to a block that is gone. -/
theorem addDos_unstarted (pIp : DosIp) (pstTmp : Nat) (first : state.dosHead = none) :
    state.addDos pIp (some pstTmp) false = .error .read := by
  have alone : (state.newNode pIp).next = none := first
  exact if_pos alone

/-- A later address becomes the first node of the list. -/
theorem addDos_later (pIp : DosIp) (pstTmp : Nat) (created : Bool)
    (more : state.dosHead ≠ none) :
    state.addDos pIp (some pstTmp) created = .ok (state.link pIp pstTmp) := by
  have joined : (state.newNode pIp).next ≠ none := more
  exact if_neg joined

/-- An addition that meets no old thread keeps the list. -/
theorem Listed.addDos_kept {pIp : DosIp} {block : Option Nat} {created : Bool}
    (listed : state.Listed nodes) (visited : nodes ≠ [] → state.threads = 1)
    (unused : ∀ pstTmp, block = some pstTmp → state.heap pstTmp = none)
    (meets : DosMeets (.ok state) (.addDos pIp block created)) :
    Kept (state.addDos pIp block created) := by
  cases block with
  | none => exact ⟨state, rfl, nodes, listed, visited⟩
  | some pstTmp =>
      have linked := listed.link pIp (unused pstTmp rfl)
      by_cases first : state.dosHead = none
      · obtain ⟨rfl, idle⟩ := meets (Option.some_ne_none _) first
        refine ⟨_, addDos_first pIp pstTmp first, _, { linked with }, fun _ => ?_⟩
        exact congrArg Nat.succ idle
      · have occupied : nodes ≠ [] := fun vacant => first (listed.linked.nil_iff_first.1 vacant)
        exact ⟨_, addDos_later pIp pstTmp created first, _, linked, fun _ => visited occupied⟩

/-- Any other addition spoils it. -/
theorem not_blocking_addDos {pIp : DosIp} {block : Option Nat} {created : Bool}
    (fails : ¬ DosMeets (.ok state) (.addDos pIp block created)) :
    ¬ Blocking (state.addDos pIp block created) := by
  obtain ⟨allocated, rest⟩ := Classical.not_imp.1 fails
  obtain ⟨first, wrong⟩ := Classical.not_imp.1 rest
  obtain ⟨pstTmp, rfl⟩ := Option.ne_none_iff_exists'.1 allocated
  cases created with
  | false =>
      rw [addDos_unstarted pIp pstTmp first]
      exact ends_error _ _
  | true =>
      rw [addDos_first pIp pstTmp first]
      rintro ⟨next, same, others, sound⟩
      cases same
      have occupied : others ≠ [] := fun vacant =>
        absurd (sound.linked.nil_iff_first.1 vacant) (Option.some_ne_none _)
      exact wrong ⟨rfl, Nat.succ.inj (sound.visited occupied)⟩

/-- A step keeps the list exactly if it meets the condition. -/
theorem Kept.step_iff {before after : Checked DosState} {action : DosAction} (kept : Kept before)
    (step : DosStep before action after) :
    (DosMeets before action → Kept after) ∧ (Blocking after → DosMeets before action) := by
  cases step with
  | addDos state pIp block created unused =>
      obtain ⟨nodes, listed, visited⟩ := (ends_ok ..).1 kept
      exact ⟨listed.addDos_kept visited unused,
        fun blocking => by_contra fun fails => not_blocking_addDos fails blocking⟩
  | tick state running =>
      obtain ⟨nodes, listed, visited⟩ := (ends_ok ..).1 kept
      exact ⟨listed.tick_kept visited,
        fun blocking => by_contra fun fails => listed.not_blocking_tick fails blocking⟩

/-- The empty list is well kept. -/
theorem kept_empty : Kept (.ok empty) :=
  ⟨_, rfl, [], listed_empty, fun occupied => absurd rfl occupied⟩

/-- The list is as it should be in every state of a run exactly if no tick finds an address
added 60 ticks ago behind a newer one, and a thread is started only when none is left. -/
theorem blockList_iff {finish : Checked DosState}
    (path : dosSystem.Path (Except.ok DosState.empty : Checked DosState) finish) :
    path.Always Blocking ↔ path.StepsMeet DosMeets := by
  apply path.always_iff_stepsMeet kept_empty kept_empty.blocking
  · intro state action next kept _ step meets
    exact (Kept.step_iff kept step).1 meets
  · intro state action next kept _ step
    have exact := Kept.step_iff kept step
    exact ⟨exact.2, fun meets => (exact.1 meets).blocking⟩

end Runs

section Dangling

/-- A list whose addresses are all young is not empty. -/
theorem Listed.ne_nil (listed : state.Listed nodes) (begun : state.added ≠ [])
    (young : ∀ added ∈ state.added, added.age ≤ 60) : nodes ≠ [] := by
  obtain ⟨added, present⟩ := List.exists_mem_of_ne_nil _ begun
  obtain ⟨entry, member, -⟩ := listed.exists_node present (young added present)
  exact List.ne_nil_of_mem member

/-- What was added some ticks later. -/
def laterBy (ticks : Nat) (added : AddedIp) : AddedIp := { added with age := added.age + ticks }

/-- As many ticks as no address needs to leave the list may follow each other. -/
theorem exists_ticks {start : dosSystem.State} (prior : dosSystem.Path start (Except.ok state))
    (listed : state.Listed nodes) (running : state.threads = 1) (begun : state.added ≠ [])
    (ticks : Nat) (young : ∀ added ∈ state.added, added.age + ticks ≤ 60) :
    ∃ next others, ∃ path : dosSystem.Path start (Except.ok next),
      path.actions = prior.actions ++ List.replicate ticks .tick ∧ next.Listed others ∧
        next.threads = 1 ∧ next.added = state.added.map (laterBy ticks) ∧
          ∀ address, state.heap address = none → next.heap address = none := by
  induction ticks with
  | zero => exact ⟨state, nodes, prior, (List.append_nil _).symm, listed, running,
      (List.map_id _).symm, fun _ unused => unused⟩
  | succ ticks inductionHypothesis =>
      obtain ⟨next, others, path, actions, kept, one, aged, frame⟩ := inductionHypothesis
        fun added present => Nat.le_of_succ_le (young added present)
      have ages : ∀ added ∈ next.added, added.age ≤ 59 := by
        intro added present
        rw [aged] at present
        obtain ⟨before, known, rfl⟩ := List.mem_map.1 present
        exact Nat.le_of_succ_le_succ (young before known)
      have occupied : others ≠ [] := by
        refine kept.ne_nil ?_ fun added present => Nat.le_succ_of_le (ages added present)
        rw [aged]
        exact fun vacant => begun (List.map_eq_nil_iff.1 vacant)
      obtain ⟨last, left, ends, again, same, -, older, still⟩ := kept.tick_ok
        fun added present equal => absurd (ages added present) (by omega)
      have step : DosStep (.ok next) .tick (.ok last) := by
        rw [← ends]
        exact .tick next (by omega)
      refine ⟨last, left, path.snoc .tick _ step, ?_, again, (same occupied).trans one, ?_,
        fun address unused => still address (frame address unused)⟩
      · change path.actions ++ [DosAction.tick] = _
        rw [actions, List.replicate_succ', List.append_assoc]
      · rw [older, aged, List.map_map]
        rfl

/-- The characters of `127.0.0.` and a digit. -/
def loopbackText (digit : Fin 10) : List Byte :=
  [49, 50, 55, 46, 48, 46, 48, 46, 48 + BitVec.ofNat 8 digit]

/-- Such a text consists of digits and points. -/
theorem loopbackText_plain (digit : Fin 10) : ∀ char ∈ loopbackText digit,
    char = 46 ∨ 48 ≤ char ∧ char ≤ 57 := by
  have front : ∀ char ∈ ([49, 50, 55, 46, 48, 46, 48, 46] : List Byte),
      char = 46 ∨ 48 ≤ char ∧ char ≤ 57 := by decide
  have last : ∀ digit : Fin 10,
      48 ≤ 48 + BitVec.ofNat 8 digit ∧ 48 + BitVec.ofNat 8 digit ≤ 57 := by decide
  intro char member
  change char ∈ [49, 50, 55, 46, 48, 46, 48, 46] ++ [48 + BitVec.ofNat 8 digit] at member
  rcases List.mem_append.1 member with early | late
  · exact front char early
  · cases List.mem_singleton.1 late
    exact .inr (last digit)

/-- Such a text fits an address. -/
theorem loopbackText_fits (digit : Fin 10) : (loopbackText digit).length ≤ 15 :=
  Nat.le_add_right 9 6

def loopback (digit : Fin 10) : DosIp where
  chars := loopbackText digit
  plain := loopbackText_plain digit
  fits := loopbackText_fits digit

/-- Two addresses, one tick apart, and the tick at which the first leaves the list. -/
theorem second_address_dangles : ∃ finish, ∃ path :
    dosSystem.Path (Except.ok DosState.empty : Checked DosState) finish,
    path.actions =
        [.addDos (loopback 1) (some 0) true, .tick, .addDos (loopback 2) (some 1) true] ++
          List.replicate 60 .tick ∧ ¬ path.Always Blocking := by
  have first : (empty.link (loopback 1) 0).Listed [(0, empty.newNode (loopback 1))] :=
    listed_empty.link (loopback 1) rfl
  have added : DosStep (.ok empty) (.addDos (loopback 1) (some 0) true)
      (.ok { empty.link (loopback 1) 0 with threads := 1 }) :=
    .addDos empty _ _ _ fun _ _ => rfl
  obtain ⟨early, before, path, actions, listed, one, aged, frame⟩ := exists_ticks
    (ActionSystem.Path.nil.snoc _ _ added) { first with } rfl (List.cons_ne_nil _ _) 1 (by decide)
  have free : early.heap 1 = none := frame 1 rfl
  have more : early.dosHead ≠ none := by
    intro vacant
    have empty := listed.linked.nil_iff_first.2 vacant
    exact listed.ne_nil (by rw [aged]; exact List.cons_ne_nil _ _) (by rw [aged]; decide) empty
  have second : DosStep (.ok early) (.addDos (loopback 2) (some 1) true)
      (.ok (early.link (loopback 2) 1)) := by
    rw [← addDos_later (loopback 2) 1 true more]
    refine .addDos early _ _ _ fun pstTmp same => ?_
    cases same
    exact free
  obtain ⟨late, after, whole, all, kept, still, old, -⟩ := exists_ticks (path.snoc _ _ second)
    (listed.link (loopback 2) free) one (List.cons_ne_nil _ _) 59 (by
      change ∀ added ∈ ⟨loopback 2, 0⟩ :: early.added, added.age + 59 ≤ 60
      rw [aged]
      decide)
  have ages : late.added = [⟨loopback 2, 59⟩, ⟨loopback 1, 60⟩] := by
    rw [old]
    change (⟨loopback 2, 0⟩ :: early.added).map (laterBy 59) = _
    rw [aged]
    rfl
  have fails : ¬ DosMeets (.ok late) .tick := by
    intro meets
    have bound := meets ⟨⟨loopback 1, 60⟩, by simp [ages], rfl⟩ ⟨loopback 2, 59⟩ (by simp [ages])
    exact absurd bound (by decide)
  have last : DosStep (.ok late) .tick late.tick := .tick late (by omega)
  refine ⟨_, whole.snoc _ _ last, ?_, fun always => kept.not_blocking_tick fails always.last⟩
  change whole.actions ++ [DosAction.tick] = _
  rw [all, List.append_assoc, ← List.replicate_succ']
  change (path.actions ++ [DosAction.addDos (loopback 2) (some 1) true]) ++ _ = _
  rw [actions]
  rfl

end Dangling

end DosState

end Rsu.Cli
