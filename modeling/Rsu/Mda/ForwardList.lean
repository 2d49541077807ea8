import Rsu.Data.DeltaQueue
import Rsu.Mda.Envar

/-!
# The waiting list of the multihop module

The four functions that work on `forward_waiting_list`, and what each of them
does to a well-formed list. The traversal of `add_forward_list` goes on over the
list it has just changed: `addForwardList_diverges` is the case in which the new
node becomes its own successor and the loop never comes back to the head.
-/

namespace Rsu.Mda

open Rsu.Common Rsu.Data Rsu.Data.Links

universe u v

variable {Buf : Type u} [DecidableEq Buf]

namespace MdaEnvar

/-- The local variables of the loop in `add_forward_list`. -/
structure AddLoop (Buf : Type u) where
  mda : MdaEnvar Buf
  delayTimeTotal : Int
  adj : Int
  inserted : Bool

/-- The pointers the loop follows and changes. -/
def AddLoop.links (loop : AddLoop Buf) : Links (Option Buf) := loop.mda.forwardWaitingList

/-- The first half of the loop body: link the node in front of `ptx`, or
behind it, without noting the latter in `inserted`. -/
def AddLoop.place (txbuf ptx : Buf) (loop : AddLoop Buf) : AddLoop Buf :=
  if loop.inserted then loop
  else
    let mda := loop.mda
    let links := mda.forwardWaitingList
    let total := loop.delayTimeTotal + mda.delayTime ptx
    if total > mda.delayTime txbuf then
      { mda := mda.relink (links.insertBetween (some txbuf) (links.prev (some ptx)) (some ptx))
        delayTimeTotal := total
        adj := mda.delayTime txbuf - (total - mda.delayTime ptx)
        inserted := true }
    else
      let mda := mda.setDelayTime txbuf (mda.delayTime txbuf - total)
      { loop with
        mda := mda.relink (listAdd links (some txbuf) (some ptx))
        delayTimeTotal := total }

/-- The second half of the loop body: lower the delay of the current node. -/
def AddLoop.lower (ptx : Buf) (loop : AddLoop Buf) : AddLoop Buf :=
  if loop.adj > 0 then
    { loop with mda := loop.mda.setDelayTime ptx (loop.mda.delayTime ptx - loop.adj) }
  else loop

/-- One iteration of the loop in `add_forward_list`. -/
def AddLoop.body (txbuf : Buf) : Option Buf → AddLoop Buf → ForInStep (AddLoop Buf)
  | none, loop => .done loop
  | some ptx, loop => .yield ((loop.place txbuf ptx).lower ptx)

/-- Fill in the `mda_forward_t` of a buffer. -/
def fill (mda : MdaEnvar Buf) (txbuf : Buf) (forward : MdaForward) : MdaEnvar Buf :=
  { mda with txbuf := Function.update mda.txbuf txbuf { mda.txbuf txbuf with forward } }

/-- The loop of `add_forward_list`, granted `fuel` iterations. -/
def addForwardLoop (mda : MdaEnvar Buf) (txbuf : Buf) (fuel : Nat) : Option (MdaEnvar Buf) :=
  (forEach AddLoop.links none (AddLoop.body txbuf) fuel
    (mda.forwardWaitingList.next none) ⟨mda, 0, 0, false⟩).map AddLoop.mda

/-- `add_forward_list`, granted `fuel` iterations of its loop. -/
def addForwardList (mda : MdaEnvar Buf) (txbuf : Buf) (srcSta : MdaMsgInfo)
    (forwardDelayTime : Int) (fuel : Nat) : Option (MdaEnvar Buf) :=
  let mda := mda.fill txbuf ⟨srcSta, forwardDelayTime⟩
  if listEmpty mda.forwardWaitingList none then
    some (mda.relink (listAddTail mda.forwardWaitingList (some txbuf) none))
  else mda.addForwardLoop txbuf fuel

/-- `remove_from_forward_list`; the buffer goes back to its allocator. -/
def removeFromForwardList (mda : MdaEnvar Buf) (txbuf : Buf) : MdaEnvar Buf :=
  mda.relink (listDel mda.forwardWaitingList (some txbuf))

/-- `find_forward_list`, granted `fuel` iterations of its loop. -/
def findForwardList (mda : MdaEnvar Buf) (srcSta : MdaMsgInfo) (fuel : Nat) :
    Option (Option Buf) :=
  forEach (fun _ => mda.forwardWaitingList) none
    (fun ptx found =>
      match ptx with
      | none => .done found
      | some ptx =>
          if (mda.txbuf ptx).forward.msg.sameKey srcSta then .done (some ptx) else .yield found)
    fuel (mda.forwardWaitingList.next none) none

/-- `forward_handler`: the new state and the buffer to hand to
`rcp_send_forward_msg`, if any. -/
def forwardHandler (mda : MdaEnvar Buf) : MdaEnvar Buf × Option Buf :=
  match mda.forwardWaitingList.next none with
  | none => (mda, none)
  | some first =>
      let mda := mda.setDelayTime first (mda.delayTime first - 1)
      if mda.delayTime first ≤ 0 then
        (mda.relink (listDel mda.forwardWaitingList (some first)), some first)
      else (mda, none)

section Add

variable {mda : MdaEnvar Buf} {txbuf : Buf} {nodes : List Buf}

@[simp] theorem AddLoop.lower_links (ptx : Buf) (loop : AddLoop Buf) :
    (loop.lower ptx).links = loop.links := by
  unfold AddLoop.lower
  split <;> rfl

@[simp] theorem AddLoop.lower_inserted (ptx : Buf) (loop : AddLoop Buf) :
    (loop.lower ptx).inserted = loop.inserted := by
  unfold AddLoop.lower
  split <;> rfl

@[simp] theorem AddLoop.lower_adj (ptx : Buf) (loop : AddLoop Buf) :
    (loop.lower ptx).adj = loop.adj := by
  unfold AddLoop.lower
  split <;> rfl

@[simp] theorem AddLoop.lower_contents (ptx : Buf) (loop : AddLoop Buf) :
    (loop.lower ptx).mda.contents = loop.mda.contents := by
  unfold AddLoop.lower
  split <;> simp

/-- One turn of the loop lowers the delay of one message, if there is something to take off. -/
theorem AddLoop.lower_delayTime (ptx : Buf) (loop : AddLoop Buf) (node : Buf) :
    (loop.lower ptx).mda.delayTime node =
      if node = ptx ∧ 0 < loop.adj then loop.mda.delayTime node - loop.adj
      else loop.mda.delayTime node := by
  unfold AddLoop.lower
  by_cases positive : 0 < loop.adj
  · by_cases same : node = ptx
    · simp [positive, same]
    · simp [positive, same, delayTime_setDelayTime_of_ne _ _ same]
  · simp [positive]

/-- Lower the delays of several nodes. -/
def AddLoop.lowerAll : List Buf → AddLoop Buf → AddLoop Buf
  | [], loop => loop
  | node :: rest, loop => AddLoop.lowerAll rest (loop.lower node)

@[simp] theorem AddLoop.lowerAll_links (nodes : List Buf) (loop : AddLoop Buf) :
    (loop.lowerAll nodes).links = loop.links := by
  induction nodes generalizing loop with
  | nil => rfl
  | cons node rest inductionHypothesis => simp [AddLoop.lowerAll, inductionHypothesis]

@[simp] theorem AddLoop.lowerAll_contents (nodes : List Buf) (loop : AddLoop Buf) :
    (loop.lowerAll nodes).mda.contents = loop.mda.contents := by
  induction nodes generalizing loop with
  | nil => rfl
  | cons node rest inductionHypothesis => simp [AddLoop.lowerAll, inductionHypothesis]

/-- The turns behind the new message lower each delay once. -/
theorem AddLoop.lowerAll_delayTime {nodes : List Buf} (nodup : nodes.Nodup) (loop : AddLoop Buf)
    (node : Buf) :
    (loop.lowerAll nodes).mda.delayTime node =
      if node ∈ nodes ∧ 0 < loop.adj then loop.mda.delayTime node - loop.adj
      else loop.mda.delayTime node := by
  induction nodes generalizing loop with
  | nil => simp [AddLoop.lowerAll]
  | cons first rest inductionHypothesis =>
      obtain ⟨outside, restNodup⟩ := List.nodup_cons.1 nodup
      rw [AddLoop.lowerAll, inductionHypothesis restNodup, AddLoop.lower_adj, AddLoop.lower_delayTime]
      by_cases same : node = first
      · simp [same, outside]
      · simp [same]

/-- Once the node is placed, the loop only lowers the nodes to come. -/
theorem AddLoop.foldBreak_body {loop : AddLoop Buf} (inserted : loop.inserted = true)
    (nodes : List Buf) :
    foldBreak (AddLoop.body txbuf) (nodes.map some) loop = loop.lowerAll nodes := by
  induction nodes generalizing loop with
  | nil => rfl
  | cons node rest inductionHypothesis =>
      have placed : loop.place txbuf node = loop := by simp [AddLoop.place, inserted]
      simp only [List.map_cons, foldBreak, AddLoop.body, placed]
      exact inductionHypothesis (by simpa using inserted)

/-- What a returning `add_forward_list` leaves behind: the new node is first
and the nodes behind it are lowered by its delay. -/
structure Pushed (mda : MdaEnvar Buf) (txbuf : Buf) (nodes : List Buf) (next : MdaEnvar Buf) :
    Prop where
  waiting : next.Waiting (txbuf :: nodes)
  contents : next.contents = mda.contents
  delayTime : next.delayTime txbuf = mda.delayTime txbuf
  lowered : ∀ node ∈ nodes, next.delayTime node =
    if 0 < mda.delayTime txbuf then mda.delayTime node - mda.delayTime txbuf
    else mda.delayTime node

/-- The loop state after a node was placed in front of the first one. -/
def AddLoop.front (mda : MdaEnvar Buf) (txbuf first : Buf) : AddLoop Buf where
  mda := mda.relink (mda.forwardWaitingList.insertBetween (some txbuf) none (some first))
  delayTimeTotal := mda.delayTime first
  adj := mda.delayTime txbuf
  inserted := true

/-- The loop on a list whose first node is due later than the new one. -/
theorem addForwardLoop_front {first : Buf} {rest : List Buf}
    (waiting : mda.Waiting (first :: rest)) (fresh : txbuf ∉ first :: rest)
    (sooner : mda.delayTime txbuf < mda.delayTime first) :
    ∃ next, Returns (mda.addForwardLoop txbuf) next ∧ mda.Pushed txbuf (first :: rest) next := by
  have headNext : mda.forwardWaitingList.next none = some first := Ring.next_head waiting
  have whole : mda.forwardWaitingList.Ring none ([] ++ some first :: rest.map some) := waiting
  have headPrev : mda.forwardWaitingList.prev (some first) = none := whole.prev_node
  -- the first iteration places the node and lowers the former first node
  have placed : (AddLoop.mk mda 0 0 false).place txbuf first = .front mda txbuf first := by
    simp [AddLoop.place, AddLoop.front, headPrev, sooner]
  have outside : some txbuf ∉ none :: ([] ++ some first :: rest.map some) := by
    simpa using fresh
  have ring : (AddLoop.front mda txbuf first).mda.Waiting (txbuf :: first :: rest) :=
    whole.insert outside
  -- the remaining iterations lower the nodes behind it
  have keeps : ∀ {pos before after}, before.inserted = true →
      AddLoop.body txbuf pos before = .yield after →
      after.inserted = true ∧ after.links = before.links := by
    intro pos before after inserted stepped
    cases pos with
    | none => cases stepped
    | some ptx =>
        have stays : before.place txbuf ptx = before := by simp [AddLoop.place, inserted]
        rw [AddLoop.body, stays] at stepped
        cases stepped
        simp [inserted]
  have segment : ((AddLoop.front mda txbuf first).lower first).links.Segment
      (some first) (rest.map some) none := by
    rw [AddLoop.lower_links]
    exact ring.linked.2.2
  have started : ((AddLoop.front mda txbuf first).lower first).inserted = true := by
    simp [AddLoop.front]
  have swept : forEach AddLoop.links none (AddLoop.body txbuf) (rest.length + 1)
      (((AddLoop.front mda txbuf first).lower first).links.next (some first))
      ((AddLoop.front mda txbuf first).lower first) =
        some (foldBreak (AddLoop.body txbuf) (rest.map some)
          ((AddLoop.front mda txbuf first).lower first)) :=
    forEach_segment_eq_foldBreak keeps started segment (by simp) (by simp)
  rw [AddLoop.foldBreak_body started] at swept
  refine ⟨((AddLoop.front mda txbuf first).lowerAll (first :: rest)).mda, ⟨rest.length + 2, ?_⟩, ?_⟩
  · have stepped : AddLoop.body txbuf (some first) ⟨mda, 0, 0, false⟩ =
        .yield ((AddLoop.front mda txbuf first).lower first) := by
      rw [AddLoop.body, placed]
    rw [addForwardLoop, headNext, forEach_yield (by simp) stepped, swept]
    rfl
  · have nodup := waiting.distinct
    constructor
    · have same := AddLoop.lowerAll_links (first :: rest) (AddLoop.front mda txbuf first)
      unfold AddLoop.links at same
      rw [Waiting, same]
      exact ring
    · simp [AddLoop.front]
    · rw [AddLoop.lowerAll_delayTime nodup, if_neg (fun both => fresh both.1)]
      rfl
    · intro node member
      rw [AddLoop.lowerAll_delayTime nodup]
      simp only [member, true_and]
      rfl

/-- The loop on a list whose first node is not due later than the new one: the
new node is linked behind the first one, reached next, and linked to itself. -/
theorem addForwardLoop_diverges {first : Buf} {rest : List Buf}
    (waiting : mda.Waiting (first :: rest)) (fresh : txbuf ∉ first :: rest)
    (notSooner : mda.delayTime first ≤ mda.delayTime txbuf) :
    Diverges (mda.addForwardLoop txbuf) := by
  have headNext : mda.forwardWaitingList.next none = some first := Ring.next_head waiting
  have different : first ≠ txbuf := fun equal => fresh (by simp [equal])
  have stays : ∀ {loop : AddLoop Buf},
      (loop.inserted = true → loop.links.next (some txbuf) = some txbuf) →
      ∃ after, AddLoop.body txbuf (some txbuf) loop = .yield after ∧
        (after.inserted = true → after.links.next (some txbuf) = some txbuf) ∧
        after.links.next (some txbuf) = some txbuf := by
    intro loop looped
    have selfLinked : ((loop.place txbuf txbuf).lower txbuf).links.next
        (some txbuf) = some txbuf := by
      rw [AddLoop.lower_links, AddLoop.place]
      split
      · exact looped ‹_›
      · dsimp only
        split
        · exact next_insertBetween_self _ _ _
        · exact next_insertBetween_before _ _ _ _
    exact ⟨_, rfl, fun _ => selfLinked, selfLinked⟩
  intro fuel
  rw [addForwardLoop, headNext]
  cases fuel with
  | zero => rfl
  | succ fuel =>
      have behind : (AddLoop.mk mda 0 0 false).place txbuf first =
          { mda := (mda.setDelayTime txbuf (mda.delayTime txbuf - mda.delayTime first)).relink
              (listAdd mda.forwardWaitingList (some txbuf) (some first))
            delayTimeTotal := mda.delayTime first
            adj := 0
            inserted := false } := by
        simp [AddLoop.place, Int.not_lt.2 notSooner]
      have stepped : AddLoop.body txbuf (some first) ⟨mda, 0, 0, false⟩ =
          .yield (((AddLoop.mk mda 0 0 false).place txbuf first).lower first) := rfl
      have reached : (((AddLoop.mk mda 0 0 false).place txbuf first).lower first).links.next
          (some first) = some txbuf := by
        rw [AddLoop.lower_links, behind]
        exact next_insertBetween_before _ _ _ _
      have entered : (((AddLoop.mk mda 0 0 false).place txbuf first).lower first).inserted = true →
          (((AddLoop.mk mda 0 0 false).place txbuf first).lower first).links.next (some txbuf) =
            some txbuf := by
        simp [behind]
      have looping : Diverges fun fuel => forEach AddLoop.links none (AddLoop.body txbuf) fuel
          (some txbuf) (((AddLoop.mk mda 0 0 false).place txbuf first).lower first) :=
        forEach_diverges (by simp) stays entered
      rw [forEach_yield (by simp) stepped, reached, Option.map_eq_none_iff]
      exact looping fuel

/-- Filling in a message leaves the list alone. -/
theorem fill_waiting (waiting : mda.Waiting nodes) (txbuf : Buf) (forward : MdaForward) :
    (mda.fill txbuf forward).Waiting nodes := waiting

theorem delayTime_fill_of_ne (mda : MdaEnvar Buf) (forward : MdaForward) {node : Buf}
    (different : node ≠ txbuf) : (mda.fill txbuf forward).delayTime node = mda.delayTime node := by
  simp [delayTime, fill, Function.update_of_ne different]

@[simp] theorem delayTime_fill (mda : MdaEnvar Buf) (forward : MdaForward) :
    (mda.fill txbuf forward).delayTime txbuf = forward.delayTime := by
  simp [delayTime, fill]

/-- `add_forward_list` puts a message in front that is due before all others. -/
theorem addForwardList_returns (waiting : mda.Waiting nodes) (fresh : txbuf ∉ nodes)
    (srcSta : MdaMsgInfo) {delay : Int} (sooner : ∀ first ∈ nodes.head?, delay < mda.delayTime first) :
    ∃ next, Returns (mda.addForwardList txbuf srcSta delay) next ∧
      (mda.fill txbuf ⟨srcSta, delay⟩).Pushed txbuf nodes next := by
  have filled := fill_waiting waiting txbuf ⟨srcSta, delay⟩
  cases nodes with
  | nil =>
      have empty := (listEmpty_iff filled).2 rfl
      have linked := listAddTail_ring filled (fun member : some txbuf ∈ _ => by simp at member)
      have returned : mda.addForwardList txbuf srcSta delay 0 = some _ := if_pos empty
      refine ⟨_, ⟨0, returned⟩, ?_⟩
      exact ⟨linked, rfl, rfl, by simp⟩
  | cons first rest =>
      have notEmpty : ¬ listEmpty (mda.fill txbuf ⟨srcSta, delay⟩).forwardWaitingList none = true := by
        rw [listEmpty_iff filled]
        simp
      have different : first ≠ txbuf := fun equal => fresh (by simp [equal])
      have firstDelay := delayTime_fill_of_ne mda ⟨srcSta, delay⟩ different
      obtain ⟨next, ⟨fuel, returned⟩, pushed⟩ := addForwardLoop_front filled fresh
        (by simpa [firstDelay] using sooner first rfl)
      exact ⟨next, ⟨fuel, by rwa [addForwardList, if_neg notEmpty]⟩, pushed⟩

/-- `add_forward_list` never returns when the first message is not due later. -/
theorem addForwardList_diverges {first : Buf} {rest : List Buf}
    (waiting : mda.Waiting (first :: rest)) (fresh : txbuf ∉ first :: rest)
    (srcSta : MdaMsgInfo) {delay : Int} (notSooner : mda.delayTime first ≤ delay) :
    Diverges (mda.addForwardList txbuf srcSta delay) := by
  have filled := fill_waiting waiting txbuf ⟨srcSta, delay⟩
  have notEmpty : ¬ listEmpty (mda.fill txbuf ⟨srcSta, delay⟩).forwardWaitingList none = true := by
    rw [listEmpty_iff filled]
    simp
  have different : first ≠ txbuf := fun equal => fresh (by simp [equal])
  have firstDelay := delayTime_fill_of_ne mda ⟨srcSta, delay⟩ different
  intro fuel
  rw [addForwardList, if_neg notEmpty]
  exact addForwardLoop_diverges filled fresh (by simpa [firstDelay] using notSooner) fuel

/-- Whether `add_forward_list` comes back depends on the first message only. -/
theorem addForwardList_cases (waiting : mda.Waiting nodes) (fresh : txbuf ∉ nodes)
    (srcSta : MdaMsgInfo) (delay : Int) :
    (∀ first ∈ nodes.head?, delay < mda.delayTime first) ∧
        (∃ next, Returns (mda.addForwardList txbuf srcSta delay) next ∧
          (mda.fill txbuf ⟨srcSta, delay⟩).Pushed txbuf nodes next) ∨
      (∃ first rest, nodes = first :: rest ∧ mda.delayTime first ≤ delay) ∧
        Diverges (mda.addForwardList txbuf srcSta delay) := by
  by_cases sooner : ∀ first ∈ nodes.head?, delay < mda.delayTime first
  · exact .inl ⟨sooner, addForwardList_returns waiting fresh srcSta sooner⟩
  · cases nodes with
    | nil => simp at sooner
    | cons first rest =>
        have notSooner : mda.delayTime first ≤ delay := by simpa using sooner
        exact .inr ⟨⟨first, rest, rfl, notSooner⟩,
          addForwardList_diverges waiting fresh srcSta notSooner⟩

/-- Granting `add_forward_list` more iterations does not change its result. -/
theorem addForwardList_persistent (mda : MdaEnvar Buf) (txbuf : Buf) (srcSta : MdaMsgInfo)
    (delay : Int) : Persistent (mda.addForwardList txbuf srcSta delay) := by
  intro fuel more result enough returned
  unfold addForwardList at returned ⊢
  dsimp only at returned ⊢
  split at returned
  · rwa [if_pos ‹_›]
  · rw [if_neg ‹_›]
    obtain ⟨loop, found, rfl⟩ := Option.map_eq_some_iff.1 returned
    exact Option.map_eq_some_iff.2 ⟨loop, forEach_persistent _ _ _ enough found, rfl⟩

end Add

section Others

variable {mda : MdaEnvar Buf} {nodes : List Buf}

/-- `remove_from_forward_list` takes out the node it is given. -/
theorem removeFromForwardList_waiting {front back : List Buf} {txbuf : Buf}
    (waiting : mda.Waiting (front ++ txbuf :: back)) :
    (mda.removeFromForwardList txbuf).Waiting (front ++ back) := by
  have ring : mda.forwardWaitingList.Ring none
      (front.map some ++ some txbuf :: back.map some) := by
    simpa [Waiting] using waiting
  have shorter := listDel_ring ring
  rwa [← List.map_append] at shorter

@[simp] theorem delayTime_removeFromForwardList (mda : MdaEnvar Buf) (txbuf node : Buf) :
    (mda.removeFromForwardList txbuf).delayTime node = mda.delayTime node := rfl

@[simp] theorem contents_removeFromForwardList (mda : MdaEnvar Buf) (txbuf : Buf) :
    (mda.removeFromForwardList txbuf).contents = mda.contents := rfl

/-- `find_forward_list` returns the first node with the given key. -/
theorem findForwardList_returns (waiting : mda.Waiting nodes) (srcSta : MdaMsgInfo) :
    Returns (mda.findForwardList srcSta)
      (nodes.find? fun node => (mda.txbuf node).forward.msg.sameKey srcSta) := by
  let body : Option Buf → Option Buf → ForInStep (Option Buf) := fun ptx found =>
    match ptx with
    | none => .done found
    | some ptx =>
        if (mda.txbuf ptx).forward.msg.sameKey srcSta then .done (some ptx) else .yield found
  have scan : ∀ rest : List Buf, foldBreak body (rest.map some) none =
      rest.find? fun node => (mda.txbuf node).forward.msg.sameKey srcSta := by
    intro rest
    induction rest with
    | nil => rfl
    | cons node rest inductionHypothesis =>
        by_cases found : (mda.txbuf node).forward.msg.sameKey srcSta
        · simp [foldBreak, body, found]
        · simpa [foldBreak, body, found] using inductionHypothesis
  have swept : forEach (fun _ : Option Buf => mda.forwardWaitingList) none body
      (nodes.length + 1) (mda.forwardWaitingList.next none) none =
        some (foldBreak body (nodes.map some) none) :=
    forEach_eq_foldBreak (fun _ => rfl) waiting (by simp)
  exact ⟨nodes.length + 1, by rw [← scan nodes]; exact swept⟩

/-- Granting `find_forward_list` more iterations does not change its result. -/
theorem findForwardList_persistent (mda : MdaEnvar Buf) (srcSta : MdaMsgInfo) :
    Persistent (mda.findForwardList srcSta) :=
  forEach_persistent _ _ _

/-- The waiting list as a delta queue whose entries carry the given labels. -/
def queue {α : Type v} (label : Buf → α) (mda : MdaEnvar Buf) (nodes : List Buf) :
    List (α × Int) :=
  nodes.map fun node => (label node, mda.delayTime node)

omit [DecidableEq Buf] in
@[simp] theorem queue_keys {α : Type v} (label : Buf → α) (mda : MdaEnvar Buf) (nodes : List Buf) :
    (queue label mda nodes).map Prod.fst = nodes.map label := by
  simp [queue]

omit [DecidableEq Buf] in
@[simp] theorem queue_cons {α : Type v} (label : Buf → α) (mda : MdaEnvar Buf) (node : Buf)
    (rest : List Buf) :
    queue label mda (node :: rest) = (label node, mda.delayTime node) :: queue label mda rest := rfl

omit [DecidableEq Buf] in

/-- A queue in two parts. -/
theorem queue_append {α : Type v} (label : Buf → α) (mda : MdaEnvar Buf) (front back : List Buf) :
    queue label mda (front ++ back) = queue label mda front ++ queue label mda back :=
  List.map_append

/-- `forward_handler` is one tick of the delta queue; the buffer it returns is
the one that left the list. -/
theorem forwardHandler_tick {α : Type v} (label : Buf → α) (waiting : mda.Waiting nodes) :
    ∃ left, mda.forwardHandler.1.Waiting left ∧ nodes = mda.forwardHandler.2.toList ++ left ∧
      mda.forwardHandler.1.contents = mda.contents ∧
      DeltaQueue.tick (queue label mda nodes) =
        (mda.forwardHandler.2.map label, queue label mda.forwardHandler.1 left) := by
  have headNext : mda.forwardWaitingList.next none = _ := Ring.next_head waiting
  cases nodes with
  | nil =>
      have idle : mda.forwardHandler = (mda, none) := by
        rw [forwardHandler, headNext]
        rfl
      rw [idle]
      exact ⟨[], waiting, rfl, rfl, rfl⟩
  | cons first rest =>
      have others : ∀ node ∈ rest,
          (mda.setDelayTime first (mda.delayTime first - 1)).delayTime node = mda.delayTime node := by
        intro node member
        have different : node ≠ first := by
          rintro rfl
          exact (List.nodup_cons.1 waiting.distinct).1 member
        exact delayTime_setDelayTime_of_ne mda _ different
      have tail : queue label (mda.setDelayTime first (mda.delayTime first - 1)) rest =
          queue label mda rest := by
        apply List.map_congr_left
        intro node member
        rw [others node member]
      by_cases leaves : mda.delayTime first - 1 ≤ 0
      · have handled : mda.forwardHandler =
            ((mda.setDelayTime first (mda.delayTime first - 1)).removeFromForwardList first,
              some first) := by
          simp [forwardHandler, headNext, removeFromForwardList, leaves]
        have shorter : ((mda.setDelayTime first (mda.delayTime first - 1)).removeFromForwardList
            first).Waiting ([] ++ rest) := removeFromForwardList_waiting waiting
        rw [handled]
        refine ⟨rest, shorter, rfl, by simp, ?_⟩
        rw [queue_cons, DeltaQueue.tick, if_pos leaves, ← tail]
        rfl
      · have handled : mda.forwardHandler =
            (mda.setDelayTime first (mda.delayTime first - 1), none) := by
          simp [forwardHandler, headNext, leaves]
        rw [handled]
        refine ⟨first :: rest, waiting, rfl, by simp, ?_⟩
        rw [queue_cons, DeltaQueue.tick, if_neg leaves, ← tail]
        simp

end Others

end MdaEnvar

end Rsu.Mda
