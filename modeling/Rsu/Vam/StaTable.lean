import Mathlib.Order.Fin.Basic
import Rsu.Vam.Envar

/-!
# The neighbour table

The functions of `cv_vam_vsm.c` and `cv_vam_api.c` that look up, add, age and
remove stations. `StaTable.Holds` says which slots the two lists hold; every
operation on a table that holds some slots returns, and has one lemma that says
what the table holds afterwards.
-/

namespace Rsu.Vam

open Rsu.Data Rsu.Data.Links Rsu.Rcp Rsu.Common

/-- The station that is free first. -/
def firstSlot : Slot := ⟨0, by decide⟩

namespace StaTable

/-- The pid stored in a slot. -/
def pid (table : StaTable) (slot : Slot) : TempId := (table.remote slot).s.pid

/-- The loop body of the lookups by pid. -/
def findStep (table : StaTable) (temporaryId : TempId) (pos : StaEntry) (found : Option Slot) :
    ForInStep (Option Slot) :=
  match pos with
  | .remote slot => if table.pid slot = temporaryId then .done (some slot) else .yield found
  | _ => .yield found

/-- The loop of the lookups by pid: the first station on the list that has it. -/
def find (table : StaTable) (temporaryId : TempId) (fuel : Nat) : Option (Option Slot) :=
  forEach (fun _ => table.list) .neighbourList (table.findStep temporaryId) fuel
    (table.list.next .neighbourList) none

/-- Move a free station to the front of the neighbours and give it the pid.
Nothing else in it is written. -/
def seat (table : StaTable) (slot : Slot) (temporaryId : TempId) : StaTable :=
  let node := table.remote slot
  { table with
    list := listMove table.list (.remote slot) .neighbourList
    neighbourCnt := table.neighbourCnt + 1
    remote := Function.update table.remote slot
      { node with s := { node.s with pid := temporaryId } } }

/-- The second half of `vam_find_sta`: seat the first free station, if there is one. -/
def join (table : StaTable) (temporaryId : TempId) : Option Slot × StaTable :=
  if listEmpty table.list .staFreeList then (none, table)
  else
    match (table.list.next .staFreeList).slot? with
    | none => (none, table)
    | some slot => (some slot, table.seat slot temporaryId)

/-- `vam_find_sta` -/
def vamFindSta (table : StaTable) (temporaryId : TempId) (fuel : Nat) :
    Option (Option Slot × StaTable) :=
  (table.find temporaryId fuel).map fun
    | some slot => (some slot, table)
    | none => table.join temporaryId

/-- `vam_get_peer_status`; `none` leaves the buffer of the caller as it is. -/
def vamGetPeerStatus (table : StaTable) (temporaryId : TempId) (fuel : Nat) :
    Option (Option VamStastatus) :=
  (table.find temporaryId fuel).map fun found => found.map fun slot => (table.remote slot).s

/-- Write to the station in a slot. -/
def modify (table : StaTable) (slot : Slot) (write : VamStaNode → VamStaNode) : StaTable :=
  { table with remote := Function.update table.remote slot (write (table.remote slot)) }

/-- Assign the count of a station. -/
def setCnt (cnt : Byte) (node : VamStaNode) : VamStaNode :=
  { node with s := { node.s with cnt := cnt } }

/-- `vam_set_peer_cnt` -/
def vamSetPeerCnt (table : StaTable) (temporaryId : TempId) (cnt : Byte) (fuel : Nat) :
    Option StaTable :=
  (table.find temporaryId fuel).map fun
    | some slot => table.modify slot (setCnt cnt)
    | none => table

end StaTable

namespace VamStaNode

/-- The test of `vam_update_sta` for an alert that times out in this tick. -/
def alertTimesOut (node : VamStaNode) : Bool := node.alertLife - 1 = 0 ∧ node.s.alertMask ≠ 0

/-- What one tick does to a station on the list: both lives count down, and a
timed-out alert is cleared. -/
def age (node : VamStaNode) : VamStaNode where
  s := if node.alertTimesOut then { node.s with alertMask := 0 } else node.s
  life := node.life - 1
  alertLife := node.alertLife - 1

/-- The test of `vam_update_sta` for a station to kick out. -/
def dead (node : VamStaNode) : Bool := node.life = 0 ∧ node.alertLife = 0

@[simp] theorem age_pid (node : VamStaNode) : node.age.s.pid = node.s.pid := by
  unfold age
  split <;> rfl

/-- A station dies when both its lives are over. -/
theorem age_dead_iff (node : VamStaNode) :
    node.age.dead = true ↔ node.life - 1 = 0 ∧ node.alertLife - 1 = 0 := by
  simp [age, dead]

/-- What is left of an alert after a tick is still alive. -/
theorem age_masked (node : VamStaNode) : node.age.s.alertMask ≠ 0 → 0 < node.age.alertLife := by
  cases out : node.alertTimesOut with
  | true => simp [age, out]
  | false =>
      intro carries
      simp only [age, out] at carries ⊢
      simp only [alertTimesOut, decide_eq_false_iff_not, not_and_or, not_not] at out
      rcases out with lasting | cleared
      · omega
      · exact absurd cleared carries

end VamStaNode

/-- The variables of the loop in `vam_update_sta`: the table, `isEmpty`, and the
copies in `p_sta`. -/
structure Sweep where
  table : StaTable
  isEmpty : Bool
  timedOut : List VamStastatus

/-- The body of the loop in `vam_update_sta`. -/
def Sweep.step (pos : StaEntry) (sweep : Sweep) : Sweep :=
  match pos with
  | .remote slot =>
      let node := sweep.table.remote slot
      let remote := Function.update sweep.table.remote slot node.age
      let timedOut := if node.alertTimesOut then sweep.timedOut ++ [node.age.s] else sweep.timedOut
      if node.age.dead then
        { table := {
            remote := remote
            list := listMoveTail sweep.table.list (.remote slot) .staFreeList
            neighbourCnt := sweep.table.neighbourCnt - 1
            gotNeighbour := true }
          isEmpty := false
          timedOut := timedOut }
      else
        { table := { sweep.table with remote := remote, gotNeighbour := true }
          isEmpty := false
          timedOut := timedOut }
  | _ => sweep

/-- The loop of `vam_update_sta`, which fetches the next pointer first. -/
def StaTable.sweep (table : StaTable) (fuel : Nat) : Option Sweep :=
  forEachSafe (fun sweep : Sweep => sweep.table.list) .neighbourList Sweep.step fuel
    (table.list.next .neighbourList) ⟨table, true, []⟩

namespace StaTable

/-- The two lists are well formed and share no node, every slot is on one of
them, and the count is that of the neighbours. -/
structure Holds (table : StaTable) (neighbours free : List Slot) : Prop where
  rings : table.list.Rings .neighbourList (neighbours.map .remote) .staFreeList (free.map .remote)
  complete : ∀ slot, slot ∈ neighbours ∨ slot ∈ free
  counted : table.neighbourCnt = BitVec.ofNat 8 neighbours.length

variable {table : StaTable} {neighbours free : List Slot}

/-- Different slots are different entries. -/
theorem remote_injective : Function.Injective StaEntry.remote :=
  fun _ _ equal => StaEntry.remote.inj equal

/-- The entries of a list of slots. -/
theorem mem_map_remote {slot : Slot} {slots : List Slot} :
    StaEntry.remote slot ∈ slots.map .remote ↔ slot ∈ slots :=
  List.mem_map_of_injective remote_injective

@[simp] theorem setCnt_pid (cnt : Byte) (node : VamStaNode) :
    (setCnt cnt node).s.pid = node.s.pid := rfl

/-- No slot is on a list twice, or on both. -/
theorem Holds.nodup (holds : table.Holds neighbours free) : (neighbours ++ free).Nodup := by
  rw [List.nodup_append]
  refine ⟨(List.nodup_cons.1 holds.rings.left.nodup).2.of_map _,
    (List.nodup_cons.1 holds.rings.right.nodup).2.of_map _, ?_⟩
  rintro slot member _ foreign rfl
  apply holds.rings.apart (.remote slot)
  · exact List.mem_cons_of_mem _ (mem_map_remote.2 member)
  · exact List.mem_cons_of_mem _ (mem_map_remote.2 foreign)

/-- The lists hold the whole pool. -/
theorem Holds.perm (holds : table.Holds neighbours free) :
    (neighbours ++ free).Perm (List.finRange vamNeighbourMaxnum) := by
  rw [List.perm_ext_iff_of_nodup holds.nodup (List.nodup_finRange _)]
  intro slot
  simpa using holds.complete slot

theorem Holds.length_le (holds : table.Holds neighbours free) :
    neighbours.length ≤ vamNeighbourMaxnum := by
  have total := holds.perm.length_eq
  rw [List.length_append, List.length_finRange] at total
  omega

/-- The count never wraps. -/
theorem Holds.count_eq (holds : table.Holds neighbours free) :
    table.neighbourCnt.toNat = neighbours.length := by
  have bound : neighbours.length ≤ 80 := holds.length_le
  rw [holds.counted, BitVec.toNat_ofNat]
  omega

/-- A neighbour is not free. -/
theorem Holds.not_mem_free (holds : table.Holds neighbours free) {slot : Slot}
    (member : slot ∈ neighbours) : slot ∉ free :=
  fun foreign => (List.nodup_append.1 holds.nodup).2.2 slot member slot foreign rfl

/-- The lists determine what they hold. -/
theorem Holds.unique {others rest : List Slot} (left : table.Holds neighbours free)
    (right : table.Holds others rest) : neighbours = others ∧ free = rest := by
  have mapInjective := List.map_injective_iff.2 remote_injective
  exact ⟨mapInjective (left.rings.left.unique right.rings.left),
    mapInjective (left.rings.right.unique right.rings.right)⟩

/-- The slots of a table do not depend on what is stored in them. -/
theorem Holds.congr {other : StaTable} (holds : table.Holds neighbours free)
    (list : other.list = table.list) (cnt : other.neighbourCnt = table.neighbourCnt) :
    other.Holds neighbours free :=
  ⟨list ▸ holds.rings, holds.complete, cnt ▸ holds.counted⟩

/-- Writing a station moves none. -/
theorem Holds.modify (holds : table.Holds neighbours free) (slot : Slot)
    (write : VamStaNode → VamStaNode) : (table.modify slot write).Holds neighbours free :=
  holds.congr rfl rfl

@[simp] theorem modify_remote_self (table : StaTable) (slot : Slot)
    (write : VamStaNode → VamStaNode) :
    (table.modify slot write).remote slot = write (table.remote slot) :=
  Function.update_self ..

theorem modify_remote_of_ne (table : StaTable) {slot other : Slot} (write : VamStaNode → VamStaNode)
    (different : other ≠ slot) : (table.modify slot write).remote other = table.remote other :=
  Function.update_of_ne different ..

/-- A write that keeps the pid of its station keeps all of them. -/
theorem modify_pid (table : StaTable) (slot : Slot) {write : VamStaNode → VamStaNode}
    (keeps : ∀ node, (write node).s.pid = node.s.pid) (other : Slot) :
    (table.modify slot write).pid other = table.pid other := by
  by_cases same : other = slot
  · rw [same, pid, modify_remote_self, keeps, pid]
  · rw [pid, modify_remote_of_ne table write same, pid]

/-- The loop of the lookups, as a search of a list. -/
theorem foldBreak_findStep (table : StaTable) (temporaryId : TempId) (slots : List Slot) :
    foldBreak (table.findStep temporaryId) (slots.map .remote) none =
      slots.find? fun slot => table.pid slot = temporaryId := by
  induction slots with
  | nil => rfl
  | cons slot rest inductionHypothesis =>
      by_cases same : table.pid slot = temporaryId
      · simp [foldBreak, findStep, same]
      · simp [foldBreak, findStep, same, inductionHypothesis]

/-- The lookups search the neighbours in order. -/
theorem Holds.find_eq (holds : table.Holds neighbours free) (temporaryId : TempId) {fuel : Nat}
    (enough : neighbours.length < fuel) :
    table.find temporaryId fuel =
      some (neighbours.find? fun slot => table.pid slot = temporaryId) := by
  let links := fun _ : Option Slot => table.list
  have ring : (links none).Ring .neighbourList (neighbours.map .remote) := holds.rings.left
  have keeps : ∀ {pos before after}, table.findStep temporaryId pos before = .yield after →
      links after = links before := fun _ => rfl
  rw [find, forEach_eq_foldBreak keeps ring (by simpa using enough), foldBreak_findStep]

/-- Once a lookup returns, granting it more iterations changes nothing. -/
theorem find_persistent (table : StaTable) (temporaryId : TempId) :
    Persistent (table.find temporaryId) :=
  forEach_persistent _ _ _

/-- The station gets the pid, and keeps what its former occupant left. -/
theorem seat_remote_self (table : StaTable) (slot : Slot) (temporaryId : TempId) :
    (table.seat slot temporaryId).remote slot =
      { table.remote slot with s := { (table.remote slot).s with pid := temporaryId } } :=
  Function.update_self ..

theorem seat_remote_of_ne (table : StaTable) {slot other : Slot} (temporaryId : TempId)
    (different : other ≠ slot) :
    (table.seat slot temporaryId).remote other = table.remote other :=
  Function.update_of_ne different ..

@[simp] theorem seat_pid_self (table : StaTable) (slot : Slot) (temporaryId : TempId) :
    (table.seat slot temporaryId).pid slot = temporaryId := by
  rw [pid, seat_remote_self]

theorem seat_pid_of_ne (table : StaTable) {slot other : Slot} (temporaryId : TempId)
    (different : other ≠ slot) : (table.seat slot temporaryId).pid other = table.pid other := by
  rw [pid, seat_remote_of_ne table temporaryId different, pid]

/-- Admitting a station moves its slot from one list to the other. -/
theorem Holds.seat {slot : Slot} (holds : table.Holds neighbours (slot :: free))
    (temporaryId : TempId) : (table.seat slot temporaryId).Holds (slot :: neighbours) free := by
  refine ⟨?_, ?_, ?_⟩
  · have rings : table.list.Rings .staFreeList ([] ++ .remote slot :: free.map .remote)
        .neighbourList (neighbours.map .remote) := holds.rings.symm
    exact (listMove_rings rings).symm
  · intro other
    have member := holds.complete other
    simp only [List.mem_cons] at member ⊢
    tauto
  · show table.neighbourCnt + 1 = _
    rw [holds.counted, List.length_cons, BitVec.ofNat_add]
    rfl

/-- A station joins exactly when the pool has a free slot. -/
theorem Holds.join_eq (holds : table.Holds neighbours free) (temporaryId : TempId) :
    table.join temporaryId =
      match free with
      | [] => (none, table)
      | slot :: _ => (some slot, table.seat slot temporaryId) := by
  cases free with
  | nil => rw [join, (listEmpty_iff holds.rings.right).2 rfl, if_pos rfl]
  | cons slot rest =>
      have occupied : ¬ listEmpty table.list .staFreeList = true := by
        simp [listEmpty_iff holds.rings.right]
      have first := holds.rings.right.next_head
      rw [List.map_cons, firstOr_cons] at first
      rw [join, if_neg occupied, first]
      rfl

/-- What `vam_find_sta` does: it finds the station, admits it, or has no slot. -/
theorem Holds.vamFindSta_cases (holds : table.Holds neighbours free) (temporaryId : TempId)
    {fuel : Nat} (enough : neighbours.length < fuel) :
    (∃ slot ∈ neighbours, table.pid slot = temporaryId ∧
        table.vamFindSta temporaryId fuel = some (some slot, table)) ∨
      (∀ slot ∈ neighbours, table.pid slot ≠ temporaryId) ∧
        ((∃ slot rest, free = slot :: rest ∧
            table.vamFindSta temporaryId fuel = some (some slot, table.seat slot temporaryId)) ∨
          free = [] ∧ table.vamFindSta temporaryId fuel = some (none, table)) := by
  rw [vamFindSta, holds.find_eq temporaryId enough]
  cases found : neighbours.find? fun slot => table.pid slot = temporaryId with
  | some slot =>
      have same : table.pid slot = temporaryId := by simpa using List.find?_some found
      exact .inl ⟨slot, List.mem_of_find?_eq_some found, same, rfl⟩
  | none =>
      have absent : ∀ slot ∈ neighbours, table.pid slot ≠ temporaryId := by
        simpa using List.find?_eq_none.1 found
      refine .inr ⟨absent, ?_⟩
      rw [Option.map_some, holds.join_eq temporaryId]
      cases free with
      | nil => exact .inr ⟨rfl, rfl⟩
      | cons slot rest => exact .inl ⟨slot, rest, rfl, rfl⟩

/-- A station is kicked out in this tick. -/
def diesNow (table : StaTable) (slot : Slot) : Bool := (table.remote slot).age.dead

/-- An alert times out in this tick. -/
def timesOutNow (table : StaTable) (slot : Slot) : Bool := (table.remote slot).alertTimesOut

/-- The loop of `vam_update_sta` on `start` has treated the neighbours in `done`
and has those in `rest` still to come. -/
structure Swept (start : StaTable) (free done rest : List Slot) (sweep : Sweep) : Prop where
  nodup : (done ++ rest).Nodup
  holds : sweep.table.Holds (done.filter (fun slot => !start.diesNow slot) ++ rest)
    (free ++ done.filter start.diesNow)
  remote : ∀ slot, sweep.table.remote slot =
    if slot ∈ done then (start.remote slot).age else start.remote slot
  gotNeighbour : sweep.table.gotNeighbour = (start.gotNeighbour || !done.isEmpty)
  isEmpty : sweep.isEmpty = done.isEmpty
  timedOut : sweep.timedOut = (done.filter start.timesOutNow).map fun slot =>
    (start.remote slot).age.s

/-- Unlinking a neighbour into the free list. -/
theorem Holds.leave {slot : Slot} {front back : List Slot} {sweep next : StaTable}
    (holds : sweep.Holds (front ++ slot :: back) free)
    (list : next.list = listMoveTail sweep.list (.remote slot) .staFreeList)
    (cnt : next.neighbourCnt = sweep.neighbourCnt - 1) :
    next.Holds (front ++ back) (free ++ [slot]) := by
  refine ⟨?_, ?_, ?_⟩
  · have rings : sweep.list.Rings .neighbourList
        (front.map .remote ++ .remote slot :: back.map .remote) .staFreeList
        (free.map .remote) := by simpa using holds.rings
    simpa [list] using listMoveTail_rings rings
  · intro other
    have member := holds.complete other
    simp only [List.mem_append, List.mem_cons, List.not_mem_nil, or_false] at member ⊢
    tauto
  · have grown : (front ++ slot :: back).length = (front ++ back).length + 1 := by
      simp only [List.length_append, List.length_cons]
      omega
    rw [cnt, holds.counted, grown, BitVec.ofNat_add]
    exact BitVec.add_sub_cancel _ _

/-- One iteration of the loop in `vam_update_sta`. -/
theorem Swept.step {start : StaTable} {done rest : List Slot} {slot : Slot} {sweep : Sweep}
    (swept : start.Swept free done (slot :: rest) sweep) :
    start.Swept free (done ++ [slot]) rest (Sweep.step (.remote slot) sweep) := by
  have fresh : slot ∉ done := fun member =>
    (List.nodup_append.1 swept.nodup).2.2 slot member slot List.mem_cons_self rfl
  have same : sweep.table.remote slot = start.remote slot := by rw [swept.remote, if_neg fresh]
  have remote : ∀ other, Function.update sweep.table.remote slot (start.remote slot).age other =
      if other ∈ done ++ [slot] then (start.remote other).age else start.remote other := by
    intro other
    by_cases here : other = slot
    · simp [here]
    · rw [Function.update_of_ne here, swept.remote]
      simp [here]
  have timedOut : (if (start.remote slot).alertTimesOut
        then sweep.timedOut ++ [(start.remote slot).age.s] else sweep.timedOut) =
      ((done ++ [slot]).filter start.timesOutNow).map fun slot => (start.remote slot).age.s := by
    cases out : (start.remote slot).alertTimesOut <;> simp [timesOutNow, out, swept.timedOut]
  cases dies : (start.remote slot).age.dead with
  | true =>
      simp only [Sweep.step, same, dies, if_true]
      refine ⟨by simpa using swept.nodup, ?_, remote, by simp, by simp, timedOut⟩
      have survivors : (done ++ [slot]).filter (fun slot => !start.diesNow slot) =
          done.filter fun slot => !start.diesNow slot := by simp [diesNow, dies]
      have removed : (done ++ [slot]).filter start.diesNow =
          done.filter start.diesNow ++ [slot] := by simp [diesNow, dies]
      rw [survivors, removed, ← List.append_assoc]
      exact swept.holds.leave rfl rfl
  | false =>
      simp only [Sweep.step, same, dies]
      refine ⟨by simpa using swept.nodup, ?_, remote, by simp, by simp, timedOut⟩
      have survivors : (done ++ [slot]).filter (fun slot => !start.diesNow slot) =
          (done.filter fun slot => !start.diesNow slot) ++ [slot] := by simp [diesNow, dies]
      have removed : (done ++ [slot]).filter start.diesNow = done.filter start.diesNow := by
        simp [diesNow, dies]
      rw [survivors, removed, List.append_assoc]
      exact swept.holds.congr rfl rfl

/-- The loop of `vam_update_sta` treats every neighbour once. -/
theorem Holds.sweep (holds : table.Holds neighbours free) {fuel : Nat}
    (enough : neighbours.length < fuel) :
    ∃ sweep, table.sweep fuel = some sweep ∧ table.Swept free neighbours [] sweep := by
  let links := fun sweep : Sweep => sweep.table.list
  let inv := fun (entries : List StaEntry) (sweep : Sweep) =>
    ∃ done rest, neighbours = done ++ rest ∧ entries = rest.map .remote ∧
      table.Swept free done rest sweep
  have start : inv (neighbours.map .remote) ⟨table, true, []⟩ := by
    refine ⟨[], neighbours, rfl, rfl, ?_, ?_, by simp, by simp, rfl, rfl⟩
    · exact (List.nodup_append.1 holds.nodup).1
    · simpa using holds
  have fetch : ∀ {entry rest sweep}, inv (entry :: rest) sweep →
      entry ≠ .neighbourList ∧ (links sweep).next entry = firstOr .neighbourList rest := by
    rintro entry rest sweep ⟨done, slots, -, entries, swept⟩
    obtain ⟨slot, slots, rfl, rfl, rfl⟩ := List.map_eq_cons_iff.1 entries.symm
    have ring := swept.holds.rings.left
    rw [List.map_append, List.map_cons] at ring
    exact ⟨by simp, ring.next_node⟩
  have keeps : ∀ {entry rest sweep}, inv (entry :: rest) sweep →
      inv rest (Sweep.step entry sweep) := by
    rintro entry rest sweep ⟨done, slots, split, entries, swept⟩
    obtain ⟨slot, slots, rfl, rfl, rfl⟩ := List.map_eq_cons_iff.1 entries.symm
    exact ⟨done ++ [slot], slots, by simpa using split, rfl, swept.step⟩
  obtain ⟨sweep, returned, done, rest, split, empty, swept⟩ :=
    forEachSafe_rule fetch keeps start (by simpa using enough)
  obtain rfl : rest = [] := List.map_eq_nil_iff.1 empty.symm
  obtain rfl : neighbours = done := by simpa using split
  refine ⟨sweep, ?_, swept⟩
  rw [StaTable.sweep, holds.rings.left.next_head]
  exact returned

end StaTable

end Rsu.Vam
