import Mathlib.Data.Nat.Prime.Basic
import Mathlib.Data.Set.Card
import Mathlib.Order.Lattice.Nat
import Mathlib.Logic.Function.Basic
import Rsu.Semantics.Checked

/-!
# Vectors of the command interface

The commands of a node, the nodes, the words of a line: all of them are vectors of pointers that
double when they run short. A vector is a partial map, and `vector_set` puts a value at the smallest
place that is free. Numbers of slots and sizes of blocks are `unsigned int`: below `placeLimit` they
do not wrap.
-/

namespace Rsu.Cli

open Checked

/-- `sizeof (void *)` -/
def pointerSize : Nat := 4

/-- `struct _vector`; there is nothing behind the active slots, at least one slot, and the size of
the block of slots is an `unsigned int`. -/
structure CVector (α : Type) where
  index : List (Option α)
  active : Nat
  active_le : active ≤ index.length
  behind : ∀ i, active ≤ i → index[i]?.join = none
  filled : 0 < index.length
  fits : pointerSize * index.length < 2 ^ 32

variable {α : Type}

namespace CVector

/-- `v->alloced` -/
def alloced (v : CVector α) : Nat := v.index.length

/-- What a vector holds at a place. -/
def get (v : CVector α) (i : Nat) : Option α := v.index[i]?.join

/-- Nothing is behind the active slots. -/
theorem get_of_active_le (v : CVector α) {i : Nat} (outside : v.active ≤ i) : v.get i = none :=
  v.behind i outside

/-- `vector_init`: at least one slot. -/
def init (size : Nat) (fits : pointerSize * max 1 size < 2 ^ 32 := by decide) : CVector α where
  index := List.replicate (max 1 size) none
  active := 0
  active_le := Nat.zero_le _
  behind i _ := by
    rw [List.getElem?_replicate]
    split_ifs <;> rfl
  filled := by
    rw [List.length_replicate]
    omega
  fits := by
    rw [List.length_replicate]
    exact fits

@[simp] theorem get_init (size i : Nat) (fits : pointerSize * max 1 size < 2 ^ 32) :
    (init size fits : CVector α).get i = none :=
  (init size fits).behind i (Nat.zero_le i)

/-- One turn of `vector_ensure`: twice as many slots, the new ones are `NULL`. -/
def double (v : CVector α) (fits : pointerSize * (v.alloced * 2) < 2 ^ 32) : CVector α where
  index := v.index ++ List.replicate v.index.length none
  active := v.active
  active_le := by
    rw [List.length_append]
    exact v.active_le.trans (Nat.le_add_right _ _)
  behind i outside := by
    rw [List.getElem?_append]
    split_ifs with inside
    · exact v.behind i outside
    · rw [List.getElem?_replicate]
      split_ifs <;> rfl
  filled := by
    rw [List.length_append]
    exact v.filled.trans_le (Nat.le_add_right _ _)
  fits := by
    rw [List.length_append, List.length_replicate, ← Nat.mul_two]
    exact fits

@[simp] theorem alloced_double (v : CVector α) (fits : pointerSize * (v.alloced * 2) < 2 ^ 32) :
    (v.double fits).alloced = v.alloced * 2 := by
  simp only [alloced, double, List.length_append, List.length_replicate]
  omega

/-- Twice the room, and the same values. -/
theorem get_double (v : CVector α) (fits : pointerSize * (v.alloced * 2) < 2 ^ 32) (i : Nat) :
    (v.double fits).get i = v.get i := by
  rw [get, get, double, List.getElem?_append]
  split_ifs with inside
  · rfl
  · rw [List.getElem?_eq_none (not_lt.1 inside), List.getElem?_replicate]
    split_ifs <;> rfl

/-- `vector_ensure`. If the size of twice as many slots wraps, the block that `realloc` returns is too
short for them, and `memset` writes behind it. -/
def ensure (v : CVector α) (num : Nat) : Checked (CVector α) :=
  if num < v.alloced then return v
  else if fits : pointerSize * (v.alloced * 2) < 2 ^ 32 then (v.double fits).ensure num
  else .error .write
termination_by num + 1 - v.alloced
decreasing_by
  have filled : 0 < v.alloced := v.filled
  rw [alloced_double]
  omega

/-- No vector that holds the places below needs a block whose size wraps. -/
def placeLimit : Nat := 2 ^ 29

/-- What `vector_ensure` does. -/
structure Ensured (before : CVector α) (num : Nat) (after : CVector α) : Prop where
  room : num < after.alloced
  active : after.active = before.active
  get : ∀ i, after.get i = before.get i
  /-- A vector grows by doubling. -/
  dvd : ∀ n, before.alloced ∣ 2 ^ n → num < 2 ^ n → after.alloced ∣ 2 ^ n

/-- At a place below the limit, `vector_ensure` makes room. -/
theorem ensured (v : CVector α) {num : Nat} (low : num < placeLimit) :
    Ends (v.ensure num) (v.Ensured num) := by
  induction v using ensure.induct num with
  | case1 v enough =>
      rw [ensure, if_pos enough, ends_pure]
      exact ⟨enough, rfl, fun _ => rfl, fun _ dvd _ => dvd⟩
  | case2 v short fits inductionHypothesis =>
      rw [ensure, if_neg short, dif_pos fits]
      refine inductionHypothesis.mono fun after ensured => ?_
      refine ⟨ensured.room, ensured.active, fun i => (ensured.get i).trans (get_double v fits i),
        fun n dvd inside => ensured.dvd n ?_ inside⟩
      obtain ⟨k, within, same⟩ := (Nat.dvd_prime_pow Nat.prime_two).1 dvd
      rw [alloced_double, same, ← Nat.pow_succ]
      refine Nat.pow_dvd_pow 2 (Nat.lt_of_le_of_ne within ?_)
      rintro rfl
      omega
  | case3 v short wraps =>
      rw [placeLimit] at low
      rw [pointerSize] at wraps
      omega

/-- `vector_empty_slot` -/
def emptySlot (v : CVector α) : Nat := (v.index.take v.active).findIdx (·.isNone)

/-- `v->index[i] = val`, and `v->active` is behind it. -/
def store (v : CVector α) (i : Nat) (room : i < v.alloced) (val : Option α) : CVector α where
  index := v.index.set i val
  active := if v.active ≤ i then i + 1 else v.active
  active_le := by
    rw [List.length_set]
    split_ifs
    · exact room
    · exact v.active_le
  behind place outside := by
    have other : i ≠ place ∧ v.active ≤ place := by
      split_ifs at outside <;> omega
    rw [List.getElem?_set_ne other.1]
    exact v.behind place other.2
  filled := by
    rw [List.length_set]
    exact v.filled
  fits := by
    rw [List.length_set]
    exact v.fits

/-- `vector_set_index` -/
def setIndex (v : CVector α) (i : Nat) (val : Option α) : Checked (CVector α) := do
  let v ← v.ensure i
  if room : i < v.alloced then return v.store i room val else .error .write

/-- `vector_set`, with the index that it returns. -/
def set (v : CVector α) (val : Option α) : Checked (CVector α × Nat) := do
  let after ← v.setIndex v.emptySlot val
  return (after, v.emptySlot)

/-- `vector_lookup` -/
def lookup (v : CVector α) (i : Nat) : Option α :=
  if v.active ≤ i then none else v.index[i]?.join

/-- `vector_slot` -/
def slot (v : CVector α) (i : Nat) : Checked (Option α) := do
  readable v.alloced i 1
  return v.get i

/-- `vector_lookup_ensure` -/
def lookupEnsure (v : CVector α) (i : Nat) : Checked (CVector α × Option α) := do
  let v ← v.ensure i
  let found ← v.slot i
  return (v, found)

/-- The loop of `vector_unset`: `active` behind the last slot that is not `NULL`. -/
def trim (index : List (Option α)) : Nat → Nat
  | 0 => 0
  | i + 1 => if index[i]?.join.isNone then trim index i else i + 1

/-- Trimming goes down. -/
theorem trim_le (index : List (Option α)) (i : Nat) : trim index i ≤ i := by
  induction i with
  | zero => exact Nat.le_refl 0
  | succ i inductionHypothesis =>
      rw [trim]
      split_ifs
      · exact inductionHypothesis.trans (Nat.le_succ i)
      · exact Nat.le_refl _

/-- What the loop passes is `NULL`. -/
theorem trim_behind (index : List (Option α)) (i place : Nat) (passed : trim index i ≤ place)
    (inside : place < i) : index[place]?.join = none := by
  induction i with
  | zero => omega
  | succ i inductionHypothesis =>
      rw [trim] at passed
      split_ifs at passed with empty
      · rcases Nat.lt_succ_iff_lt_or_eq.1 inside with earlier | rfl
        · exact inductionHypothesis passed earlier
        · exact Option.isNone_iff_eq_none.1 empty
      · omega

/-- `vector_unset` -/
def unset (v : CVector α) (i : Nat) : CVector α :=
  if v.alloced ≤ i then v
  else
    { index := v.index.set i none
      active := if i + 1 = v.active then trim (v.index.set i none) i else v.active
      active_le := by
        rw [List.length_set]
        have short := trim_le (v.index.set i none) i
        have few := v.active_le
        split_ifs <;> omega
      behind := by
        intro place outside
        by_cases same : i = place
        · subst same
          rw [List.getElem?_set_self']
          cases v.index[i]? <;> rfl
        · split_ifs at outside with last
          · by_cases earlier : place < i
            · exact trim_behind _ i place outside earlier
            · rw [List.getElem?_set_ne same]
              exact v.behind place (by omega)
          · rw [List.getElem?_set_ne same]
            exact v.behind place outside
      filled := by
        rw [List.length_set]
        exact v.filled
      fits := by
        rw [List.length_set]
        exact v.fits }

/-- The active slots. -/
def slots (v : CVector α) : List (Option α) := v.index.take v.active

/-- `vector_count` -/
def count (v : CVector α) : Nat := (v.index.take v.active).countP (·.isSome)

/-- `vector_copy`: a block of the same size with the same slots in it. -/
def copy (v : CVector α) : CVector α := v

section Map

variable (v : CVector α)

/-- `vector_lookup` looks up the value. -/
theorem lookup_eq (i : Nat) : v.lookup i = v.get i := by
  rw [lookup]
  split_ifs with outside
  · exact (v.get_of_active_le outside).symm
  · rfl

/-- Within the room, a slot is read as its value. -/
theorem slot_eq {i : Nat} (room : i < v.alloced) : v.slot i = .ok (v.get i) := by
  rw [slot, readable_bind room]
  rfl

/-- A stored value takes its place. -/
theorem get_store {i : Nat} (room : i < v.alloced) (val : Option α) :
    (v.store i room val).get = Function.update v.get i val := by
  funext place
  rw [get, store]
  by_cases same : i = place
  · subst same
    rw [List.getElem?_set_self room, Function.update_self, Option.join_some]
  · rw [List.getElem?_set_ne same, Function.update_of_ne (Ne.symm same)]
    rfl

/-- What `vector_set_index` does. -/
structure Assigned (before : CVector α) (i : Nat) (val : Option α) (after : CVector α) : Prop where
  get : after.get = Function.update before.get i val
  active : after.active = if before.active ≤ i then i + 1 else before.active
  dvd : ∀ n, before.alloced ∣ 2 ^ n → i < 2 ^ n → after.alloced ∣ 2 ^ n

/-- At a place below the limit, a value is set. -/
theorem assigned {i : Nat} (low : i < placeLimit) (val : Option α) :
    Ends (v.setIndex i val) (v.Assigned i val) := by
  rw [setIndex, ends_bind]
  refine (v.ensured low).mono fun after ensured => ?_
  rw [dif_pos ensured.room, ends_pure]
  refine ⟨?_, ?_, fun n dvd inside => ?_⟩
  · rw [get_store, funext ensured.get]
  · rw [← ensured.active]
    rfl
  · have length : (after.store i ensured.room val).alloced = after.alloced := List.length_set
    rw [length]
    exact ensured.dvd n dvd inside

/-- An unset value is gone. -/
theorem get_unset (i : Nat) : (v.unset i).get = Function.update v.get i none := by
  funext place
  rw [unset]
  by_cases outside : v.alloced ≤ i
  · rw [if_pos outside]
    by_cases same : place = i
    · subst same
      rw [Function.update_self]
      exact v.get_of_active_le (v.active_le.trans outside)
    · rw [Function.update_of_ne same]
  · rw [if_neg outside]
    by_cases same : i = place
    · subst same
      rw [get, List.getElem?_set_self (not_le.1 outside), Function.update_self, Option.join_some]
    · rw [get, List.getElem?_set_ne same, Function.update_of_ne (Ne.symm same)]
      rfl

/-- There are as many active slots as said. -/
theorem length_take_active : (v.index.take v.active).length = v.active := by
  rw [List.length_take, min_eq_left v.active_le]

/-- The active slots are all there is. -/
theorem get_eq_take (i : Nat) : v.get i = (v.index.take v.active)[i]?.join := by
  by_cases inside : i < v.active
  · rw [List.getElem?_take_of_lt inside]
    rfl
  · rw [v.get_of_active_le (not_lt.1 inside), List.getElem?_eq_none]
    · rfl
    · rw [v.length_take_active]
      exact not_lt.1 inside

/-- The first `NULL` of a list, or its end. -/
theorem isLeast_findIdx (slots : List (Option α)) :
    IsLeast {i | slots[i]?.join = none} (slots.findIdx (·.isNone)) := by
  induction slots with
  | nil => exact ⟨rfl, fun i _ => Nat.zero_le i⟩
  | cons slot slots inductionHypothesis =>
      rw [List.findIdx_cons]
      cases slot with
      | none => exact ⟨rfl, fun i _ => Nat.zero_le i⟩
      | some value =>
          refine ⟨inductionHypothesis.1, ?_⟩
          rintro (_ | i) free
          · cases free
          · exact Nat.succ_le_succ (inductionHypothesis.2 free)

/-- The slot that `vector_empty_slot` finds is the smallest one that is free. -/
theorem isLeast_emptySlot : IsLeast {i | v.get i = none} v.emptySlot := by
  simp only [get_eq_take]
  exact isLeast_findIdx _

/-- The slots of a list that are not empty. -/
theorem countP_isSome (slots : List (Option α)) :
    slots.countP (·.isSome) =
      ((Finset.range slots.length).filter fun i => (slots[i]?.join).isSome).card := by
  induction slots using List.reverseRecOn with
  | nil => rfl
  | append_singleton slots slot inductionHypothesis =>
      have earlier : (Finset.range slots.length).filter
          (fun i => ((slots ++ [slot])[i]?.join).isSome) =
            (Finset.range slots.length).filter fun i => (slots[i]?.join).isSome := by
        refine Finset.filter_congr fun i member => ?_
        rw [List.getElem?_append_left (Finset.mem_range.1 member)]
      rw [List.countP_append, inductionHypothesis, List.length_append, List.length_singleton,
        Finset.range_add_one, Finset.filter_insert, earlier]
      cases slot with
      | none => simp
      | some value => simp

/-- The count is that of the values. -/
theorem count_eq : v.count = ((Finset.range v.active).filter fun i => (v.get i).isSome).card := by
  rw [count, countP_isSome, length_take_active]
  refine congrArg Finset.card (Finset.filter_congr fun i member => ?_)
  rw [List.getElem?_take_of_lt (Finset.mem_range.1 member)]
  rfl

/-- The active slots are the values in turn. -/
theorem slots_eq : v.slots = (List.range v.active).map v.get := by
  apply List.ext_getElem
  · rw [slots, length_take_active, List.length_map, List.length_range]
  · intro i inside outside
    rw [slots, length_take_active] at inside
    have within := inside.trans_le v.active_le
    rw [List.getElem_map, List.getElem_range, get, List.getElem?_eq_getElem within]
    exact List.getElem_take

/-- There is a slot wherever there is a value. -/
theorem lt_of_get {i : Nat} {val : α} (filled : v.get i = some val) : i < v.active := by
  by_contra outside
  rw [v.get_of_active_le (not_lt.1 outside)] at filled
  cases filled

/-- What `vector_set` does. -/
theorem set_assigned (low : v.emptySlot < placeLimit) (val : Option α) :
    Ends (v.set val) fun result => v.Assigned v.emptySlot val result.1 ∧ result.2 = v.emptySlot := by
  rw [set, ends_bind]
  refine (v.assigned low val).mono fun after assigned => ?_
  rw [ends_pure]
  exact ⟨assigned, rfl⟩

/-- `vector_set` puts a value behind a vector without gaps. -/
theorem slots_set (dense : none ∉ v.slots) (low : v.slots.length < placeLimit) (val : α) :
    Ends (v.set (some val)) fun result => result.1.slots = v.slots ++ [some val] := by
  have full (i : Nat) (inside : i < v.active) : v.get i ≠ none := by
    intro empty
    rw [slots_eq] at dense
    exact dense (List.mem_map.2 ⟨i, List.mem_range.2 inside, empty⟩)
  have last : v.emptySlot = v.active := by
    refine le_antisymm (v.isLeast_emptySlot.2 (v.get_of_active_le le_rfl)) ?_
    by_contra earlier
    exact full _ (not_le.1 earlier) v.isLeast_emptySlot.1
  rw [slots, length_take_active, ← last] at low
  refine (v.set_assigned low (some val)).mono fun result done => ?_
  obtain ⟨assigned, -⟩ := done
  have active : result.1.active = v.active + 1 := by
    rw [assigned.active, last, if_pos le_rfl]
  rw [slots_eq, slots_eq, active, List.range_succ, List.map_append, assigned.get, last]
  congr 1
  · refine List.map_congr_left fun i member => ?_
    rw [Function.update_of_ne (List.mem_range.1 member).ne]
  · rw [List.map_singleton, Function.update_self]

/-- The count is that of the places with a value. -/
theorem count_eq_ncard : v.count = {i | v.get i ≠ none}.ncard := by
  have same : {i | v.get i ≠ none} =
      ((Finset.range v.active).filter fun i => (v.get i).isSome : Finset Nat) := by
    ext i
    have active : v.get i ≠ none → i < v.active := fun filled =>
      not_le.1 fun outside => filled (v.get_of_active_le outside)
    simpa [Option.isSome_iff_ne_none] using active
  rw [count_eq, same, Set.ncard_coe_finset]

end Map

end CVector

/-- What may be asked of a vector; after a copy the copy is asked. -/
inductive VectorCall (α : Type) where
  | set (val : Option α)
  | setIndex (i : Nat) (val : Option α)
  | unset (i : Nat)
  | lookup (i : Nat)
  | lookupEnsure (i : Nat)
  | count
  | copy

/-- What a vector answers. -/
inductive VectorAnswer (α : Type) where
  | done
  | index (i : Nat)
  | value (val : Option α)
  deriving DecidableEq

/-- A call of one of the functions. -/
def CVector.call (v : CVector α) : VectorCall α → Checked (CVector α × VectorAnswer α)
  | .set val => do
      let (v, i) ← v.set val
      return (v, .index i)
  | .setIndex i val => do
      let v ← v.setIndex i val
      return (v, .index i)
  | .unset i => return (v.unset i, .done)
  | .lookup i => return (v, .value (v.lookup i))
  | .lookupEnsure i => do
      let (v, found) ← v.lookupEnsure i
      return (v, .value found)
  | .count => return (v, .index v.count)
  | .copy => return (v.copy, .done)

/-- A sequence of calls, with the answers. -/
def CVector.calls (v : CVector α) : List (VectorCall α) → Checked (CVector α × List (VectorAnswer α))
  | [] => return (v, [])
  | call :: later => do
      let (v, answer) ← v.call call
      let (v, answers) ← v.calls later
      return (v, answer :: answers)

namespace PartialMap

/-- What a partial map answers; a value without a place gets the smallest one that is free. -/
noncomputable def call (m : Nat → Option α) :
    VectorCall α → (Nat → Option α) × VectorAnswer α
  | .set val => (Function.update m (sInf {i | m i = none}) val, .index (sInf {i | m i = none}))
  | .setIndex i val => (Function.update m i val, .index i)
  | .unset i => (Function.update m i none, .done)
  | .lookup i => (m, .value (m i))
  | .lookupEnsure i => (m, .value (m i))
  | .count => (m, .index {i | m i ≠ none}.ncard)
  | .copy => (m, .done)

/-- A sequence of calls, with the answers. -/
noncomputable def calls (m : Nat → Option α) :
    List (VectorCall α) → (Nat → Option α) × List (VectorAnswer α)
  | [] => (m, [])
  | call :: later =>
      ((calls (PartialMap.call m call).1 later).1,
        (PartialMap.call m call).2 :: (calls (PartialMap.call m call).1 later).2)

/-- A call that makes a vector grow is for a place below the limit, or finds one there. -/
def Low (m : Nat → Option α) : VectorCall α → Prop
  | .set _ => ∃ i < CVector.placeLimit, m i = none
  | .setIndex i _ | .lookupEnsure i => i < CVector.placeLimit
  | _ => True

/-- All calls of a sequence are. -/
def AllLow (m : Nat → Option α) : List (VectorCall α) → Prop
  | [] => True
  | call :: later => Low m call ∧ AllLow (PartialMap.call m call).1 later

end PartialMap

/-- A call does to a vector what it does to the partial map. -/
theorem CVector.call_refines (v : CVector α) {call : VectorCall α} (low : PartialMap.Low v.get call) :
    Ends (v.call call) fun result =>
      (result.1.get, result.2) = PartialMap.call v.get call := by
  cases call with
  | set val =>
      obtain ⟨i, below, free⟩ := low
      have first := (v.isLeast_emptySlot.2 free).trans_lt below
      rw [CVector.call, ends_bind]
      refine (v.set_assigned first val).mono fun result done => ?_
      rw [ends_pure, done.1.get, done.2, PartialMap.call, v.isLeast_emptySlot.csInf_eq]
  | setIndex i val =>
      rw [CVector.call, ends_bind]
      refine (v.assigned low val).mono fun result assigned => ?_
      rw [ends_pure, assigned.get, PartialMap.call]
  | unset i => rw [CVector.call, ends_pure, get_unset, PartialMap.call]
  | lookup i => rw [CVector.call, ends_pure, lookup_eq, PartialMap.call]
  | lookupEnsure i =>
      rw [CVector.call, ends_bind, lookupEnsure, ends_bind]
      refine (v.ensured low).mono fun after ensured => ?_
      rw [ends_bind, slot_eq _ ensured.room, ends_ok, ends_pure, ends_pure, funext ensured.get,
        PartialMap.call]
  | count => rw [CVector.call, ends_pure, count_eq_ncard, PartialMap.call]
  | copy => rw [CVector.call, ends_pure, copy, PartialMap.call]

/-- Whatever is asked of a vector, one call after another, for places below the limit, no call
leaves its memory, and it answers like a partial map that gives a value the smallest place that is
free. -/
theorem CVector.calls_refine (v : CVector α) (calls : List (VectorCall α))
    (low : PartialMap.AllLow v.get calls) :
    Ends (v.calls calls) fun result =>
      (result.1.get, result.2) = PartialMap.calls v.get calls := by
  induction calls generalizing v with
  | nil =>
      rw [CVector.calls, ends_pure, PartialMap.calls]
  | cons call later inductionHypothesis =>
      rw [CVector.calls, ends_bind]
      refine (v.call_refines low.1).mono fun result same => ?_
      dsimp only
      have next : PartialMap.AllLow result.1.get later := by
        rw [show result.1.get = (PartialMap.call v.get call).1 from congrArg Prod.fst same]
        exact low.2
      rw [ends_bind]
      refine (inductionHypothesis result.1 next).mono fun rest answers => ?_
      rw [ends_pure, PartialMap.calls, ← same, ← answers]

/-- A vector of one slot that grows, is copied, and takes the smallest place that is free. -/
theorem CVector.calls_refine_growing :
    Ends ((init 1 : CVector Nat).calls
        [.set (some 7), .setIndex 5 (some 3), .copy, .set (some 9), .unset 5, .count]) fun result =>
      (result.1.get, result.2) = PartialMap.calls (fun _ => none)
        [.set (some 7), .setIndex 5 (some 3), .copy, .set (some 9), .unset 5, .count] := by
  have empty : (init 1 : CVector Nat).get = fun _ => none := funext fun i => get_init 1 i (by decide)
  rw [← empty]
  refine CVector.calls_refine _ _ ⟨⟨0, by decide, by rw [empty]⟩, by simp [PartialMap.Low, placeLimit],
    trivial, ⟨1, by decide, ?_⟩, trivial, trivial, trivial⟩
  simp [PartialMap.call, Function.update]

end Rsu.Cli
