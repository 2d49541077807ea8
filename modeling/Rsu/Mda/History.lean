import Mathlib.Data.Fintype.EquivFin
import Rsu.Mda.Handle
import Rsu.Semantics.ActionSystem

/-!
# Which record leaves the history

Additions and ageing ticks in any order. Records are numbered, and the state
remembers which record a slot holds and on which tick it was made. A life only
tells ticks apart, so among the records of one tick it is the last slot that goes,
not the first record: `history_retained_iff` says when that makes no difference.
-/

namespace Rsu.Mda

universe u

/-- One operation on the history. -/
inductive HistoryAction where
  /-- `add_history_record` -/
  | add (srcSta : MdaMsgInfo)
  /-- `update_history_record` -/
  | tick

/-- The history with the origin of its records. -/
structure HistoryRun (Buf : Type u) where
  mda : MdaEnvar Buf
  /-- ticks so far -/
  now : Nat
  /-- records made so far, which is the number of the next one -/
  added : Nat
  /-- the message of a record -/
  msg : Nat → MdaMsgInfo
  /-- the tick on which a record was made -/
  born : Nat → Nat
  /-- the record a slot holds -/
  recorded : Fin rxHistoryNum → Nat

namespace HistoryRun

variable {Buf : Type u} [DecidableEq Buf]

/-- The history after `mda_init`. -/
def initial : HistoryRun Buf where
  mda := MdaEnvar.mdaInit
  now := 0
  added := 0
  msg := fun _ => MdaMsgInfo.zero
  born := fun _ => 0
  recorded := fun _ => 0

/-- The remaining life of a slot. -/
def life (run : HistoryRun Buf) (slot : Fin rxHistoryNum) : Int :=
  (run.mda.rxHistoryTable slot).lifeTime

/-- The slot `add_history_record` is going to use. -/
def victim (run : HistoryRun Buf) : Option (Fin rxHistoryNum) :=
  MdaEnvar.historySlot run.mda.rxHistoryTable (List.finRange rxHistoryNum) (maxHistoryLife + 1) none

/-- One operation. -/
def step (run : HistoryRun Buf) : HistoryAction → HistoryRun Buf
  | .add srcSta =>
      { mda := run.mda.addHistoryRecord srcSta
        now := run.now
        added := run.added + 1
        msg := Function.update run.msg run.added srcSta
        born := Function.update run.born run.added run.now
        recorded :=
          match run.victim with
          | none => run.recorded
          | some slot => Function.update run.recorded slot run.added }
  | .tick => { run with mda := run.mda.updateHistoryRecord, now := run.now + 1 }

/-- A record is still in the table, alive, and its message is found there. -/
def Kept (run : HistoryRun Buf) (number : Nat) : Prop :=
  (∃ slot, 0 < run.life slot ∧ run.recorded slot = number) ∧
    run.mda.findHistoryRecord (run.msg number) ≠ none

/-- Every record is kept until ten ticks have passed or sixteen newer ones were made. -/
def Retains (run : HistoryRun Buf) : Prop :=
  ∀ number < run.added, run.now < run.born number + 10 → run.added ≤ number + 16 →
    run.Kept number

/-- What is overwritten has expired, or all are alive and none is from an earlier tick. -/
def SparesYounger (run : HistoryRun Buf) : HistoryAction → Prop
  | .add _ => ∃ slot, run.victim = some slot ∧
      (run.life slot ≤ 0 ∨ (∀ other, 0 < run.life other) ∧
        ∀ other, run.born (run.recorded slot) ≤ run.born (run.recorded other))
  | .tick => True

/-- The last one of the slots with the shortest life. -/
def Shortest (run : HistoryRun Buf) (slot : Fin rxHistoryNum) : Prop :=
  (∀ other, run.life slot ≤ run.life other) ∧ ∀ other, slot < other → run.life slot < run.life other

/-- When all slots are alive, the last one of those with the shortest life holds the
first record of all. -/
def FirstIsLast (run : HistoryRun Buf) : HistoryAction → Prop
  | .add _ => (∀ slot, 0 < run.life slot) →
      ∀ slot, run.Shortest slot → ∀ other, run.recorded slot ≤ run.recorded other
  | .tick => True

end HistoryRun

/-- The history as an action system. -/
def historySystem (Buf : Type u) [DecidableEq Buf] : ActionSystem HistoryAction :=
  .ofFunction (fun run : HistoryRun Buf => run = .initial) HistoryRun.step

namespace MdaEnvar

variable {table : Fin rxHistoryNum → MdaHistory} {slots : List (Fin rxHistoryNum)} {oldest : Int}

/-- A dead slot is taken if there is one. -/
theorem historySlot_of_dead (new : Option (Fin rxHistoryNum))
    (dead : ∃ slot ∈ slots, (table slot).lifeTime ≤ 0) :
    ∃ slot, historySlot table slots oldest new = some slot ∧ (table slot).lifeTime ≤ 0 := by
  induction slots generalizing oldest new with
  | nil => simp at dead
  | cons slot rest inductionHypothesis =>
      rw [historySlot]
      by_cases here : (table slot).lifeTime ≤ 0
      · exact ⟨slot, by rw [if_pos here], here⟩
      · have later : ∃ slot ∈ rest, (table slot).lifeTime ≤ 0 := by simpa [here] using dead
        rw [if_neg here]
        split
        · exact inductionHypothesis _ later
        · exact inductionHypothesis _ later

/-- Slots with longer lives are passed over. -/
theorem historySlot_of_longer (new : Option (Fin rxHistoryNum))
    (longer : ∀ slot ∈ slots, 0 < (table slot).lifeTime ∧ oldest < (table slot).lifeTime) :
    historySlot table slots oldest new = new := by
  induction slots with
  | nil => rfl
  | cons slot rest inductionHypothesis =>
      obtain ⟨alive, long⟩ := longer slot List.mem_cons_self
      rw [historySlot, if_neg (by omega), if_neg (by omega)]
      exact inductionHypothesis fun other member => longer other (List.mem_cons_of_mem slot member)

/-- Among slots that are alive the last one of the shortest lives is taken. -/
theorem historySlot_of_alive (new : Option (Fin rxHistoryNum))
    (alive : ∀ slot ∈ slots, 0 < (table slot).lifeTime)
    (short : ∃ slot ∈ slots, (table slot).lifeTime ≤ oldest) :
    ∃ front slot back, slots = front ++ slot :: back ∧
      historySlot table slots oldest new = some slot ∧ (table slot).lifeTime ≤ oldest ∧
      (∀ other ∈ front, (table slot).lifeTime ≤ (table other).lifeTime) ∧
      ∀ other ∈ back, (table slot).lifeTime < (table other).lifeTime := by
  induction slots generalizing oldest new with
  | nil => simp at short
  | cons first rest inductionHypothesis =>
      have firstAlive := alive first List.mem_cons_self
      have restAlive : ∀ slot ∈ rest, 0 < (table slot).lifeTime := fun slot member =>
        alive slot (List.mem_cons_of_mem first member)
      rw [historySlot, if_neg (by omega)]
      by_cases best : (table first).lifeTime ≤ oldest
      · rw [if_pos best]
        by_cases better : ∃ slot ∈ rest, (table slot).lifeTime ≤ (table first).lifeTime
        · obtain ⟨front, slot, back, rfl, found, below, before, behind⟩ :=
            inductionHypothesis _ restAlive better
          refine ⟨first :: front, slot, back, rfl, found, by omega, ?_, behind⟩
          exact List.forall_mem_cons.2 ⟨below, before⟩
        · have behind : ∀ slot ∈ rest, (table first).lifeTime < (table slot).lifeTime := by
            simpa using better
          refine ⟨[], first, rest, rfl, ?_, best, by simp, behind⟩
          exact historySlot_of_longer _ fun slot member => ⟨restAlive slot member, behind slot member⟩
      · rw [if_neg best]
        have later : ∃ slot ∈ rest, (table slot).lifeTime ≤ oldest := by simpa [best] using short
        obtain ⟨front, slot, back, rfl, found, below, before, behind⟩ :=
          inductionHypothesis new restAlive later
        refine ⟨first :: front, slot, back, rfl, found, below, ?_, behind⟩
        exact List.forall_mem_cons.2 ⟨by omega, before⟩

end MdaEnvar

namespace HistoryRun

variable {Buf : Type u} {run : HistoryRun Buf} {slot other : Fin rxHistoryNum}

/-- What the lives say: a record that is alive was made that long ago. -/
structure Dated (run : HistoryRun Buf) : Prop where
  bounded : ∀ slot, run.life slot ≤ maxHistoryLife
  known : ∀ slot, 0 < run.life slot → run.recorded slot < run.added
  aged : ∀ slot, 0 < run.life slot →
    run.life slot + run.now = maxHistoryLife + run.born (run.recorded slot)
  held : ∀ slot, 0 < run.life slot →
    (run.mda.rxHistoryTable slot).msg = run.msg (run.recorded slot)
  distinct : ∀ slot other, 0 < run.life slot → 0 < run.life other →
    run.recorded slot = run.recorded other → slot = other
  past : ∀ number < run.added, run.born number ≤ run.now
  ordered : ∀ number later, number ≤ later → later < run.added → run.born number ≤ run.born later

/-- A key is its own key. -/
theorem sameKey_refl (msg : MdaMsgInfo) : msg.sameKey msg = true := by simp [MdaMsgInfo.sameKey]

/-- A record is kept exactly if a slot that is alive holds it. -/
theorem Dated.kept_iff (dated : run.Dated) (number : Nat) :
    run.Kept number ↔ ∃ slot, 0 < run.life slot ∧ run.recorded slot = number := by
  refine ⟨fun kept => kept.1, ?_⟩
  rintro ⟨slot, alive, rfl⟩
  refine ⟨⟨slot, alive, rfl⟩, MdaEnvar.findHistoryRecord_ne_none alive ?_⟩
  rw [dated.held slot alive]
  exact sameKey_refl _

/-- The slot that is going to be used: a dead one, or the last one of the shortest lives. -/
theorem Dated.victim_cases (dated : run.Dated) :
    (∃ slot, run.victim = some slot ∧ run.life slot ≤ 0) ∨
      (∀ slot, 0 < run.life slot) ∧ ∃ slot, run.victim = some slot ∧ run.Shortest slot := by
  by_cases dead : ∃ slot, run.life slot ≤ 0
  · obtain ⟨slot, dead⟩ := dead
    exact .inl (MdaEnvar.historySlot_of_dead _ ⟨slot, List.mem_finRange slot, dead⟩)
  · have alive : ∀ slot, 0 < run.life slot := by simpa using dead
    refine .inr ⟨alive, ?_⟩
    have short : (run.mda.rxHistoryTable 0).lifeTime ≤ maxHistoryLife + 1 := by
      have bound := dated.bounded 0
      unfold life at bound
      omega
    obtain ⟨front, slot, back, split, found, -, before, behind⟩ :=
      MdaEnvar.historySlot_of_alive none (fun slot _ => alive slot)
        ⟨0, List.mem_finRange 0, short⟩
    -- the slots are in order, so those behind the chosen one are the higher ones
    have sorted := List.pairwise_lt_finRange rxHistoryNum
    rw [split, List.pairwise_append, List.pairwise_cons] at sorted
    obtain ⟨-, ⟨above, -⟩, below⟩ := sorted
    have places : ∀ other, other ∈ front ∨ other = slot ∨ other ∈ back := by
      intro other
      have member := List.mem_finRange other
      simpa [split] using member
    refine ⟨slot, found, fun other => ?_, fun other higher => ?_⟩
    · rcases places other with early | rfl | late
      · exact before other early
      · exact Int.le_refl _
      · exact Int.le_of_lt (behind other late)
    · rcases places other with early | rfl | late
      · exact absurd (below other early slot List.mem_cons_self) (Fin.not_lt.2 (Fin.le_of_lt higher))
      · exact absurd higher (Fin.lt_irrefl _)
      · exact behind other late

/-- Only one slot is the last one of the shortest lives. -/
theorem Shortest.unique (left : run.Shortest slot) (right : run.Shortest other) : slot = other := by
  rcases Nat.lt_trichotomy slot other with lower | same | higher
  · exact absurd (right.1 slot) (Int.not_le.2 (left.2 other lower))
  · exact Fin.ext same
  · exact absurd (left.1 other) (Int.not_le.2 (right.2 slot higher))

/-- A tick shortens every life by one. -/
theorem life_tick (run : HistoryRun Buf) (slot : Fin rxHistoryNum) :
    (run.step .tick).life slot = run.life slot - 1 := rfl

/-- An addition fills the slot it has chosen. -/
theorem table_add (found : run.victim = some slot) (srcSta : MdaMsgInfo) :
    (run.step (.add srcSta)).mda.rxHistoryTable =
      Function.update run.mda.rxHistoryTable slot ⟨srcSta, maxHistoryLife⟩ := by
  have chosen : MdaEnvar.historySlot run.mda.rxHistoryTable (List.finRange rxHistoryNum)
      (maxHistoryLife + 1) none = some slot := found
  simp only [step, MdaEnvar.addHistoryRecord_table, chosen]

/-- A new record lives longest. -/
theorem life_add (found : run.victim = some slot) (srcSta : MdaMsgInfo) (other : Fin rxHistoryNum) :
    (run.step (.add srcSta)).life other = if other = slot then maxHistoryLife else run.life other := by
  rw [life, table_add found]
  by_cases same : other = slot
  · simp [same]
  · simp [same, life]

/-- The slot records the message that was added last. -/
theorem recorded_add (found : run.victim = some slot) (srcSta : MdaMsgInfo)
    (other : Fin rxHistoryNum) :
    (run.step (.add srcSta)).recorded other =
      if other = slot then run.added else run.recorded other := by
  simp only [step, found, Function.update_apply]

/-- Ageing keeps what the lives say. -/
theorem Dated.tick (dated : run.Dated) : (run.step .tick).Dated where
  bounded slot := by
    have bound := dated.bounded slot
    rw [life_tick]
    omega
  known slot alive := by
    rw [life_tick] at alive
    exact dated.known slot (by omega)
  aged slot alive := by
    rw [life_tick] at alive ⊢
    have aged := dated.aged slot (by omega)
    change run.life slot - 1 + ((run.now + 1 : Nat) : Int) = _
    change _ = maxHistoryLife + ((run.born (run.recorded slot) : Nat) : Int)
    omega
  held slot alive := by
    rw [life_tick] at alive
    exact dated.held slot (by omega)
  distinct slot other alive otherAlive same := by
    rw [life_tick] at alive otherAlive
    exact dated.distinct slot other (by omega) (by omega) same
  past number made := Nat.le_succ_of_le (dated.past number made)
  ordered := dated.ordered

/-- What an addition says about the new record, and that it says nothing about the others. -/
theorem origin_add (run : HistoryRun Buf) (srcSta : MdaMsgInfo) {number : Nat}
    (made : number < run.added) :
    (run.step (.add srcSta)).msg number = run.msg number ∧
      (run.step (.add srcSta)).born number = run.born number :=
  ⟨Function.update_of_ne (Nat.ne_of_lt made) _ _, Function.update_of_ne (Nat.ne_of_lt made) _ _⟩

/-- An added message comes from its sender, now. -/
theorem origin_added (run : HistoryRun Buf) (srcSta : MdaMsgInfo) :
    (run.step (.add srcSta)).msg run.added = srcSta ∧
      (run.step (.add srcSta)).born run.added = run.now :=
  ⟨Function.update_self .., Function.update_self ..⟩

/-- An addition keeps what the lives say. -/
theorem Dated.add (dated : run.Dated) (found : run.victim = some slot) (srcSta : MdaMsgInfo) :
    (run.step (.add srcSta)).Dated where
  bounded other := by
    rw [life_add found]
    split
    · exact Int.le_refl _
    · exact dated.bounded other
  known other alive := by
    rw [life_add found] at alive
    rw [recorded_add found]
    split
    · exact Nat.lt_succ_self _
    · next elsewhere =>
      rw [if_neg elsewhere] at alive
      exact Nat.lt_succ_of_lt (dated.known other alive)
  aged other alive := by
    rw [life_add found] at alive ⊢
    rw [recorded_add found]
    split
    · rw [(run.origin_added srcSta).2]
      rfl
    · next elsewhere =>
      rw [if_neg elsewhere] at alive
      rw [(run.origin_add srcSta (dated.known other alive)).2]
      exact dated.aged other alive
  held other alive := by
    rw [life_add found] at alive
    rw [table_add found, recorded_add found]
    by_cases same : other = slot
    · rw [if_pos same, same, Function.update_self, (run.origin_added srcSta).1]
    · rw [if_neg same] at alive ⊢
      rw [Function.update_of_ne same, (run.origin_add srcSta (dated.known other alive)).1]
      exact dated.held other alive
  distinct left right leftAlive rightAlive same := by
    rw [life_add found] at leftAlive rightAlive
    rw [recorded_add found, recorded_add found] at same
    -- the new number is larger than the numbers of the other slots
    split at same
    · next leftHere =>
      split at same
      · next rightHere => rw [leftHere, rightHere]
      · next elsewhere =>
        rw [if_neg elsewhere] at rightAlive
        exact absurd same (Nat.ne_of_gt (dated.known right rightAlive))
    · next leftElsewhere =>
      rw [if_neg leftElsewhere] at leftAlive
      split at same
      · exact absurd same (Nat.ne_of_lt (dated.known left leftAlive))
      · next elsewhere =>
        rw [if_neg elsewhere] at rightAlive
        exact dated.distinct left right leftAlive rightAlive same
  past number made := by
    rcases Nat.lt_succ_iff_lt_or_eq.1 made with earlier | rfl
    · rw [(run.origin_add srcSta earlier).2]
      exact dated.past number earlier
    · rw [(run.origin_added srcSta).2]
      exact Nat.le_refl _
  ordered number later order made := by
    rcases Nat.lt_succ_iff_lt_or_eq.1 made with earlier | rfl
    · rw [(run.origin_add srcSta earlier).2,
        (run.origin_add srcSta (Nat.lt_of_le_of_lt order earlier)).2]
      exact dated.ordered number later order earlier
    · rcases Nat.lt_or_eq_of_le order with earlier | rfl
      · rw [(run.origin_add srcSta earlier).2, (run.origin_added srcSta).2]
        exact dated.past number earlier
      · exact Nat.le_refl _

/-- Every operation keeps what the lives say. -/
theorem Dated.step (dated : run.Dated) (action : HistoryAction) : (run.step action).Dated := by
  cases action with
  | add srcSta =>
      rcases dated.victim_cases with ⟨slot, found, -⟩ | ⟨-, slot, found, -⟩
      · exact dated.add found srcSta
      · exact dated.add found srcSta
  | tick => exact dated.tick

/-- Ageing loses no record that is younger than ten ticks. -/
theorem Dated.retains_tick (dated : run.Dated) (retains : run.Retains) :
    (run.step .tick).Retains := by
  intro number made young recent
  change run.now + 1 < run.born number + 10 at young
  obtain ⟨slot, alive, rfl⟩ :=
    (dated.kept_iff number).1 (retains number made (by omega) recent)
  have aged := dated.aged slot alive
  refine (dated.tick.kept_iff _).2 ⟨slot, ?_, rfl⟩
  rw [life_tick]
  unfold maxHistoryLife at aged
  omega

/-- An addition keeps the records of the other slots, and its own. -/
theorem Dated.kept_add_iff (dated : run.Dated) (found : run.victim = some slot)
    (srcSta : MdaMsgInfo) (number : Nat) :
    (run.step (.add srcSta)).Kept number ↔
      number = run.added ∨ ∃ other, other ≠ slot ∧ 0 < run.life other ∧
        run.recorded other = number := by
  rw [(dated.add found srcSta).kept_iff]
  constructor
  · rintro ⟨other, alive, rfl⟩
    rw [life_add found] at alive
    rw [recorded_add found]
    by_cases same : other = slot
    · rw [if_pos same]
      exact .inl rfl
    · rw [if_neg same] at alive ⊢
      exact .inr ⟨other, same, alive, rfl⟩
  · rintro (rfl | ⟨other, elsewhere, alive, rfl⟩)
    · refine ⟨slot, ?_, ?_⟩
      · rw [life_add found, if_pos rfl]
        decide
      · rw [recorded_add found, if_pos rfl]
    · refine ⟨other, ?_, ?_⟩
      · rw [life_add found, if_neg elsewhere]
        exact alive
      · rw [recorded_add found, if_neg elsewhere]

/-- Sixteen slots that are alive hold sixteen records: a first one among them is
at least sixteen back. -/
theorem Dated.full_of_first (dated : run.Dated) (alive : ∀ slot, 0 < run.life slot)
    {number : Nat} (first : ∀ slot, number ≤ run.recorded slot) : number + 16 ≤ run.added := by
  have inside : ∀ slot, run.recorded slot - number < run.added - number := by
    intro slot
    have known := dated.known slot (alive slot)
    have later := first slot
    omega
  have injective : Function.Injective fun slot =>
      (⟨run.recorded slot - number, inside slot⟩ : Fin (run.added - number)) := by
    intro slot other same
    have equal : run.recorded slot - number = run.recorded other - number := congrArg Fin.val same
    have left := first slot
    have right := first other
    exact dated.distinct slot other (alive slot) (alive other) (by omega)
  have count := Fintype.card_le_of_injective _ injective
  rw [Fintype.card_fin, Fintype.card_fin] at count
  unfold rxHistoryNum at count
  omega

/-- When the last sixteen records are kept there is no room for an earlier one. -/
theorem Dated.recent_of_full (dated : run.Dated) (full : 16 ≤ run.added)
    (kept : ∀ number < run.added, run.added ≤ number + 16 → run.Kept number)
    (slot : Fin rxHistoryNum) : run.added ≤ run.recorded slot + 16 := by
  have place : ∀ index : Fin rxHistoryNum, ∃ slot, 0 < run.life slot ∧
      run.recorded slot = run.added - 16 + index := by
    intro index
    have bound : index.val < 16 := index.isLt
    exact (dated.kept_iff _).1 (kept _ (by omega) (by omega))
  choose slotOf alive holds using place
  have injective : Function.Injective slotOf := by
    intro left right same
    have leftHolds := holds left
    have rightHolds := holds right
    rw [same] at leftHolds
    exact Fin.ext (by omega)
  obtain ⟨index, rfl⟩ := Finite.injective_iff_surjective.1 injective slot
  rw [holds index]
  omega

/-- Overwriting a dead slot loses nothing. -/
theorem Dated.retains_add_of_dead (dated : run.Dated) (retains : run.Retains)
    (found : run.victim = some slot) (dead : run.life slot ≤ 0) (srcSta : MdaMsgInfo) :
    (run.step (.add srcSta)).Retains := by
  intro number made young recent
  rw [dated.kept_add_iff found]
  rcases Nat.lt_succ_iff_lt_or_eq.1 made with earlier | same
  · change run.now < _ at young
    rw [(run.origin_add srcSta earlier).2] at young
    change run.added + 1 ≤ number + 16 at recent
    obtain ⟨other, alive, holds⟩ :=
      (dated.kept_iff number).1 (retains number earlier young (by omega))
    refine .inr ⟨other, ?_, alive, holds⟩
    rintro rfl
    omega
  · exact .inl same

/-- Overwriting one of sixteen records loses nothing exactly if it is the first of them. -/
theorem Dated.retains_add_iff (dated : run.Dated) (retains : run.Retains)
    (alive : ∀ slot, 0 < run.life slot) (found : run.victim = some slot) (srcSta : MdaMsgInfo) :
    (run.step (.add srcSta)).Retains ↔ ∀ other, run.recorded slot ≤ run.recorded other := by
  have gone : ¬ (run.step (.add srcSta)).Kept (run.recorded slot) := by
    rw [dated.kept_add_iff found]
    rintro (new | ⟨other, elsewhere, otherAlive, same⟩)
    · exact absurd new (Nat.ne_of_lt (dated.known slot (alive slot)))
    · exact elsewhere (dated.distinct other slot otherAlive (alive slot) same)
  have known := dated.known slot (alive slot)
  have young : run.now < run.born (run.recorded slot) + 10 := by
    have aged := dated.aged slot (alive slot)
    have some := alive slot
    unfold maxHistoryLife at aged
    omega
  constructor
  · intro next other
    by_contra earlier
    have old : run.recorded slot + 16 ≤ run.added := by
      by_contra recent
      apply gone
      refine next _ (Nat.lt_succ_of_lt known) ?_ ?_
      · rw [(run.origin_add srcSta known).2]
        exact young
      · change run.added + 1 ≤ _
        omega
    -- the last sixteen records are younger than the one in the slot, so all are kept
    have room := dated.recent_of_full (by omega) (fun number made recent => by
      have order := dated.ordered (run.recorded slot) number (by omega) made
      exact retains number made (by omega) recent) other
    omega
  · intro first number made recentEnough recent
    rw [dated.kept_add_iff found]
    rcases Nat.lt_succ_iff_lt_or_eq.1 made with earlier | same
    · change run.now < _ at recentEnough
      rw [(run.origin_add srcSta earlier).2] at recentEnough
      change run.added + 1 ≤ number + 16 at recent
      obtain ⟨other, otherAlive, holds⟩ :=
        (dated.kept_iff number).1 (retains number earlier recentEnough (by omega))
      refine .inr ⟨other, ?_, otherAlive, holds⟩
      rintro rfl
      have full := dated.full_of_first alive first
      omega
    · exact .inl same

/-- One operation keeps all records that should be kept exactly if it meets the condition. -/
theorem Dated.retains_step_iff (dated : run.Dated) (retains : run.Retains)
    (action : HistoryAction) : (run.step action).Retains ↔ run.FirstIsLast action := by
  cases action with
  | tick => exact iff_of_true (dated.retains_tick retains) trivial
  | add srcSta =>
      rcases dated.victim_cases with ⟨slot, found, dead⟩ | ⟨alive, slot, found, shortest⟩
      · refine iff_of_true (dated.retains_add_of_dead retains found dead srcSta) fun alive => ?_
        exact absurd (alive slot) (Int.not_lt.2 dead)
      · rw [dated.retains_add_iff retains alive found srcSta]
        constructor
        · intro first _ other otherShortest
          rw [otherShortest.unique shortest]
          exact first
        · intro first
          exact first alive slot shortest

/-- What is overwritten is dead, or of the earliest tick of all. -/
theorem Dated.sparesYounger (dated : run.Dated) (action : HistoryAction) :
    run.SparesYounger action := by
  cases action with
  | tick => trivial
  | add srcSta =>
      rcases dated.victim_cases with ⟨slot, found, dead⟩ | ⟨alive, slot, found, shortest⟩
      · exact ⟨slot, found, .inl dead⟩
      · refine ⟨slot, found, .inr ⟨alive, fun other => ?_⟩⟩
        have shorter := shortest.1 other
        have mine := dated.aged slot (alive slot)
        have theirs := dated.aged other (alive other)
        omega

variable [DecidableEq Buf]

/-- A new history holds no record. -/
theorem initial_dead (slot : Fin rxHistoryNum) : ¬ 0 < (initial : HistoryRun Buf).life slot :=
  Int.lt_irrefl 0

theorem initial_dated : (initial : HistoryRun Buf).Dated where
  bounded slot := Int.le_trans (Int.not_lt.1 (initial_dead slot)) (by decide)
  known slot alive := absurd alive (initial_dead slot)
  aged slot alive := absurd alive (initial_dead slot)
  held slot alive := absurd alive (initial_dead slot)
  distinct slot _ alive := absurd alive (initial_dead slot)
  past number made := absurd made (Nat.not_lt_zero number)
  ordered _ later _ made := absurd made (Nat.not_lt_zero later)

/-- In every run what is overwritten is dead or of the earliest tick, and every record
stays for ten ticks or sixteen more records exactly if among the records of the earliest
tick the first one is in the last slot whenever a live one is overwritten. -/
theorem history_retained_iff {finish : HistoryRun Buf}
    (path : (historySystem Buf).Path initial finish) :
    path.StepsMeet SparesYounger ∧ (path.Always Retains ↔ path.StepsMeet FirstIsLast) := by
  have kept : ∀ {run next : HistoryRun Buf} {action : HistoryAction}, run.Dated →
      (historySystem Buf).Step run action next → next.Dated := by
    rintro run next action dated rfl
    exact dated.step action
  constructor
  · exact ActionSystem.Path.stepsMeet_of_invariant initial_dated kept
      (fun dated => dated.sparesYounger _) path
  · refine ActionSystem.Path.always_iff_stepsMeet initial_dated ?_ ?_ ?_ path
    · exact fun number made => absurd made (Nat.not_lt_zero number)
    · exact fun dated _ valid _ => kept dated valid
    · rintro run action next dated retains rfl
      exact dated.retains_step_iff retains action

/-- Seventeen messages of one sender within one tick. -/
def burst : List HistoryAction :=
  (List.range 17).map fun count => .add { MdaMsgInfo.zero with msgCount := BitVec.ofNat 8 count }

/-- The seventeenth message takes the last slot, not the first: the message just
before it is forgotten at once. -/
theorem sixteenth_message_lost :
    ∃ finish, ∃ path : (historySystem Nat).Path initial finish,
      finish.now = 0 ∧ finish.added = 17 ∧
        finish.mda.findHistoryRecord (finish.msg 15) = none ∧ ¬ path.Always Retains := by
  obtain ⟨path⟩ : Nonempty ((historySystem Nat).Path initial (burst.foldl step initial)) :=
    ActionSystem.Path.exists_path burst rfl
  have lost : (burst.foldl step (initial : HistoryRun Nat)).mda.findHistoryRecord
      ((burst.foldl step (initial : HistoryRun Nat)).msg 15) = none := by
    decide +kernel
  refine ⟨_, path, rfl, rfl, lost, fun always => ?_⟩
  have retains : (burst.foldl step (initial : HistoryRun Nat)).Retains := always.last
  exact (retains 15 (by decide) (by decide) (by decide)).2 lost

end HistoryRun

end Rsu.Mda
