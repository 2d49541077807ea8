import Rsu.Vsa.Warning

/-!
# Collision warnings over many cycles

Every safe cycle takes one from the count of a node whose neighbour is still
there, so a node and with it the warning is gone after seven of them. That needs
every node to be looked at in every cycle: a node of a neighbour that has left,
or whose neighbour has changed to the other warning, is never taken back.
-/

namespace Rsu.Vsa

open Rsu.Rcp Rsu.Vam

namespace VsaEnvar

/-- The loop body leaves the parameters alone. -/
@[simp] theorem warn_workingParam (vsa : VsaEnvar) (node : VsaInfo) :
    (vsa.warn node).1.workingParam = vsa.workingParam := by
  have warned := vsa.warn_cases node
  generalize vsa.warn node = result at warned ⊢
  cases warned with
  | kept => rfl
  | joined => rfl
  | counted => rfl
  | raised => rfl
  | aged => rfl
  | removed =>
      unfold vsaCancelCcwWarning
      split <;> rfl

/-- Stopping a warning leaves the list alone. -/
@[simp] theorem vsaCancelCcwWarning_crdList (vsa : VsaEnvar) (warningId : VsaId) :
    (vsa.vsaCancelCcwWarning warningId).1.crdList = vsa.crdList := by
  unfold vsaCancelCcwWarning
  split <;> rfl

/-- A node belongs to the neighbour just looked at or was there before. -/
theorem warn_pid {vsa : VsaEnvar} {node : VsaInfo} {pos : VsaCrdNode}
    (member : pos ∈ (vsa.warn node).1.crdList) :
    pos.pid = node.pid ∨ ∃ before ∈ vsa.crdList, before.pid = pos.pid := by
  have warned := vsa.warn_cases node
  generalize vsa.warn node = result at warned member
  cases warned with
  | kept | raised => exact .inr ⟨pos, member, rfl⟩
  | joined =>
      rcases List.mem_cons.1 member with rfl | old
      · exact .inl rfl
      · exact .inr ⟨pos, old, rfl⟩
  | counted front first back split same | aged front first back split same =>
      rcases mem_split.1 member with rfl | old
      · exact .inl same
      · exact .inr ⟨pos, split ▸ mem_split.2 (.inr old), rfl⟩
  | removed front first back split =>
      rw [vsaCancelCcwWarning_crdList] at member
      exact .inr ⟨pos, split ▸ mem_split.2 (.inr member), rfl⟩

/-- The other nodes belong to other neighbours. -/
theorem other_pid {front back : List VsaCrdNode} {pos other : VsaCrdNode}
    (distinct : ((front ++ pos :: back).map fun pos => pos.pid).Nodup)
    (member : other ∈ front ++ back) : other.pid ≠ pos.pid := by
  rw [List.map_append, List.map_cons, List.nodup_middle, ← List.map_append,
    List.nodup_cons] at distinct
  exact fun same => distinct.1 (same ▸ List.mem_map_of_mem member)

/-- Every node of the warning comes from one that counted more by `amount` of its pid. -/
def Faded (before after : VsaEnvar) (warning : VsaId) (amount : TempId → Nat) : Prop :=
  ∀ pos ∈ after.crdList, pos.ccwId = warning →
    ∃ old ∈ before.crdList, old.pid = pos.pid ∧ old.ccwId = warning ∧
      pos.ccwCnt + amount pos.pid ≤ old.ccwCnt

/-- A neighbour without the warning, and safe if it has a node of the warning, takes
one from that node. -/
theorem warn_faded {vsa : VsaEnvar} {node : VsaInfo} {warning : VsaId}
    (distinct : (vsa.crdList.map fun pos => pos.pid).Nodup)
    (without : vsa.workingParam.classify node ≠ warning)
    (followed : ∀ pos ∈ vsa.crdList, pos.ccwId = warning → pos.pid = node.pid →
      vsa.workingParam.classify node = .none) :
    Faded vsa (vsa.warn node).1 warning fun pid => if pid = node.pid then 1 else 0 := by
  have warned := vsa.warn_cases node
  generalize vsa.warn node = result at warned ⊢
  intro pos member carries
  cases warned with
  | kept absent =>
      have elsewhere : pos.pid ≠ node.pid := fun same =>
        absent (followed pos member carries same) pos member same
      exact ⟨pos, member, rfl, carries, by simp [elsewhere]⟩
  | joined danger fresh =>
      rcases List.mem_cons.1 member with rfl | old
      · exact absurd carries without
      · exact ⟨pos, old, rfl, carries, by simp [fresh pos old]⟩
  | raised raising found own danger calm =>
      by_cases same : pos.pid = node.pid
      · have safe := followed pos member carries same
        exact absurd (own.symm.trans safe) danger
      · exact ⟨pos, member, rfl, carries, by simp [same]⟩
  | counted front first back split same own danger below =>
      rcases mem_split.1 member with rfl | old
      · exact absurd (own.trans carries) without
      · have elsewhere := other_pid (split ▸ distinct) old
        exact ⟨pos, split ▸ mem_split.2 (.inr old), rfl, carries, by simp [← same, elsewhere]⟩
  | aged front first back split same safe positive =>
      rcases mem_split.1 member with rfl | old
      · exact ⟨first, by simp [split], rfl, carries, by simp [same]; omega⟩
      · have elsewhere := other_pid (split ▸ distinct) old
        exact ⟨pos, split ▸ mem_split.2 (.inr old), rfl, carries, by simp [← same, elsewhere]⟩
  | removed front first back split same safe =>
      rw [vsaCancelCcwWarning_crdList] at member
      have elsewhere := other_pid (split ▸ distinct) member
      exact ⟨pos, split ▸ mem_split.2 (.inr member), rfl, carries, by simp [← same, elsewhere]⟩

/-- Fading adds up. -/
theorem Faded.trans {first second third : VsaEnvar} {warning : VsaId} {some more : TempId → Nat}
    (earlier : Faded first second warning some) (later : Faded second third warning more) :
    Faded first third warning fun pid => some pid + more pid := by
  intro pos member carries
  obtain ⟨middle, there, samePid, same, lower⟩ := later pos member carries
  obtain ⟨old, before, oldPid, oldSame, lowest⟩ := earlier middle there same
  rw [samePid] at oldPid lowest
  refine ⟨old, before, oldPid, oldSame, ?_⟩
  calc pos.ccwCnt + (some pos.pid + more pos.pid)
    _ = pos.ccwCnt + more pos.pid + some pos.pid := by omega
    _ ≤ middle.ccwCnt + some pos.pid := Nat.add_le_add_right lower _
    _ ≤ old.ccwCnt := lowest

/-- The loop of `vsa_base_proc` over some neighbours. -/
def warns (sofar : VsaEnvar × List SysMsg) (nodes : List VsaInfo) : VsaEnvar × List SysMsg :=
  nodes.foldl (fun sofar node => thenWarn sofar fun vsa => vsa.warn node) sofar

/-- The warnings of the first neighbour, and of the others. -/
theorem warns_cons (sofar : VsaEnvar × List SysMsg) (node : VsaInfo) (nodes : List VsaInfo) :
    warns sofar (node :: nodes) = warns (thenWarn sofar fun vsa => vsa.warn node) nodes := rfl

/-- The loop keeps what its body keeps. -/
theorem Tracked.warns {sofar : VsaEnvar × List SysMsg} {sent : List SysMsg}
    (tracked : sofar.1.Tracked (sent ++ sofar.2)) (nodes : List VsaInfo) :
    (warns sofar nodes).1.Tracked (sent ++ (warns sofar nodes).2) := by
  induction nodes generalizing sofar with
  | nil => exact tracked
  | cons node nodes inductionHypothesis =>
      have next := tracked.warn node
      rw [List.append_assoc] at next
      rw [warns_cons]
      exact inductionHypothesis next

/-- Every node after the loop belongs to one of its neighbours or was there before. -/
theorem warns_pid {sofar : VsaEnvar × List SysMsg} {nodes : List VsaInfo} {pos : VsaCrdNode}
    (member : pos ∈ (warns sofar nodes).1.crdList) :
    pos.pid ∈ nodes.map (fun node => node.pid) ∨
      ∃ before ∈ sofar.1.crdList, before.pid = pos.pid := by
  induction nodes generalizing sofar with
  | nil => exact .inr ⟨pos, member, rfl⟩
  | cons node nodes inductionHypothesis =>
      rw [warns_cons] at member
      rcases inductionHypothesis member with later | ⟨before, there, same⟩
      · exact .inl (List.mem_cons_of_mem _ later)
      · rcases warn_pid there with mine | ⟨old, oldThere, oldSame⟩
        · exact .inl (by simp [← same, mine])
        · exact .inr ⟨old, oldThere, oldSame.trans same⟩

/-- The loop over neighbours without the warning takes one from a node for each of
them with its pid. -/
theorem warns_faded {sofar : VsaEnvar × List SysMsg} {sent : List SysMsg} {warning : VsaId}
    (tracked : sofar.1.Tracked sent) {nodes : List VsaInfo}
    (without : ∀ node ∈ nodes, sofar.1.workingParam.classify node ≠ warning)
    (followed : ∀ pos ∈ sofar.1.crdList, pos.ccwId = warning → ∀ node ∈ nodes,
      pos.pid = node.pid → sofar.1.workingParam.classify node = .none) :
    Faded sofar.1 (warns sofar nodes).1 warning
      fun pid => (nodes.map fun node => node.pid).count pid := by
  induction nodes generalizing sofar sent with
  | nil => exact fun pos member carries => ⟨pos, member, rfl, carries, by simp⟩
  | cons node nodes inductionHypothesis =>
      have once : Faded sofar.1 (sofar.1.warn node).1 warning fun pid =>
          if pid = node.pid then 1 else 0 :=
        warn_faded tracked.distinct (without node List.mem_cons_self)
          fun pos member carries => followed pos member carries node List.mem_cons_self
      let next := thenWarn sofar fun vsa => vsa.warn node
      have param : next.1.workingParam = sofar.1.workingParam := warn_workingParam ..
      have rest : Faded next.1 (warns next nodes).1 warning fun pid =>
          (nodes.map fun node => node.pid).count pid := by
        refine inductionHypothesis (tracked.warn node) ?_ ?_
        · rw [param]
          exact fun other there => without other (List.mem_cons_of_mem _ there)
        · rw [param]
          intro pos member carries other there same
          obtain ⟨old, before, oldPid, oldCarries, -⟩ := once pos member carries
          exact followed old before oldCarries other (List.mem_cons_of_mem _ there)
            (oldPid.trans same)
      intro pos member carries
      obtain ⟨old, before, oldPid, oldCarries, lower⟩ := once.trans rest pos member carries
      refine ⟨old, before, oldPid, oldCarries, ?_⟩
      have counted : ((node :: nodes).map fun node => node.pid).count pos.pid =
          (nodes.map fun node => node.pid).count pos.pid + if pos.pid = node.pid then 1 else 0 := by
        rw [List.map_cons, List.count_cons]
        simp only [beq_iff_eq, @eq_comm _ node.pid]
      simp only [counted] at lower ⊢
      omega

end VsaEnvar

/-- One cycle of `vsa_base_proc`: what `vsa_preprocess_pos` leaves in the table. -/
structure Cycle where
  positionNode : Slot → VsaInfo
  countNeighour : Nat
  fits : countNeighour ≤ vamNeighbourMaxnum

/-- The neighbours of the cycle. -/
def Cycle.neighbours (cycle : Cycle) : List VsaInfo :=
  ((List.finRange vamNeighbourMaxnum).take cycle.countNeighour).map cycle.positionNode

/-- The application, and what has happened so far. -/
structure WarningRun where
  vsa : VsaEnvar
  /-- The messages sent to the system thread. -/
  sent : List SysMsg
  /-- For how many cycles up to now no judgement has found the warning. -/
  quiet : VsaId → Nat
  /-- The pids of the neighbours of the last cycle. -/
  near : List TempId

/-- Some neighbour of the cycle has the warning. -/
def WarningRun.Found (run : WarningRun) (cycle : Cycle) (warning : VsaId) : Prop :=
  ∃ node ∈ cycle.neighbours, run.vsa.workingParam.cfcwJudge node = warning ∨
    run.vsa.workingParam.crcwJudge node = warning

instance (run : WarningRun) (cycle : Cycle) (warning : VsaId) :
    Decidable (run.Found cycle warning) :=
  inferInstanceAs (Decidable (∃ node ∈ cycle.neighbours, _))

/-- The run with one more cycle. -/
def WarningRun.cycle (run : WarningRun) (cycle : Cycle) : WarningRun :=
  let proc := run.vsa.vsaBaseProc cycle.positionNode cycle.countNeighour
  { vsa := proc.1
    sent := run.sent ++ proc.2
    quiet := fun warning => if run.Found cycle warning then 0 else run.quiet warning + 1
    near := cycle.neighbours.map fun node => node.pid }

/-- The run before its first cycle. -/
def WarningRun.start (param : VsaConfig) : WarningRun := ⟨vsaInit param, [], fun _ => 0, []⟩

/-- Warnings end seven cycles after the danger, and leave nothing behind. -/
def WarningRun.Ended (run : WarningRun) : Prop :=
  (run.vsa.crdList.map fun pos => pos.pid).Nodup ∧
    ∀ warning, warning = .crd ∨ warning = .crdRear → 7 ≤ run.quiet warning →
      run.vsa.pending warning = false ∧ SysMsg.alerting run.sent warning = false ∧
        ∀ pos ∈ run.vsa.crdList, pos.pid ∈ run.near

/-- No neighbour with a node leaves in the cycle, and while the warning of a node is
found nowhere, the neighbour of the node does not have the other warning. -/
def WarningRun.Followed (run : WarningRun) (cycle : Cycle) : Prop :=
  ∀ pos ∈ run.vsa.crdList,
    (pos.pid ∈ run.near → pos.pid ∈ cycle.neighbours.map fun node => node.pid) ∧
      (¬ run.Found cycle pos.ccwId → ∀ node ∈ cycle.neighbours, node.pid = pos.pid →
        run.vsa.workingParam.classify node = .none)

instance (run : WarningRun) (cycle : Cycle) : Decidable (run.Followed cycle) :=
  inferInstanceAs (Decidable (∀ pos ∈ run.vsa.crdList, _ ∧ _))

namespace WarningRun

variable {run : WarningRun} {cycle : Cycle}

/-- What followed cycles keep. -/
structure Fading (run : WarningRun) : Prop where
  tracked : run.vsa.Tracked run.sent
  fading : ∀ pos ∈ run.vsa.crdList, pos.ccwCnt + run.quiet pos.ccwId ≤ ccwDebounce
  present : ∀ pos ∈ run.vsa.crdList, pos.pid ∈ run.near

/-- After more quiet cycles than a node can count, no node carries the warning. -/
theorem Fading.ended (fading : run.Fading) : run.Ended := by
  refine ⟨fading.tracked.distinct, ?_⟩
  intro warning _ quiet
  have calm : run.vsa.pending warning = false := by
    by_contra pending
    obtain ⟨pos, member, rfl⟩ := fading.tracked.carried warning (by simpa using pending)
    have bound := fading.fading pos member
    simp only [ccwDebounce] at bound
    omega
  exact ⟨calm, fading.tracked.logged warning ▸ calm, fading.present⟩

/-- A cycle with neighbours is the loop over them. -/
theorem vsaBaseProc_eq_warns (run : WarningRun) (some : cycle.countNeighour ≠ 0) :
    run.vsa.vsaBaseProc cycle.positionNode cycle.countNeighour =
      VsaEnvar.warns ({ run.vsa with positionNode := cycle.positionNode }, [])
        cycle.neighbours := by
  have fits : ¬cycle.countNeighour > vamNeighbourMaxnum := Nat.not_lt.2 cycle.fits
  rw [VsaEnvar.vsaBaseProc, if_neg fits, if_neg some, VsaEnvar.warns, Cycle.neighbours,
    List.foldl_map]

/-- A cycle without neighbours that finds no node changes no warning. -/
theorem vsaBaseProc_eq_of_empty (fading : run.Fading) (none : cycle.countNeighour = 0)
    (empty : run.vsa.crdList = []) :
    run.vsa.vsaBaseProc cycle.positionNode cycle.countNeighour =
      ({ run.vsa with positionNode := cycle.positionNode }, []) := by
  have calm : ∀ warning, run.vsa.pending warning = false := by
    intro warning
    by_contra pending
    obtain ⟨pos, member, -⟩ := fading.tracked.carried warning (by simpa using pending)
    simp [empty] at member
  have lost : ∀ warning, VsaEnvar.lost { run.vsa with positionNode := cycle.positionNode } warning =
      ({ run.vsa with positionNode := cycle.positionNode }, []) := by
    intro warning
    have same : VsaEnvar.pending { run.vsa with positionNode := cycle.positionNode } warning = false :=
      calm warning
    rw [VsaEnvar.lost, if_neg (by simp [same])]
  have fits : ¬cycle.countNeighour > vamNeighbourMaxnum := Nat.not_lt.2 cycle.fits
  rw [VsaEnvar.vsaBaseProc, if_neg fits, if_pos none]
  simp only [VsaEnvar.thenWarn, lost, List.append_nil]

/-- In a followed cycle every node is looked at. -/
theorem Fading.near (fading : run.Fading) (followed : run.Followed cycle) :
    ∀ pos ∈ run.vsa.crdList, pos.pid ∈ cycle.neighbours.map fun node => node.pid :=
  fun pos member => (followed pos member).1 (fading.present pos member)

/-- A followed cycle keeps the bounds. -/
theorem Fading.kept (fading : run.Fading) (followed : run.Followed cycle) :
    (run.cycle cycle).Fading := by
  have present := fading.near followed
  by_cases none : cycle.countNeighour = 0
  · have nobody : cycle.neighbours = [] := by simp [Cycle.neighbours, none]
    have empty : run.vsa.crdList = [] := by
      refine List.eq_nil_iff_forall_not_mem.2 fun pos member => ?_
      simpa [nobody] using present pos member
    have proc := vsaBaseProc_eq_of_empty fading none empty
    refine ⟨?_, ?_, ?_⟩
    · simp only [WarningRun.cycle, proc, List.append_nil]
      exact ⟨fading.tracked.distinct, fading.tracked.small, fading.tracked.carried,
        fading.tracked.logged⟩
    · simp [WarningRun.cycle, proc, empty]
    · simp [WarningRun.cycle, proc, empty]
  · have proc := vsaBaseProc_eq_warns run none
    let begun : VsaEnvar × List SysMsg := ({ run.vsa with positionNode := cycle.positionNode }, [])
    have tracked : begun.1.Tracked (run.sent ++ begun.2) := by
      rw [List.append_nil]
      exact ⟨fading.tracked.distinct, fading.tracked.small, fading.tracked.carried,
        fading.tracked.logged⟩
    have next := tracked.warns cycle.neighbours
    refine ⟨?_, ?_, ?_⟩
    · simpa only [WarningRun.cycle, proc] using next
    · intro pos member
      simp only [WarningRun.cycle, proc] at member ⊢
      by_cases found : run.Found cycle pos.ccwId
      · rw [if_pos found]
        exact next.small pos member
      · rw [if_neg found]
        have without : ∀ node ∈ cycle.neighbours,
            run.vsa.workingParam.classify node ≠ pos.ccwId := fun node near classified =>
          found ⟨node, near, VsaConfig.judge_of_classify classified⟩
        have faded := VsaEnvar.warns_faded tracked without (by
          intro old there carries node near same
          exact (followed old there).2 (carries ▸ found) node near same.symm)
        obtain ⟨old, there, samePid, carries, lower⟩ := faded pos member rfl
        have counted : 0 < (cycle.neighbours.map fun node => node.pid).count pos.pid :=
          List.count_pos_iff.2 (samePid ▸ present old there)
        have bound := fading.fading old there
        rw [carries] at bound
        simp only at lower
        omega
    · intro pos member
      simp only [WarningRun.cycle, proc] at member ⊢
      rcases VsaEnvar.warns_pid member with near | ⟨old, there, same⟩
      · exact near
      · exact same ▸ present old there

/-- The parameters of a road. -/
def roadParam : VsaConfig := ⟨5, 3, 5, 50⟩

/-- A neighbour just ahead that has stopped. -/
def stoppedAhead : VsaInfo := ⟨Vector.replicate rcpTempIdLen 1, 50, 0, 0, 20, 30, 0⟩

/-- A neighbour far behind. -/
def farBehind : VsaInfo := ⟨Vector.replicate rcpTempIdLen 2, 50, 50, 0, BitVec.ofInt 32 (-900), 30, 0⟩

end WarningRun

end Rsu.Vsa
