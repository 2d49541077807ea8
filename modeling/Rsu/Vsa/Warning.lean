import Mathlib.Data.List.Basic
import Rsu.Semantics.ActionSystem
import Rsu.Vsa.Judge

/-!
# The collision warnings

One cycle of `vsa_base_proc` walks the neighbours. A neighbour with a warning
gets or strengthens a node of `crd_list`, one without weakens its node, and the
nodes decide when a warning starts and stops.
-/

namespace Rsu.Vsa

open Rsu.Data.BitMask Rsu.Rcp Rsu.Vam

namespace VsaEnvar

/-- `vsa_search_warning` -/
def vsaSearchWarning (vsa : VsaEnvar) (warningId : VsaId) : Bool :=
  vsa.crdList.any fun pos => pos.ccwId = warningId

/-- `vsa_send_ccw_warning` -/
def vsaSendCcwWarning (vsa : VsaEnvar) (warningId : VsaId) : VsaEnvar × List SysMsg :=
  if vsa.pending warningId then (vsa, [])
  else (vsa.pend warningId, [.startAlert warningId])

/-- `vsa_cancel_ccw_warning` -/
def vsaCancelCcwWarning (vsa : VsaEnvar) (warningId : VsaId) : VsaEnvar × List SysMsg :=
  if vsa.pending warningId && !vsa.vsaSearchWarning warningId then
    (vsa.unpend warningId, [.stopAlert warningId])
  else (vsa, [])

/-- `ccw_add_list` -/
def ccwAddList (vsa : VsaEnvar) (warningId : VsaId) (node : VsaInfo) : VsaEnvar × List SysMsg :=
  if warningId = .none then (vsa, [])
  else if has vsa.alertMask warningId.bit then
    match vsa.crdList.find? fun pos => pos.pid = node.pid with
    | none => ({ vsa with crdList := ⟨node.pid, warningId, 1⟩ :: vsa.crdList }, [])
    | some pos =>
        if pos.ccwId = warningId then
          if ccwDebounce ≤ pos.ccwCnt then vsa.vsaSendCcwWarning warningId
          else
            ({ vsa with crdList := vsa.crdList.replaceF fun pos =>
                if pos.pid = node.pid then some { pos with ccwCnt := pos.ccwCnt + 1 } else none },
              [])
        -- the warning of a known node never changes
        else (vsa, [])
  else (vsa, [])

/-- `ccw_del_list`; its test for an empty list never succeeds. -/
def ccwDelList (vsa : VsaEnvar) (node : VsaInfo) : VsaEnvar × List SysMsg :=
  match vsa.crdList.find? fun pos => pos.pid = node.pid with
  | none => (vsa, [])
  | some pos =>
      if 0 < pos.ccwCnt then
        ({ vsa with crdList := vsa.crdList.replaceF fun pos =>
            if pos.pid = node.pid then some { pos with ccwCnt := pos.ccwCnt - 1 } else none },
          [])
      else
        vsaCancelCcwWarning
          { vsa with crdList := vsa.crdList.eraseP fun pos => pos.pid = node.pid } pos.ccwId

/-- The loop body of `vsa_base_proc`. -/
def warn (vsa : VsaEnvar) (node : VsaInfo) : VsaEnvar × List SysMsg :=
  match vsa.workingParam.classify node with
  | .none => vsa.ccwDelList node
  | vsaId => vsa.ccwAddList vsaId node

/-- Without neighbours `vsa_base_proc` stops a warning whatever is on the list. -/
def lost (vsa : VsaEnvar) (warningId : VsaId) : VsaEnvar × List SysMsg :=
  if vsa.pending warningId then (vsa.unpend warningId, [.stopAlert warningId]) else (vsa, [])

/-- One step after another, with all messages. -/
def thenWarn (sofar : VsaEnvar × List SysMsg) (step : VsaEnvar → VsaEnvar × List SysMsg) :
    VsaEnvar × List SysMsg :=
  ((step sofar.1).1, sofar.2 ++ (step sofar.1).2)

/-- One cycle of `vsa_base_proc`, after `vsa_preprocess_pos` has filled the table for
the neighbours it returns. -/
def vsaBaseProc (vsa : VsaEnvar) (positionNode : Slot → VsaInfo) (countNeighour : Nat) :
    VsaEnvar × List SysMsg :=
  let vsa := { vsa with positionNode := positionNode }
  if countNeighour > vamNeighbourMaxnum then (vsa, [])
  else if countNeighour = 0 then
    thenWarn (vsa.lost .crd) fun vsa => vsa.lost .crdRear
  else
    ((List.finRange vamNeighbourMaxnum).take countNeighour).foldl
      (fun sofar i => thenWarn sofar fun vsa => vsa.warn (positionNode i)) (vsa, [])

/-- What the loop body does: the new state and the messages. -/
inductive Warned (vsa : VsaEnvar) (node : VsaInfo) : VsaEnvar × List SysMsg → Prop
  /-- A safe neighbour without a node, or nothing left to count. -/
  | kept (absent : vsa.workingParam.classify node = .none →
      ∀ pos ∈ vsa.crdList, pos.pid ≠ node.pid) : Warned vsa node (vsa, [])
  /-- The first warning of a neighbour. -/
  | joined (danger : vsa.workingParam.classify node ≠ .none)
      (fresh : ∀ pos ∈ vsa.crdList, pos.pid ≠ node.pid) :
      Warned vsa node
        ({ vsa with crdList := ⟨node.pid, vsa.workingParam.classify node, 1⟩ :: vsa.crdList }, [])
  /-- The warning of a neighbour goes on. -/
  | counted (front : List VsaCrdNode) (pos : VsaCrdNode) (back : List VsaCrdNode)
      (split : vsa.crdList = front ++ pos :: back) (same : pos.pid = node.pid)
      (own : vsa.workingParam.classify node = pos.ccwId) (danger : pos.ccwId ≠ .none)
      (below : pos.ccwCnt < ccwDebounce) :
      Warned vsa node
        ({ vsa with crdList := front ++ { pos with ccwCnt := pos.ccwCnt + 1 } :: back }, [])
  /-- The warning has gone on for long enough and starts. -/
  | raised (pos : VsaCrdNode) (member : pos ∈ vsa.crdList)
      (own : vsa.workingParam.classify node = pos.ccwId) (danger : pos.ccwId ≠ .none)
      (calm : vsa.pending pos.ccwId = false) :
      Warned vsa node (vsa.pend pos.ccwId, [.startAlert pos.ccwId])
  /-- The neighbour is safe again. -/
  | aged (front : List VsaCrdNode) (pos : VsaCrdNode) (back : List VsaCrdNode)
      (split : vsa.crdList = front ++ pos :: back) (same : pos.pid = node.pid)
      (safe : vsa.workingParam.classify node = .none) (positive : 0 < pos.ccwCnt) :
      Warned vsa node
        ({ vsa with crdList := front ++ { pos with ccwCnt := pos.ccwCnt - 1 } :: back }, [])
  /-- The neighbour has been safe for long enough. -/
  | removed (front : List VsaCrdNode) (pos : VsaCrdNode) (back : List VsaCrdNode)
      (split : vsa.crdList = front ++ pos :: back) (same : pos.pid = node.pid)
      (safe : vsa.workingParam.classify node = .none) :
      Warned vsa node
        (vsaCancelCcwWarning { vsa with crdList := front ++ back } pos.ccwId)

/-- The nodes of a split list. -/
theorem mem_split {front back : List VsaCrdNode} {pos other : VsaCrdNode} :
    other ∈ front ++ pos :: back ↔ other = pos ∨ other ∈ front ++ back := by
  rw [List.perm_middle.mem_iff, List.mem_cons]

/-- Replacing the first match of a list that is split there. -/
theorem replaceF_of_split {front back : List VsaCrdNode} {pos new : VsaCrdNode}
    {replace : VsaCrdNode → Option VsaCrdNode} (skipped : ∀ other ∈ front, replace other = none)
    (found : replace pos = some new) :
    (front ++ pos :: back).replaceF replace = front ++ new :: back := by
  induction front with
  | nil => simp [found]
  | cons first front inductionHypothesis =>
      rw [List.cons_append, List.replaceF_cons_of_none _ (skipped first (by simp)),
        inductionHypothesis fun other member => skipped other (by simp [member]), List.cons_append]

/-- Where a search by pid stops. -/
theorem split_of_find {nodes : List VsaCrdNode} {pos : VsaCrdNode} {pid : TempId}
    (found : (nodes.find? fun pos => pos.pid = pid) = some pos) :
    pos.pid = pid ∧ ∃ front back, nodes = front ++ pos :: back ∧
      ∀ other ∈ front, other.pid ≠ pid := by
  obtain ⟨same, front, back, split, skipped⟩ := List.find?_eq_some_iff_append.1 found
  exact ⟨by simpa using same, front, back, split, by simpa using skipped⟩

/-- `warn` does one of these. -/
theorem warn_cases (vsa : VsaEnvar) (node : VsaInfo) : Warned vsa node (vsa.warn node) := by
  by_cases safe : vsa.workingParam.classify node = .none
  · have unfolded : vsa.warn node = vsa.ccwDelList node := by simp only [warn, safe]
    rw [unfolded, ccwDelList]
    cases found : vsa.crdList.find? fun pos => pos.pid = node.pid with
    | none => exact .kept fun _ => by simpa using found
    | some pos =>
        obtain ⟨same, front, back, split, skipped⟩ := split_of_find found
        simp only
        by_cases positive : 0 < pos.ccwCnt
        · rw [if_pos positive, split,
            replaceF_of_split (by simpa using skipped) (if_pos same)]
          exact .aged front pos back split same safe positive
        · rw [if_neg positive, split, List.eraseP_append_right _ (by simpa using skipped),
            List.eraseP_cons_of_pos (by simpa using same)]
          exact .removed front pos back split same safe
  · have unfolded : vsa.warn node = vsa.ccwAddList (vsa.workingParam.classify node) node := by
      rcases vsa.workingParam.classify_cases node with none | crd | rear
      · exact absurd none safe
      · simp only [warn, crd]
      · simp only [warn, rear]
    rw [unfolded, ccwAddList, if_neg safe]
    by_cases masked : has vsa.alertMask (vsa.workingParam.classify node).bit
    · rw [if_pos masked]
      cases found : vsa.crdList.find? fun pos => pos.pid = node.pid with
      | none => exact .joined safe (by simpa using found)
      | some pos =>
          obtain ⟨same, front, back, split, skipped⟩ := split_of_find found
          simp only
          by_cases own : pos.ccwId = vsa.workingParam.classify node
          · rw [if_pos own, ← own]
            by_cases enough : ccwDebounce ≤ pos.ccwCnt
            · rw [if_pos enough, vsaSendCcwWarning]
              cases calm : vsa.pending pos.ccwId with
              | true => exact .kept fun none => absurd none safe
              | false => exact .raised pos (by simp [split]) own.symm (own ▸ safe) calm
            · rw [if_neg enough, split, replaceF_of_split (by simpa using skipped) (if_pos same)]
              exact .counted front pos back split same own.symm (own ▸ safe) (by omega)
          · rw [if_neg own]
            exact .kept fun none => absurd none safe
    · rw [if_neg masked]
      exact .kept fun none => absurd none safe

/-- What the cycles keep whatever the neighbours do. -/
structure Tracked (vsa : VsaEnvar) (sent : List SysMsg) : Prop where
  distinct : (vsa.crdList.map fun pos => pos.pid).Nodup
  small : ∀ pos ∈ vsa.crdList, pos.ccwCnt ≤ ccwDebounce
  carried : ∀ id, vsa.pending id → ∃ pos ∈ vsa.crdList, pos.ccwId = id
  logged : ∀ id, vsa.pending id = SysMsg.alerting sent id

/-- Changing the count of one node. -/
theorem Tracked.recount {vsa : VsaEnvar} {sent : List SysMsg} (tracked : vsa.Tracked sent)
    {front back : List VsaCrdNode} {pos : VsaCrdNode} (split : vsa.crdList = front ++ pos :: back)
    {count : Nat} (small : count ≤ ccwDebounce) :
    Tracked { vsa with crdList := front ++ { pos with ccwCnt := count } :: back } sent where
  distinct := by simpa [split] using tracked.distinct
  small := by
    intro other member
    rcases mem_split.1 member with rfl | old
    · exact small
    · exact tracked.small other (split ▸ mem_split.2 (.inr old))
  carried := by
    intro id pending
    obtain ⟨other, member, carries⟩ := tracked.carried id pending
    rcases mem_split.1 (split ▸ member) with rfl | old
    · exact ⟨{ other with ccwCnt := count }, by simp, carries⟩
    · exact ⟨other, mem_split.2 (.inr old), carries⟩
  logged := tracked.logged

/-- Deleting one node and stopping its warning when no other node carries it. -/
theorem Tracked.remove {vsa : VsaEnvar} {sent : List SysMsg} (tracked : vsa.Tracked sent)
    {front back : List VsaCrdNode} {pos : VsaCrdNode}
    (split : vsa.crdList = front ++ pos :: back) :
    Tracked (vsaCancelCcwWarning { vsa with crdList := front ++ back } pos.ccwId).1
      (sent ++ (vsaCancelCcwWarning { vsa with crdList := front ++ back } pos.ccwId).2) := by
  have distinct : ((front ++ back).map fun pos => pos.pid).Nodup :=
    tracked.distinct.sublist (by rw [split]; exact .map _ (by simp))
  have small : ∀ other ∈ front ++ back, other.ccwCnt ≤ ccwDebounce := fun other member =>
    tracked.small other (split ▸ mem_split.2 (.inr member))
  have others : ∀ id, id ≠ pos.ccwId → vsa.pending id → ∃ other ∈ front ++ back, other.ccwId = id := by
    intro id differs pending
    obtain ⟨other, member, rfl⟩ := tracked.carried id pending
    rcases mem_split.1 (split ▸ member) with rfl | old
    · exact absurd rfl differs
    · exact ⟨other, old, rfl⟩
  let without : VsaEnvar := { vsa with crdList := front ++ back }
  change Tracked (without.vsaCancelCcwWarning pos.ccwId).1 _
  by_cases ends : without.pending pos.ccwId && !without.vsaSearchWarning pos.ccwId
  · rw [vsaCancelCcwWarning, if_pos ends]
    refine ⟨distinct, small, ?_, ?_⟩
    · intro id pending
      rw [pending_unpend, Bool.and_eq_true, Bool.not_eq_true', decide_eq_false_iff_not] at pending
      exact others id (Ne.symm pending.2) pending.1
    · intro id
      rw [pending_unpend, SysMsg.alerting_append, ← tracked.logged id]
      rfl
  · rw [vsaCancelCcwWarning, if_neg ends, List.append_nil]
    refine ⟨distinct, small, ?_, tracked.logged⟩
    intro id pending
    by_cases same : id = pos.ccwId
    · subst same
      have still : without.vsaSearchWarning pos.ccwId = true := by
        simpa [show without.pending pos.ccwId = true from pending] using ends
      simpa [vsaSearchWarning, without, or_and_right, exists_or] using still
    · exact others id same pending

/-- The loop body keeps it. -/
theorem Tracked.warn {vsa : VsaEnvar} {sent : List SysMsg} (tracked : vsa.Tracked sent)
    (node : VsaInfo) : Tracked (vsa.warn node).1 (sent ++ (vsa.warn node).2) := by
  have warned := vsa.warn_cases node
  generalize vsa.warn node = result at warned ⊢
  cases warned with
  | kept => simpa using tracked
  | joined danger fresh =>
      rw [List.append_nil]
      refine ⟨?_, ?_, ?_, tracked.logged⟩
      · have unknown : node.pid ∉ vsa.crdList.map fun pos => pos.pid := by
          simpa [eq_comm] using fresh
        simpa using ⟨by simpa using unknown, tracked.distinct⟩
      · simpa [ccwDebounce] using tracked.small
      · intro id pending
        obtain ⟨pos, member, carries⟩ := tracked.carried id pending
        exact ⟨pos, by simp [member], carries⟩
  | counted front pos back split same own danger below =>
      rw [List.append_nil]
      exact tracked.recount split below
  | raised pos member own danger calm =>
      refine ⟨tracked.distinct, tracked.small, ?_, ?_⟩
      · intro id pending
        rw [pending_pend, Bool.or_eq_true, decide_eq_true_eq] at pending
        rcases pending with before | rfl
        · exact tracked.carried id before
        · exact ⟨pos, member, rfl⟩
      · intro id
        rw [pending_pend, SysMsg.alerting_append, ← tracked.logged id]
        rfl
  | aged front pos back split same safe positive =>
      rw [List.append_nil]
      have before := tracked.small pos (by simp [split])
      exact tracked.recount split (by omega)
  | removed front pos back split same safe => exact tracked.remove split

end VsaEnvar

end Rsu.Vsa
