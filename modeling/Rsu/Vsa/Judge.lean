import Rsu.Vsa.Envar

/-!
# The judgements

Each of them looks at one node of the position table. The speeds are exact
rationals, the offsets and distances are the machine words of the code.
-/

namespace Rsu.Vsa

open Rsu.Rcp Rsu.Vam

/-- The judgement of `ebd_judge` on a node. -/
def VsaConfig.acceptsEbd (param : VsaConfig) (node : VsaInfo) : Bool :=
  if node.localSpeed ≤ param.dangerDetectSpeedThreshold.toNat then false
  else if node.remoteSpeed ≤ param.dangerDetectSpeedThreshold.toNat then false
  else if node.flagDir.toInt < 0 then false
  -- remote is behind of local
  else if node.linearDistance.toInt ≤ 0 then false
  else true

/-- The judgement of `vbd_judge` on a node. -/
def VsaConfig.acceptsVbd (param : VsaConfig) (node : VsaInfo) : Bool :=
  if node.localSpeed ≤ param.dangerDetectSpeedThreshold.toNat then false
  else if node.hOffset.toNat > param.laneDis.toNat then false
  else if node.flagDir.toInt < 0 then false
  else if node.linearDistance.toInt ≤ 0 then false
  else true

/-- `cfcw_judge` -/
def VsaConfig.cfcwJudge (param : VsaConfig) (node : VsaInfo) : VsaId :=
  if node.localSpeed ≤ param.dangerDetectSpeedThreshold.toNat then .none
  else if node.flagDir.toInt < 0 then .none
  else if node.hOffset.toNat > param.laneDis.toNat then .none
  else if node.localSpeed ≤ node.remoteSpeed + param.crdOppsiteSpeed.toNat then .none
  else if node.linearDistance.toInt ≤ 0 then .none
  else if node.linearDistance.toInt > node.safeDistance.toInt then .none
  else .crd

/-- `crcw_judge` -/
def VsaConfig.crcwJudge (param : VsaConfig) (node : VsaInfo) : VsaId :=
  if node.localSpeed ≤ param.dangerDetectSpeedThreshold.toNat then .none
  else if node.remoteSpeed ≤ param.dangerDetectSpeedThreshold.toNat then .none
  else if node.flagDir.toInt < 0 then .none
  else if node.localSpeed + param.crdOppsiteSpeed.toNat ≥ node.remoteSpeed then .none
  else if node.linearDistance.toInt > 0 then .none
  else if (-node.linearDistance).toInt > param.crdRearDistance.toNat then .none
  else .crdRear

/-- The warning `vsa_base_proc` finds for a node; the opposite and side handlers
never find one. -/
def VsaConfig.classify (param : VsaConfig) (node : VsaInfo) : VsaId :=
  match param.cfcwJudge node with
  | .none => param.crcwJudge node
  | id => id

/-- A collision warning is one of two. -/
theorem VsaConfig.classify_cases (param : VsaConfig) (node : VsaInfo) :
    param.classify node = .none ∨ param.classify node = .crd ∨ param.classify node = .crdRear := by
  have front : param.cfcwJudge node = .none ∨ param.cfcwJudge node = .crd := by
    unfold cfcwJudge
    repeat' split
    all_goals simp
  have rear : param.crcwJudge node = .none ∨ param.crcwJudge node = .crdRear := by
    unfold crcwJudge
    repeat' split
    all_goals simp
  rcases front with front | front
  · rcases rear with rear | rear <;> simp [classify, front, rear]
  · simp [classify, front]

/-- The warning of a node is found by one of the two judgements. -/
theorem VsaConfig.judge_of_classify {param : VsaConfig} {node : VsaInfo} {warning : VsaId}
    (classified : param.classify node = warning) :
    param.cfcwJudge node = warning ∨ param.crcwJudge node = warning := by
  unfold classify at classified
  split at classified
  · exact .inr classified
  · exact .inl classified

namespace VsaEnvar

/-- `vsa_find_pn` -/
def vsaFindPn (vsa : VsaEnvar) (temporaryId : TempId) : Option VsaInfo :=
  ((List.finRange vamNeighbourMaxnum).map vsa.positionNode).find? fun node =>
    node.pid = temporaryId

/-- `ebd_judge`; it needs a node for the pid of `remote`. -/
def ebdJudge (vsa : VsaEnvar) : Option Bool :=
  (vsa.vsaFindPn vsa.remote.pid).map vsa.workingParam.acceptsEbd

/-- `vbd_judge`; it needs a node for the pid of `remote`. -/
def vbdJudge (vsa : VsaEnvar) : Option Bool :=
  (vsa.vsaFindPn vsa.remote.pid).map vsa.workingParam.acceptsVbd

end VsaEnvar

end Rsu.Vsa
