import Rsu.Data.BitMask
import Rsu.Osal.Queue
import Rsu.Vam.Envar

/-!
# The data of the vehicle safety application

`vsa_envar_t` with the tables of its two threads. Of the position of a neighbour
only the fields are kept that a judgement reads. A function of the application
returns the messages it sends to the system queue beside the new state.
-/

namespace Rsu.Vsa

open Rsu.Data.BitMask Rsu.Rcp Rsu.Osal Rsu.Vam

/-- `enum VSA_APP_ID` -/
inductive VsaId where
  | none
  | crd
  | crdRear
  | ops
  | side
  | vbd
  | ebd
  | vot
  deriving DecidableEq

/-- The value of the enumerator. -/
def VsaId.num : VsaId → Nat
  | .none => 0
  | .crd => 1
  | .crdRear => 2
  | .ops => 3
  | .side => 4
  | .vbd => 5
  | .ebd => 6
  | .vot => 7

/-- `1 << id` -/
def VsaId.bit (id : VsaId) : BitVec 32 := BitVec.twoPow 32 id.num

/-- `vsa_config_t`, as far as a judgement reads it. -/
structure VsaConfig where
  dangerDetectSpeedThreshold : Byte
  laneDis : BitVec 16
  crdOppsiteSpeed : Byte
  crdRearDistance : Byte

/-- `vsa_info_t`, as far as a judgement reads it. -/
structure VsaInfo where
  pid : TempId
  localSpeed : ℚ
  remoteSpeed : ℚ
  hOffset : BitVec 32
  linearDistance : BitVec 32
  safeDistance : BitVec 32
  flagDir : BitVec 8
  deriving DecidableEq

/-- `vsa_crd_node_t` -/
structure VsaCrdNode where
  pid : TempId
  ccwId : VsaId
  ccwCnt : Nat
  deriving DecidableEq

/-- The requests in the queue of `vsa_thread_entry`. -/
inductive VsaMsgId where
  /-- `VSA_MSG_MANUAL_BC` -/
  | manualBc
  /-- `VSA_MSG_EEBL_BC` -/
  | eeblBc
  /-- `VSA_MSG_ACC_RC` -/
  | accRc
  /-- `VSA_MSG_EEBL_RC` -/
  | eeblRc
  /-- `VSA_MSG_XXX_RC` -/
  | xxxRc
  deriving DecidableEq

/-- `sys_msg_t` in that queue. -/
structure VsaMsg where
  id : VsaMsgId
  len : BitVec 16
  argc : BitVec 32
  deriving DecidableEq

/-- The messages to the system thread; those about no received alert are not told apart. -/
inductive SysMsg where
  /-- `SYS_MSG_START_ALERT` -/
  | startAlert (id : VsaId)
  /-- `SYS_MSG_STOP_ALERT` -/
  | stopAlert (id : VsaId)
  /-- `SYS_MSG_ALARM_ACTIVE` -/
  | alarmActive (id : VsaId)
  /-- `SYS_MSG_ALARM_CANCEL` -/
  | alarmCancel (id : VsaId)
  | other
  deriving DecidableEq

namespace SysMsg

/-- The effect of a message on an alert that is on or off. -/
def switch (id : VsaId) (on : Bool) : SysMsg → Bool
  | .startAlert started => on || decide (started = id)
  | .stopAlert stopped => on && !decide (stopped = id)
  | _ => on

/-- The last message about the alert was its start. -/
def alerting (sent : List SysMsg) (id : VsaId) : Bool := sent.foldl (switch id) false

@[simp] theorem alerting_nil (id : VsaId) : alerting [] id = false := rfl

@[simp] theorem alerting_append (sent : List SysMsg) (msg : SysMsg) (id : VsaId) :
    alerting (sent ++ [msg]) id = switch id (alerting sent id) msg := by
  simp [alerting]

end SysMsg

/-- `VSA_QUEUE_SIZE` -/
def vsaQueueSize : Nat := 16

/-- `SYS_QUEUE_SIZE` -/
def sysQueueSize : Nat := 16

/-- `CCW_DEBOUNCE` -/
def ccwDebounce : Nat := 5

/-- `vsa_envar_t`. The nodes of `position_list` are those of `positionNode`, in order. -/
structure VsaEnvar where
  workingParam : VsaConfig
  alertMask : BitVec 32
  alertPend : BitVec 32
  remote : VamStastatus
  crdList : List VsaCrdNode
  positionNode : Slot → VsaInfo
  queueVsa : OsalQueue VsaMsg

/-- `vsa_init` -/
def vsaInit (param : VsaConfig) : VsaEnvar where
  workingParam := param
  alertMask := set (set (set VsaId.crd.bit VsaId.crdRear.bit) VsaId.vbd.bit) VsaId.ebd.bit
  alertPend := 0
  remote := .zero
  crdList := []
  positionNode := fun _ => ⟨Vector.replicate rcpTempIdLen 0, 0, 0, 0, 0, 0, 0⟩
  queueVsa := .create vsaQueueSize

namespace VsaId

/-- The bits of different ids are different. -/
@[simp] theorem has_bit (id other : VsaId) : has id.bit other.bit = decide (id = other) := by
  cases id <;> cases other <;> rfl

@[simp] theorem clear_bit (id other : VsaId) :
    clear other.bit id.bit = if id = other then 0#32 else other.bit := by
  cases id <;> cases other <;> rfl

end VsaId

namespace VsaEnvar

/-- The bit of an alert is set in `alert_pend`. -/
def pending (vsa : VsaEnvar) (id : VsaId) : Bool := has vsa.alertPend id.bit

/-- Set the bit of an alert in `alert_pend`. -/
def pend (vsa : VsaEnvar) (id : VsaId) : VsaEnvar :=
  { vsa with alertPend := set vsa.alertPend id.bit }

/-- Clear the bit of an alert in `alert_pend`. -/
def unpend (vsa : VsaEnvar) (id : VsaId) : VsaEnvar :=
  { vsa with alertPend := clear vsa.alertPend id.bit }

@[simp] theorem pending_pend (vsa : VsaEnvar) (id other : VsaId) :
    (vsa.pend id).pending other = (vsa.pending other || decide (id = other)) := by
  simp [pending, pend]

@[simp] theorem pending_unpend (vsa : VsaEnvar) (id other : VsaId) :
    (vsa.unpend id).pending other = (vsa.pending other && !decide (id = other)) := by
  by_cases same : id = other <;> simp [pending, unpend, same]

@[simp] theorem pending_vsaInit (param : VsaConfig) (id : VsaId) :
    (vsaInit param).pending id = false := by
  simp [pending, vsaInit, has]

@[simp] theorem pend_crdList (vsa : VsaEnvar) (id : VsaId) : (vsa.pend id).crdList = vsa.crdList :=
  rfl

@[simp] theorem unpend_crdList (vsa : VsaEnvar) (id : VsaId) :
    (vsa.unpend id).crdList = vsa.crdList := rfl

end VsaEnvar

end Rsu.Vsa
