import Rsu.Common.ListHead
import Rsu.Osal.Queue
import Rsu.Osal.Timer
import Rsu.Rcp.Codec

/-!
# The data of the vehicle application middleware

`vam_envar_t` with its neighbour table. The table is a record of its own: the
pool of station nodes, the two lists over them, their count, and the variable
that `vam_update_sta` keeps between calls. The `static` variables of the timer
callbacks are fields as well.
-/

namespace Rsu.Vam

open Rsu.Data Rsu.Data.Links Rsu.Rcp Rsu.Osal Rsu.Common

/-- `VAM_NEIGHBOUR_MAXNUM` -/
abbrev vamNeighbourMaxnum : Nat := 80

/-- `VAM_NEIGHBOUR_MAXLIFE`, in neighbour ticks. -/
def vamNeighbourMaxlife : Nat := 5

/-- `VAM_REMOTE_ALERT_MAXLIFE`, in neighbour ticks. -/
def vamRemoteAlertMaxlife : Nat := 5

/-- `VAM_NO_ALERT_EVAM_TX_TIMES` -/
def vamNoAlertEvamTxTimes : Byte := 5

/-- `vam_position_t` -/
structure VamPosition where
  lat : ℚ
  lon : ℚ
  elev : ℚ
  accu : ℚ
  deriving DecidableEq

/-- `vam_acce_t` -/
structure VamAcce where
  lon : ℚ
  lat : ℚ
  vert : ℚ
  yaw : ℚ
  deriving DecidableEq

/-- `vam_stastatus_t` -/
structure VamStastatus where
  pid : TempId
  timestamp : BitVec 16
  pos : VamPosition
  dir : ℚ
  speed : ℚ
  acce : VamAcce
  alertMask : BitVec 16
  time : BitVec 32
  cnt : Byte
  deriving DecidableEq

/-- A status after `memset(…, 0, …)`. -/
def VamStastatus.zero : VamStastatus where
  pid := Vector.replicate rcpTempIdLen 0
  timestamp := 0
  pos := ⟨0, 0, 0, 0⟩
  dir := 0
  speed := 0
  acce := ⟨0, 0, 0, 0⟩
  alertMask := 0
  time := 0
  cnt := 0

/-- `vam_sta_node_t`, without its list pointers. -/
structure VamStaNode where
  s : VamStastatus
  life : Nat
  alertLife : Nat
  deriving DecidableEq

/-- A place in `remote[]`. -/
abbrev Slot := Fin vamNeighbourMaxnum

/-- The list heads and the list nodes of the table. -/
inductive StaEntry where
  | staFreeList
  | neighbourList
  | remote (slot : Slot)
  deriving DecidableEq

/-- `list_entry`: only a node of `remote[]` is part of a station. -/
def StaEntry.slot? : StaEntry → Option Slot
  | .remote slot => some slot
  | _ => none

/-- The neighbour table: `remote`, `sta_free_list`, `neighbour_list` and
`neighbour_cnt` of `vam_envar_t`, and `gotNeighbour` of `vam_update_sta`. -/
structure StaTable where
  remote : Slot → VamStaNode
  list : Links StaEntry
  neighbourCnt : Byte
  gotNeighbour : Bool

/-- `enum VAM_EVT` -/
inductive VamEvt where
  | localUpdate
  | peerUpdate
  | peerAlarm
  | gpsStatus
  | gsnrEbdDetect
  | rsaUpdate
  | evaUpdate
  deriving DecidableEq

/-- A call of an event handler about a peer; `vam_update_sta` passes `NULL` when
the last one has left. -/
structure PeerEvent where
  evt : VamEvt
  sta : Option VamStastatus
  deriving DecidableEq

/-- `vam_config_t` -/
structure VamConfig where
  bsmHops : Byte
  bsmBoardcastMode : Byte
  bsmBoardcastSaftyfactor : Byte
  bsmPauseMode : Byte
  bsmPauseHoldTime : Byte
  bsmBoardcastPeriod : BitVec 16
  evamHops : Byte
  evamBroadcastType : Byte
  evamBroadcastPeroid : BitVec 16

/-- The VAM part of `load_default_param`. -/
def loadDefaultParam : VamConfig where
  bsmHops := 1
  bsmBoardcastMode := 2
  bsmBoardcastSaftyfactor := 5
  bsmPauseMode := 1
  bsmPauseHoldTime := 5
  bsmBoardcastPeriod := 100
  evamHops := 1
  evamBroadcastType := 2
  evamBroadcastPeroid := 50

/-- The pid `load_default_param` sets. -/
def loadDefaultPid : TempId := Vector.replicate rcpTempIdLen 0xcc

/-- `BSM_BC_MODE_DISABLE` -/
def bsmBcModeDisable : Byte := 0

/-- `BSM_BC_MODE_AUTO` -/
def bsmBcModeAuto : Byte := 1

/-- `BSM_BC_MODE_FIXED` -/
def bsmBcModeFixed : Byte := 2

/-- `VAM_FLAG_RX` -/
def vamFlagRx : BitVec 32 := 0x0001

/-- `VAM_FLAG_TX_BSM` -/
def vamFlagTxBsm : BitVec 32 := 0x0002

/-- `VAM_FLAG_TX_BSM_ALERT` -/
def vamFlagTxBsmAlert : BitVec 32 := 0x0004

/-- `VAM_FLAG_TX_BSM_PAUSE` -/
def vamFlagTxBsmPause : BitVec 32 := 0x0008

/-- `VAM_FLAG_TX_EVAM` -/
def vamFlagTxEvam : BitVec 32 := 0x0010

/-- The messages in the queue of the VAM thread that its own timers post. -/
inductive VamMsg where
  /-- `VAM_MSG_START` -/
  | start
  /-- `VAM_MSG_STOP` -/
  | stop
  /-- `VAM_MSG_RCPTX` with `RCP_MSG_ID_BSM` -/
  | rcptxBsm
  /-- `VAM_MSG_RCPTX` with `RCP_MSG_ID_EVAM` -/
  | rcptxEvam
  /-- `VAM_MSG_NEIGH_TIMEOUT` -/
  | neighTimeout
  deriving DecidableEq

/-- `VAM_QUEUE_SIZE` -/
def vamQueueSize : Nat := 20

/-- `vam_envar_t` with the `static` variables of its timer callbacks. -/
structure VamEnvar extends StaTable where
  workingParam : VamConfig
  flag : BitVec 32
  bsmSendPeriodTicks : BitVec 16
  txBsmMsgCnt : Byte
  txEvamMsgCnt : Byte
  txRsaMsgCnt : Byte
  /-- `local` -/
  localSta : VamStastatus
  /-- Which entries of `evt_handler` are set. -/
  evtHandler : VamEvt → Bool
  queueVam : OsalQueue VamMsg
  timerSendBsm : OsalTimer
  timerSendEvam : OsalTimer
  timerBsmPause : OsalTimer
  timerNeighbourLife : OsalTimer
  /-- `count` of `timer_send_bsm_callback` -/
  bsmAlertCount : Byte
  /-- `mask` of `timer_send_evam_callback` -/
  evamMask : BitVec 16
  /-- `count` of `timer_send_evam_callback` -/
  evamCount : Byte

/-- The lists `vam_init` builds: every node of the pool is free. The pointers it
starts from are never read. -/
def initList (memory : Links StaEntry) : Links StaEntry :=
  (List.finRange vamNeighbourMaxnum).foldl
    (fun list slot => listAddTail list (.remote slot) .staFreeList)
    ((memory.initHead .neighbourList).initHead .staFreeList)

/-- The table `vam_init` leaves behind. -/
def StaTable.init (memory : Links StaEntry) : StaTable where
  remote := fun _ => ⟨.zero, 0, 0⟩
  list := initList memory
  neighbourCnt := 0
  gotNeighbour := false

/-- The own pid: a parameter of zero stands for the default one. -/
def localPid (pid : TempId) : TempId :=
  if pid = Vector.replicate rcpTempIdLen 0 then Vector.replicate rcpTempIdLen 0xaa else pid

/-- `vam_init` with the parameters and the pid parameter of the node, and the
handlers the application then sets. -/
def vamInit (memory : Links StaEntry) (param : VamConfig) (pid : TempId)
    (evtHandler : VamEvt → Bool) : VamEnvar where
  toStaTable := .init memory
  workingParam := param
  flag := 0
  bsmSendPeriodTicks := 0
  txBsmMsgCnt := 0
  txEvamMsgCnt := 0
  txRsaMsgCnt := 0
  localSta := { VamStastatus.zero with pid := localPid pid }
  evtHandler := evtHandler
  queueVam := .create vamQueueSize
  timerSendBsm := .create .interval 1000 (by decide)
  timerSendEvam := .create .interval 50 (by decide)
  timerBsmPause := .create .oneshot 5000 (by decide)
  timerNeighbourLife := .create .interval 1000 (by decide)
  bsmAlertCount := vamNoAlertEvamTxTimes
  evamMask := 0
  evamCount := vamNoAlertEvamTxTimes

end Rsu.Vam
