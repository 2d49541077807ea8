import Mathlib.Data.Option.Basic
import Rsu.Common.ListHead
import Rsu.Rcp.Frame

/-!
# The data of the multihop module

`mda_envar_t` and the buffers its waiting list links together. A buffer on the
list carries an `mda_forward_t` in the room in front of its data.
-/

namespace Rsu.Mda

open Rsu.Data Rsu.Rcp

universe u

/-- `mda_msg_info_t`. -/
structure MdaMsgInfo where
  temporaryId : TempId
  forwardId : TempId
  msgCount : Byte
  leftHops : Byte
  deriving DecidableEq

/-- `memset(…, 0, sizeof(mda_msg_info_t))`. -/
def MdaMsgInfo.zero : MdaMsgInfo where
  temporaryId := Vector.replicate rcpTempIdLen 0
  forwardId := Vector.replicate rcpTempIdLen 0
  msgCount := 0
  leftHops := 0

/-- The comparison of both lookups: same sender and same message count. -/
def MdaMsgInfo.sameKey (left right : MdaMsgInfo) : Bool :=
  left.temporaryId = right.temporaryId ∧ left.msgCount = right.msgCount

/-- `mda_history_t`, without the list node nothing uses. -/
structure MdaHistory where
  msg : MdaMsgInfo
  lifeTime : Int
  deriving DecidableEq

/-- `mda_forward_t`. -/
structure MdaForward where
  msg : MdaMsgInfo
  delayTime : Int
  deriving DecidableEq

/-- The fields of `wnet_txbuf_t` this module uses; `data` holds `data_len` bytes. -/
structure WnetTxbuf where
  forward : MdaForward
  data : Frame

/-- A buffer fresh from `wnet_get_txbuf`, all zero. -/
def WnetTxbuf.zero : WnetTxbuf where
  forward := ⟨MdaMsgInfo.zero, 0⟩
  data := []

/-- `RX_HISTORY_NUM`. -/
abbrev rxHistoryNum : Nat := 16

/-- `MAX_HISTORY_LIFE`, in seconds. -/
def maxHistoryLife : Int := 10

/-- `mda_envar_t`. The nodes of the intrusive list are the sentinel `none`,
which is `forward_waiting_list`, and one node in every buffer. -/
structure MdaEnvar (Buf : Type u) where
  flagHistoryTimeout : Bool
  forwardWaitingList : Links (Option Buf)
  txbuf : Buf → WnetTxbuf
  rxHistoryTable : Fin rxHistoryNum → MdaHistory

namespace MdaEnvar

variable {Buf : Type u}

/-- `p_fw->delay_time` of a buffer. -/
def delayTime (mda : MdaEnvar Buf) (txbuf : Buf) : Int := (mda.txbuf txbuf).forward.delayTime

/-- The waiting list is well formed and holds `nodes`, first to last. -/
def Waiting (mda : MdaEnvar Buf) (nodes : List Buf) : Prop :=
  mda.forwardWaitingList.Ring none (nodes.map some)

/-- A buffer on the list occurs once. -/
theorem Waiting.distinct {mda : MdaEnvar Buf} {nodes : List Buf} (waiting : mda.Waiting nodes) :
    nodes.Nodup :=
  (List.nodup_cons.1 (Links.Ring.nodup waiting)).2.of_map some

/-- The list determines its nodes. -/
theorem Waiting.unique {mda : MdaEnvar Buf} {nodes others : List Buf}
    (left : mda.Waiting nodes) (right : mda.Waiting others) : nodes = others :=
  List.map_injective_iff.2 (Option.some_injective Buf) (Links.Ring.unique left right)

/-- Assign the pointers of the waiting list. -/
def relink (mda : MdaEnvar Buf) (links : Links (Option Buf)) : MdaEnvar Buf :=
  { mda with forwardWaitingList := links }

@[simp] theorem relink_links (mda : MdaEnvar Buf) (links : Links (Option Buf)) :
    (mda.relink links).forwardWaitingList = links := rfl

@[simp] theorem relink_txbuf (mda : MdaEnvar Buf) (links : Links (Option Buf)) :
    (mda.relink links).txbuf = mda.txbuf := rfl

@[simp] theorem delayTime_relink (mda : MdaEnvar Buf) (links : Links (Option Buf)) (txbuf : Buf) :
    (mda.relink links).delayTime txbuf = mda.delayTime txbuf := rfl

/-- Everything but the pointers and the delays of the waiting list. -/
def contents (mda : MdaEnvar Buf) :
    Bool × (Fin rxHistoryNum → MdaHistory) × (Buf → MdaMsgInfo × Frame) :=
  (mda.flagHistoryTimeout, mda.rxHistoryTable,
    fun txbuf => ((mda.txbuf txbuf).forward.msg, (mda.txbuf txbuf).data))

@[simp] theorem contents_relink (mda : MdaEnvar Buf) (links : Links (Option Buf)) :
    (mda.relink links).contents = mda.contents := rfl

/-- The history is part of the contents. -/
theorem history_of_contents {left right : MdaEnvar Buf} (same : left.contents = right.contents) :
    left.rxHistoryTable = right.rxHistoryTable :=
  congrArg (fun contents => contents.2.1) same

theorem msg_of_contents {left right : MdaEnvar Buf} (same : left.contents = right.contents)
    (txbuf : Buf) : (left.txbuf txbuf).forward.msg = (right.txbuf txbuf).forward.msg :=
  congrArg (fun contents => (contents.2.2 txbuf).1) same

variable [DecidableEq Buf]

/-- `mda_init`: the record is cleared and the list head initialised. -/
def mdaInit : MdaEnvar Buf where
  flagHistoryTimeout := false
  forwardWaitingList := Links.initHead ⟨fun _ => none, fun _ => none⟩ none
  txbuf := fun _ => WnetTxbuf.zero
  rxHistoryTable := fun _ => ⟨MdaMsgInfo.zero, 0⟩

/-- Assign to `p_fw->delay_time` of a buffer. -/
def setDelayTime (mda : MdaEnvar Buf) (txbuf : Buf) (delay : Int) : MdaEnvar Buf :=
  { mda with
    txbuf := Function.update mda.txbuf txbuf
      { mda.txbuf txbuf with forward.delayTime := delay } }

/-- At the start nothing is waiting. -/
theorem mdaInit_waiting : (mdaInit : MdaEnvar Buf).Waiting [] :=
  Links.initHead_ring _ none

@[simp] theorem setDelayTime_links (mda : MdaEnvar Buf) (txbuf : Buf) (delay : Int) :
    (mda.setDelayTime txbuf delay).forwardWaitingList = mda.forwardWaitingList := rfl

@[simp] theorem contents_setDelayTime (mda : MdaEnvar Buf) (txbuf : Buf) (delay : Int) :
    (mda.setDelayTime txbuf delay).contents = mda.contents := by
  unfold contents setDelayTime
  congr 2
  ext other : 1
  by_cases same : other = txbuf
  · simp [same]
  · simp [Function.update_of_ne same]

@[simp] theorem delayTime_setDelayTime (mda : MdaEnvar Buf) (txbuf : Buf) (delay : Int) :
    (mda.setDelayTime txbuf delay).delayTime txbuf = delay := by
  simp [delayTime, setDelayTime]

theorem delayTime_setDelayTime_of_ne (mda : MdaEnvar Buf) {txbuf other : Buf} (delay : Int)
    (different : other ≠ txbuf) :
    (mda.setDelayTime txbuf delay).delayTime other = mda.delayTime other := by
  simp [delayTime, setDelayTime, Function.update_of_ne different]

end MdaEnvar

end Rsu.Mda
