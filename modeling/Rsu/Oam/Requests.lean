import Mathlib.Algebra.Group.Nat.Defs
import Mathlib.Data.List.FinRange
import Mathlib.Logic.Function.Basic
import Rsu.Oam.Sdk
import Rsu.Semantics.ActionSystem

/-!
# Requests of a management client

A call of `cv_oam_sdk_api_request` brings its message into network order, enters it in a
table under the lock and sends it, waits without the lock, and takes it out again under the
lock. `cv_oam_sdk_api_rsp` runs on the receive thread. The system interleaves the four
sections of any number of calls with arbitrary responses.
-/

namespace Rsu.Oam

open Rsu.Rcp Checked

/-- `CV_SDK_MAX_REQ` -/
def cvSdkMaxReq : Nat := 255

/-- `OAM_E_OK` -/
def oamEOk : BitVec 32 := 0

/-- `OAM_E_PARAM` -/
def oamEParam : BitVec 32 := 3

/-- `OAM_E_TIMEOUT` -/
def oamETimeout : BitVec 32 := 7

/-- `OAM_E_TOO_MUCH_API` -/
def oamETooMuchApi : BitVec 32 := 8

/-- `OAM_E_WRONG_SDK_ID` -/
def oamEWrongSdkId : BitVec 32 := 9

/-- `cv_sdk_msg_t`: the fields as the host loads them, and the bytes from `data` on. -/
structure CvSdkMsg where
  ret : BitVec 32
  reqId : BitVec 32
  reservd : BitVec 32
  sdkId : BitVec 16
  len : BitVec 16
  data : Frame
  deriving DecidableEq

/-- The bytes of a message. -/
def CvSdkMsg.bytes (msg : CvSdkMsg) : Frame :=
  store32 msg.ret ++ store32 msg.reqId ++ store32 msg.reservd ++ store16 msg.sdkId ++
    store16 msg.len ++ msg.data

/-- The first bytes of the data of a response. The receive buffer was cleared, so zeros
follow what was received. -/
def CvSdkMsg.received (msg : CvSdkMsg) (count : Nat) : Frame :=
  (List.range count).map (byteAt msg.data)

@[simp] theorem CvSdkMsg.received_length (msg : CvSdkMsg) (count : Nat) :
    (msg.received count).length = count := by
  simp [received]

/-- `xlats[sdk_id](data, len, type)`, if there is such a function. -/
def cvSdkXlat (order : ByteOrder) (sdkId : BitVec 16) (data : Frame) (len : BitVec 16)
    (type : CvSdkDataXlatType) : Checked Frame := do
  readable sdkTable.length sdkId.toNat 1
  match sdkRequest sdkId.toNat with
  | none => return data
  | some request =>
      let region ← request.xlat order
        ⟨data, min len.toNat data.length, Nat.min_le_right ..⟩ 0 type
      return region.bytes

/-- `cv_sdk_req_record_t`. The message is that of a numbered call, and `serial` counts the
identifiers handed out before the one in the record; the code has no such field. -/
structure CvSdkReqRecord where
  valid : Bool
  reqId : BitVec 32
  sem : Nat
  msg : Option Nat
  serial : Nat

/-- A record after `memset`. -/
def CvSdkReqRecord.zero : CvSdkReqRecord := ⟨false, 0, 0, none, 0⟩

/-- Where a call stands. -/
inductive CallStage where
  | idle
  /-- in front of the lock -/
  | prepared
  /-- in `os_sem_wait` on a record -/
  | waiting (slot : Fin cvSdkMaxReq)
  /-- in front of the lock again -/
  | woken (slot : Fin cvSdkMaxReq)
  | returned (ret : BitVec 32)
  deriving DecidableEq

/-- The record of a call. -/
def CallStage.slot : CallStage → Option (Fin cvSdkMaxReq)
  | .waiting slot | .woken slot => some slot
  | _ => none

/-- A call: its local variable `len`, and the message of its caller. -/
structure SdkCall where
  stage : CallStage
  len : BitVec 16
  msg : CvSdkMsg

/-- `g_sdk_ctrl` and the calls. `issued` is `req_next` without its wrap-around. -/
structure SdkState where
  reqs : Fin cvSdkMaxReq → CvSdkReqRecord
  reqNext : BitVec 32
  issued : Nat
  calls : Nat → SdkCall

namespace SdkState

/-- The state after `cv_oam_sdk_init`. -/
def initial : SdkState where
  reqs := fun _ => .zero
  reqNext := 0
  issued := 0
  calls := fun _ => ⟨.idle, 0, 0, 0, 0, 0, 0, []⟩

/-- Assign to a record. -/
def setRecord (state : SdkState) (slot : Fin cvSdkMaxReq) (record : CvSdkReqRecord) : SdkState :=
  { state with reqs := Function.update state.reqs slot record }

/-- Assign to a call. -/
def setCall (state : SdkState) (number : Nat) (call : SdkCall) : SdkState :=
  { state with calls := Function.update state.calls number call }

/-- Assign to a record and hand out an identifier. -/
def issue (state : SdkState) (slot : Fin cvSdkMaxReq) (record : CvSdkReqRecord) : SdkState :=
  { state.setRecord slot record with
    reqNext := state.reqNext + 1
    issued := state.issued + 1 }

/-- The first record that is not valid. -/
def unused (state : SdkState) : Option (Fin cvSdkMaxReq) :=
  (List.finRange cvSdkMaxReq).find? fun slot => !(state.reqs slot).valid

/-- The record `cv_sdk_req_record_alloc` writes. Without a semaphore it does not become
valid. -/
def allocated (state : SdkState) (number : Nat) (semInit : Bool) : CvSdkReqRecord where
  valid := semInit
  reqId := state.reqNext
  sem := 0
  msg := some number
  serial := state.issued

/-- `cv_sdk_req_record_alloc`; `semInit` says whether `os_sem_init` succeeds. -/
def cvSdkReqRecordAlloc (state : SdkState) (number : Nat) (semInit : Bool) :
    SdkState × Option (Fin cvSdkMaxReq) :=
  match state.unused with
  | none => (state, none)
  | some slot =>
      (state.issue slot (state.allocated number semInit), if semInit then some slot else none)

/-- `cv_sdk_req_record_free` -/
def cvSdkReqRecordFree (state : SdkState) (slot : Fin cvSdkMaxReq) : SdkState :=
  state.setRecord slot .zero

/-- `cv_sdk_req_record_find` -/
def cvSdkReqRecordFind (state : SdkState) (reqId : BitVec 32) : Option (Fin cvSdkMaxReq) :=
  (List.finRange cvSdkMaxReq).find? fun slot =>
    (state.reqs slot).valid && (state.reqs slot).reqId == reqId

/-- `cv_oam_sdk_api_request` up to the lock. -/
def requestPrepare (order : ByteOrder) (state : SdkState) (number : Nat) (msg : CvSdkMsg) :
    Checked SdkState :=
  if cvSdkReqTypeEnd < msg.sdkId.toNat then
    return state.setCall number ⟨.returned oamEWrongSdkId, msg.len, msg⟩
  else do
    let data ← cvSdkXlat order msg.sdkId msg.data msg.len .hton
    return state.setCall number ⟨.prepared, msg.len,
      { msg with
        ret := oamEOk
        sdkId := oamHtons order msg.sdkId
        len := oamHtons order msg.len
        data := data }⟩

/-- A call is refused for its identifier, or its data are translated. -/
theorem requestPrepare_cases {order : ByteOrder} {state next : SdkState} {number : Nat}
    {msg : CvSdkMsg} (ends : state.requestPrepare order number msg = .ok next) :
    (cvSdkReqTypeEnd < msg.sdkId.toNat ∧
        next = state.setCall number ⟨.returned oamEWrongSdkId, msg.len, msg⟩) ∨
      (msg.sdkId.toNat ≤ cvSdkReqTypeEnd ∧
        ∃ data, cvSdkXlat order msg.sdkId msg.data msg.len .hton = .ok data ∧
          next = state.setCall number ⟨.prepared, msg.len,
            { msg with
              ret := oamEOk
              sdkId := oamHtons order msg.sdkId
              len := oamHtons order msg.len
              data := data }⟩) := by
  have ends := (ends_eq _ _).2 ends
  rw [requestPrepare, ends_ite] at ends
  by_cases refused : cvSdkReqTypeEnd < msg.sdkId.toNat
  · have same := ends.1 refused
    rw [ends_pure] at same
    exact .inl ⟨refused, same.symm⟩
  · have translated := ends.2 refused
    rw [ends_bind] at translated
    obtain ⟨data, read, same⟩ := translated
    rw [ends_pure] at same
    exact .inr ⟨Nat.not_lt.1 refused, data, read, same.symm⟩

/-- What `cv_oam_client_send_msg` returns; `sends` says whether `send` succeeds. Its
`msg_len` has 16 bits. -/
def requestSend (order : ByteOrder) (msg : CvSdkMsg) (len : BitVec 16) (sends : Bool) : BitVec 32 :=
  match cvOamClientSendMsg order cvOamFrameTypeCmdMsg cvOamL2MsgCmdReq
      (msg.bytes.take (BitVec.ofNat 16 sdkDataAt + len).toNat) with
  | none => oamEParam
  | some _ => if sends then oamEOk else -1

/-- The first section of `cv_oam_sdk_api_request` under the lock. -/
def requestEnter (order : ByteOrder) (state : SdkState) (number : Nat) (semInit sends : Bool) :
    SdkState :=
  let call := state.calls number
  match state.cvSdkReqRecordAlloc number semInit with
  | (state, none) =>
      state.setCall number ⟨.returned oamETooMuchApi, call.len, { call.msg with ret := oamETooMuchApi }⟩
  | (state, some slot) =>
      let msg := { call.msg with reqId := oamHtonl order (state.reqs slot).reqId }
      let ret := requestSend order msg call.len sends
      if ret = oamEOk then
        state.setCall number ⟨.waiting slot, call.len, { msg with ret := ret }⟩
      else
        (state.cvSdkReqRecordFree slot).setCall number
          ⟨.returned ret, call.len, { msg with ret := ret }⟩

/-- `os_sem_wait` gets the semaphore. -/
def requestWake (state : SdkState) (number : Nat) (slot : Fin cvSdkMaxReq) : SdkState :=
  (state.setRecord slot { state.reqs slot with sem := (state.reqs slot).sem - 1 }).setCall number
    { state.calls number with stage := .woken slot }

/-- `os_sem_wait` gives up. -/
def requestTimeOut (state : SdkState) (number : Nat) (slot : Fin cvSdkMaxReq) : SdkState :=
  let call := state.calls number
  state.setCall number ⟨.woken slot, call.len, { call.msg with ret := oamETimeout }⟩

/-- The second section of `cv_oam_sdk_api_request` under the lock. -/
def requestLeave (state : SdkState) (number : Nat) (slot : Fin cvSdkMaxReq) : SdkState :=
  let call := state.calls number
  (state.cvSdkReqRecordFree slot).setCall number { call with stage := .returned call.msg.ret }

/-- The end of `cv_oam_sdk_api_rsp`: the response, in the order of the host but for its
`req_id`, is copied to the caller, and the semaphore is posted. -/
def answer (order : ByteOrder) (state : SdkState) (slot : Fin cvSdkMaxReq) (number : Nat)
    (msg : CvSdkMsg) (data : Frame) : SdkState :=
  let call := state.calls number
  let len := oamNtohs order msg.len
  (state.setRecord slot { state.reqs slot with sem := (state.reqs slot).sem + 1 }).setCall number
    { call with
      msg :=
        { ret := oamNtohl order msg.ret
          reqId := msg.reqId
          reservd := msg.reservd
          sdkId := oamNtohs order msg.sdkId
          len := len
          data := copyInto call.msg.data 0 (data.take len.toNat) } }

/-- `cv_oam_sdk_api_rsp`. An undefined `sdk_id` is only printed. -/
def cvOamSdkApiRsp (order : ByteOrder) (state : SdkState) (msg : CvSdkMsg) : Checked SdkState :=
  match state.cvSdkReqRecordFind (oamNtohl order msg.reqId) with
  | none => return state
  | some slot =>
      match (state.reqs slot).msg with
      | none => return state
      | some number => do
          let len := oamNtohs order msg.len
          let data ← cvSdkXlat order (oamNtohs order msg.sdkId) (msg.received len.toNat) len .ntoh
          if len ≠ oamNtohs order (state.calls number).msg.len then
            return state
          else
            writable (state.calls number).msg.data.length 0 len.toNat
            return state.answer order slot number msg data

/-- Fewer than 2^32 identifiers were handed out after that of any pending request. -/
def Recent (state : SdkState) : Prop :=
  ∀ slot, (state.reqs slot).valid = true → state.issued - 1 < (state.reqs slot).serial + 2 ^ 32

end SdkState

/-- A step of a client. -/
inductive SdkAction where
  /-- A call begins. -/
  | call (number : Nat) (msg : CvSdkMsg)
  /-- It enters its request in the table and sends it. -/
  | enter (number : Nat) (semInit sends : Bool)
  /-- It gets its semaphore. -/
  | wake (number : Nat)
  /-- It stops waiting. -/
  | timeOut (number : Nat)
  /-- It takes its request out of the table and returns. -/
  | leave (number : Nat)
  /-- A response is received. -/
  | respond (msg : CvSdkMsg)

/-- The steps of a client. The message of a call holds the data it announces. A fault ends
the run. -/
inductive SdkStep (order : ByteOrder) : Checked SdkState → SdkAction → Checked SdkState → Prop
  | called {state : SdkState} {number : Nat} {msg : CvSdkMsg}
      (idle : (state.calls number).stage = .idle) (holds : msg.len.toNat ≤ msg.data.length) :
      SdkStep order (.ok state) (.call number msg) (state.requestPrepare order number msg)
  | entered {state : SdkState} {number : Nat} {semInit sends : Bool}
      (prepared : (state.calls number).stage = .prepared)
      (recent : (state.requestEnter order number semInit sends).Recent) :
      SdkStep order (.ok state) (.enter number semInit sends)
        (.ok (state.requestEnter order number semInit sends))
  | woken {state : SdkState} {number : Nat} {slot : Fin cvSdkMaxReq}
      (waiting : (state.calls number).stage = .waiting slot) (posted : 0 < (state.reqs slot).sem) :
      SdkStep order (.ok state) (.wake number) (.ok (state.requestWake number slot))
  | timedOut {state : SdkState} {number : Nat} {slot : Fin cvSdkMaxReq}
      (waiting : (state.calls number).stage = .waiting slot) :
      SdkStep order (.ok state) (.timeOut number) (.ok (state.requestTimeOut number slot))
  | left {state : SdkState} {number : Nat} {slot : Fin cvSdkMaxReq}
      (woken : (state.calls number).stage = .woken slot) :
      SdkStep order (.ok state) (.leave number) (.ok (state.requestLeave number slot))
  | responded {state : SdkState} {msg : CvSdkMsg} :
      SdkStep order (.ok state) (.respond msg) (state.cvOamSdkApiRsp order msg)

/-- A client as an action system. -/
def sdkSystem (order : ByteOrder) : ActionSystem SdkAction where
  State := Checked SdkState
  Initial state := state = .ok .initial
  Step := SdkStep order

end Rsu.Oam
