import Rsu.Vam.LocalAlert

/-!
# `cv_vam_rcp.c`: the messages sent

Every send needs a buffer from the network layer and passes on what `wnet_send`
returns. Of the frames only the fields are kept that depend on the alerts, the
counters and the identity of the node; the position and motion of the node and
the constant link parameters are left out.
-/

namespace Rsu.Vam

open Rsu.Data.BitMask Rsu.Rcp

/-- The network layer at the time of a send: whether `wnet_get_txbuf` has a
buffer, and what `wnet_send` returns. -/
structure TxEnv where
  txbuf : Bool
  sent : Int

/-- A basic safety message as it is sent; `events` is absent without the safety
extension. -/
structure TxBsm where
  hops : BitVec 3
  msgCount : Byte
  temporaryId : TempId
  forwardId : Option TempId
  events : Option (BitVec 16)
  deriving DecidableEq

/-- A road-side alert as it is sent; a code that is not written keeps what the
buffer held. -/
structure TxRsa where
  hops : BitVec 3
  msgCount : Byte
  typeEvent : BitVec 16
  description : List (Option (BitVec 16))
  deriving DecidableEq

/-- RTCM corrections as they are sent. -/
structure TxRtcm where
  len : Nat
  payload : List Byte
  deriving DecidableEq

/-- `encode_itiscode`: the type event, and the eight codes of the description. -/
def encodeItiscode (rsaMask : BitVec 16) : BitVec 16 × List (Option (BitVec 16)) :=
  let code := fun bit => cvNtohs (itiscode.getD bit 0)
  (if rsaMask.getLsbD 0 then code 0 else 0,
    (List.range 8).map fun index =>
      if rsaMask.getLsbD (index + 1) then some (code (index + 1)) else none)

namespace VamEnvar

/-- The events field of the next basic safety message. -/
def bsmEvents (vam : VamEnvar) : Option (BitVec 16) :=
  if has vam.flag vamFlagTxBsmAlert then some (encodeVehicleAlert vam.localSta.alertMask) else none

/-- `rcp_send_bsm`: the return value, the frame, and the new state. -/
def rcpSendBsm (vam : VamEnvar) (tx : TxEnv) : Int × Option TxBsm × VamEnvar :=
  if tx.txbuf then
    let param := vam.workingParam
    let alert := has vam.flag vamFlagTxBsmAlert
    (tx.sent,
      some
        { hops := if alert then param.bsmHops.setWidth 3 else 1
          msgCount := vam.txBsmMsgCnt
          temporaryId := vam.localSta.pid
          forwardId := if param.bsmHops > 1 then some vam.localSta.pid else none
          events := vam.bsmEvents },
      { vam with txBsmMsgCnt := vam.txBsmMsgCnt + 1 })
  else (-1, none, vam)

/-- `rcp_send_rsa` -/
def rcpSendRsa (vam : VamEnvar) (tx : TxEnv) : Int × Option TxRsa × VamEnvar :=
  if tx.txbuf then
    let counted := { vam with txRsaMsgCnt := vam.txRsaMsgCnt + 1 }
    let active := counted.vamActiveRsa rsaTypeCurve
    let codes := encodeItiscode active.localSta.alertMask
    (tx.sent,
      some
        { hops := vam.workingParam.bsmHops.setWidth 3
          msgCount := vam.txRsaMsgCnt
          typeEvent := codes.1
          description := codes.2 },
      active)
  else (-1, none, vam)

/-- `rcp_send_rtcm`: the result of `wnet_send` is only printed. -/
def rcpSendRtcm (vam : VamEnvar) (buff : List Byte) (len : Nat) (tx : TxEnv) :
    Int × Option TxRtcm × VamEnvar :=
  if tx.txbuf then (len, some ⟨len, buff.take len⟩, vam.vamActiveRsa rsaTypeCurve)
  else (-1, none, vam)

end VamEnvar

end Rsu.Vam
