import Rsu.Oam.Sdk
import Rsu.Vam.Broadcast

/-!
# The management server's side of a request

From the received frame to the handler and back. The frame procedure is told how many
bytes arrived; the request path takes the buffer alone.
-/

namespace Rsu.Oam

open Rsu.Rcp Rsu.Vam Rsu.Data.BitMask Checked

/-- What the handlers read and write outside the message. -/
structure OamWorld where
  vam : VamEnvar
  /-- the byte in front of `bsm_boardcast_period` in `working_param` -/
  padding : Byte
  /-- `g_dbg_print_type` -/
  dbgPrintType : BitVec 32

/-- `vam_config_t` as it lies in memory. -/
def vamConfigBytes (config : VamConfig) (padding : Byte) : List Byte :=
  [config.bsmHops, config.bsmBoardcastMode, config.bsmBoardcastSaftyfactor, config.bsmPauseMode,
    config.bsmPauseHoldTime, padding] ++ store16 config.bsmBoardcastPeriod ++
  [config.evamHops, config.evamBroadcastType] ++ store16 config.evamBroadcastPeroid

/-- `vam_start` -/
def vamStart (world : OamWorld) : OamWorld :=
  { world with vam := world.vam.vamAddEventQueue .start }

/-- `vam_stop` -/
def vamStop (world : OamWorld) : OamWorld :=
  { world with vam := world.vam.vamAddEventQueue .stop }

/-- `vam_set_config` -/
def vamSetConfig (world : OamWorld) (config : VamConfig) : OamWorld :=
  { world with vam := { world.vam with workingParam := config } }

/-- `vam_set_print` -/
def vamSetPrint (world : OamWorld) (type : BitVec 32) : OamWorld :=
  { world with dbgPrintType := type }

/-- `CV_OAM_VAM_CFG_MASK_BSM_BCAST_MODE` -/
def cvOamVamCfgMaskBsmBcastMode : BitVec 32 := 2

/-- `CV_OAM_VAM_CFG_MASK_BSM_BCAST_PERIOD` -/
def cvOamVamCfgMaskBsmBcastPeriod : BitVec 32 := 4

section Handlers

variable (world : OamWorld) (region : Region) (data : Nat)

/-- `cv_oam_vam_cfg_get_cb` -/
def cvOamVamCfgGetCb : Checked (OamWorld × Region) := do
  let region ← region.write data (vamConfigBytes world.vam.workingParam world.padding)
  return (world, region)

/-- `cv_oam_vam_cfg_set_cb`: two of the fields can be set. -/
def cvOamVamCfgSetCb : Checked (OamWorld × Region) := do
  let mask ← region.read32 data
  let oldcfg := world.vam.workingParam
  let oldcfg ←
    if has mask cvOamVamCfgMaskBsmBcastMode then do
      let mode ← region.read8 (data + cfgSetCfgAt + bsmBoardcastModeAt)
      pure { oldcfg with bsmBoardcastMode := mode }
    else pure oldcfg
  let oldcfg ←
    if has mask cvOamVamCfgMaskBsmBcastPeriod then do
      let period ← region.read16 (data + cfgSetCfgAt + bsmBoardcastPeriodAt)
      pure { oldcfg with bsmBoardcastPeriod := period }
    else pure oldcfg
  return (vamSetConfig world oldcfg, region)

/-- `cv_oam_vam_bsm_trigger_cb`: an `int` is read, and its low byte decides. -/
def cvOamVamBsmTriggerCb : Checked (OamWorld × Region) := do
  let bsmTrigger ← region.read32 data
  return (if bsmTrigger.setWidth 8 ≠ (0 : Byte) then vamStart world else vamStop world, region)

/-- `cv_oam_vam_set_print_cb` -/
def cvOamVamSetPrintCb : Checked (OamWorld × Region) := do
  let printType ← region.read32 data
  return (vamSetPrint world printType, region)

/-- The entry of `g_sdk_handler_table` for a request. All of them return `OAM_E_OK`. -/
def CsSdkReqType.handler : CsSdkReqType → Checked (OamWorld × Region)
  | .vamParamCfgGet => cvOamVamCfgGetCb world region data
  | .vamParamCfgSet => cvOamVamCfgSetCb world region data
  | .vamBsmTrigger => cvOamVamBsmTriggerCb world region data
  | .vamSetPrint => cvOamVamSetPrintCb world region data

end Handlers

/-- What came of a received frame. -/
structure FrameOutcome where
  world : OamWorld
  /-- The request that was translated and executed. -/
  executed : Option CsSdkReqType
  /-- What was handed to `send`. -/
  reply : Option Frame

/-- `cv_oam_send_msg` on bytes of the received buffer. -/
def cvOamSendRegion (order : ByteOrder) (msgType : BitVec 16) (region : Region) (msg : Nat)
    (msgLen : BitVec 16) : Checked (Option Frame) := do
  if msgLen.toNat > cvOamPktMaxLen - cvFrameHeaderLen then return none
  else
    readable region.limit msg msgLen.toNat
    return cvOamSendMsg order msgType ((region.bytes.drop msg).take msgLen.toNat)

/-- `cv_oam_sdk_msg_handler` once it has found the functions of the request. The length it
sends is a `uint16_t`. -/
def sdkExecute (order : ByteOrder) (world : OamWorld) (region : Region) (msg : Nat)
    (request : CsSdkReqType) : Checked FrameOutcome := do
  let region ← request.xlat order region (msg + sdkDataAt) .ntoh
  let (world, region) ← request.handler world region (msg + sdkDataAt)
  let region ← region.write msg (store32 (oamHtonl order 0))
  let region ← request.xlat order region (msg + sdkDataAt) .hton
  let len ← region.read16 (msg + sdkLenAt)
  let reply ← cvOamSendRegion order cvOamL2MsgCmdRsp region msg
    (oamNtohs order len + BitVec.ofNat 16 sdkDataAt)
  return ⟨world, some request, reply⟩

/-- `cv_oam_sdk_msg_handler` -/
def cvOamSdkMsgHandler (order : ByteOrder) (world : OamWorld) (region : Region) (msg : Nat) :
    Checked FrameOutcome := do
  let sdkId ← region.read16 (msg + sdkIdAt)
  let _len ← region.read16 (msg + sdkLenAt)
  if (oamNtohs order sdkId).toNat ≥ cvSdkReqTypeEnd then return ⟨world, none, none⟩
  else
    match sdkRequest (oamNtohs order sdkId).toNat with
    | none => return ⟨world, none, none⟩
    | some request => sdkExecute order world region msg request

/-- `cv_oam_frame_proc`. Events and raw data are taken and forgotten. -/
def cvOamFrameProc (order : ByteOrder) (world : OamWorld) (region : Region) :
    Checked FrameOutcome := do
  let layer2Type ← region.read16 2
  let frameType ← region.read16 0
  if oamHtons order frameType = cvOamFrameTypeCmdMsg then
    if oamNtohs order layer2Type = cvOamL2MsgCmdReq then
      cvOamSdkMsgHandler order world region cvFrameHeaderLen
    else return ⟨world, none, none⟩
  else return ⟨world, none, none⟩

end Rsu.Oam
