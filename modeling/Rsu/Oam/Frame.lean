import Rsu.Rcp.Codec

/-!
# Frames of the management channel

The frame the management server and its clients exchange over TCP, and the two
functions that put one together. The header names the kind of the frame and says
nothing about its length.
-/

namespace Rsu.Oam

open Rsu.Rcp

/-- `CV_OAM_PKT_MAX_LEN` -/
def cvOamPktMaxLen : Nat := 1200

/-- `CV_FRAME_HEADER_LEN` -/
def cvFrameHeaderLen : Nat := 4

/-- `CV_OAM_FRAME_TYPE_CMD_MSG` -/
def cvOamFrameTypeCmdMsg : BitVec 16 := 2

/-- `CV_OAM_FRAME_TYPE_EVENT_MSG` -/
def cvOamFrameTypeEventMsg : BitVec 16 := 3

/-- `CV_OAM_FRAME_TYPE_RAW_DATA` -/
def cvOamFrameTypeRawData : BitVec 16 := 4

/-- `CV_OAM_L2_MSG_CMD_REQ` -/
def cvOamL2MsgCmdReq : BitVec 16 := 1

/-- `CV_OAM_L2_MSG_CMD_RSP` -/
def cvOamL2MsgCmdRsp : BitVec 16 := 2

/-- The branch of `oam_types.h` that the build takes: it tests `__BIG_ENDIAN` first,
which some C libraries define on every host. -/
inductive ByteOrder where
  | big
  | little
  deriving DecidableEq

/-- `oam_ntohs`; `oam_htons` is the same. -/
def oamNtohs : ByteOrder → BitVec 16 → BitVec 16
  | .big, x => x
  | .little, x => cvNtohs x

/-- `oam_ntohl`; `oam_htonl` is the same. -/
def oamNtohl : ByteOrder → BitVec 32 → BitVec 32
  | .big, x => x
  | .little, x => cvNtohl x

/-- `oam_htons` -/
abbrev oamHtons : ByteOrder → BitVec 16 → BitVec 16 := oamNtohs

/-- `oam_htonl` -/
abbrev oamHtonl : ByteOrder → BitVec 32 → BitVec 32 := oamNtohl

/-- Two conversions cancel. -/
@[simp] theorem oamNtohs_oamNtohs (order : ByteOrder) (x : BitVec 16) :
    oamNtohs order (oamNtohs order x) = x := by
  cases order with
  | big => rfl
  | little => exact cvNtohs_cvNtohs x

/-- What both senders hand to `send`, unless the message is too long. -/
def oamPkt (order : ByteOrder) (frameType msgType : BitVec 16) (msg : Frame) : Option Frame :=
  if msg.length > cvOamPktMaxLen - cvFrameHeaderLen then none
  else some (store16 (oamHtons order frameType) ++ store16 (oamHtons order msgType) ++ msg)

/-- `cv_oam_client_send_msg` -/
def cvOamClientSendMsg (order : ByteOrder) (frameType msgType : BitVec 16) (msg : Frame) :
    Option Frame :=
  oamPkt order frameType msgType msg

/-- `cv_oam_send_msg` -/
def cvOamSendMsg (order : ByteOrder) (msgType : BitVec 16) (msg : Frame) : Option Frame :=
  oamPkt order cvOamFrameTypeCmdMsg msgType msg

/-- What is sent has a header and fits into the receiver's buffer. -/
theorem oamPkt_length {order : ByteOrder} {frameType msgType : BitVec 16} {msg frame : Frame}
    (sent : oamPkt order frameType msgType msg = some frame) :
    frame.length = cvFrameHeaderLen + msg.length ∧ frame.length ≤ cvOamPktMaxLen := by
  unfold oamPkt at sent
  split at sent
  · cases sent
  · next short =>
    cases sent
    simp only [cvOamPktMaxLen, cvFrameHeaderLen] at short
    simp [cvOamPktMaxLen, cvFrameHeaderLen, store16]
    omega

end Rsu.Oam
