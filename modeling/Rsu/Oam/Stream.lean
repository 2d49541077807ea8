import Rsu.Oam.Frame

/-!
# Frames on a byte stream

Both receive loops treat what one call of `recv` returns as one frame. TCP keeps the
order of the bytes and nothing else, so the frames come out as they were sent exactly
if the stream happens to be cut between them.
-/

namespace Rsu.Oam

open Rsu.Rcp

/-- What a call of `recv` returns. -/
inductive RecvResult where
  | data (bytes : Frame)
  /-- zero or less, with `errno` equal to `EINTR` -/
  | interrupted
  /-- zero or less, with another `errno` -/
  | broken

/-- The bytes that arrived. -/
def RecvResult.bytes? : RecvResult → Option Frame
  | .data bytes => some bytes
  | .interrupted => none
  | .broken => none

/-- The arguments of a call of `cv_oam_frame_proc` or `cv_oam_proc`. -/
structure FrameCall where
  pdu : Frame
  len : Nat

/-- The frame the call is about. -/
def FrameCall.frame (call : FrameCall) : Frame := call.pdu.take call.len

/-- The buffer after it was cleared and the bytes were received into it. -/
def recvBuffer (bytes : Frame) : Frame :=
  copyInto (List.replicate cvOamPktMaxLen 0) 0 bytes

/-- `cv_oam_rx_thread`: it ends with its connection. -/
def cvOamRxThread : List RecvResult → List FrameCall
  | [] => []
  | .data bytes :: later => ⟨recvBuffer bytes, bytes.length⟩ :: cvOamRxThread later
  | .interrupted :: later => cvOamRxThread later
  | .broken :: _ => []

/-- `cv_oam_proc_thread` of the client: it never ends. -/
def cvOamProcThread : List RecvResult → List FrameCall
  | [] => []
  | .data bytes :: later => ⟨recvBuffer bytes, bytes.length⟩ :: cvOamProcThread later
  | .interrupted :: later => cvOamProcThread later
  | .broken :: later => cvOamProcThread later

/-- A reliable connection delivers a stream: every byte once and in order, in pieces that
fit into the buffer. -/
structure Delivery (stream : Frame) where
  results : List RecvResult
  unbroken : RecvResult.broken ∉ results
  whole : (results.filterMap RecvResult.bytes?).flatten = stream
  sized : ∀ bytes, RecvResult.data bytes ∈ results → 1 ≤ bytes.length ∧ bytes.length ≤ cvOamPktMaxLen

/-- The pieces. -/
def Delivery.pieces {stream : Frame} (delivery : Delivery stream) : List Frame :=
  delivery.results.filterMap RecvResult.bytes?

/-- A call of `cv_oam_client_send_msg`. -/
structure ClientSend where
  frameType : BitVec 16
  msgType : BitVec 16
  msg : Frame

/-- A call of `cv_oam_send_msg`. -/
structure ServerSend where
  msgType : BitVec 16
  msg : Frame

/-- The frames a client sends. -/
def clientFrames (order : ByteOrder) (sends : List ClientSend) : List Frame :=
  sends.filterMap fun call => cvOamClientSendMsg order call.frameType call.msgType call.msg

/-- The frames the server sends on one connection. -/
def serverFrames (order : ByteOrder) (sends : List ServerSend) : List Frame :=
  sends.filterMap fun call => cvOamSendMsg order call.msgType call.msg

/-- A piece is found again at the start of the buffer. -/
theorem frame_recvBuffer (bytes : Frame) :
    (FrameCall.mk (recvBuffer bytes) bytes.length).frame = bytes := by
  simp [FrameCall.frame, recvBuffer, copyInto]

/-- The server processes one frame for each piece. -/
theorem cvOamRxThread_frames {results : List RecvResult} (unbroken : RecvResult.broken ∉ results) :
    (cvOamRxThread results).map FrameCall.frame = results.filterMap RecvResult.bytes? := by
  induction results with
  | nil => rfl
  | cons result later inductionHypothesis =>
      have rest := inductionHypothesis fun member => unbroken (List.mem_cons_of_mem _ member)
      cases result with
      | data bytes => simp [cvOamRxThread, RecvResult.bytes?, frame_recvBuffer, rest]
      | interrupted =>
          rw [cvOamRxThread, List.filterMap_cons_none rfl]
          exact rest
      | broken => exact absurd (List.mem_cons_self ..) unbroken

/-- So does the client. -/
theorem cvOamProcThread_frames (results : List RecvResult) :
    (cvOamProcThread results).map FrameCall.frame = results.filterMap RecvResult.bytes? := by
  induction results with
  | nil => rfl
  | cons result later inductionHypothesis =>
      cases result with
      | data bytes => simp [cvOamProcThread, RecvResult.bytes?, frame_recvBuffer, inductionHypothesis]
      | interrupted =>
          rw [cvOamProcThread, List.filterMap_cons_none rfl]
          exact inductionHypothesis
      | broken =>
          rw [cvOamProcThread, List.filterMap_cons_none rfl]
          exact inductionHypothesis

/-- The pieces are the frames exactly if the stream is cut where the frames end. -/
theorem Delivery.pieces_eq_iff {frames : List Frame} (delivery : Delivery frames.flatten) :
    delivery.pieces = frames ↔ delivery.pieces.map List.length = frames.map List.length := by
  rw [List.eq_iff_flatten_eq]
  exact and_iff_right delivery.whole

/-- Each side processes exactly the frames that the other one sent, each once, in order and
with its own bytes, exactly if every result of `recv` has the length of the frame in its
place. -/
theorem frames_processed_iff (order : ByteOrder) (sends : List ClientSend)
    (upward : Delivery (clientFrames order sends).flatten) (replies : List ServerSend)
    (downward : Delivery (serverFrames order replies).flatten) :
    ((cvOamRxThread upward.results).map FrameCall.frame = clientFrames order sends ↔
      upward.pieces.map List.length = (clientFrames order sends).map List.length) ∧
    ((cvOamProcThread downward.results).map FrameCall.frame = serverFrames order replies ↔
      downward.pieces.map List.length = (serverFrames order replies).map List.length) := by
  rw [cvOamRxThread_frames upward.unbroken, cvOamProcThread_frames]
  exact ⟨upward.pieces_eq_iff, downward.pieces_eq_iff⟩

/-- A stream that is cut where the frames end. -/
def Delivery.intact (frames : List Frame)
    (sized : ∀ frame ∈ frames, 1 ≤ frame.length ∧ frame.length ≤ cvOamPktMaxLen) :
    Delivery frames.flatten where
  results := frames.map .data
  unbroken := by simp
  whole := by
    have pieces : (frames.map RecvResult.data).filterMap RecvResult.bytes? = frames := by
      simp [List.filterMap_map, Function.comp_def, RecvResult.bytes?]
    rw [pieces]
  sized := by
    intro bytes member
    obtain ⟨frame, sent, same⟩ := List.mem_map.1 member
    cases same
    exact sized bytes sent

/-- Frames that arrive one by one are the pieces. -/
theorem Delivery.intact_pieces (frames : List Frame)
    (sized : ∀ frame ∈ frames, 1 ≤ frame.length ∧ frame.length ≤ cvOamPktMaxLen) :
    (Delivery.intact frames sized).pieces = frames := by
  simp [Delivery.pieces, Delivery.intact, List.filterMap_map, Function.comp_def, RecvResult.bytes?]

/-- What a client sends fits into one result of `recv`. -/
theorem clientFrames_sized (order : ByteOrder) (sends : List ClientSend) :
    ∀ frame ∈ clientFrames order sends, 1 ≤ frame.length ∧ frame.length ≤ cvOamPktMaxLen := by
  intro frame member
  obtain ⟨call, -, sent⟩ := List.mem_filterMap.1 member
  obtain ⟨length, fits⟩ := oamPkt_length sent
  exact ⟨by rw [length, cvFrameHeaderLen]; omega, fits⟩

/-- Whatever a client sends comes out as it was sent on a connection that is read after
every frame. -/
theorem intact_frames_processed (order : ByteOrder) (sends : List ClientSend) :
    (cvOamRxThread (Delivery.intact _ (clientFrames_sized order sends)).results).map
      FrameCall.frame = clientFrames order sends := by
  rw [cvOamRxThread_frames (Delivery.intact _ _).unbroken]
  exact Delivery.intact_pieces _ _

/-- Two requests to stop the safety messages, sent in a row. -/
def twoRequests : List ClientSend :=
  List.replicate 2 ⟨cvOamFrameTypeCmdMsg, cvOamL2MsgCmdReq,
    [0, 0, 0, 0, 0, 0, 0, 0, 0, 0, 0, 0, 0, 2, 0, 1, 0]⟩

/-- Both arrive at once. -/
def mergedDelivery : Delivery (clientFrames .little twoRequests).flatten where
  results := [.data (clientFrames .little twoRequests).flatten]
  unbroken := by simp
  whole := by simp [RecvResult.bytes?]
  sized := by
    intro bytes member
    obtain rfl : bytes = (clientFrames .little twoRequests).flatten := by simpa using member
    decide

/-- The second of two frames that arrive together is never processed. -/
theorem merged_frames_processed_once :
    ¬ ∀ (order : ByteOrder) (sends : List ClientSend)
      (delivery : Delivery (clientFrames order sends).flatten),
      (cvOamRxThread delivery.results).map FrameCall.frame = clientFrames order sends := by
  intro processed
  have lengths := congrArg List.length (processed .little twoRequests mergedDelivery)
  have once : ((cvOamRxThread mergedDelivery.results).map FrameCall.frame).length = 1 := rfl
  have twice : (clientFrames .little twoRequests).length = 2 := by decide
  rw [once, twice] at lengths
  cases lengths

end Rsu.Oam
