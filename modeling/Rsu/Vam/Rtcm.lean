import Mathlib.Data.List.TakeDrop
import Rsu.Vam.Transmit
import Rsu.Wnet.RoundTrip

/-!
# Corrections from the caster to the air

The receive loop of the NTRIP client hands every chunk it reads to `rcp_send_rtcm`,
which copies it into the payload field of one message. The message is sent with its
fixed size whatever the size of the chunk was.
-/

namespace Rsu.Vam

open Rsu.Rcp Rsu.Drv Rsu.Wnet Checked

/-- `RCP_MSG_ID_RTCM` -/
def rcpMsgIdRtcm : BitVec 5 := 12

/-- `RTCM_Revision_rtcmRev2_3` -/
def rtcmRevisionRtcmRev2_3 : BitVec 32 := 23

/-- The offset of `len` in `rcp_msg_RTCM_Corrections_t`. -/
def rtcmLenAt : Nat := 8

/-- The offset of `payload`. -/
def rtcmPayloadAt : Nat := 12

/-- The size of `payload`. -/
def rtcmPayloadLength : Nat := 256

/-- `sizeof(rcp_msg_RTCM_Corrections_t)` -/
def rtcmMsgLength : Nat := rtcmPayloadAt + rtcmPayloadLength

/-- The first `len` bytes of the payload of a message. -/
def rtcmPayload (message : Frame) : Frame :=
  (slice message rtcmPayloadAt rtcmPayloadLength).take (load32 message rtcmLenAt).toNat

/-- What one call of `rcp_send_rtcm` did. -/
structure RtcmSend where
  /-- The frame that left. -/
  frame : Option Frame
  /-- The bytes written from the start of `payload` on. -/
  copied : Nat
  /-- The value returned. -/
  ret : Int

/-- `rcp_send_rtcm`. The socket may refuse the frame, and nobody looks at that. -/
def rcpSendRtcm (wifi : DrvWifiEnvar) (takes : Bool) (buff : Frame) : Checked RtcmSend := do
  let txbuf ← store freshTxbuf txbufDataAt [(0 : BitVec 3) ++ rcpMsgIdRtcm, 1]
  let txbuf ← store txbuf (txbufDataAt + 2) (store32 rtcmRevisionRtcmRev2_3)
  let txbuf ← store txbuf (txbufDataAt + rtcmLenAt) (store32 (BitVec.ofNat 32 buff.length))
  let txbuf ← store txbuf (txbufDataAt + rtcmPayloadAt) buff
  let frame ← wnetSend wifi plainDsmp txbuf txbufDataAt rtcmMsgLength
  return ⟨if takes then frame else none, buff.length, buff.length⟩

/-- What `recv` of the client returns, up to `MAXDATASIZE - 1` bytes. -/
structure Chunk where
  buf : Frame
  nonempty : 1 ≤ buf.length
  fits : buf.length ≤ 999

/-- The loop over a chunk: what was not taken is sent again. Every turn takes a byte,
so the length of the chunk bounds the turns. The flag is `stop`. -/
def serialLoop (wifi : DrvWifiEnvar) (takes : Nat → Bool) :
    (fuel : Nat) → (rest : Frame) → (calls : Nat) → Checked (List RtcmSend × Bool)
  | 0, _, _ => return ([], false)
  | fuel + 1, rest, calls => do
      if 0 < rest.length then
        let sent ← rcpSendRtcm wifi (takes calls) rest
        if sent.ret < 0 then return ([sent], true)
        else
          let (later, stop) ← serialLoop wifi takes fuel (rest.drop sent.ret.toNat) (calls + 1)
          return (sent :: later, stop)
      else return ([], false)

/-- The receive loop of the client: every call of `rcp_send_rtcm`, where `takes` says
which frames the socket takes. -/
def ntripLoop (wifi : DrvWifiEnvar) (takes : Nat → Bool) :
    List Chunk → (calls : Nat) → Checked (List RtcmSend)
  | [], _ => return []
  | chunk :: later, calls => do
      let (sends, stop) ← serialLoop wifi takes chunk.buf.length chunk.buf calls
      if stop then return sends
      else
        let next ← ntripLoop wifi takes later (calls + sends.length)
        return sends ++ next

/-- What a frame of a correction carries. -/
def carried (frame : Frame) : Frame := rtcmPayload (frame.drop txbufDataAt)

/-- The head of the message of a chunk. -/
def rtcmHead (len : Nat) : List Byte :=
  [(0 : BitVec 3) ++ rcpMsgIdRtcm, 1] ++ store32 rtcmRevisionRtcmRev2_3 ++ [0, 0] ++
    store32 (BitVec.ofNat 32 len)

/-- A buffer with the head of the message. -/
def headWritten (len : Nat) : Frame :=
  copyInto (copyInto (copyInto freshTxbuf (txbufDataAt + 0) [(0 : BitVec 3) ++ rcpMsgIdRtcm, 1])
    (txbufDataAt + 2) (store32 rtcmRevisionRtcmRev2_3))
    (txbufDataAt + rtcmLenAt) (store32 (BitVec.ofNat 32 len))

/-- The head stands at `data_ptr`, between zeros. -/
theorem headWritten_eq (len : Nat) :
    headWritten len = List.replicate txbufDataAt 0 ++
      (rtcmHead len ++ List.replicate (txbufRoom - rtcmPayloadAt) 0) := by
  have fresh : freshTxbuf = List.replicate txbufDataAt 0 ++
      (List.replicate rtcmPayloadAt 0 ++ List.replicate (txbufRoom - rtcmPayloadAt) 0) := by
    rw [List.replicate_append_replicate, List.replicate_append_replicate]
    rfl
  have reserve : (List.replicate txbufDataAt (0 : Byte)).length = txbufDataAt :=
    List.length_replicate
  generalize List.replicate txbufDataAt (0 : Byte) = front at fresh reserve ⊢
  generalize List.replicate (txbufRoom - rtcmPayloadAt) (0 : Byte) = rest at fresh ⊢
  have head : copyInto (copyInto (copyInto (List.replicate rtcmPayloadAt 0) 0
      [(0 : BitVec 3) ++ rcpMsgIdRtcm, 1]) 2 (store32 rtcmRevisionRtcmRev2_3))
      rtcmLenAt (store32 (BitVec.ofNat 32 len)) = rtcmHead len := rfl
  rw [headWritten, fresh, ← reserve, copyInto_append_add, copyInto_append_add,
    copyInto_append_add, copyInto_append, copyInto_append, copyInto_append, head]
  · exact Nat.le_refl 12
  · exact Nat.le_of_ble_eq_true rfl
  · exact Nat.le_of_ble_eq_true rfl

theorem headWritten_length (len : Nat) : (headWritten len).length = txbufDataAt + txbufRoom := by
  rw [headWritten_eq, List.length_append, List.length_append, List.length_replicate,
    List.length_replicate]
  rfl

/-- The message that is sent for a chunk. -/
def rtcmMessage (buff : Frame) : Frame :=
  rtcmHead buff.length ++
    (buff ++ (List.replicate (txbufRoom - rtcmPayloadAt) 0).drop buff.length).take rtcmPayloadLength

theorem rtcmMessage_length (buff : Frame) : (rtcmMessage buff).length = rtcmMsgLength := by
  have head : (rtcmHead buff.length).length = rtcmPayloadAt := rfl
  have enough : rtcmPayloadLength ≤ txbufRoom - rtcmPayloadAt := by decide
  rw [rtcmMessage, List.length_append, head, List.length_take, List.length_append,
    List.length_drop, List.length_replicate, rtcmMsgLength]
  omega

/-- A message carries its chunk as far as the payload field goes. -/
theorem rtcmPayload_rtcmMessage {buff : Frame} (small : buff.length < 2 ^ 32) :
    rtcmPayload (rtcmMessage buff) = buff.take rtcmPayloadLength := by
  have len : (load32 (rtcmMessage buff) rtcmLenAt).toNat = buff.length := by
    have stored : load32 (rtcmMessage buff) rtcmLenAt =
        load32 (store32 (BitVec.ofNat 32 buff.length)) 0 := rfl
    rw [stored, load32_store32, BitVec.toNat_ofNat, Nat.mod_eq_of_lt small]
  have field : slice (rtcmMessage buff) rtcmPayloadAt rtcmPayloadLength =
      (buff ++ (List.replicate (txbufRoom - rtcmPayloadAt) 0).drop buff.length).take
        rtcmPayloadLength := by
    have front : rtcmPayloadAt = (rtcmHead buff.length).length := rfl
    rw [slice, rtcmMessage, front, List.drop_left, List.take_take, Nat.min_self]
  rw [rtcmPayload, len, field, List.take_take, Nat.min_comm, ← List.take_take, List.take_left]

/-- The buffer when the chunk has been copied. -/
theorem copyInto_headWritten (buff : Frame) :
    copyInto (headWritten buff.length) (txbufDataAt + rtcmPayloadAt) buff =
      List.replicate txbufDataAt 0 ++ (rtcmHead buff.length ++
        (buff ++ (List.replicate (txbufRoom - rtcmPayloadAt) 0).drop buff.length)) := by
  have place : txbufDataAt + rtcmPayloadAt =
      (List.replicate txbufDataAt (0 : Byte)).length + ((rtcmHead buff.length).length + 0) := by
    rw [List.length_replicate]
    rfl
  have front : ∀ rest : Frame, copyInto rest 0 buff = buff ++ rest.drop buff.length := by
    simp [copyInto]
  rw [headWritten_eq, place, copyInto_append_add, copyInto_append_add, front]

/-- The message stands at `data_ptr` when the chunk has been copied. -/
theorem holds_rtcmMessage {buff : Frame} (fits : rtcmPayloadAt + buff.length ≤ txbufRoom) :
    Holds (copyInto (headWritten buff.length) (txbufDataAt + rtcmPayloadAt) buff) txbufDataAt
      (rtcmMessage buff) := by
  have written := copyInto_headWritten buff
  have start : rtcmPayloadAt ≤ txbufRoom := by decide
  refine ⟨?_, by decide, ?_⟩
  · have head : (rtcmHead buff.length).length = rtcmPayloadAt := rfl
    have total : txbufDataAt + txbufRoom = txbufLength := rfl
    rw [written, List.length_append, List.length_append, List.length_append, List.length_drop,
      List.length_replicate, List.length_replicate, head]
    omega
  · rw [written, List.drop_left' List.length_replicate]
    exact (List.prefix_append_right_inj _).2 (List.take_prefix ..)

/-- A frame that left carries its message. -/
theorem carried_sent (wifi : DrvWifiEnvar) (reserved message : List Byte) (two : reserved.length = 2) :
    (sent wifi (beaconFixedElement ++ dsmpFrame reserved message)).toList.flatMap carried =
      if wifi.monitorSock ≠ 0 then rtcmPayload message else [] := by
  have front : txbufDataAt = (beaconHdr wifi.mac ++ (beaconFixedElement ++ (llcHdr ++
      ([secVersion, 0] ++ reserved ++ dsmpHdr message.length)))).length := by
    simp only [List.length_append, beaconHdr_length, dsmpHdr_length, two]
    rfl
  have behind : (beaconHdr wifi.mac ++ (beaconFixedElement ++ dsmpFrame reserved message)).drop
      txbufDataAt = message := by
    rw [front, dsmpFrame]
    simp only [← List.append_assoc]
    exact List.drop_left
  unfold sent
  split
  · simp [carried, behind]
  · rfl

/-- The head is written inside the buffer. -/
theorem ends_head (len : Nat) (next : Frame → Checked RtcmSend) (post : RtcmSend → Prop) :
    Ends (do
        let txbuf ← store freshTxbuf txbufDataAt [(0 : BitVec 3) ++ rcpMsgIdRtcm, 1]
        let txbuf ← store txbuf (txbufDataAt + 2) (store32 rtcmRevisionRtcmRev2_3)
        let txbuf ← store txbuf (txbufDataAt + rtcmLenAt) (store32 (BitVec.ofNat 32 len))
        next txbuf) post ↔ Ends (next (headWritten len)) post := by
  let first := copyInto freshTxbuf txbufDataAt [(0 : BitVec 3) ++ rcpMsgIdRtcm, 1]
  let second := copyInto first (txbufDataAt + 2) (store32 rtcmRevisionRtcmRev2_3)
  have fresh : freshTxbuf.length = 512 := List.length_replicate
  have id : txbufDataAt + 2 ≤ freshTxbuf.length := by
    rw [fresh]
    decide
  have firstLength : first.length = 512 := (copyInto_length id).trans fresh
  have revision : txbufDataAt + 2 + 4 ≤ first.length := by
    rw [firstLength]
    decide
  have secondLength : second.length = 512 := (copyInto_length revision).trans firstLength
  have length : txbufDataAt + rtcmLenAt + 4 ≤ second.length := by
    rw [secondLength]
    decide
  exact (ends_store_bind id _ _).trans
    ((ends_store_bind revision _ _).trans (ends_store_bind length _ _))

/-- `rcp_send_rtcm` on a chunk that the buffer holds: all of it counts as sent, and the
frame has what the payload field holds. -/
theorem rcpSendRtcm_fits (wifi : DrvWifiEnvar) (takes : Bool) {buff : Frame}
    (fits : rtcmPayloadAt + buff.length ≤ txbufRoom) :
    ∃ frame : Option Frame,
      (frame.toList.flatMap carried =
        if wifi.monitorSock ≠ 0 ∧ takes then buff.take rtcmPayloadLength else []) ∧
      rcpSendRtcm wifi takes buff = .ok ⟨frame, buff.length, buff.length⟩ := by
  have room : txbufRoom = 454 := rfl
  have dsmp : plainDsmp.protocol = wnetTransProtDsmp := rfl
  have placed := holds_rtcmMessage fits
  obtain ⟨reserved, two, leaves⟩ := wnetSend_holds wifi placed dsmp rfl
  have carries := carried_sent wifi reserved (rtcmMessage buff) two
  rw [rtcmPayload_rtcmMessage (by omega)] at carries
  rw [rtcmMessage_length] at leaves
  refine ⟨if takes then sent wifi (beaconFixedElement ++ dsmpFrame reserved (rtcmMessage buff))
    else none, ?_, ?_⟩
  · cases takes with
    | true => simpa using carries
    | false => simp
  · have inside : txbufDataAt + rtcmPayloadAt + buff.length ≤ (headWritten buff.length).length := by
      rw [headWritten_length]
      omega
    rw [← ends_eq]
    unfold rcpSendRtcm
    rw [ends_head, ends_store_bind inside, leaves]
    exact (ends_pure ..).2 rfl

/-- The module sends the same message: the value returned is the same, and the frame carries of the
message's payload what the field holds. -/
theorem rcpSendRtcm_message (wifi : DrvWifiEnvar) (takes : Bool) (vam : VamEnvar) {tx : TxEnv}
    (available : tx.txbuf) {buff : Frame} (fits : rtcmPayloadAt + buff.length ≤ txbufRoom) :
    ∃ send message, rcpSendRtcm wifi takes buff = .ok send ∧
      vam.rcpSendRtcm buff buff.length tx =
        (send.ret, some message, vam.vamActiveRsa rsaTypeCurve) ∧
      send.frame.toList.flatMap carried =
        if wifi.monitorSock ≠ 0 ∧ takes then message.payload.take rtcmPayloadLength else [] := by
  obtain ⟨frame, carries, sends⟩ := rcpSendRtcm_fits wifi takes fits
  refine ⟨_, ⟨buff.length, buff.take buff.length⟩, sends, ?_, ?_⟩
  · rw [VamEnvar.rcpSendRtcm, if_pos available]
  · rw [List.take_length]
    exact carries

/-- A chunk that the buffer does not hold is written past its end. -/
theorem not_ends_rcpSendRtcm (wifi : DrvWifiEnvar) (takes : Bool) {buff : Frame}
    (large : txbufRoom < rtcmPayloadAt + buff.length) (post : RtcmSend → Prop) :
    ¬ Ends (rcpSendRtcm wifi takes buff) post := by
  unfold rcpSendRtcm
  rw [ends_head, ends_bind, ends_store]
  rintro ⟨inside, -⟩
  rw [headWritten_length] at inside
  omega

/-- The stream that the frames carry together. -/
def streamOf (sends : List RtcmSend) : Frame :=
  sends.flatMap fun send => send.frame.toList.flatMap carried

/-- The first call of the sender, and the others. -/
theorem streamOf_cons (frame : Option Frame) (copied : Nat) (ret : Int) (next : List RtcmSend) :
    streamOf (⟨frame, copied, ret⟩ :: next) = frame.toList.flatMap carried ++ streamOf next :=
  List.flatMap_cons

/-- Every copy stayed inside the payload field, and the frames carry the chunks. -/
def Forwarded (chunks : List Chunk) (sends : List RtcmSend) : Prop :=
  (∀ send ∈ sends, send.copied ≤ rtcmPayloadLength) ∧
    streamOf sends = chunks.flatMap fun chunk => chunk.buf

/-- Every chunk fits into the payload field, and its frame is taken by the socket. -/
def Forwardable (wifi : DrvWifiEnvar) (takes : Nat → Bool) (chunks : List Chunk)
    (calls : Nat) : Prop :=
  ∀ index chunk, chunks[index]? = some chunk →
    chunk.buf.length ≤ rtcmPayloadLength ∧ wifi.monitorSock ≠ 0 ∧ takes (calls + index)

section Run

variable (wifi : DrvWifiEnvar) (takes : Nat → Bool) (calls : Nat) {chunk : Chunk}

/-- Nothing is left of a chunk that was taken whole. -/
theorem serialLoop_nil (fuel : Nat) : serialLoop wifi takes fuel [] calls = .ok ([], false) := by
  cases fuel <;> rfl

/-- The loop over a chunk that the buffer holds ends after one turn. -/
theorem serialLoop_fits (fits : rtcmPayloadAt + chunk.buf.length ≤ txbufRoom) :
    ∃ frame : Option Frame,
      (frame.toList.flatMap carried =
        if wifi.monitorSock ≠ 0 ∧ takes calls then chunk.buf.take rtcmPayloadLength else []) ∧
      serialLoop wifi takes chunk.buf.length chunk.buf calls =
        .ok ([⟨frame, chunk.buf.length, chunk.buf.length⟩], false) := by
  obtain ⟨frame, carries, sends⟩ := rcpSendRtcm_fits wifi (takes calls) fits
  obtain ⟨fuel, turns⟩ := Nat.exists_eq_add_of_le' chunk.nonempty
  have taken : ¬ (chunk.buf.length : Int) < 0 := by omega
  refine ⟨frame, carries, ?_⟩
  have positive : 0 < chunk.buf.length := chunk.nonempty
  conv_lhs => rw [turns]
  rw [serialLoop, if_pos positive, sends, ← ends_eq]
  rw [ends_bind, ends_ok, if_neg taken, Int.toNat_natCast, List.drop_length, serialLoop_nil]
  exact (ends_ok ..).2 rfl

/-- The loop over a larger chunk leaves the buffer. -/
theorem not_ends_serialLoop (large : txbufRoom < rtcmPayloadAt + chunk.buf.length)
    (post : List RtcmSend × Bool → Prop) :
    ¬ Ends (serialLoop wifi takes chunk.buf.length chunk.buf calls) post := by
  obtain ⟨fuel, turns⟩ := Nat.exists_eq_add_of_le' chunk.nonempty
  have positive : 0 < chunk.buf.length := chunk.nonempty
  intro ends
  rw [turns, serialLoop, if_pos positive, ends_bind] at ends
  exact not_ends_rcpSendRtcm wifi (takes calls) large _ ends

/-- The receive loop on its first chunk. -/
theorem ends_ntripLoop_cons (later : List Chunk)
    (fits : rtcmPayloadAt + chunk.buf.length ≤ txbufRoom) :
    ∃ frame : Option Frame,
      (frame.toList.flatMap carried =
        if wifi.monitorSock ≠ 0 ∧ takes calls then chunk.buf.take rtcmPayloadLength else []) ∧
      ∀ post, Ends (ntripLoop wifi takes (chunk :: later) calls) post ↔
        Ends (ntripLoop wifi takes later (calls + 1)) fun next =>
          post (⟨frame, chunk.buf.length, chunk.buf.length⟩ :: next) := by
  obtain ⟨frame, carries, loop⟩ := serialLoop_fits wifi takes calls fits
  refine ⟨frame, carries, fun post => ?_⟩
  rw [ntripLoop, loop, ends_bind, ends_ok]
  simp

/-- A frame never carries more than its chunk. -/
theorem carried_length_le (taken : Prop) [Decidable taken] :
    (if taken then chunk.buf.take rtcmPayloadLength else []).length ≤ chunk.buf.length := by
  split
  · exact List.length_take_le' ..
  · exact Nat.zero_le _

/-- A frame carries its chunk exactly when the chunk fits and the frame is taken. -/
theorem carries_chunk_iff (taken : Prop) [Decidable taken] :
    (if taken then chunk.buf.take rtcmPayloadLength else []) = chunk.buf ↔
      chunk.buf.length ≤ rtcmPayloadLength ∧ taken := by
  have nonempty : chunk.buf ≠ [] := List.ne_nil_of_length_pos chunk.nonempty
  split
  · next sent => rw [List.take_eq_self_iff, and_iff_left sent]
  · next refused => exact iff_of_false (fun same => nonempty same.symm) fun both => refused both.2

/-- The frames never carry more than the chunks. -/
theorem streamOf_length_le (chunks : List Chunk) :
    ∀ calls sends, ntripLoop wifi takes chunks calls = .ok sends →
      (streamOf sends).length ≤ (chunks.flatMap fun chunk => chunk.buf).length := by
  induction chunks with
  | nil =>
      intro calls sends loop
      cases loop
      exact Nat.le_refl 0
  | cons chunk later ih =>
      intro calls sends loop
      by_cases fits : rtcmPayloadAt + chunk.buf.length ≤ txbufRoom
      · obtain ⟨frame, carries, run⟩ := ends_ntripLoop_cons wifi takes calls later fits
        have ends := (run fun result => result = sends).1 ((ends_eq _ _).2 loop)
        obtain ⟨next, rest, rfl⟩ := ends
        have bound := ih (calls + 1) next rest
        have head : (frame.toList.flatMap carried).length ≤ chunk.buf.length := by
          rw [carries]
          exact carried_length_le _
        simp only [streamOf_cons, List.flatMap_cons, List.length_append]
        omega
      · have ends := (ends_eq _ _).2 loop
        rw [ntripLoop, ends_bind] at ends
        exact absurd ends (not_ends_serialLoop wifi takes calls (Nat.lt_of_not_le fits) _)

/-- Forwardable chunks, the first one and the others. -/
theorem forwardable_cons (later : List Chunk) :
    Forwardable wifi takes (chunk :: later) calls ↔
      (chunk.buf.length ≤ rtcmPayloadLength ∧ wifi.monitorSock ≠ 0 ∧ takes calls) ∧
        Forwardable wifi takes later (calls + 1) := by
  constructor
  · refine fun all => ⟨all 0 chunk rfl, fun index other found => ?_⟩
    have shifted := all (index + 1) other found
    rwa [← Nat.add_assoc, Nat.add_right_comm] at shifted
  · rintro ⟨first, rest⟩ index other found
    cases index with
    | zero =>
        cases found
        exact first
    | succ index =>
        have shifted := rest index other found
        rwa [Nat.add_right_comm, Nat.add_assoc] at shifted

/-- For every sequence of chunks: the receive loop stays inside the payload field and
loses nothing exactly when each chunk fits there and its frame is taken. -/
theorem ntripLoop_forwards_iff (chunks : List Chunk) :
    Ends (ntripLoop wifi takes chunks calls) (Forwarded chunks) ↔
      Forwardable wifi takes chunks calls := by
  induction chunks generalizing calls with
  | nil =>
      refine iff_of_true ((ends_pure ..).2 ⟨?_, rfl⟩) ?_
      · simp
      · simp [Forwardable]
  | cons chunk later ih =>
      rw [forwardable_cons, ← ih]
      by_cases fits : rtcmPayloadAt + chunk.buf.length ≤ txbufRoom
      · obtain ⟨frame, carries, run⟩ := ends_ntripLoop_cons wifi takes calls later fits
        have whole : (if wifi.monitorSock ≠ 0 ∧ takes calls then chunk.buf.take rtcmPayloadLength
            else []) = chunk.buf ↔ _ := carries_chunk_iff _
        rw [run, ← whole, ← carries]
        constructor
        · rintro ⟨next, rest, copied, stream⟩
          have bound := streamOf_length_le wifi takes later _ next rest
          have least : (frame.toList.flatMap carried).length ≤ chunk.buf.length := by
            rw [carries]
            exact carried_length_le _
          rw [streamOf_cons, List.flatMap_cons] at stream
          have total := congrArg List.length stream
          simp only [List.length_append] at total
          obtain ⟨head, tail⟩ := List.append_inj stream (by omega)
          exact ⟨head, next, rest, fun send mem => copied send (List.mem_cons_of_mem _ mem), tail⟩
        · rintro ⟨head, next, rest, copied, stream⟩
          have field : chunk.buf.length ≤ rtcmPayloadLength := (whole.1 (carries ▸ head)).1
          refine ⟨next, rest, List.forall_mem_cons.2 ⟨field, copied⟩, ?_⟩
          rw [streamOf_cons, List.flatMap_cons]
          exact congrArg₂ (· ++ ·) head stream
      · have field : ¬ chunk.buf.length ≤ rtcmPayloadLength := by
          have room : rtcmPayloadAt + rtcmPayloadLength ≤ txbufRoom := by decide
          omega
        refine iff_of_false (fun ends => ?_) fun both => field both.1.1
        rw [ntripLoop, ends_bind] at ends
        exact not_ends_serialLoop wifi takes calls (Nat.lt_of_not_le fits) _ ends

end Run

/-- A chunk of 300 bytes. -/
def chunk300 : Chunk where
  buf := List.replicate 300 0xD3
  nonempty := by rw [List.length_replicate]; decide
  fits := by rw [List.length_replicate]; decide

/-- The copy of a chunk of 300 bytes leaves the payload field, even though it stays inside
the buffer and the socket takes every frame. -/
theorem chunk_overruns_payload :
    ∃ (wifi : DrvWifiEnvar) (chunks : List Chunk), wifi.monitorSock ≠ 0 ∧
      ¬ Ends (ntripLoop wifi (fun _ => true) chunks 0) (Forwarded chunks) := by
  refine ⟨nodeA, [chunk300], by decide, fun ends => ?_⟩
  have size : chunk300.buf.length = 300 := List.length_replicate
  have inside : rtcmPayloadAt + chunk300.buf.length ≤ txbufRoom := by
    rw [size]
    decide
  obtain ⟨frame, -, run⟩ := ends_ntripLoop_cons nodeA (fun _ => true) 0 [] inside
  obtain ⟨next, -, copied, -⟩ := (run _).1 ends
  have field : chunk300.buf.length ≤ rtcmPayloadLength := copied _ (List.mem_cons_self ..)
  rw [size] at field
  exact absurd field (by decide)

end Rsu.Vam
