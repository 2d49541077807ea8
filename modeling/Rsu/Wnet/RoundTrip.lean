import Rsu.Drv.Deframing
import Rsu.Wnet.Secured
import Rsu.Wnet.Send

/-!
# A message through the whole stack

The senders build the frame from the back to the front: what stands behind `pdata`
in the buffer grows by one header at a time. The receivers take the same headers off
from the front. Both meet at `messageFrame`.
-/

namespace Rsu.Wnet

open Rsu.Rcp Rsu.Drv Checked

/-- The message with its headers up to the LLC header; the security header has two
bytes that nobody sets. -/
def dsmpFrame (reserved payload : List Byte) : Frame :=
  llcHdr ++ ([secVersion, 0] ++ reserved ++ (dsmpHdr payload.length ++ payload))

/-- The frame on the air. -/
def messageFrame (mac : MacAddr) (reserved payload : List Byte) : Frame :=
  beaconHdr mac ++ (beaconFixedElement ++ dsmpFrame reserved payload)

/-- A store ends exactly inside the buffer. -/
@[simp] theorem ends_store (buffer : Frame) (offset : Nat) (bytes : List Byte)
    (post : Frame → Prop) :
    Ends (store buffer offset bytes) post ↔
      offset + bytes.length ≤ buffer.length ∧ post (copyInto buffer offset bytes) := by
  simp [store]

/-- A store inside the buffer lets the call go on. -/
theorem ends_store_bind {β : Type} {buffer : Frame} {offset : Nat} {bytes : List Byte}
    (fits : offset + bytes.length ≤ buffer.length) (next : Frame → Checked β) (post : β → Prop) :
    Ends (store buffer offset bytes >>= next) post ↔
      Ends (next (copyInto buffer offset bytes)) post := by
  rw [ends_bind, ends_store, and_iff_right fits]

@[simp] theorem beaconHdr_length (mac : MacAddr) : (beaconHdr mac).length = ieee80211HdrLen := by
  simp [beaconHdr, ieee80211HdrLen, macaddrLength]

section Send

variable (wifi : DrvWifiEnvar) {txinfo : WnetTxinfo} {buffer message : Frame} {pdata : Nat}

/-- A transmit buffer with a message at `pdata`. -/
structure Holds (buffer : Frame) (pdata : Nat) (message : Frame) : Prop where
  size : buffer.length = txbufLength
  inside : pdata ≤ txbufLength
  here : message <+: buffer.drop pdata

/-- The message is inside the buffer. -/
theorem Holds.fits (holds : Holds buffer pdata message) :
    pdata + message.length ≤ buffer.length := by
  have short := holds.here.length_le
  have inside := holds.inside
  rw [List.length_drop, holds.size] at short
  rw [holds.size]
  omega

/-- What is sent of the buffer is the message. -/
theorem Holds.slice_eq (holds : Holds buffer pdata message) :
    slice buffer pdata message.length = message :=
  (List.prefix_iff_eq_take.1 holds.here).symm

/-- The place of the message is in the buffer. -/
theorem Holds.start (holds : Holds buffer pdata message) : pdata ≤ buffer.length :=
  Nat.le_trans (Nat.le_add_right ..) holds.fits

/-- A header in front of the message. -/
theorem Holds.store {header : List Byte} (holds : Holds buffer (pdata + header.length) message) :
    Holds (copyInto buffer pdata header) pdata (header ++ message) where
  size := (copyInto_length holds.start).trans holds.size
  inside := Nat.le_trans (Nat.le_add_right ..) holds.inside
  here := by
    rw [drop_copyInto header (Nat.le_trans (Nat.le_add_right ..) holds.start)]
    exact (List.prefix_append_right_inj header).2 holds.here

/-- Bytes in front of the message that stay as they are. -/
theorem Holds.extend {count : Nat} (holds : Holds buffer (pdata + count) message) :
    Holds buffer pdata (slice buffer pdata count ++ message) where
  size := holds.size
  inside := Nat.le_trans (Nat.le_add_right ..) holds.inside
  here := by
    have split := List.take_append_drop count (buffer.drop pdata)
    rw [List.drop_drop] at split
    rw [← split]
    exact (List.prefix_append_right_inj _).2 holds.here

/-- Step back and write a header: the first thing every layer does. -/
theorem ends_prepend {β : Type} {header : List Byte} {next : Nat → Frame → Checked β}
    {post : β → Prop} (holds : Holds buffer (pdata + header.length) message) :
    Ends (do
        let front ← back (pdata + header.length) header.length
        let buffer ← store buffer front header
        next front buffer) post ↔
      Ends (next pdata (copyInto buffer pdata header)) post := by
  have reserve : header.length ≤ pdata + header.length := Nat.le_add_left ..
  have inside : pdata + header.length ≤ buffer.length := holds.start
  rw [ends_bind, ends_back, and_iff_right reserve, Nat.add_sub_cancel, ends_store_bind inside]

/-- What `drv_vnet_send` sends: the beacon header and the rest of the frame, through an open
monitor socket. -/
def sent (wifi : DrvWifiEnvar) (rest : Frame) : Option Frame :=
  if wifi.monitorSock ≠ 0 then some (beaconHdr wifi.mac ++ rest) else none

/-- `drv_vnet_send` with the message in the buffer. -/
theorem drvVnetSend_holds {pdata : Nat}
    (holds : Holds buffer (pdata + ieee80211HdrLen + beaconFixedElement.length) message) :
    drvVnetSend wifi buffer (pdata + ieee80211HdrLen + beaconFixedElement.length) message.length =
      .ok (sent wifi (beaconFixedElement ++ message)) := by
  have fixed := holds.store
  rw [← beaconHdr_length wifi.mac] at fixed
  have whole := fixed.store
  have length : message.length + beaconFixedElement.length + (beaconHdr wifi.mac).length =
      (beaconHdr wifi.mac ++ (beaconFixedElement ++ message)).length := by
    simp only [List.length_append]
    omega
  rw [← ends_eq]
  unfold drvVnetSend
  rw [ends_prepend holds, ← beaconHdr_length wifi.mac, ends_prepend fixed]
  rw [length, ends_ite, ends_bind, ends_readable, whole.slice_eq, ends_pure, ends_pure, sent]
  refine ⟨fun connected => ⟨whole.fits, ?_⟩, fun closed => ?_⟩
  · rw [if_pos connected]
  · rw [if_neg closed]

/-- `llc_send` of a DSMP message. -/
theorem llcSend_holds
    (holds : Holds buffer (pdata + ieee80211HdrLen + beaconFixedElement.length + llcHdr.length)
      message)
    (dsmp : txinfo.protocol = wnetTransProtDsmp) :
    llcSend wifi txinfo buffer
        (pdata + ieee80211HdrLen + beaconFixedElement.length + llcHdr.length) message.length =
      .ok (sent wifi (beaconFixedElement ++ (llcHdr ++ message))) := by
  have length : message.length + llcHdr.length = (llcHdr ++ message).length := by
    rw [List.length_append, Nat.add_comm]
  have below := drvVnetSend_holds wifi holds.store
  rw [← length] at below
  rw [← ends_eq] at below ⊢
  unfold llcSend
  rw [show wnetLlcHeaderLen = llcHdr.length from rfl, ends_prepend holds, if_pos dsmp]
  exact below

theorem dsmpHdr_length (length : Nat) : (dsmpHdr length).length = dsmpHeaderLen := rfl

/-- The offset of the DSMP header in a fresh buffer, less that of the LLC header. -/
theorem txbufDataAt_eq :
    txbufDataAt = 0 + ieee80211HdrLen + beaconFixedElement.length + llcHdr.length +
      securityHeaderLen + dsmpHeaderLen := rfl

/-- `dsmp_send` of a plain DSMP message in a fresh buffer. -/
theorem dsmpSend_holds (holds : Holds buffer txbufDataAt message)
    (dsmp : txinfo.protocol = wnetTransProtDsmp) (plain : txinfo.encryption = 0) :
    ∃ reserved : List Byte, reserved.length = 2 ∧
      dsmpSend wifi txinfo buffer txbufDataAt message.length =
        .ok (sent wifi (beaconFixedElement ++ dsmpFrame reserved message)) := by
  rw [txbufDataAt_eq] at holds ⊢
  rw [← dsmpHdr_length message.length] at holds ⊢
  generalize place : 0 + ieee80211HdrLen + beaconFixedElement.length + llcHdr.length = llcEnd
    at holds ⊢
  have header := holds.store
  have unset : Holds (copyInto buffer (llcEnd + securityHeaderLen) (dsmpHdr message.length))
      (llcEnd + [secVersion, (0 : Byte)].length + 2) (dsmpHdr message.length ++ message) := header
  have security := unset.extend.store
  have two : (slice _ _ 2).length = 2 := slice_length unset.start
  generalize slice _ _ 2 = reserved at security two
  refine ⟨reserved, two, ?_⟩
  have length : message.length + (dsmpHdr message.length).length + securityHeaderLen =
      ([secVersion, 0] ++ (reserved ++ (dsmpHdr message.length ++ message))).length := by
    simp only [List.length_append, two, List.length_cons, List.length_nil, securityHeaderLen]
    omega
  have inside : llcEnd + [secVersion, (0 : Byte)].length ≤
      (copyInto buffer (llcEnd + securityHeaderLen) (dsmpHdr message.length)).length :=
    Nat.le_trans (Nat.le_add_right ..) unset.start
  subst place
  have below := llcSend_holds wifi security dsmp
  rw [← length, ← ends_eq] at below
  rw [← ends_eq]
  unfold dsmpSend
  rw [show dsmpHeaderLen = (dsmpHdr message.length).length from rfl, ends_prepend holds,
    if_pos plain, ends_bind, ends_back, Nat.add_sub_cancel]
  refine ⟨Nat.le_add_left .., ?_⟩
  simp only [ends_bind, ends_store, inside, true_and]
  rw [dsmpFrame, List.append_assoc]
  exact below

/-- `wnet_send` of a plain DSMP message in a fresh buffer. -/
theorem wnetSend_holds (holds : Holds buffer txbufDataAt message)
    (dsmp : txinfo.protocol = wnetTransProtDsmp) (plain : txinfo.encryption = 0) :
    ∃ reserved : List Byte, reserved.length = 2 ∧
      wnetSend wifi txinfo buffer txbufDataAt message.length =
        .ok (sent wifi (beaconFixedElement ++ dsmpFrame reserved message)) := by
  rw [wnetSend, if_pos dsmp]
  exact dsmpSend_holds wifi holds dsmp plain

end Send

section Receive

variable {reserved payload : List Byte} {mac : MacAddr}

/-- `dsmp_recv` of what `dsmp_send` wrote. -/
theorem dsmpRecv_dsmpSend (receive : Receiver) (two : reserved.length = 2)
    (short : payload.length < 2 ^ 16) (length : Nat) :
    dsmpRecv receive ([secVersion, 0] ++ reserved ++ (dsmpHdr payload.length ++ payload)) length =
      (do receive payload payload.length; return some ⟨payload, payload.length⟩) := by
  obtain ⟨first, second, rfl⟩ := List.length_eq_two.1 two
  let message : DsmpMessage :=
    ⟨secVersion, 0, (first, second), 0, (0, 0, 0), dsmpVersion, payload, short⟩
  exact message.delivered_plain rfl receive length

/-- The headers above the driver take the reserve. -/
theorem dsmpFrame_length (two : reserved.length = 2) :
    (dsmpFrame reserved payload).length = txbufReserveLength + payload.length := by
  simp only [dsmpFrame, List.length_append, dsmpHdr_length, two, dsmpHeaderLen]
  simp [llcHdr, store16, txbufReserveLength]
  omega

/-- `wnet_recv` of what the layers above the driver wrote. -/
theorem wnetRecv_dsmpFrame (receive : Receiver) (two : reserved.length = 2)
    (fits : payload.length ≤ txbufRoom) :
    wnetRecv receive (dsmpFrame reserved payload) =
      (do receive payload payload.length; return some ⟨payload, payload.length⟩) := by
  have room : txbufRoom = 454 := rfl
  have size : (dsmpFrame reserved payload).length = 20 + payload.length := dsmpFrame_length two
  have type : cvNtohs (load16 (dsmpFrame reserved payload) 6) = llcEthertypeDsmpv1 := by
    change cvNtohs (load16 (store16 (cvNtohs llcEthertypeDsmpv1)) 0) = _
    rw [load16_store16, cvNtohs_cvNtohs]
  have rest : (dsmpFrame reserved payload).drop wnetLlcHeaderLen =
      [secVersion, 0] ++ reserved ++ (dsmpHdr payload.length ++ payload) := rfl
  have header : ¬ (dsmpFrame reserved payload).length < wnetLlcHeaderLen := by
    rw [size, wnetLlcHeaderLen]
    omega
  unfold wnetRecv fpRecv
  rw [readable_bind (by omega), writable_bind (by rw [size, rxbufLength]; omega), List.take_length]
  unfold llcRecv
  rw [if_neg header, readable_bind (by omega), if_pos type, rest,
    dsmpRecv_dsmpSend receive two (by omega)]

/-- An address behind a prefix. -/
theorem macAt_append (front rest : Frame) (offset : Nat) :
    macAt (front ++ rest) (front.length + offset) = macAt rest offset := by
  apply Vector.ext
  intro index bound
  have same := byteAt_append front rest (offset + index)
  simpa [macAt, Nat.add_assoc] using same

/-- An address that was written is read again. -/
theorem macAt_written (front rest : Frame) (addr : MacAddr) :
    macAt (front ++ (addr.toList ++ rest)) front.length = addr := by
  rw [← Nat.add_zero front.length, macAt_append]
  apply Vector.ext
  intro index bound
  have inside : index < addr.toList.length := by simpa using bound
  simp [macAt, byteAt, List.getD_eq_getElem?_getD, List.getElem?_append_left inside, bound]

/-- The sender of a beacon. -/
theorem macAt_beaconHdr_addr2 (rest : Frame) : macAt (beaconHdr mac ++ rest) addr2At = mac := by
  have split : beaconHdr mac ++ rest = ([0x80, 0x00, 0x00, 0x00] ++ broadcastAddr.toList) ++
      (mac.toList ++ (bssidForV2V.toList ++ [0x00, 0x00] ++ rest)) := by
    simp [beaconHdr]
  rw [split]
  exact macAt_written _ _ _

/-- The network of a beacon. -/
theorem macAt_beaconHdr_addr3 (rest : Frame) :
    macAt (beaconHdr mac ++ rest) addr3At = bssidForV2V := by
  have split : beaconHdr mac ++ rest =
      ([0x80, 0x00, 0x00, 0x00] ++ broadcastAddr.toList ++ mac.toList) ++
        (bssidForV2V.toList ++ ([0x00, 0x00] ++ rest)) := by
    simp [beaconHdr]
  have front : addr3At =
      ([0x80, 0x00, 0x00, 0x00] ++ broadcastAddr.toList ++ mac.toList).length := by
    simp [macaddrLength, addr3At]
  rw [split, front, macAt_written]

/-- What follows the 802.11 header and the fixed elements. -/
theorem drop_messageFrame (header : Frame) :
    (header ++ messageFrame mac reserved payload).drop (header.length + 38) =
      dsmpFrame reserved payload := by
  have front : 38 = (beaconHdr mac ++ beaconFixedElement).length := by
    rw [List.length_append, beaconHdr_length]
    rfl
  rw [← List.drop_drop, List.drop_left, messageFrame, ← List.append_assoc, front, List.drop_left]

/-- The 802.11 header and the fixed elements precede the message. -/
theorem messageFrame_length :
    (messageFrame mac reserved payload).length = 38 + (dsmpFrame reserved payload).length := by
  rw [messageFrame, List.length_append, List.length_append, beaconHdr_length, ← Nat.add_assoc]
  rfl

/-- The LLC header doubles as the element id of an RSU frame. -/
theorem elementIdAt_messageFrame (header : Frame) :
    elementIdAt (header ++ messageFrame mac reserved payload) header.length = rsuElementId := by
  have front : header.length + ieee80211HdrLen + skipLen = header.length + 38 := rfl
  have fixed : 38 = (beaconHdr mac ++ beaconFixedElement).length := by
    rw [List.length_append, beaconHdr_length]
    rfl
  rw [elementIdAt, front, byteAt_append, messageFrame, ← List.append_assoc, fixed]
  exact byteAt_append _ (dsmpFrame reserved payload) 0

/-- `drv_vnet_recv` of what `drv_vnet_send` wrote. -/
theorem drvVnetRecvTurn_messageFrame {radiotap : Frame → Option Nat} {wifi : DrvWifiEnvar}
    {capture : Capture} {header : Frame}
    (whole : capture.buf = header ++ messageFrame mac reserved payload)
    (accepted : radiotap capture.buf = some header.length) (other : wifi.mac ≠ mac)
    (two : reserved.length = 2) (fits : payload.length ≤ txbufRoom) :
    drvVnetRecvTurn radiotap wifi capture =
      .ok (.received (dsmpFrame reserved payload).length (dsmpFrame reserved payload) mac) := by
  have room : txbufRoom = 454 := rfl
  have size : (dsmpFrame reserved payload).length = 20 + payload.length := dsmpFrame_length two
  have length : capture.buf.length = header.length + (38 + (20 + payload.length)) := by
    rw [whole, List.length_append, messageFrame_length, size]
  have network : macAt capture.buf (header.length + addr3At) = bssidForV2V := by
    rw [whole, macAt_append, messageFrame, macAt_beaconHdr_addr3]
  have sender : macAt capture.buf (header.length + addr2At) = mac := by
    rw [whole, macAt_append, messageFrame, macAt_beaconHdr_addr2]
  have element : elementIdAt capture.buf header.length = rsuElementId := by
    rw [whole, elementIdAt_messageFrame]
  have content : capture.buf.drop (header.length + 38) = dsmpFrame reserved payload := by
    rw [whole, drop_messageFrame]
  have rest : capture.buf.length - (header.length + 38) = (dsmpFrame reserved payload).length := by
    omega
  have deframed := ends_rsu capture.fits (by omega) element
    (fun turn => turn = .received (dsmpFrame reserved payload).length (dsmpFrame reserved payload) mac)
  rw [ends_eq, rest, content, sender, wnetMqMsgSize] at deframed
  unfold drvVnetRecvTurn
  rw [accepted]
  simp only [network, sender, other.symm, ne_eq, not_false_eq_true, if_true]
  rw [readable_bind (by rw [addr3At, macaddrLength]; omega),
    readable_bind (by rw [addr2At, macaddrLength]; omega)]
  exact deframed.2 ⟨by omega, rfl⟩

end Receive

section Run

variable {radiotap : Frame → Option Nat} {wifi : DrvWifiEnvar} {capture : Capture}
  {payload : Frame}

/-- A capture of the frame of a message that another node sent. -/
structure Carries (radiotap : Frame → Option Nat) (wifi : DrvWifiEnvar) (capture : Capture)
    (payload : Frame) : Prop where
  fits : payload.length ≤ txbufRoom
  frame : ∃ header mac reserved, capture.buf = header ++ messageFrame mac reserved payload ∧
    radiotap capture.buf = some header.length ∧ wifi.mac ≠ mac ∧ reserved.length = 2

/-- The receive thread on the capture of a message. -/
theorem wnetRxThreadEntry_cons (receive : Receiver) (later : List Capture)
    (carries : Carries radiotap wifi capture payload) :
    wnetRxThreadEntry radiotap wifi receive (capture :: later) = do
      receive payload payload.length
      let next ← wnetRxThreadEntry radiotap wifi receive later
      return ⟨payload, payload.length⟩ :: next := by
  obtain ⟨header, mac, reserved, whole, accepted, other, two⟩ := carries.frame
  have received := drvVnetRecvTurn_messageFrame whole accepted other two carries.fits
  have positive : (0 : Int) < (dsmpFrame reserved payload).length := by
    rw [dsmpFrame_length two, txbufReserveLength]
    omega
  have delivered := wnetRecv_dsmpFrame receive two carries.fits
  rw [wnetRxThreadEntry, received]
  change (do
    let delivered ← if (0 : Int) < (dsmpFrame reserved payload).length then
      wnetRecv receive (dsmpFrame reserved payload) else pure none
    let next ← wnetRxThreadEntry radiotap wifi receive later
    return delivered.toList ++ next) = _
  rw [if_pos positive, delivered]
  cases receive payload payload.length <;> rfl

/-- A run over captured messages delivers each once and in order. -/
theorem wnetRxThreadEntry_messages {receive : Receiver}
    (takes : ∀ databuf datalen, receive databuf datalen = .ok ()) {captures : List Capture}
    {payloads : List Frame} (carry : List.Forall₂ (Carries radiotap wifi) captures payloads) :
    wnetRxThreadEntry radiotap wifi receive captures =
      .ok (payloads.map fun payload => ⟨payload, payload.length⟩) := by
  induction carry with
  | nil => rfl
  | cons carries _ delivered =>
      rw [wnetRxThreadEntry_cons receive _ carries, takes, delivered]
      rfl

end Run

/-- A message placed in a transmit buffer leaves with all its headers inside the buffer,
and another node whose capture holds the frame behind a radiotap header hands exactly
this message to `vam_rcp_recv`, once. -/
theorem payload_delivered_once (radiotap : Frame → Option Nat) (sender receiver : DrvWifiEnvar)
    (receive : Receiver) (buffer payload : Frame) (size : buffer.length = txbufLength)
    (fits : payload.length ≤ txbufRoom) (connected : sender.monitorSock ≠ 0)
    (other : receiver.mac ≠ sender.mac) :
    ∃ frame, wnetSend sender plainDsmp (copyInto buffer txbufDataAt payload) txbufDataAt
        payload.length = .ok (some frame) ∧
      ∀ header : Frame, radiotap (recv (header ++ frame)).buf = some header.length →
        (header ++ frame).length ≤ recvBufLength →
          wnetRxThreadEntry radiotap receiver receive [recv (header ++ frame)] =
            (do receive payload payload.length; return [⟨payload, payload.length⟩]) := by
  have start : txbufDataAt ≤ txbufLength := by decide
  have room : txbufDataAt + payload.length ≤ buffer.length := by
    rw [size]
    exact (Nat.le_sub_iff_add_le' start).1 fits
  have placed : Holds (copyInto buffer txbufDataAt payload) txbufDataAt payload :=
    { size := (copyInto_length room).trans size
      inside := start
      here := by
        rw [drop_copyInto payload (by rw [size]; exact start)]
        exact List.prefix_append .. }
  have dsmp : plainDsmp.protocol = wnetTransProtDsmp := rfl
  obtain ⟨reserved, two, leaves⟩ := wnetSend_holds sender placed dsmp rfl
  rw [sent, if_pos connected] at leaves
  refine ⟨messageFrame sender.mac reserved payload, leaves, fun header accepted captured => ?_⟩
  have whole : (recv (header ++ messageFrame sender.mac reserved payload)).buf =
      header ++ messageFrame sender.mac reserved payload := List.take_of_length_le captured
  rw [wnetRxThreadEntry_cons receive []
    ⟨fits, header, sender.mac, reserved, whole, accepted, other, two⟩]
  rfl

/-- Two nodes. -/
def nodeA : DrvWifiEnvar := ⟨Vector.replicate 6 1, 3⟩

/-- The other one. -/
def nodeB : DrvWifiEnvar := ⟨Vector.replicate 6 2, 3⟩

/-- A message of one byte. -/
def ping : Frame := [7]

/-- Its frame. -/
def pingFrame : Frame := messageFrame nodeA.mac [0, 0] ping

/-- The payload is sent as this frame. -/
theorem wnetSend_ping :
    wnetSend nodeA plainDsmp (copyInto freshTxbuf txbufDataAt ping) txbufDataAt ping.length =
      .ok (some pingFrame) := by
  decide +kernel

/-- It is sent as no other. -/
theorem frame_of_ping {frame : Frame}
    (sent : wnetSend nodeA plainDsmp (copyInto freshTxbuf txbufDataAt ping) txbufDataAt
      ping.length = .ok (some frame)) : frame = pingFrame :=
  (Option.some.inj (Except.ok.inj (wnetSend_ping.symm.trans sent))).symm

/-- A plain radiotap header. -/
def plainHeader : Frame := [0, 0, 8, 0, 0, 0, 0, 0]

/-- A message that fills its buffer. -/
def fullMessage : Frame := (List.range txbufRoom).map (BitVec.ofNat 8)

/-- A message that fills its buffer is delivered once. -/
theorem payload_delivered_once_full :
    fullMessage.length = txbufRoom ∧
      wnetRxThreadEntry ieee80211RadiotapIteratorInit nodeB (fun _ _ => .ok ())
        [recv (plainHeader ++ messageFrame nodeA.mac [0, 0] fullMessage)] =
          .ok [⟨fullMessage, fullMessage.length⟩] := by
  have length : fullMessage.length = txbufRoom := by
    rw [fullMessage, List.length_map, List.length_range]
  have leaves : wnetSend nodeA plainDsmp (copyInto freshTxbuf txbufDataAt fullMessage) txbufDataAt
      fullMessage.length = .ok (some (messageFrame nodeA.mac [0, 0] fullMessage)) := by
    decide +kernel
  obtain ⟨frame, sent, delivers⟩ := payload_delivered_once ieee80211RadiotapIteratorInit nodeA nodeB
    (fun _ _ => .ok ()) freshTxbuf fullMessage List.length_replicate length.le (by decide)
    (by decide)
  obtain rfl := Option.some.inj (Except.ok.inj (leaves.symm.trans sent))
  exact ⟨length, delivers plainHeader (by decide +kernel) (by decide +kernel)⟩

/-- A radiotap header that fills the capture buffer almost alone. -/
def longHeader : Frame := [0, 0, 0xDA, 0x07, 0, 0, 0, 0] ++ List.replicate 2002 0

/-- Behind such a header the frame is cut off. -/
theorem long_radiotap_header_cuts_message :
    ¬ ∀ (radiotap : Frame → Option Nat) (sender receiver : DrvWifiEnvar) (receive : Receiver)
        (buffer payload : Frame), buffer.length = txbufLength → 1 ≤ payload.length →
        payload.length ≤ txbufRoom → sender.monitorSock ≠ 0 → receiver.mac ≠ sender.mac →
        ∃ frame, wnetSend sender plainDsmp (copyInto buffer txbufDataAt payload) txbufDataAt
            payload.length = .ok (some frame) ∧
          ∀ header : Frame, radiotap (recv (header ++ frame)).buf = some header.length →
            wnetRxThreadEntry radiotap receiver receive [recv (header ++ frame)] =
              (do receive payload payload.length; return [⟨payload, payload.length⟩]) := by
  intro claim
  obtain ⟨frame, sent, delivers⟩ := claim ieee80211RadiotapIteratorInit nodeA nodeB
    (fun _ _ => .ok ()) freshTxbuf ping List.length_replicate (by decide) (by decide)
    (by decide) (by decide)
  rw [frame_of_ping sent] at delivers
  have accepted : ieee80211RadiotapIteratorInit (recv (longHeader ++ pingFrame)).buf =
      some longHeader.length := by
    decide +kernel
  have lost : wnetRxThreadEntry ieee80211RadiotapIteratorInit nodeB (fun _ _ => .ok ())
      [recv (longHeader ++ pingFrame)] = .error .read := by
    decide +kernel
  have delivered := delivers longHeader accepted
  rw [lost] at delivered
  cases delivered

end Rsu.Wnet
