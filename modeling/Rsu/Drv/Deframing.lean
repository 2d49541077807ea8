import Rsu.Drv.Wifi

/-!
# Which captured frames the driver can take

The length that the driver reports is computed without a look at what was captured.
A frame of the network comes through as it should exactly when it is long enough,
carries one of the two element ids, and fits into the array of the receive thread.
-/

namespace Rsu.Drv

open Rsu.Rcp Checked

variable {buf : Frame} {radiotapLen : Nat}

/-- The element id of a frame, behind the fixed elements of the beacon. -/
def elementIdAt (buf : Frame) (radiotapLen : Nat) : Byte :=
  byteAt buf (radiotapLen + ieee80211HdrLen + skipLen)

/-- What a frame should yield: an OBU frame its first 8 bytes and what follows the
element id and length, an RSU frame what follows the fixed elements, any other nothing. -/
def Payload (buf : Frame) (radiotapLen : Nat) (pdata : Frame) : Prop :=
  (elementIdAt buf radiotapLen = obuElementId ∧
    pdata = slice buf (radiotapLen + ieee80211HdrLen) 8 ++
      buf.drop (radiotapLen + ieee80211HdrLen + skipLen + 2)) ∨
  (elementIdAt buf radiotapLen = rsuElementId ∧
    pdata = buf.drop (radiotapLen + ieee80211HdrLen + skipLen))

/-- A frame that is received is reported with its length and has the payload it should. -/
def Deframed (radiotap : Frame → Option Nat) (buf : Frame) (turn : Turn) : Prop :=
  ∀ length pdata src, turn = .received length pdata src →
    0 ≤ length ∧ length ≤ wnetMqMsgSize ∧ length = pdata.length ∧
      ∃ radiotapLen, radiotap buf = some radiotapLen ∧ Payload buf radiotapLen pdata ∧
        src = macAt buf (radiotapLen + addr2At)

/-- The frame is one of another node of the network. -/
def OfNetwork (wifi : DrvWifiEnvar) (buf : Frame) (radiotapLen : Nat) : Prop :=
  macAt buf (radiotapLen + addr3At) = bssidForV2V ∧
    macAt buf (radiotapLen + addr2At) ≠ wifi.mac

/-- The frame has an element id and length, the id is known, and the payload fits. -/
def ElementFits (buf : Frame) (radiotapLen : Nat) : Prop :=
  radiotapLen + 40 ≤ buf.length ∧
    ((elementIdAt buf radiotapLen = obuElementId ∧
        buf.length - (radiotapLen + 32) ≤ wnetMqMsgSize) ∨
      (elementIdAt buf radiotapLen = rsuElementId ∧
        buf.length - (radiotapLen + 38) ≤ wnetMqMsgSize))

/-- The driver refuses the frame, or the frame has its addresses and, when it is one of
the network, its element. -/
def CaptureFits (radiotap : Frame → Option Nat) (wifi : DrvWifiEnvar) (buf : Frame) : Prop :=
  ∀ radiotapLen, radiotap buf = some radiotapLen →
    radiotapLen + 22 ≤ buf.length ∧
      (OfNetwork wifi buf radiotapLen → ElementFits buf radiotapLen)

/-- The stored length is within what was captured. -/
theorem ieee80211RadiotapIteratorInit_le (buf : Frame) (radiotapLen : Nat)
    (header : ieee80211RadiotapIteratorInit buf = some radiotapLen) :
    radiotapLen ≤ buf.length := by
  simp only [ieee80211RadiotapIteratorInit] at header
  split_ifs at header with invalid extended
  cases header
  omega

/-- A length that is not negative is passed as it is. -/
theorem sizeT_eq {length : Int} {count : Nat} (same : length = count) (small : count < 2 ^ 32) :
    sizeT length = count := by
  subst same
  unfold sizeT
  omega

/-- A slice that reaches the end. -/
theorem slice_eq_drop {frame : Frame} {offset count : Nat} (all : frame.length ≤ offset + count) :
    slice frame offset count = frame.drop offset := by
  rw [slice, List.take_of_length_le (by simp; omega)]

theorem slice_length {frame : Frame} {offset count : Nat} (fits : offset + count ≤ frame.length) :
    (slice frame offset count).length = count := by
  simp [slice]
  omega

/-- The bytes after a moved LLC header, with the header in front. -/
theorem slice_moved {hdrEnd : Nat} (fits : hdrEnd + 16 ≤ buf.length) :
    slice (copyInto buf (hdrEnd + 8) (slice buf hdrEnd 8)) (hdrEnd + 8)
        (buf.length - (hdrEnd + 8)) =
      slice buf hdrEnd 8 ++ buf.drop (hdrEnd + 16) := by
  have moved : (slice buf hdrEnd 8).length = 8 := slice_length (by omega)
  have same : (copyInto buf (hdrEnd + 8) (slice buf hdrEnd 8)).length = buf.length :=
    copyInto_length (by omega)
  rw [slice_eq_drop (by omega), drop_copyInto _ (by omega), moved]

/-- The move of the LLC header leaves the addresses alone. -/
theorem macAt_moved {hdrEnd offset : Nat} (fits : hdrEnd + 16 ≤ buf.length)
    (before : offset + macaddrLength ≤ hdrEnd + 8) :
    macAt (copyInto buf (hdrEnd + 8) (slice buf hdrEnd 8)) offset = macAt buf offset := by
  have moved : (slice buf hdrEnd 8).length = 8 := slice_length (by omega)
  apply Vector.ext
  intro index bound
  have outside : offset + index < hdrEnd + 8 := by omega
  have same : (copyInto buf (hdrEnd + 8) (slice buf hdrEnd 8))[offset + index]? =
      buf[offset + index]? := copyInto_getElem?_outside (by omega) (.inl outside)
  simp [macAt, byteAt, List.getD_eq_getElem?_getD, same]

/-- The copy out of what is left of the frame. -/
theorem ends_passUp {pPayload count : Nat} {length : Int} {post : Turn → Prop}
    (same : length = count) (captured : buf.length ≤ recvBufLength)
    (rest : pPayload + count = buf.length) (address : radiotapLen + 16 ≤ buf.length) :
    Ends (passUp buf radiotapLen pPayload length) post ↔
      count ≤ wnetMqMsgSize ∧
        post (.received count (slice buf pPayload count) (macAt buf (radiotapLen + addr2At))) := by
  have small : count < 2 ^ 32 := by
    rw [recvBufLength] at captured
    omega
  have exact : sizeT length = count := sizeT_eq same small
  have here : radiotapLen + addr2At + macaddrLength ≤ buf.length := address
  unfold passUp
  rw [exact, same]
  simp [rest, here]

/-- A received frame whose radiotap header is known. -/
theorem deframed_received {radiotap : Frame → Option Nat} {pdata : Frame} {count : Nat}
    (header : radiotap buf = some radiotapLen) (length : pdata.length = count) :
    Deframed radiotap buf (.received count pdata (macAt buf (radiotapLen + addr2At))) ↔
      count ≤ wnetMqMsgSize ∧ Payload buf radiotapLen pdata := by
  constructor
  · intro deframed
    obtain ⟨-, fits, -, stored, same, payload, -⟩ := deframed _ _ _ rfl
    rw [header, Option.some.injEq] at same
    exact ⟨Int.ofNat_le.1 fits, same ▸ payload⟩
  · rintro ⟨fits, payload⟩ _ _ _ same
    cases same
    exact ⟨Int.natCast_nonneg _, Int.ofNat_le.2 fits, congrArg _ length.symm, radiotapLen, header,
      payload, rfl⟩

section Element

variable (captured : buf.length ≤ recvBufLength) (long : radiotapLen + 40 ≤ buf.length)
include captured long

/-- An OBU frame. -/
theorem ends_obu (obu : elementIdAt buf radiotapLen = obuElementId) (post : Turn → Prop) :
    Ends (drvVnetDeframe buf radiotapLen) post ↔
      buf.length - (radiotapLen + 32) ≤ wnetMqMsgSize ∧
        post (.received (buf.length - (radiotapLen + 32) : Nat)
          (slice buf (radiotapLen + 24) 8 ++ buf.drop (radiotapLen + 40))
          (macAt buf (radiotapLen + addr2At))) := by
  let moved := copyInto buf (radiotapLen + 24 + 8) (slice buf (radiotapLen + 24) 8)
  have movedLength : moved.length = buf.length :=
    copyInto_length (by rw [slice_length (by omega)]; omega)
  have address : macAt moved (radiotapLen + addr2At) = macAt buf (radiotapLen + addr2At) :=
    macAt_moved (by omega) (by rw [addr2At, macaddrLength]; omega)
  have content : slice moved (radiotapLen + 32) (buf.length - (radiotapLen + 32)) =
      slice buf (radiotapLen + 24) 8 ++ buf.drop (radiotapLen + 40) := slice_moved (by omega)
  have reported : (buf.length : Int) - radiotapLen - ieee80211HdrLen - 8 =
      (buf.length - (radiotapLen + 32) : Nat) := by
    rw [ieee80211HdrLen]
    omega
  have passed := @ends_passUp moved radiotapLen (radiotapLen + 32) _ _ post
    reported (by omega) (by omega) (by omega)
  rw [address, content] at passed
  rw [← passed]
  have id : byteAt buf (radiotapLen + ieee80211HdrLen + skipLen) = obuElementId := obu
  have element : radiotapLen + ieee80211HdrLen + skipLen + 2 ≤ buf.length := long
  have front : radiotapLen + ieee80211HdrLen + 8 ≤ buf.length := by
    rw [ieee80211HdrLen]
    omega
  have back : 8 ≤ radiotapLen + ieee80211HdrLen + skipLen + 2 := by
    rw [skipLen]
    omega
  have target : radiotapLen + 32 + 8 ≤ recvBufLength := by omega
  simp only [drvVnetDeframe, moveLlcHeader, ends_bind, ends_readable, ends_writable, ends_back,
    ends_pure, id, if_true, element, front, back, true_and]
  exact and_iff_right target

/-- An RSU frame. -/
theorem ends_rsu (rsu : elementIdAt buf radiotapLen = rsuElementId) (post : Turn → Prop) :
    Ends (drvVnetDeframe buf radiotapLen) post ↔
      buf.length - (radiotapLen + 38) ≤ wnetMqMsgSize ∧
        post (.received (buf.length - (radiotapLen + 38) : Nat) (buf.drop (radiotapLen + 38))
          (macAt buf (radiotapLen + addr2At))) := by
  have content : slice buf (radiotapLen + 38) (buf.length - (radiotapLen + 38)) =
      buf.drop (radiotapLen + 38) := slice_eq_drop (by omega)
  have reported : (buf.length : Int) - radiotapLen - ieee80211HdrLen - skipLen =
      (buf.length - (radiotapLen + 38) : Nat) := by
    rw [ieee80211HdrLen, skipLen]
    omega
  have passed := @ends_passUp buf radiotapLen (radiotapLen + 38) _ _ post
    reported (by omega) (by omega) (by omega)
  rw [content] at passed
  rw [← passed]
  have id : byteAt buf (radiotapLen + ieee80211HdrLen + skipLen) = rsuElementId := rsu
  have noObu : rsuElementId ≠ obuElementId := by decide
  have element : radiotapLen + ieee80211HdrLen + skipLen + 2 ≤ buf.length := long
  have back : 2 ≤ radiotapLen + ieee80211HdrLen + skipLen + 2 := by omega
  simp only [drvVnetDeframe, ends_bind, ends_readable, ends_back, id, noObu, if_false, if_true,
    element, back, true_and]
  rfl

/-- A frame with neither id is read 16 bytes past its end. -/
theorem not_ends_foreign (noObu : elementIdAt buf radiotapLen ≠ obuElementId)
    (noRsu : elementIdAt buf radiotapLen ≠ rsuElementId) (post : Turn → Prop) :
    ¬ Ends (drvVnetDeframe buf radiotapLen) post := by
  have foreign : byteAt buf (radiotapLen + ieee80211HdrLen + skipLen) ≠ obuElementId ∧
      byteAt buf (radiotapLen + ieee80211HdrLen + skipLen) ≠ rsuElementId := ⟨noObu, noRsu⟩
  have reported : (buf.length : Int) - radiotapLen - ieee80211HdrLen =
      (buf.length - (radiotapLen + 24) : Nat) := by
    rw [ieee80211HdrLen]
    omega
  have exact : sizeT ((buf.length : Int) - radiotapLen - ieee80211HdrLen) =
      buf.length - (radiotapLen + 24) := by
    refine sizeT_eq reported ?_
    rw [recvBufLength] at captured
    omega
  simp only [drvVnetDeframe, passUp, ends_bind, ends_readable, foreign, if_false, exact]
  rintro ⟨-, past, -⟩
  rw [ieee80211HdrLen, skipLen] at past
  omega

end Element

/-- `drv_vnet_recv` from the element on. -/
theorem ends_drvVnetDeframe {radiotap : Frame → Option Nat} (captured : buf.length ≤ recvBufLength)
    (header : radiotap buf = some radiotapLen) :
    Ends (drvVnetDeframe buf radiotapLen) (Deframed radiotap buf) ↔ ElementFits buf radiotapLen := by
  have distinct : rsuElementId ≠ obuElementId := by decide
  unfold ElementFits
  by_cases long : radiotapLen + 40 ≤ buf.length
  · rw [and_iff_right long]
    by_cases obu : elementIdAt buf radiotapLen = obuElementId
    · have payload : Payload buf radiotapLen
          (slice buf (radiotapLen + 24) 8 ++ buf.drop (radiotapLen + 40)) := .inl ⟨obu, rfl⟩
      have size : (slice buf (radiotapLen + 24) 8 ++ buf.drop (radiotapLen + 40)).length =
          buf.length - (radiotapLen + 32) := by
        rw [List.length_append, slice_length (by omega), List.length_drop]
        omega
      rw [ends_obu captured long obu, deframed_received header size]
      simp only [payload, obu, distinct.symm, true_and, and_true, and_self, false_and, or_false]
    · by_cases rsu : elementIdAt buf radiotapLen = rsuElementId
      · have payload : Payload buf radiotapLen (buf.drop (radiotapLen + 38)) := .inr ⟨rsu, rfl⟩
        rw [ends_rsu captured long rsu, deframed_received header (List.length_drop ..)]
        simp only [payload, rsu, distinct, true_and, and_true, and_self, false_and, false_or]
      · simp only [not_ends_foreign captured long obu rsu, obu, rsu, false_and, or_self]
  · simp only [long, false_and, iff_false, drvVnetDeframe, ends_bind, ends_readable]
    exact fun element => long element.1

/-- For every captured frame: one turn of the receive loop stays inside what was captured
and passes up exactly the payload of the two known layouts, in exactly these cases. -/
theorem drvVnetRecv_deframes_iff (radiotap : Frame → Option Nat) (wifi : DrvWifiEnvar)
    (capture : Capture) :
    Ends (drvVnetRecvTurn radiotap wifi capture) (Deframed radiotap capture.buf) ↔
      CaptureFits radiotap wifi capture.buf := by
  have nothing : ∀ turn, (∀ length pdata src, turn ≠ .received length pdata src) →
      Deframed radiotap capture.buf turn :=
    fun turn quiet length pdata src same => absurd same (quiet length pdata src)
  unfold drvVnetRecvTurn CaptureFits
  cases header : radiotap capture.buf with
  | none =>
      have failed := nothing .failed (by simp)
      simp [failed]
  | some radiotapLen =>
      have again := nothing .again (by simp)
      have addresses : radiotapLen + addr3At + macaddrLength ≤ capture.buf.length ↔
          radiotapLen + 22 ≤ capture.buf.length := Iff.rfl
      have element := ends_drvVnetDeframe capture.fits header
      simp only [Option.some.injEq, forall_eq', ends_bind, ends_readable, ends_ite, ends_pure,
        again, implies_true, and_true, addresses, element, OfNetwork]
      refine and_congr_right fun long => ?_
      have sender : radiotapLen + addr2At + macaddrLength ≤ capture.buf.length := by
        rw [addr2At, macaddrLength]
        omega
      simp only [sender, true_and, and_imp]

/-- A beacon of the network with an SSID element, behind a plain radiotap header. -/
def ssidBeacon : Frame :=
  [0, 0, 8, 0, 0, 0, 0, 0] ++ beaconHdr (Vector.replicate 6 1) ++ beaconFixedElement ++ [0, 0]

/-- A frame with another element id is read past its end instead of being dropped. -/
theorem drvVnetRecv_leaves_the_capture :
    ∃ (radiotap : Frame → Option Nat) (wifi : DrvWifiEnvar) (capture : Capture),
      (∀ buf radiotapLen, radiotap buf = some radiotapLen → radiotapLen ≤ buf.length) ∧
      ¬ Ends (drvVnetRecvTurn radiotap wifi capture) (Deframed radiotap capture.buf) := by
  refine ⟨ieee80211RadiotapIteratorInit, ⟨Vector.replicate 6 2, 3⟩, ⟨ssidBeacon, by decide⟩,
    ieee80211RadiotapIteratorInit_le, ?_⟩
  have fault : drvVnetRecvTurn ieee80211RadiotapIteratorInit ⟨Vector.replicate 6 2, 3⟩
      ⟨ssidBeacon, by decide⟩ = .error .read := by decide
  rw [fault]
  exact ends_error _ _

end Rsu.Drv
