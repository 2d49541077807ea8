import Mathlib.Algebra.Group.Int.Defs
import Mathlib.Algebra.Group.Nat.Defs
import Rsu.Rcp.Codec
import Rsu.Semantics.Checked

/-!
# The radio driver

`cv_drv_wifi.c`: a message leaves as a beacon of its own network and comes back
from the monitor socket behind a radiotap header. Offsets into a buffer stand for
pointers into it, and every access is checked.
-/

namespace Rsu.Drv

open Rsu.Rcp Checked

/-- `MACADDR_LENGTH` -/
abbrev macaddrLength : Nat := 6

/-- An address; `memcmp` on it is equality. -/
abbrev MacAddr := Vector Byte macaddrLength

/-- The six bytes of an address at an offset. -/
def macAt (frame : Frame) (offset : Nat) : MacAddr :=
  Vector.ofFn fun index => byteAt frame (offset + index)

/-- `memcpy` out of a frame. -/
def slice (frame : Frame) (offset count : Nat) : Frame := (frame.drop offset).take count

/-- `memcpy` or field assignments into a buffer. -/
def store (buffer : Frame) (offset : Nat) (bytes : List Byte) : Checked Frame := do
  writable buffer.length offset bytes.length
  return copyInto buffer offset bytes

/-- `BroadcastAddr` -/
def broadcastAddr : MacAddr := Vector.replicate 6 0xff

/-- `BssidForV2V` -/
def bssidForV2V : MacAddr := #v[0x00, 0x63, 0x73, 0x76, 0x32, 0x76]

/-- `BeaconFixedElement` -/
def beaconFixedElement : List Byte :=
  [0x00, 0x00, 0x00, 0x00, 0x00, 0x00, 0x00, 0x00, 0x64, 0x00, 0x22, 0x04, 0x00, 0x00]

/-- `IEEE80211_HDRLEN` -/
def ieee80211HdrLen : Nat := 24

/-- The offset of `addr2`, the sender. -/
def addr2At : Nat := 10

/-- The offset of `addr3`, the network. -/
def addr3At : Nat := 16

/-- `drv_vnet_mac_header_len` -/
def drvVnetMacHeaderLen : Nat := ieee80211HdrLen + beaconFixedElement.length

/-- The part of `g_wifi_envar` that the frames depend on. -/
structure DrvWifiEnvar where
  mac : MacAddr
  /-- `monitor_sock` -/
  monitorSock : Int

/-- The 802.11 header of a beacon: frame control, duration, the three addresses and the
sequence control. -/
def beaconHdr (mac : MacAddr) : List Byte :=
  [0x80, 0x00, 0x00, 0x00] ++ broadcastAddr.toList ++ mac.toList ++ bssidForV2V.toList ++
    [0x00, 0x00]

/-- `drv_vnet_send`: the frame passed to the monitor socket, or nothing without one. -/
def drvVnetSend (wifi : DrvWifiEnvar) (buffer : Frame) (pdata length : Nat) :
    Checked (Option Frame) := do
  let pPayload ← back pdata beaconFixedElement.length
  let buffer ← store buffer pPayload beaconFixedElement
  let pHdr80211 ← back pPayload ieee80211HdrLen
  let buffer ← store buffer pHdr80211 (beaconHdr wifi.mac)
  if wifi.monitorSock ≠ 0 then
    let length := length + beaconFixedElement.length + ieee80211HdrLen
    readable buffer.length pHdr80211 length
    return some (slice buffer pHdr80211 length)
  else return none

/-- The size of `buf` in `drv_vnet_recv`. -/
def recvBufLength : Nat := 2048

/-- `WNET_MQ_MSG_SIZE`, the size of the array of the receive thread. -/
def wnetMqMsgSize : Nat := 1280

/-- What `recv` on the monitor socket returns: the rest of a longer frame is cut off. -/
structure Capture where
  buf : Frame
  fits : buf.length ≤ recvBufLength

/-- `recv` on the monitor socket. -/
def recv (frame : Frame) : Capture := ⟨frame.take recvBufLength, List.length_take_le ..⟩

/-- The part of `ieee80211_radiotap_iterator_init` that walks the extended bitmaps. -/
def presentWordsEnd (buf : Frame) (maxLength : Nat) : (fuel arg : Nat) → Bool
  | 0, _ => false
  | fuel + 1, arg =>
      if maxLength < arg + 4 then false
      else if (load32 buf arg).getLsbD 31 then presentWordsEnd buf maxLength fuel (arg + 4)
      else true

/-- `ieee80211_radiotap_iterator_init`: the radiotap length it stores when it returns 0. -/
def ieee80211RadiotapIteratorInit (buf : Frame) : Option Nat :=
  let maxLength := (load16 buf 2).toNat
  if buf.length < 8 ∨ byteAt buf 0 ≠ 0 ∨ buf.length < maxLength then none
  else if (load32 buf 4).getLsbD 31 ∧ ¬ presentWordsEnd buf maxLength buf.length 8 then none
  else some maxLength

/-- How one turn of the loop of `drv_vnet_recv` ends. -/
inductive Turn where
  /-- The function returns an error. -/
  | failed
  /-- The frame is none of another node of the network. -/
  | again
  /-- The function returns 0 with the length, the data and the sender's address. -/
  | received (length : Int) (pdata : Frame) (src : MacAddr)
  deriving DecidableEq

/-- `SKIP_LEN`, the fixed elements of the beacon. -/
def skipLen : Nat := 14

/-- The element id of an OBU frame. -/
def obuElementId : Byte := 0xDD

/-- The element id of an RSU frame, in fact the first byte of the LLC header. -/
def rsuElementId : Byte := 0xAA

/-- A length passed to `memcpy`. -/
def sizeT (length : Int) : Nat := (length % 2 ^ 32).toNat

/-- The move of the LLC header of an OBU frame to the front of the rest. -/
def moveLlcHeader (buf : Frame) (hdrEnd pPayload : Nat) : Checked Frame := do
  readable buf.length hdrEnd 8
  writable recvBufLength pPayload 8
  return copyInto buf pPayload (slice buf hdrEnd 8)

/-- The end of `drv_vnet_recv`: what `pPayload` points to is copied out. -/
def passUp (buf : Frame) (radiotapLen pPayload : Nat) (length : Int) : Checked Turn := do
  readable buf.length pPayload (sizeT length)
  writable wnetMqMsgSize 0 (sizeT length)
  readable buf.length (radiotapLen + addr2At) macaddrLength
  return .received length (slice buf pPayload (sizeT length)) (macAt buf (radiotapLen + addr2At))

/-- What `drv_vnet_recv` does with a frame of another node of the network. -/
def drvVnetDeframe (buf : Frame) (radiotapLen : Nat) : Checked Turn := do
  let length : Int := buf.length - radiotapLen - ieee80211HdrLen
  let hdrEnd := radiotapLen + ieee80211HdrLen
  let pPayload := hdrEnd + skipLen
  readable buf.length pPayload 2
  let elementId := byteAt buf pPayload
  let pPayload := pPayload + 2
  -- the two ids exclude each other, and a frame with neither is passed up as it stands
  if elementId = obuElementId then
    let pPayload ← back pPayload 8
    let buf ← moveLlcHeader buf hdrEnd pPayload
    passUp buf radiotapLen pPayload (length - 8)
  else if elementId = rsuElementId then
    let pPayload ← back pPayload 2
    passUp buf radiotapLen pPayload (length - skipLen)
  else passUp buf radiotapLen pPayload length

/-- One turn of the loop of `drv_vnet_recv`, given what `radiotap` says of the frame. -/
def drvVnetRecvTurn (radiotap : Frame → Option Nat) (wifi : DrvWifiEnvar) (capture : Capture) :
    Checked Turn := do
  match radiotap capture.buf with
  | none => return .failed
  | some radiotapLen =>
    readable capture.buf.length (radiotapLen + addr3At) macaddrLength
    if macAt capture.buf (radiotapLen + addr3At) = bssidForV2V then
      readable capture.buf.length (radiotapLen + addr2At) macaddrLength
      if macAt capture.buf (radiotapLen + addr2At) ≠ wifi.mac then
        drvVnetDeframe capture.buf radiotapLen
      else return .again
    else return .again

end Rsu.Drv
