import Rsu.Drv.Wifi
import Rsu.Mda.Envar
import Rsu.Rcp.Codec
import Rsu.Semantics.Checked

/-!
# The receive path of the network layer

From the frame of the driver to the message parsers, with every access checked.
A pointer into the received string is the rest of the string from there on, so an
access is in bounds when the rest is long enough. Of the parsers the accesses are
kept; what they do with the fields is the subject of the message modules.
-/

namespace Rsu.Wnet

open Rsu.Rcp Rsu.Mda Rsu.Drv Checked

/-- `RXBUF_LENGTH` -/
def rxbufLength : Nat := 512

/-- `TXBUF_LENGTH` -/
def txbufLength : Nat := 512

/-- `TXBUF_RESERVE_LENGTH`, for the LLC, security and DSMP headers -/
def txbufReserveLength : Nat := 20

/-- The offset of `data_ptr` in a fresh buffer. -/
def txbufDataAt : Nat := txbufReserveLength + drvVnetMacHeaderLen

/-- The room after `data_ptr`. -/
def txbufRoom : Nat := txbufLength - txbufDataAt

/-- `WNET_LLC_HEADER_LEN` -/
def wnetLlcHeaderLen : Nat := 8

/-- `SECURITY_HEADER_LEN` -/
def securityHeaderLen : Nat := 4

/-- `SECURITY_INFO_LEN` -/
def securityInfoLen : Nat := 4

/-- `DSMP_HEADER_LEN` -/
def dsmpHeaderLen : Nat := 8

/-- `LLC_ETHERTYPE_DSMPv1` -/
def llcEthertypeDsmpv1 : BitVec 16 := 0x88E2

/-- `WAVE_AID_vehicle_safety` -/
def waveAidVehicleSafety : BitVec 32 := 20

/-- `WAVE_ELEMENT_ID_WSM` -/
def waveElementIdWsm : Byte := 128

/-- What the modules behind the parsers answer. -/
structure RxWorld where
  /-- `p_vam->local.pid` -/
  pid : TempId
  /-- `mda_handle` gets to `rcp_create_forward_msg` for the message. -/
  forwards : MdaMsgInfo → Bool
  /-- `vam_find_sta` returns a station for the pid. -/
  finds : TempId → Bool

/-- What `rcp_mda_process` passes to `mda_handle`. -/
def mdaMsgInfo (kind : MsgKind) (databuf : Frame) : MdaMsgInfo where
  temporaryId := tempIdAt databuf kind.temporaryIdAt
  forwardId := tempIdAt databuf kind.forwardIdAt
  msgCount := byteAt databuf kind.msgCountAt
  leftHops := (msgHops databuf).setWidth 8

/-- An access of a parser: to bytes of the message, or to the room of the buffer that the message
is forwarded in. -/
inductive Touch where
  | read (offset count : Nat)
  | write (offset count : Nat)
  | fill (count : Nat)
  deriving DecidableEq

/-- An access to a message in an object of `size` bytes. -/
def Touch.perform (size : Nat) : Touch → Checked Unit
  | .read offset count => readable size offset count
  | .write offset count => writable size offset count
  | .fill count => writable txbufRoom 0 count

/-- `rcp_create_forward_msg`: the hops are written in place, then the message is copied
into a fresh buffer. -/
def rcpCreateForwardMsg (length : Nat) : List Touch := [.write 0 1, .read 0 length, .fill length]

/-- `rcp_mda_process` -/
def rcpMdaProcess (world : RxWorld) (kind : MsgKind) (databuf : Frame) (datalen : Nat) :
    List Touch :=
  [.read 0 1, .read kind.msgCountAt 1, .read kind.temporaryIdAt rcpTempIdLen,
    .read kind.forwardIdAt rcpTempIdLen] ++
  if world.forwards (mdaMsgInfo kind databuf) then rcpCreateForwardMsg datalen else []

/-- `rcp_parse_bsm` -/
def rcpParseBsm (world : RxWorld) (databuf : Frame) (datalen : Nat) : List Touch :=
  if datalen < MsgKind.bsm.minLength then []
  else
    .read 2 rcpTempIdLen ::
      if tempIdAt databuf 2 = world.pid then []
      else
        rcpMdaProcess world .bsm databuf datalen ++
          if world.finds (tempIdAt databuf 2) then
            -- `dsecond`, `position` and `motion`, then `safetyExt`
            .read 10 27 :: if datalen > MsgKind.bsm.minLength then [.read 42 2] else []
          else []

/-- `rcp_parse_evam` -/
def rcpParseEvam (world : RxWorld) (databuf : Frame) (datalen : Nat) : List Touch :=
  if datalen < MsgKind.evam.minLength then []
  else
    .read 1 rcpTempIdLen ::
      if tempIdAt databuf 1 = world.pid then []
      else
        rcpMdaProcess world .evam databuf datalen ++
          -- `rsa.typeEvent` and `rsa.description`, then `rsa.position`
          .read 11 18 :: if world.finds (tempIdAt databuf 1) then [.read 33 14] else []

/-- `rcp_parse_rsa`: `typeEvent`, `description` and the start of `position`. -/
def rcpParseRsa (datalen : Nat) : List Touch :=
  if datalen < 50 then [] else [.read 2 18, .read 24 8]

/-- `rcp_parse_msg` -/
def rcpParseMsg (world : RxWorld) (databuf : Frame) (datalen : Nat) : List Touch :=
  if datalen < 6 then []
  else
    .read 0 1 ::
      if msgId databuf = rcpMsgIdBsm then rcpParseBsm world databuf datalen
      else if msgId databuf = rcpMsgIdEvam then rcpParseEvam world databuf datalen
      else if msgId databuf = rcpMsgIdRsa then rcpParseRsa datalen
      else []

/-- `vam_rcp_recv`, which is `rcp_parse_msg`, on the bytes that are there. -/
def vamRcpRecv (world : RxWorld) (databuf : Frame) (datalen : Nat) : Checked Unit :=
  (rcpParseMsg world databuf datalen).forM (Touch.perform databuf.length)

/-- What `dsmp_recv` calls with the message and its length: `vam_rcp_recv`. -/
abbrev Receiver := Frame → Nat → Checked Unit

/-- A call of `vam_rcp_recv`: where the message starts, and the length passed. -/
structure Delivery where
  databuf : Frame
  datalen : Nat
  deriving DecidableEq

/-- The DSMP header behind the security header. The information behind a secured one
is skipped with its header counted twice. -/
def dsmpHeaderAt (securityType : Byte) : Nat :=
  if securityType ≠ 0 then securityHeaderLen + (securityHeaderLen + securityInfoLen)
  else securityHeaderLen

/-- `dsmp_recv`: what it delivers, or nothing for a frame it drops. Its own length is
never looked at. -/
def dsmpRecv (receive : Receiver) (pdata : Frame) (_length : Nat) : Checked (Option Delivery) := do
  readable pdata.length 1 1
  let pDsmp := pdata.drop (dsmpHeaderAt (byteAt pdata 1))
  readable pDsmp.length 1 4
  if cvNtohl (load32 pDsmp 1) = waveAidVehicleSafety then
    readable pDsmp.length 5 1
    if byteAt pDsmp 5 = waveElementIdWsm then
      let pdata := pDsmp.drop dsmpHeaderLen
      readable pDsmp.length 6 2
      let length := (cvNtohs (load16 pDsmp 6)).toNat
      receive pdata length
      return some ⟨pdata, length⟩
    else return none
  else return none

/-- `llc_recv` -/
def llcRecv (receive : Receiver) (pdata : Frame) (length : Nat) : Checked (Option Delivery) := do
  if length < wnetLlcHeaderLen then return none
  readable pdata.length 6 2
  if cvNtohs (load16 pdata 6) = llcEthertypeDsmpv1 then
    dsmpRecv receive (pdata.drop wnetLlcHeaderLen) (length - wnetLlcHeaderLen)
  else return none

/-- `fp_recv`, with a buffer from `wnet_get_rxbuf` -/
def fpRecv (receive : Receiver) (pdata : Frame) (length : Nat) : Checked (Option Delivery) := do
  readable pdata.length 0 length
  writable rxbufLength 0 length
  llcRecv receive (pdata.take length) length

/-- `wnet_recv` on a whole string -/
def wnetRecv (receive : Receiver) (pdata : Frame) : Checked (Option Delivery) :=
  fpRecv receive pdata pdata.length

end Rsu.Wnet
