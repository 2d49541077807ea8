import Rsu.Wnet.Receive

/-!
# The send path of the network layer

Each layer writes its header in front of what it got, back into the reserve of the
buffer. A buffer is its bytes; `pdata` is an offset into them, and every access is
checked against it.
-/

namespace Rsu.Wnet

open Rsu.Rcp Rsu.Drv Checked

/-- `WNET_TRANS_PROT_DSMP` -/
def wnetTransProtDsmp : Byte := 0

/-- `DSMP_VERSION` -/
def dsmpVersion : Byte := 1

/-- `SEC_VERSION` -/
def secVersion : Byte := 2

/-- `LLC_SAP` -/
def llcSap : Byte := 0xAA

/-- The part of `wnet_txinfo_t` that the layers read. -/
structure WnetTxinfo where
  protocol : Byte
  encryption : Byte

/-- The information of a message sent unencrypted over DSMP. -/
def plainDsmp : WnetTxinfo := ⟨wnetTransProtDsmp, 0⟩

/-- `buffer` as `wnet_get_txbuf` returns it. -/
def freshTxbuf : Frame := List.replicate txbufLength 0

/-- `dsmp_hdr_t` as `dsmp_send` fills it. -/
def dsmpHdr (length : Nat) : List Byte :=
  [dsmpVersion] ++ store32 (cvNtohl waveAidVehicleSafety) ++ [waveElementIdWsm] ++
    store16 (cvNtohs (BitVec.ofNat 16 length))

/-- `wnet_llc_header_t` as `llc_send` fills it. -/
def llcHdr : List Byte := [llcSap, llcSap, 0, 0, 0, 0] ++ store16 (cvNtohs llcEthertypeDsmpv1)

/-- `fp_send`, less the release of the buffer. -/
def fpSend (wifi : DrvWifiEnvar) (buffer : Frame) (pdata length : Nat) : Checked (Option Frame) :=
  drvVnetSend wifi buffer pdata length

/-- `llc_send` -/
def llcSend (wifi : DrvWifiEnvar) (txinfo : WnetTxinfo) (buffer : Frame) (pdata length : Nat) :
    Checked (Option Frame) := do
  let pdata ← back pdata wnetLlcHeaderLen
  let length := length + wnetLlcHeaderLen
  let buffer ← store buffer pdata llcHdr
  if txinfo.protocol = wnetTransProtDsmp then fpSend wifi buffer pdata length
  else return none

/-- `dsmp_send`. The security header keeps its two reserved bytes; an encrypted message
goes nowhere. -/
def dsmpSend (wifi : DrvWifiEnvar) (txinfo : WnetTxinfo) (buffer : Frame) (pdata length : Nat) :
    Checked (Option Frame) := do
  let pdata ← back pdata dsmpHeaderLen
  let buffer ← store buffer pdata (dsmpHdr length)
  let length := length + dsmpHeaderLen
  if txinfo.encryption = 0 then
    let pdata ← back pdata securityHeaderLen
    let length := length + securityHeaderLen
    let buffer ← store buffer pdata [secVersion, 0]
    llcSend wifi txinfo buffer pdata length
  else return none

/-- `wnet_send`: the frame that leaves, if one does. -/
def wnetSend (wifi : DrvWifiEnvar) (txinfo : WnetTxinfo) (buffer : Frame) (pdata length : Nat) :
    Checked (Option Frame) := do
  if txinfo.protocol = wnetTransProtDsmp then dsmpSend wifi txinfo buffer pdata length
  else return none

/-- `wnet_rx_thread_entry` on the frames of the monitor socket: a turn that passes
nothing up, with or without an error, is followed by the next one. -/
def wnetRxThreadEntry (radiotap : Frame → Option Nat) (wifi : DrvWifiEnvar) (receive : Receiver) :
    List Capture → Checked (List Delivery)
  | [] => return []
  | capture :: later => do
      let delivered ←
        match ← drvVnetRecvTurn radiotap wifi capture with
        | .received length pdata _ => if 0 < length then wnetRecv receive pdata else pure none
        | .failed => pure none
        | .again => pure none
      let next ← wnetRxThreadEntry radiotap wifi receive later
      return delivered.toList ++ next

end Rsu.Wnet
