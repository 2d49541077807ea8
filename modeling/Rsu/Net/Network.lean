import Rsu.Net.Copies
import Rsu.Net.Display
import Rsu.Semantics.ActionSystem

/-!
# A network of stations

Any number of stations that broadcast, hear, age and forward, each event as the code of
one station performs it, in any order. A frame that was handed to the network layer may
be heard by any station, any number of times and after any delay, or never: nothing is
assumed of the medium but that it makes up no frames. What else happens at a station,
position fixes, alerts, changes of the configuration, may change everything but its
table and its pid.
-/

namespace Rsu.Net

open Rsu.Data Rsu.Rcp Rsu.Mda Rsu.Vam

universe u

/-- One station: both modules that take part, and whether its receiving thread has got
stuck in `add_forward_list`, where it holds `sem_forward`. -/
structure Station where
  vam : VamEnvar
  mda : MdaEnvar Nat
  hung : Bool

/-- The message that `rcp_parse_bsm` or `rcp_parse_evam` finds in a frame. -/
def receivedOf (frame : Frame) : Option Received :=
  if bsm : msgId frame = rcpMsgIdBsm ∧ 42 ≤ frame.length then some ⟨.bsm, frame, bsm.1, bsm.2⟩
  else if evam : msgId frame = rcpMsgIdEvam ∧ 71 ≤ frame.length then
    some ⟨.evam, frame, evam.1, evam.2⟩
  else none

/-- What arrives with a frame: the time, the position of the last forwarder, and the buffer
`wnet_get_txbuf` has to offer. -/
structure Arrival where
  now : BitVec 32
  dis : Int
  txbuf : Option Nat

namespace Station

/-- A station after `vam_init` and `mda_init`. -/
def init (memory : Links StaEntry) (param : VamConfig) (pid : TempId)
    (evtHandler : VamEvt → Bool) : Station where
  vam := vamInit memory param pid evtHandler
  mda := MdaEnvar.mdaInit
  hung := false

variable (rangeDelay : Int → Int) (station : Station)

/-- `local.pid` -/
def pid : TempId := station.vam.localSta.pid

/-- The calls of `rcp_mda_process` in the two parsers: none for a short frame, for the
station's own messages, and for other kinds. -/
def rcpMdaProcess (frame : Frame) (arrival : Arrival) (fuel : Nat) : Option (MdaEnvar Nat) :=
  match receivedOf frame with
  | none => some station.mda
  | some rx =>
      if rx.temporaryId = station.pid then some station.mda
      else (station.mda.mdaHandle rangeDelay (srcOf rx) rx.frame arrival.dis arrival.txbuf
        fuel).map Prod.fst

/-- `rcp_parse_msg` with both modules. -/
def rcpParseMsg (frame : Frame) (arrival : Arrival) (fuel : Nat) : Option Station :=
  (station.rcpMdaProcess rangeDelay frame arrival fuel).bind fun mda =>
    (station.vam.rcpParseMsg frame arrival.now fuel).map fun result =>
      { station with vam := result.vam, mda }

/-- The tick of the multihop thread: `forward_handler`, and what `rcp_send_forward_msg` hands
to the network layer. -/
def forward : Station × Option Frame :=
  let popped := station.mda.forwardHandler
  ({ station with mda := popped.1 },
    popped.2.bind fun txbuf => rcpSendForwardMsg station.pid (popped.1.txbuf txbuf).data)

variable (cast : FloatCast) (lib : Libm) (t : BitVec 32) (tx : TxEnv)

/-- `rcp_send_bsm` and `rcp_send_evam`: the bytes handed to the network layer. -/
def composed : MsgKind → Option Frame
  | .bsm => station.vam.bsmFrame cast lib t tx
  | .evam => station.vam.evamFrame cast lib t tx

/-- `rcp_send_bsm` and `rcp_send_evam`: the station afterwards. -/
def counted : MsgKind → Station
  | .bsm => { station with vam := (station.vam.rcpSendBsm tx).2.2 }
  | .evam => { station with vam := (station.vam.rcpSendEvam lib t tx).2.2 }

end Station

/-- A message a station made, and the status it made it from. -/
structure Sending (ι : Type u) where
  sender : ι
  kind : MsgKind
  current : VamStastatus
  frame : Frame

/-- A frame a station sent on. -/
structure Relay (ι : Type u) where
  sender : ι
  frame : Frame

/-- The stations, and everything that was handed to the network layer. -/
structure NetState (ι : Type u) where
  station : ι → Station
  sent : List (Sending ι)
  relayed : List (Relay ι)

/-- The events at a station. -/
inductive NetAction (ι : Type u) where
  /-- `rcp_send_bsm` or `rcp_send_evam` -/
  | send (i : ι) (kind : MsgKind) (t : BitVec 32) (tx : TxEnv)
  /-- `rcp_parse_msg` -/
  | hear (i : ι) (frame : Frame) (arrival : Arrival)
  /-- `forward_handler` -/
  | forward (i : ι)
  /-- `history_handler` and its timer -/
  | history (i : ι)
  /-- `vam_update_sta` -/
  | neighbours (i : ι)
  /-- `vam_set_peer_cnt` -/
  | setPeerCnt (i : ι) (pid : TempId) (cnt : Byte)
  /-- anything that leaves the table and the pid alone -/
  | other (i : ι)

namespace NetState

variable {ι : Type u}

/-- The stations after their initialisation, and nothing on the air. -/
def init (memory : ι → Links StaEntry) (param : ι → VamConfig) (pid : ι → TempId)
    (evtHandler : ι → VamEvt → Bool) : NetState ι where
  station i := .init (memory i) (param i) (pid i) (evtHandler i)
  sent := []
  relayed := []

/-- The frame can be heard. -/
def Aired (state : NetState ι) (frame : Frame) : Prop :=
  (∃ message ∈ state.sent, message.frame = frame) ∨ ∃ relay ∈ state.relayed, relay.frame = frame

variable [DecidableEq ι]

/-- Change one station. -/
def put (state : NetState ι) (i : ι) (station : Station) : NetState ι :=
  { state with station := Function.update state.station i station }

end NetState

open NetState in
/-- The events, each as the code performs it. The buffer for a reception comes from the
allocator and so is not on the waiting list. -/
inductive NetStep {ι : Type u} [DecidableEq ι] (cast : FloatCast) (lib : Libm)
    (rangeDelay : Int → Int) : NetState ι → NetAction ι → NetState ι → Prop
  | sent {state : NetState ι} {i : ι} {kind : MsgKind} {t : BitVec 32} {tx : TxEnv} {frame : Frame}
      (composed : (state.station i).composed cast lib t tx kind = some frame) :
      NetStep cast lib rangeDelay state (.send i kind t tx)
        { state.put i ((state.station i).counted lib t tx kind) with
          sent := state.sent ++
            [⟨i, kind, (state.station i).vam.vamGetLocalCurrentStatus lib t, frame⟩] }
  | heard {state : NetState ι} {i : ι} {frame : Frame} {arrival : Arrival} {nodes : List Nat}
      {next : Station} (free : (state.station i).hung = false) (aired : state.Aired frame)
      (waiting : (state.station i).mda.Waiting nodes)
      (fresh : ∀ buf ∈ arrival.txbuf, buf ∉ nodes)
      (returns : Returns ((state.station i).rcpParseMsg rangeDelay frame arrival) next) :
      NetStep cast lib rangeDelay state (.hear i frame arrival) (state.put i next)
  | stuck {state : NetState ι} {i : ι} {frame : Frame} {arrival : Arrival}
      (free : (state.station i).hung = false) (aired : state.Aired frame)
      (diverges : Diverges ((state.station i).rcpMdaProcess rangeDelay frame arrival)) :
      NetStep cast lib rangeDelay state (.hear i frame arrival)
        (state.put i { state.station i with hung := true })
  | forwarded {state : NetState ι} {i : ι} (free : (state.station i).hung = false) :
      NetStep cast lib rangeDelay state (.forward i)
        { state.put i (state.station i).forward.1 with
          relayed := state.relayed ++ (state.station i).forward.2.toList.map (⟨i, ·⟩) }
  | timedOut {state : NetState ι} {i : ι} :
      NetStep cast lib rangeDelay state (.history i)
        (state.put i
          { state.station i with mda := (state.station i).mda.timerRxHistoryCallback })
  | aged {state : NetState ι} {i : ι} (free : (state.station i).hung = false) :
      NetStep cast lib rangeDelay state (.history i)
        (state.put i { state.station i with mda := (state.station i).mda.historyHandler })
  | ticked {state : NetState ι} {i : ι} {events : List PeerEvent} {vam : VamEnvar}
      (returns : Returns (state.station i).vam.vamUpdateSta (events, vam)) :
      NetStep cast lib rangeDelay state (.neighbours i)
        (state.put i { state.station i with vam })
  | counted {state : NetState ι} {i : ι} {pid : TempId} {cnt : Byte} {table : StaTable}
      (returns : Returns ((state.station i).vam.vamSetPeerCnt pid cnt) table) :
      NetStep cast lib rangeDelay state (.setPeerCnt i pid cnt)
        (state.put i
          { state.station i with vam := (state.station i).vam.withTable table })
  | changed {state : NetState ι} {i : ι} {vam : VamEnvar}
      (table : vam.toStaTable = (state.station i).vam.toStaTable)
      (pid : vam.localSta.pid = (state.station i).pid) :
      NetStep cast lib rangeDelay state (.other i)
        (state.put i { state.station i with vam })

/-- Stations as an action system. -/
def netSystem (ι : Type u) [DecidableEq ι] (cast : FloatCast) (lib : Libm)
    (rangeDelay : Int → Int) : ActionSystem (NetAction ι) where
  State := NetState ι
  Initial state := ∃ memory param pid evtHandler, state = .init memory param pid evtHandler
  Step := NetStep cast lib rangeDelay

end Rsu.Net
