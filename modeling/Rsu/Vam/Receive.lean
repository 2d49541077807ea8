import Rsu.Vam.Broadcast
import Rsu.Vam.StaTable

/-!
# Reception and ageing

`rcp_parse_bsm` and `rcp_parse_evam` write a received message into the table;
`vam_update_sta` is the neighbour tick. Both report to the event handlers, and
their results list the handler calls in order. The multihop module that the two
parsers also call keeps its own state and is not repeated here, nor is the
distance statistics of the debug print.
-/

namespace Rsu.Vam

open Rsu.Data Rsu.Rcp

/-- What a reception leaves behind: the return value, the station it was written
to (`p_sta`), the new state, and the handler calls. -/
structure RxResult where
  ret : Int
  station : Option Slot
  vam : VamEnvar
  events : List PeerEvent

/-- The fields of `vam_rsa_evt_info_t` that `rcp_parse_rsa` fills in. -/
structure VamRsaEvtInfo where
  rsaMask : BitVec 16
  lon : ℚ
  lat : ℚ
  deriving DecidableEq

/-- What `rcp_parse_msg` leaves behind: the return value, the new state, the handler
calls about peers, and the one about a road-side alert. -/
structure MsgResult where
  ret : Int
  vam : VamEnvar
  events : List PeerEvent
  rsa : Option VamRsaEvtInfo

/-- What a basic safety message writes into its station. -/
def storeBsm (p_bsm : RcpMsgBasicSafty) (now : BitVec 32) (node : VamStaNode) : VamStaNode where
  s := { node.s with
    timestamp := p_bsm.dsecond
    time := now
    pos :=
      { lon := decodeLongtitude p_bsm.position.lon
        lat := decodeLongtitude p_bsm.position.lat
        elev := decodeElevation p_bsm.position.elev
        accu := decodeLongtitude p_bsm.position.accu }
    dir := decodeHeading p_bsm.motion.heading
    speed := decodeSpeed p_bsm.motion.speed
    acce :=
      { lon := decodeAcce p_bsm.motion.acceLon
        lat := decodeAcce p_bsm.motion.acceLat
        vert := decodeAcce p_bsm.motion.acceVert
        yaw := decodeAcceYaw p_bsm.motion.acceYaw } }
  life := vamNeighbourMaxlife
  alertLife := node.alertLife

/-- What the safety extension of a basic safety message writes. -/
def storeAlert (alertMask : BitVec 16) (node : VamStaNode) : VamStaNode where
  s := { node.s with alertMask := alertMask }
  life := node.life
  alertLife := vamRemoteAlertMaxlife

/-- What an emergency vehicle alert writes into its station: the accuracy, the
acceleration and the timestamp stay. -/
def storeEvam (p_evam : RcpMsgEmergencyVehicleAlert) (now : BitVec 32) (node : VamStaNode) :
    VamStaNode where
  s := { node.s with
    time := now
    pos := { node.s.pos with
      lon := decodeLongtitude p_evam.lon
      lat := decodeLongtitude p_evam.lat
      elev := decodeElevation p_evam.elev }
    dir := decodeHeading p_evam.heading
    speed := decodeSpeed p_evam.speed
    alertMask := decodeItiscode p_evam.typeEvent p_evam.description }
  life := node.life
  alertLife := vamRemoteAlertMaxlife

/-- Call a handler, if it is set. -/
def callHandler (evtHandler : VamEvt → Bool) (evt : VamEvt) (sta : Option VamStastatus) :
    List PeerEvent :=
  if evtHandler evt then [⟨evt, sta⟩] else []

namespace VamEnvar

/-- The module with another table. -/
def withTable (vam : VamEnvar) (table : StaTable) : VamEnvar := { vam with toStaTable := table }

/-- The part of the parsers that is under `if (p_sta)`, with what it writes and reports. -/
def withStation (vam : VamEnvar) (temporaryId : TempId) (write : VamStaNode → VamStaNode)
    (report : VamStaNode → List PeerEvent) (fuel : Nat) : Option RxResult :=
  (vam.toStaTable.vamFindSta temporaryId fuel).map fun (found, table) =>
    match found with
    | none => ⟨0, none, vam.withTable table, []⟩
    | some slot =>
        ⟨0, some slot, vam.withTable (table.modify slot write), report (table.remote slot)⟩

/-- `rcp_parse_bsm` at system time `now`. -/
def rcpParseBsm (vam : VamEnvar) (databuf : Frame) (now : BitVec 32) (fuel : Nat) :
    Option RxResult :=
  if databuf.length < 42 then some ⟨-1, none, vam, []⟩
  else
    let p_bsm := bsmOfFrame databuf
    if p_bsm.temporaryId = vam.localSta.pid then some ⟨0, none, vam, []⟩
    else
      let extended := 42 < databuf.length
      let storeExt := storeAlert (decodeVehicleAlert p_bsm.events)
      vam.withStation p_bsm.temporaryId
        (fun node => if extended then storeExt (storeBsm p_bsm now node) else storeBsm p_bsm now node)
        (fun node =>
          callHandler vam.evtHandler .peerUpdate (storeBsm p_bsm now node).s ++
            if extended then callHandler vam.evtHandler .peerAlarm (storeExt (storeBsm p_bsm now node)).s else [])
        fuel

/-- `rcp_parse_evam` at system time `now`. -/
def rcpParseEvam (vam : VamEnvar) (databuf : Frame) (now : BitVec 32) (fuel : Nat) :
    Option RxResult :=
  if databuf.length < 71 then some ⟨-1, none, vam, []⟩
  else
    let p_evam := evamOfFrame databuf
    if p_evam.temporaryId = vam.localSta.pid then some ⟨0, none, vam, []⟩
    else
      vam.withStation p_evam.temporaryId (storeEvam p_evam now)
        (fun node => callHandler vam.evtHandler .evaUpdate (storeEvam p_evam now node).s) fuel

/-- `rcp_parse_rsa`, with the call of the handler. -/
def rcpParseRsa (vam : VamEnvar) (databuf : Frame) : Int × Option VamRsaEvtInfo :=
  if databuf.length < 50 then (-1, none)
  else
    let description := (List.range 8).map fun index => load16 databuf (4 + 2 * index)
    let param : VamRsaEvtInfo :=
      { rsaMask := decodeItiscode (load16 databuf 2) description
        lon := decodeLongtitude (load32 databuf 24)
        lat := decodeLongtitude (load32 databuf 28) }
    (0, if vam.evtHandler .rsaUpdate then some param else none)

/-- `rcp_parse_msg` at system time `now`. -/
def rcpParseMsg (vam : VamEnvar) (databuf : Frame) (now : BitVec 32) (fuel : Nat) :
    Option MsgResult :=
  if databuf.length < 6 then some ⟨-1, vam, [], none⟩
  else
    let ret : Int := (msgId databuf).toNat
    if msgId databuf = rcpMsgIdBsm then
      (vam.rcpParseBsm databuf now fuel).map fun result => ⟨ret, result.vam, result.events, none⟩
    else if msgId databuf = rcpMsgIdEvam then
      -- receive evam, then pause sending bsm msg
      let paused := if vam.workingParam.bsmPauseMode = 2 then vam.vsmPauseBsmBroadcast else vam
      (paused.rcpParseEvam databuf now fuel).map fun result =>
        ⟨ret, result.vam, result.events, none⟩
    else if msgId databuf = rcpMsgIdRsa then some ⟨ret, vam, [], (vam.rcpParseRsa databuf).2⟩
    else some ⟨ret, vam, [], none⟩

/-- `vam_update_sta`: the handler calls, and the new state. -/
def vamUpdateSta (vam : VamEnvar) (fuel : Nat) : Option (List PeerEvent × VamEnvar) :=
  (vam.toStaTable.sweep fuel).map fun sweep =>
    -- the copies are reported last to first
    let alarms := sweep.timedOut.reverse.flatMap fun sta => callHandler vam.evtHandler .peerAlarm (some sta)
    let table := sweep.table
    if table.gotNeighbour && sweep.isEmpty then
      let emptied := { table with gotNeighbour := false, neighbourCnt := 0 }
      (alarms ++ callHandler vam.evtHandler .peerUpdate none,
        (vam.withTable emptied).vsmUpdateBsmBcastTimer)
    else (alarms, (vam.withTable table).vsmUpdateBsmBcastTimer)

end VamEnvar

/-- A received message of one of the two kinds, with the system time. -/
structure Reception where
  kind : MsgKind
  databuf : Frame
  now : BitVec 32

namespace Reception

/-- The parser of the kind. -/
def parse (msg : Reception) (vam : VamEnvar) (fuel : Nat) : Option RxResult :=
  match msg.kind with
  | .bsm => vam.rcpParseBsm msg.databuf msg.now fuel
  | .evam => vam.rcpParseEvam msg.databuf msg.now fuel

/-- The sender the parser reads. -/
def sender (msg : Reception) : TempId := tempIdAt msg.databuf msg.kind.temporaryIdAt

/-- The parser gets as far as looking up the station. -/
def Reaches (msg : Reception) (pid : TempId) : Prop :=
  msg.kind.minLength ≤ msg.databuf.length ∧ msg.sender ≠ pid

instance (msg : Reception) (pid : TempId) : Decidable (msg.Reaches pid) :=
  inferInstanceAs (Decidable (_ ∧ _))

/-- What a message writes into its station. -/
def write (msg : Reception) (node : VamStaNode) : VamStaNode :=
  match msg.kind with
  | .bsm =>
      let stored := storeBsm (bsmOfFrame msg.databuf) msg.now node
      if 42 < msg.databuf.length then
        storeAlert (decodeVehicleAlert (bsmOfFrame msg.databuf).events) stored
      else stored
  | .evam => storeEvam (evamOfFrame msg.databuf) msg.now node

/-- The handler calls for a message. -/
def report (msg : Reception) (evtHandler : VamEvt → Bool) (node : VamStaNode) : List PeerEvent :=
  match msg.kind with
  | .bsm =>
      let stored := storeBsm (bsmOfFrame msg.databuf) msg.now node
      callHandler evtHandler .peerUpdate stored.s ++
        if 42 < msg.databuf.length then
          callHandler evtHandler .peerAlarm
            (storeAlert (decodeVehicleAlert (bsmOfFrame msg.databuf).events) stored).s
        else []
  | .evam => callHandler evtHandler .evaUpdate (storeEvam (evamOfFrame msg.databuf) msg.now node).s

/-- Both parsers drop short frames and the node's own, and write any other into
the station of its sender. -/
theorem parse_eq (msg : Reception) (vam : VamEnvar) (fuel : Nat) :
    msg.parse vam fuel =
      if msg.Reaches vam.localSta.pid then
        vam.withStation msg.sender msg.write (msg.report vam.evtHandler) fuel
      else some ⟨if msg.databuf.length < msg.kind.minLength then -1 else 0, none, vam, []⟩ := by
  have checks : msg.parse vam fuel =
      if msg.databuf.length < msg.kind.minLength then some ⟨-1, none, vam, []⟩
      else if msg.sender = vam.localSta.pid then some ⟨0, none, vam, []⟩
      else vam.withStation msg.sender msg.write (msg.report vam.evtHandler) fuel := by
    obtain ⟨kind, databuf, now⟩ := msg
    cases kind <;> rfl
  rw [checks]
  by_cases short : msg.databuf.length < msg.kind.minLength
  · have dropped : ¬ msg.Reaches vam.localSta.pid := fun reaches => Nat.not_le.2 short reaches.1
    rw [if_pos short, if_neg dropped, if_pos short]
  · by_cases own : msg.sender = vam.localSta.pid <;> simp [Reaches, short, own, Nat.not_lt.1 short]

/-- More fuel leads to the same result. -/
theorem parse_persistent (msg : Reception) (vam : VamEnvar) : Persistent (msg.parse vam) := by
  have same : msg.parse vam = fun fuel => msg.parse vam fuel := rfl
  simp only [same, parse_eq]
  split
  · exact ((vam.find_persistent msg.sender).map _).map _
  · exact persistent_const _

/-- A message never moves a station to another pid. -/
@[simp] theorem write_pid (msg : Reception) (node : VamStaNode) :
    (msg.write node).s.pid = node.s.pid := by
  obtain ⟨kind, databuf, now⟩ := msg
  cases kind with
  | bsm =>
      by_cases extended : 42 < databuf.length <;> simp [write, extended, storeBsm, storeAlert]
  | evam => rfl

/-- An alert is stored together with its life. -/
theorem write_masked (msg : Reception) {node : VamStaNode}
    (masked : node.s.alertMask ≠ 0 → 0 < node.alertLife) :
    (msg.write node).s.alertMask ≠ 0 → 0 < (msg.write node).alertLife := by
  obtain ⟨kind, databuf, now⟩ := msg
  cases kind with
  | bsm =>
      by_cases extended : 42 < databuf.length
      · simp [write, extended, storeAlert, vamRemoteAlertMaxlife]
      · simpa [write, extended, storeBsm] using masked
  | evam => simp [write, storeEvam, vamRemoteAlertMaxlife]

/-- A message gives its station a full life. -/
theorem write_life (msg : Reception) {node : VamStaNode} (life : node.life ≤ vamNeighbourMaxlife)
    (alertLife : node.alertLife ≤ vamRemoteAlertMaxlife) :
    max (msg.write node).life (msg.write node).alertLife = vamNeighbourMaxlife := by
  obtain ⟨kind, databuf, now⟩ := msg
  cases kind with
  | bsm =>
      by_cases extended : 42 < databuf.length
      · simp [write, extended, storeAlert, storeBsm, vamRemoteAlertMaxlife, vamNeighbourMaxlife]
      · rw [write]
        simp only [extended, if_false, storeBsm]
        exact max_eq_left alertLife
  | evam => exact max_eq_right life

end Reception

namespace VamEnvar

open StaTable

@[simp] theorem withTable_toStaTable (vam : VamEnvar) (table : StaTable) :
    (vam.withTable table).toStaTable = table := rfl

@[simp] theorem withTable_evtHandler (vam : VamEnvar) (table : StaTable) :
    (vam.withTable table).evtHandler = vam.evtHandler := rfl

@[simp] theorem withTable_localSta (vam : VamEnvar) (table : StaTable) :
    (vam.withTable table).localSta = vam.localSta := rfl

/-- More fuel leads to the same table. -/
theorem vamUpdateSta_persistent (vam : VamEnvar) : Persistent vam.vamUpdateSta :=
  Persistent.map (forEachSafe_persistent ..) _

/-- A reception writes to the table only. -/
theorem parse_withTable {msg : Reception} {vam : VamEnvar} {fuel : Nat} {result : RxResult}
    (parsed : msg.parse vam fuel = some result) : ∃ table, result.vam = vam.withTable table := by
  rw [msg.parse_eq] at parsed
  split at parsed
  · obtain ⟨⟨found, table⟩, -, rfl⟩ := Option.map_eq_some_iff.1 parsed
    cases found with
    | none => exact ⟨_, rfl⟩
    | some slot => exact ⟨_, rfl⟩
  · obtain rfl := Option.some.inj parsed
    exact ⟨vam.toStaTable, rfl⟩

/-- `rcp_parse_msg` writes to the table only, but an alert may pause the broadcast first. -/
theorem rcpParseMsg_withTable {vam : VamEnvar} {databuf : Frame} {now : BitVec 32} {fuel : Nat}
    {result : MsgResult} (parsed : vam.rcpParseMsg databuf now fuel = some result) :
    ∃ table, result.vam = vam.withTable table ∨
      result.vam = vam.vsmPauseBsmBroadcast.withTable table := by
  have kept : ∃ table, vam = vam.withTable table := ⟨vam.toStaTable, rfl⟩
  unfold rcpParseMsg at parsed
  split at parsed
  · obtain rfl := Option.some.inj parsed
    exact kept.imp fun _ same => .inl same
  dsimp only at parsed
  split at parsed
  · obtain ⟨stored, returned, rfl⟩ := Option.map_eq_some_iff.1 parsed
    have reception : (⟨.bsm, databuf, now⟩ : Reception).parse vam fuel = some stored := returned
    exact (parse_withTable reception).imp fun _ same => .inl same
  split at parsed
  · obtain ⟨stored, returned, rfl⟩ := Option.map_eq_some_iff.1 parsed
    have reception : (⟨.evam, databuf, now⟩ : Reception).parse _ fuel = some stored := returned
    obtain ⟨table, same⟩ := parse_withTable reception
    split at same
    · exact ⟨table, .inr same⟩
    · exact ⟨table, .inl same⟩
  split at parsed <;>
  · obtain rfl := Option.some.inj parsed
    exact kept.imp fun _ same => .inl same

/-- A lookup of a station credits the one with this pid, a new one, or none. -/
theorem withStation_cases {vam : VamEnvar} {neighbours free : List Slot}
    (holds : vam.toStaTable.Holds neighbours free) (temporaryId : TempId)
    (write : VamStaNode → VamStaNode) (report : VamStaNode → List PeerEvent) {fuel : Nat}
    (enough : neighbours.length < fuel) :
    (∃ slot ∈ neighbours, vam.pid slot = temporaryId ∧
        vam.withStation temporaryId write report fuel =
          some ⟨0, some slot, vam.withTable (vam.modify slot write), report (vam.remote slot)⟩) ∨
      (∀ slot ∈ neighbours, vam.pid slot ≠ temporaryId) ∧
        ((∃ slot rest, free = slot :: rest ∧
            vam.withStation temporaryId write report fuel =
              some ⟨0, some slot, vam.withTable ((vam.seat slot temporaryId).modify slot write),
                report ((vam.seat slot temporaryId).remote slot)⟩) ∨
          free = [] ∧
            vam.withStation temporaryId write report fuel = some ⟨0, none, vam, []⟩) := by
  rcases holds.vamFindSta_cases temporaryId enough with
    ⟨slot, member, same, found⟩ | ⟨absent, ⟨slot, rest, split, found⟩ | ⟨empty, found⟩⟩
  · exact .inl ⟨slot, member, same, by rw [withStation, found]; rfl⟩
  · exact .inr ⟨absent, .inl ⟨slot, rest, split, by rw [withStation, found]; rfl⟩⟩
  · exact .inr ⟨absent, .inr ⟨empty, by rw [withStation, found]; rfl⟩⟩

/-- The broadcast timer is updated after the table, the handlers and the own status. -/
theorem vsmUpdateBsmBcastTimer_frame (vam : VamEnvar) :
    vam.vsmUpdateBsmBcastTimer.toStaTable = vam.toStaTable ∧
      vam.vsmUpdateBsmBcastTimer.evtHandler = vam.evtHandler ∧
      vam.vsmUpdateBsmBcastTimer.localSta = vam.localSta := by
  unfold vsmUpdateBsmBcastTimer
  split <;> exact ⟨rfl, rfl, rfl⟩

/-- What a neighbour tick does: every neighbour ages, the dead ones leave, the
alerts that time out are reported, and at last that nobody is left. -/
structure Ticked (vam : VamEnvar) (neighbours free : List Slot) (events : List PeerEvent)
    (after : VamEnvar) : Prop where
  holds : after.toStaTable.Holds (neighbours.filter fun slot => !vam.diesNow slot)
    (free ++ neighbours.filter vam.diesNow)
  remote : ∀ slot, after.remote slot =
    if slot ∈ neighbours then (vam.remote slot).age else vam.remote slot
  evtHandler : after.evtHandler = vam.evtHandler
  localSta : after.localSta = vam.localSta
  events : events =
    ((neighbours.filter vam.timesOutNow).reverse.flatMap fun slot =>
      callHandler vam.evtHandler .peerAlarm (vam.remote slot).age.s) ++
    if vam.gotNeighbour && neighbours.isEmpty then callHandler vam.evtHandler .peerUpdate none else []

/-- The neighbour tick returns. -/
theorem vamUpdateSta_ticked {vam : VamEnvar} {neighbours free : List Slot}
    (holds : vam.toStaTable.Holds neighbours free) {fuel : Nat} (enough : neighbours.length < fuel) :
    ∃ events after, vam.vamUpdateSta fuel = some (events, after) ∧
      vam.Ticked neighbours free events after := by
  obtain ⟨sweep, returned, swept⟩ := holds.sweep enough
  rw [vamUpdateSta, returned, Option.map_some]
  have alarms : (sweep.timedOut.reverse.flatMap fun sta => callHandler vam.evtHandler .peerAlarm (some sta)) =
      (neighbours.filter vam.timesOutNow).reverse.flatMap fun slot =>
        callHandler vam.evtHandler .peerAlarm (vam.remote slot).age.s := by
    rw [swept.timedOut, ← List.map_reverse, List.flatMap_map]
  have emptied : (sweep.table.gotNeighbour && sweep.isEmpty) =
      (vam.gotNeighbour && neighbours.isEmpty) := by
    rw [swept.gotNeighbour, swept.isEmpty]
    cases neighbours.isEmpty <;> simp
  have kept : sweep.table.Holds (neighbours.filter fun slot => !vam.diesNow slot)
      (free ++ neighbours.filter vam.diesNow) := by simpa using swept.holds
  have remote : ∀ slot, sweep.table.remote slot =
      if slot ∈ neighbours then (vam.remote slot).age else vam.remote slot := swept.remote
  simp only [alarms, emptied]
  by_cases nobody : (vam.gotNeighbour && neighbours.isEmpty) = true
  · have none : neighbours = [] := by simpa using (Bool.and_eq_true_iff.1 nobody).2
    subst none
    let cleared := { sweep.table with gotNeighbour := false, neighbourCnt := 0 }
    obtain ⟨table, handlers, own⟩ := vsmUpdateBsmBcastTimer_frame (vam.withTable cleared)
    rw [if_pos nobody]
    refine ⟨_, _, rfl, ?_, ?_, handlers, own, by rw [if_pos nobody]⟩
    · rw [table]
      exact ⟨kept.rings, kept.complete, rfl⟩
    · rw [table]
      exact remote
  · obtain ⟨table, handlers, own⟩ := vsmUpdateBsmBcastTimer_frame (vam.withTable sweep.table)
    rw [if_neg nobody]
    refine ⟨_, _, rfl, ?_, ?_, handlers, own, ?_⟩
    · rwa [table]
    · rwa [table]
    · rw [if_neg nobody, List.append_nil]

end VamEnvar

end Rsu.Vam
