import Rsu.Net.Network

/-!
# Nothing is made up on the way

Whatever the stations do in whatever order, a frame that is sent on is a copy of a
message some station sent, and what a table shows of a station is what that station
sent. The invariant follows a message from its sender over the waiting lists of the
stations in between: `Copied` is what holds of a frame on the air and of a buffer on a
list, `Attested` what holds of a line of a table.
-/

namespace Rsu.Net

open Rsu.Data Rsu.Rcp Rsu.Mda Rsu.Vam

universe u

/-- What a message is to the stations that hear it: one of its kind, long enough, from its
sender, and with the position and the heading its sender had. -/
structure Sending.Sound {ι : Type u} (own : ι → TempId) (message : Sending ι) : Prop where
  idEq : msgId message.frame = message.kind.msgId
  long : message.kind.minLength ≤ message.frame.length
  sender : tempIdAt message.frame message.kind.temporaryIdAt = own message.sender
  close : message.current.InRange →
    (readingOfFrame message.kind message.frame).Close message.current

section Facts

variable {ι : Type u}

/-- The frame is a copy of a message, that so many stations at least have sent on. -/
def Copied (sent : List (Sending ι)) (least : Nat) (frame : Frame) : Prop :=
  ∃ message ∈ sent, ∃ relays, least ≤ relays ∧ CopyOf message.kind message.frame relays frame

/-- The reading is that of a message from the pid. -/
def Attested (own : ι → TempId) (sent : List (Sending ι)) (pid : TempId) (reading : Reading) :
    Prop :=
  ∃ message ∈ sent, own message.sender = pid ∧
    reading = readingOfFrame message.kind message.frame

variable {own : ι → TempId} {sent more : List (Sending ι)} {least : Nat} {frame : Frame}

/-- What was copied stays copied when more is sent. -/
theorem Copied.append (copied : Copied sent least frame) : Copied (sent ++ more) least frame := by
  obtain ⟨message, member, copy⟩ := copied
  exact ⟨message, List.mem_append_left more member, copy⟩

/-- What was attested stays attested when more is sent. -/
theorem Attested.append {pid : TempId} {reading : Reading}
    (attested : Attested own sent pid reading) : Attested own (sent ++ more) pid reading := by
  obtain ⟨message, member, shown⟩ := attested
  exact ⟨message, List.mem_append_left more member, shown⟩

end Facts

/-- A kind is known by its message identifier. -/
theorem msgId_injective : Function.Injective MsgKind.msgId := by
  intro left right same
  cases left <;> cases right <;> first | rfl | cases same

/-- A frame that is received is the one that was heard. -/
theorem of_receivedOf {frame : Frame} {rx : Received} (found : receivedOf frame = some rx) :
    rx.frame = frame := by
  unfold receivedOf at found
  split at found
  · cases found
    rfl
  · split at found
    · cases found
      rfl
    · cases found

/-- What a sender hands to the network layer is sound. -/
theorem composed_sound {ι : Type u} {own : ι → TempId} {i : ι} {station : Station}
    {cast : FloatCast} {lib : Libm} {t : BitVec 32} {tx : TxEnv} {kind : MsgKind} {frame : Frame}
    (pid : station.pid = own i) (composed : station.composed cast lib t tx kind = some frame) :
    Sending.Sound own ⟨i, kind, station.vam.vamGetLocalCurrentStatus lib t, frame⟩ := by
  cases kind with
  | bsm =>
      obtain ⟨bsm, rfl, sender, -⟩ := VamEnvar.of_bsmFrame composed
      have fields := congrArg RcpMsgBasicSafty.temporaryId (bsmOfFrame_bytes cast
        (station.vam.vamGetLocalCurrentStatus lib t) bsm (t.setWidth 16))
      refine ⟨?_, ?_, (fields.trans sender).trans pid, close_bsm cast _ bsm _⟩
      · exact BitVec.extractLsb'_append_eq_right
      · change 42 ≤ _
        rw [TxBsm.bytes_length]
        split <;> decide
  | evam =>
      obtain ⟨evam, rfl, sender, -⟩ := VamEnvar.of_evamFrame composed
      have fields := congrArg RcpMsgEmergencyVehicleAlert.temporaryId (evamOfFrame_bytes cast
        (station.vam.vamGetLocalCurrentStatus lib t) evam)
      refine ⟨?_, ?_, (fields.trans sender).trans ?_, close_evam cast _ evam⟩
      · exact BitVec.extractLsb'_append_eq_right
      · exact Nat.le_of_eq (evam.bytes_length cast _).symm
      · exact (vsmGetDrCurrent_pid lib t station.vam.localSta).trans pid

/-- What holds of a station: its pid stays, its table shows what was sent, and the buffers on its
waiting list are copies. -/
structure Station.Genuine {ι : Type u} (own : ι → TempId) (sent : List (Sending ι)) (pid : TempId)
    (station : Station) : Prop where
  named : station.pid = pid
  table : Displays station.vam.toStaTable fun peer reading =>
    peer ≠ pid ∧ Attested own sent peer reading
  queue : station.hung = false → ∃ nodes, station.mda.Waiting nodes ∧
    ∀ buf ∈ nodes, Copied sent 1 (station.mda.txbuf buf).data

/-- The invariant of a network. -/
structure NetState.Genuine {ι : Type u} (own : ι → TempId) (state : NetState ι) : Prop where
  station : ∀ i, (state.station i).Genuine own state.sent (own i)
  sent : ∀ message ∈ state.sent, message.Sound own
  relayed : ∀ relay ∈ state.relayed, ∃ message ∈ state.sent, ∃ relays, 1 ≤ relays ∧
    CopyOf message.kind message.frame relays relay.frame ∧
    tempIdAt relay.frame message.kind.forwardIdAt = own relay.sender

/-- A frame of a known kind gets its forwarder in the place of the kind. -/
theorem rcpSendForwardMsg_received (rx : Received) (pid : TempId) :
    rcpSendForwardMsg pid rx.frame =
      some (copyInto rx.frame rx.kind.forwardIdAt pid.toList) := by
  unfold rcpSendForwardMsg
  rw [rx.idEq]
  cases rx.kind with
  | bsm => rfl
  | evam => rfl

section Station

variable {ι : Type u} {own : ι → TempId} {sent more : List (Sending ι)} {pid : TempId}
  {station next : Station} {frame : Frame}

/-- A station stays genuine when more is sent. -/
theorem Station.Genuine.append (genuine : station.Genuine own sent pid) :
    station.Genuine own (sent ++ more) pid where
  named := genuine.named
  table := genuine.table.mono fun _ _ shown => ⟨shown.1, shown.2.append⟩
  queue free := by
    obtain ⟨nodes, waiting, copied⟩ := genuine.queue free
    exact ⟨nodes, waiting, fun buf member => (copied buf member).append⟩

/-- Sending a basic safety message counts it, and leaves the rest alone. -/
theorem rcpSendBsm_frame (vam : VamEnvar) (tx : TxEnv) :
    (vam.rcpSendBsm tx).2.2.localSta = vam.localSta ∧
      (vam.rcpSendBsm tx).2.2.toStaTable = vam.toStaTable := by
  unfold VamEnvar.rcpSendBsm
  split <;> exact ⟨rfl, rfl⟩

/-- Sending an alert changes neither the status nor the table. -/
theorem rcpSendEvam_frame (lib : Libm) (t : BitVec 32) (vam : VamEnvar) (tx : TxEnv) :
    (vam.rcpSendEvam lib t tx).2.2.localSta = vam.localSta ∧
      (vam.rcpSendEvam lib t tx).2.2.toStaTable = vam.toStaTable := by
  unfold VamEnvar.rcpSendEvam
  split <;> exact ⟨rfl, rfl⟩

/-- A message was sent. -/
theorem Station.Genuine.counted (genuine : station.Genuine own sent pid) (lib : Libm)
    (t : BitVec 32) (tx : TxEnv) (kind : MsgKind) :
    (station.counted lib t tx kind).Genuine own sent pid := by
  cases kind with
  | bsm =>
      obtain ⟨status, table⟩ := rcpSendBsm_frame station.vam tx
      exact ⟨(congrArg VamStastatus.pid status).trans genuine.named, table.symm ▸ genuine.table,
        genuine.queue⟩
  | evam =>
      obtain ⟨status, table⟩ := rcpSendEvam_frame lib t station.vam tx
      exact ⟨(congrArg VamStastatus.pid status).trans genuine.named, table.symm ▸ genuine.table,
        genuine.queue⟩

/-- What a copy of a message is to the parser of its kind. -/
theorem CopyOf.read {message : Sending ι} {relays : Nat}
    (copy : CopyOf message.kind message.frame relays frame) :
    readingOfFrame message.kind frame = readingOfFrame message.kind message.frame := by
  obtain ⟨sender, kind, current, original⟩ := message
  cases kind with
  | bsm => simp only [readingOfFrame, SameMessage.bsmOfFrame copy.same]
  | evam => simp only [readingOfFrame, SameMessage.evamOfFrame copy.same]

/-- A copy of a sound message is one of its kind, from its sender. -/
theorem CopyOf.kind_eq {message : Sending ι} {relays : Nat} (sound : message.Sound own)
    (copy : CopyOf message.kind message.frame relays frame) {kind : MsgKind}
    (known : msgId frame = kind.msgId) : kind = message.kind :=
  msgId_injective (known.symm.trans (copy.same.msgId.trans sound.idEq))

/-- The data of the buffers after a message was queued. -/
theorem data_queued {mda next : MdaEnvar Nat} {rx : Received} {buf : Nat} {delay : Int}
    (contents : next.contents =
      (((mda.rcpCreateForwardMsg (MdaEnvar.spend (srcOf rx)).leftHops rx.frame
        (some buf)).1.addHistoryRecord (MdaEnvar.spend (srcOf rx))).fill buf
          ⟨MdaEnvar.spend (srcOf rx), delay⟩).contents) (other : Nat) :
    (next.txbuf other).data =
      if other = buf then setHops rx.frame (msgHops rx.frame - 1#3) else (mda.txbuf other).data := by
  have stored := congrArg (fun contents => (contents.2.2 other).2) contents
  refine stored.trans ?_
  have left : (MdaEnvar.spend (srcOf rx)).leftHops.setWidth 3 = msgHops rx.frame - 1#3 :=
    leftHops_stored (msgHops rx.frame)
  by_cases same : other = buf
  · subst same
    simp [MdaEnvar.contents, MdaEnvar.fill, MdaEnvar.rcpCreateForwardMsg, left]
  · simp [MdaEnvar.contents, MdaEnvar.fill, MdaEnvar.rcpCreateForwardMsg, same]

/-- A message that is queued did not arrive with its last hop. -/
theorem notLast_of_decided {rangeDelay : Int → Int} {mda : MdaEnvar Nat} {rx : Received}
    {dis delay : Int} {txbuf : Option Nat} {buf : Nat}
    (decided : (mda.mdaDecide rangeDelay (MdaEnvar.spend (srcOf rx)) rx.frame dis txbuf).1 =
      .forward buf delay) : msgHops rx.frame ≠ 1#3 := by
  let node : Node Nat := ⟨mda, rx.temporaryId, dis, txbuf⟩
  have copied : ∃ data, node.copied rangeDelay rx = some data := by
    rcases decision : mda.mdaDecide rangeDelay (MdaEnvar.spend (srcOf rx)) rx.frame dis txbuf with
      ⟨verdict, after, left⟩
    obtain rfl : verdict = .forward buf delay := by rw [decision] at decided; exact decided
    exact ⟨(after.txbuf buf).data, by rw [Node.copied, decision]⟩
  obtain ⟨data, copied⟩ := copied
  exact ((node.copied_eq_some_iff rx data).1 copied).2.1

/-- The waiting list after a copy of a message was heard. -/
theorem Station.Genuine.hear_queue {rangeDelay : Int → Int} (genuine : station.Genuine own sent pid)
    (free : station.hung = false) (copied : Copied sent 0 frame) {arrival : Arrival} {nodes : List Nat}
    (waiting : station.mda.Waiting nodes) (fresh : ∀ buf ∈ arrival.txbuf, buf ∉ nodes)
    {mda : MdaEnvar Nat} (returns : Returns (station.rcpMdaProcess rangeDelay frame arrival) mda) :
    ∃ nodes, mda.Waiting nodes ∧ ∀ buf ∈ nodes, Copied sent 1 (mda.txbuf buf).data := by
  obtain ⟨fuel, returned⟩ := returns
  obtain ⟨others, ring, before⟩ := genuine.queue free
  obtain rfl := waiting.unique ring
  unfold rcpMdaProcess at returned
  split at returned
  · obtain rfl := Option.some.inj returned
    exact ⟨nodes, waiting, before⟩
  rename_i rx found
  split at returned
  · obtain rfl := Option.some.inj returned
    exact ⟨nodes, waiting, before⟩
  obtain ⟨⟨mda, result⟩, handled, rfl⟩ := Option.map_eq_some_iff.1 returned
  obtain rfl := of_receivedOf found
  obtain ⟨message, member, relays, -, copy⟩ := copied
  cases MdaEnvar.mdaHandle_result waiting fresh ⟨fuel, handled⟩ with
  | kept => exact ⟨nodes, waiting, before⟩
  | @queued buf delay next decided supplied unknown pushed contents =>
      refine ⟨_, pushed, fun other listed => ?_⟩
      rw [data_queued contents]
      split_ifs with same
      · exact ⟨message, member, relays + 1, Nat.le_add_left 1 relays,
          copy.queued rx.nonempty (notLast_of_decided decided)⟩
      · exact before other ((List.mem_cons.1 listed).resolve_left same)
  | @cancelled front back buf notForward split found fewer =>
      subst split
      refine ⟨front ++ back, MdaEnvar.removeFromForwardList_waiting waiting, fun other listed => ?_⟩
      exact before other
        (((List.sublist_cons_self buf back).append_left front).subset listed)

/-- The table after a copy of a message was heard. -/
theorem Station.Genuine.hear_table (genuine : station.Genuine own sent pid)
    (sound : ∀ message ∈ sent, message.Sound own) (copied : Copied sent 0 frame) {now : BitVec 32}
    {result : MsgResult} (returns : Returns (station.vam.rcpParseMsg frame now) result) :
    Displays result.vam.toStaTable fun peer reading =>
      peer ≠ pid ∧ Attested own sent peer reading := by
  obtain ⟨message, member, relays, -, copy⟩ := copied
  refine genuine.table.rcpParseMsg (fun kind known reaches => ?_) returns
  have whole := sound message member
  obtain rfl := copy.kind_eq whole known
  refine ⟨?_, message, member, ?_, copy.read⟩
  · rw [← genuine.named]
    exact reaches.2
  · rw [copy.same.sender, whole.sender]

/-- Hearing leaves the pid alone. -/
theorem rcpParseMsg_pid {vam : VamEnvar} {now : BitVec 32} {fuel : Nat} {result : MsgResult}
    (parsed : vam.rcpParseMsg frame now fuel = some result) :
    result.vam.localSta.pid = vam.localSta.pid := by
  obtain ⟨table, same | same⟩ := VamEnvar.rcpParseMsg_withTable parsed
  · rw [same]
    rfl
  · rw [same]
    exact congrArg VamStastatus.pid (vsmPauseBsmBroadcast_frame vam).2

/-- A copy of a message was heard. -/
theorem Station.Genuine.hear {rangeDelay : Int → Int} (genuine : station.Genuine own sent pid)
    (sound : ∀ message ∈ sent, message.Sound own) (free : station.hung = false)
    (copied : Copied sent 0 frame) {arrival : Arrival} {nodes : List Nat}
    (waiting : station.mda.Waiting nodes) (fresh : ∀ buf ∈ arrival.txbuf, buf ∉ nodes)
    (returns : Returns (station.rcpParseMsg rangeDelay frame arrival) next) :
    next.Genuine own sent pid := by
  obtain ⟨fuel, returned⟩ := returns
  obtain ⟨mda, processed, returned⟩ := Option.bind_eq_some_iff.1 returned
  obtain ⟨result, parsed, rfl⟩ := Option.map_eq_some_iff.1 returned
  exact
    { named := (rcpParseMsg_pid parsed).trans genuine.named
      table := genuine.hear_table sound copied ⟨fuel, parsed⟩
      queue := fun _ => genuine.hear_queue free copied waiting fresh ⟨fuel, processed⟩ }

/-- The tick of the multihop thread leaves copies on the list, and hands on a copy. -/
theorem Station.Genuine.forward (genuine : station.Genuine own sent pid)
    (sound : ∀ message ∈ sent, message.Sound own) (free : station.hung = false) :
    station.forward.1.Genuine own sent pid ∧
      ∀ frame ∈ station.forward.2, ∃ message ∈ sent, ∃ relays, 1 ≤ relays ∧
        CopyOf message.kind message.frame relays frame ∧
        tempIdAt frame message.kind.forwardIdAt = pid := by
  obtain ⟨nodes, waiting, copied⟩ := genuine.queue free
  obtain ⟨left, ring, split, contents, -⟩ := station.mda.forwardHandler_tick id waiting
  have data (buf : Nat) : (station.mda.forwardHandler.1.txbuf buf).data =
      (station.mda.txbuf buf).data := congrArg (fun contents => (contents.2.2 buf).2) contents
  have kept : ∀ buf ∈ nodes, Copied sent 1 (station.mda.forwardHandler.1.txbuf buf).data :=
    fun buf member => (data buf).symm ▸ copied buf member
  refine ⟨⟨genuine.named, genuine.table, fun _ => ⟨left, ring, fun buf member => ?_⟩⟩, ?_⟩
  · exact kept buf (split ▸ List.mem_append_right _ member)
  · intro frame handed
    obtain ⟨buf, popped, handed⟩ := Option.bind_eq_some_iff.1 handed
    have member : buf ∈ nodes := by
      rw [split, show station.mda.forwardHandler.2 = some buf from popped]
      exact List.mem_append_left _ (List.mem_singleton_self buf)
    obtain ⟨message, listed, relays, positive, copy⟩ := kept buf member
    have whole := sound message listed
    have long : message.kind.minLength ≤ (station.mda.forwardHandler.1.txbuf buf).data.length :=
      copy.same.length ▸ whole.long
    let rx : Received := ⟨message.kind, _, copy.same.msgId.trans whole.idEq, long⟩
    have same : rcpSendForwardMsg station.pid rx.frame =
        some (copyInto rx.frame message.kind.forwardIdAt station.pid.toList) :=
      rcpSendForwardMsg_received rx station.pid
    obtain rfl := Option.some.inj (same.symm.trans handed)
    refine ⟨message, listed, relays, positive, copy.forwarded long _, ?_⟩
    rw [tempIdAt_copyInto _ rx.forwardId_fits]
    exact genuine.named

end Station

namespace NetState

variable {ι : Type u} {own : ι → TempId} {state next : NetState ι} {cast : FloatCast} {lib : Libm}
  {rangeDelay : Int → Int}

/-- What can be heard is a copy of a message. -/
theorem Genuine.copied (genuine : state.Genuine own) {frame : Frame} (aired : state.Aired frame) :
    Copied state.sent 0 frame := by
  rcases aired with ⟨message, member, rfl⟩ | ⟨relay, member, rfl⟩
  · exact ⟨message, member, 0, Nat.le_refl 0, .sent message.frame⟩
  · obtain ⟨message, listed, relays, -, copy, -⟩ := genuine.relayed relay member
    exact ⟨message, listed, relays, Nat.zero_le relays, copy⟩

variable [DecidableEq ι]

/-- An event at one station that leaves the air alone. -/
theorem Genuine.put (genuine : state.Genuine own) {i : ι} {station : Station}
    (changed : station.Genuine own state.sent (own i)) : (state.put i station).Genuine own where
  station j := by
    by_cases same : j = i
    · subst same
      simpa [NetState.put] using changed
    · simpa [NetState.put, same] using genuine.station j
  sent := genuine.sent
  relayed := genuine.relayed

/-- A message was sent. -/
theorem Genuine.send (genuine : state.Genuine own) {i : ι} {station : Station} {message : Sending ι}
    (changed : station.Genuine own state.sent (own i)) (sound : message.Sound own) :
    Genuine own { state.put i station with sent := state.sent ++ [message] } where
  station j := ((genuine.put changed).station j).append
  sent other member := by
    rcases List.mem_append.1 member with old | new
    · exact genuine.sent other old
    · exact List.mem_singleton.1 new ▸ sound
  relayed relay member := by
    obtain ⟨original, listed, copy⟩ := genuine.relayed relay member
    exact ⟨original, List.mem_append_left _ listed, copy⟩

/-- Every event keeps the invariant. -/
theorem Genuine.step (genuine : state.Genuine own) {action : NetAction ι}
    (step : NetStep cast lib rangeDelay state action next) : next.Genuine own := by
  cases step with
  | @sent i kind t tx frame composed =>
      have before := genuine.station i
      exact genuine.send (before.counted lib t tx kind) (composed_sound before.named composed)
  | @heard i frame arrival nodes after free aired waiting fresh returns =>
      exact genuine.put ((genuine.station i).hear genuine.sent free (genuine.copied aired) waiting
        fresh returns)
  | @stuck i frame arrival free aired diverges =>
      obtain ⟨named, table, -⟩ := genuine.station i
      exact genuine.put ⟨named, table, fun unstuck => by cases unstuck⟩
  | @forwarded i free =>
      obtain ⟨changed, handed⟩ := (genuine.station i).forward genuine.sent free
      obtain ⟨stations, sent, relayed⟩ := genuine.put changed
      refine ⟨stations, sent, fun relay member => ?_⟩
      rcases List.mem_append.1 member with old | new
      · exact relayed relay old
      · obtain ⟨frame, listed, rfl⟩ := List.mem_map.1 new
        exact handed frame (Option.mem_toList.1 listed)
  | @timedOut i =>
      obtain ⟨named, table, queue⟩ := genuine.station i
      exact genuine.put ⟨named, table, queue⟩
  | @aged i free =>
      obtain ⟨named, table, queue⟩ := genuine.station i
      refine genuine.put ⟨named, table, fun unstuck => ?_⟩
      obtain ⟨nodes, waiting, copied⟩ := queue unstuck
      refine ⟨nodes, ?_, fun buf member => ?_⟩
      · rw [MdaEnvar.Waiting, MdaEnvar.historyHandler_links]
        exact waiting
      · rw [MdaEnvar.historyHandler_txbuf]
        exact copied buf member
  | @ticked i events vam returns =>
      obtain ⟨named, table, queue⟩ := genuine.station i
      refine genuine.put ⟨?_, table.tick returns, queue⟩
      exact (table.tick_pid returns).trans named
  | @counted i pid cnt after returns =>
      obtain ⟨named, table, queue⟩ := genuine.station i
      exact genuine.put ⟨named, table.setPeerCnt returns, queue⟩
  | @changed i vam table pid =>
      obtain ⟨named, shown, queue⟩ := genuine.station i
      exact genuine.put ⟨pid.trans named, table.symm ▸ shown, queue⟩

variable (memory : ι → Links StaEntry) (param : ι → VamConfig) (pid : ι → TempId)
  (evtHandler : ι → VamEvt → Bool)

omit [DecidableEq ι] in

/-- At the start every station is genuine. -/
theorem init_genuine : (init memory param pid evtHandler).Genuine fun i => localPid (pid i) where
  station i :=
    { named := rfl
      table := Displays.init (memory i) _
      queue := fun _ => ⟨[], MdaEnvar.mdaInit_waiting, fun _ member => absurd member List.not_mem_nil⟩ }
  sent _ member := absurd member List.not_mem_nil
  relayed _ member := absurd member List.not_mem_nil

/-- Every station is genuine in every run. -/
theorem genuine_always {finish : NetState ι}
    (path : (netSystem ι cast lib rangeDelay).Path (init memory param pid evtHandler) finish) :
    path.Always fun state : NetState ι => state.Genuine fun i => localPid (pid i) :=
  path.always_of_invariant (init_genuine memory param pid evtHandler) fun genuine step =>
    Genuine.step genuine step

/-- Forwarding makes nothing up. In every state of every run, a frame a station sent on is a
message that some station sent, but for the hops and the last forwarder: so many hops are gone
as stations have sent it on, at most seven and fewer than there were hops if there were any,
and the forwarder is the station that sent on this copy. -/
theorem relayed_frames_genuine {finish : NetState ι}
    (path : (netSystem ι cast lib rangeDelay).Path (init memory param pid evtHandler) finish) :
    path.Always fun state : NetState ι => ∀ relay ∈ state.relayed, ∃ message ∈ state.sent,
      ∃ relays : Nat, 1 ≤ relays ∧ relays ≤ 7 ∧
        (msgHops message.frame ≠ 0#3 → relays < (msgHops message.frame).toNat) ∧
        msgHops relay.frame = msgHops message.frame - BitVec.ofNat 3 relays ∧
        tempIdAt relay.frame message.kind.forwardIdAt = (state.station relay.sender).pid ∧
        tempIdAt relay.frame message.kind.temporaryIdAt = (state.station message.sender).pid ∧
        SameMessage message.kind relay.frame message.frame := by
  refine (genuine_always memory param pid evtHandler path).mono fun state genuine => ?_
  intro relay member
  obtain ⟨message, listed, relays, positive, copy, forwarder⟩ := genuine.relayed relay member
  have limited := copy.limited
  have small := (msgHops message.frame - 1#3).isLt
  refine ⟨message, listed, relays, positive, by omega, fun some => ?_, copy.hops, ?_, ?_, copy.same⟩
  · have fewer : (msgHops message.frame - 1#3).toNat < (msgHops message.frame).toNat := by
      revert some
      generalize msgHops message.frame = hops
      revert hops
      decide
    omega
  · rw [forwarder, (genuine.station relay.sender).named]
  · rw [copy.same.sender, (genuine.sent message listed).sender,
      (genuine.station message.sender).named]

/-- Tables show what was sent. In every state of every run, however messages were delayed,
repeated, lost and forwarded, a station that lists a pid lists one that is not its own, with
the position, height, heading and speed of a message that a station with this pid sent; if
the status the message was made from was in range, the position and the heading are off by
less than one unit of their fields. -/
theorem tables_show_what_was_sent {finish : NetState ι}
    (path : (netSystem ι cast lib rangeDelay).Path (init memory param pid evtHandler) finish) :
    path.Always fun state : NetState ι => ∀ (i : ι) (neighbours free : List Slot),
      (state.station i).vam.toStaTable.Holds neighbours free → ∀ slot ∈ neighbours,
        (state.station i).vam.pid slot ≠ (state.station i).pid ∧
        ∃ message ∈ state.sent,
          (state.station message.sender).pid = (state.station i).vam.pid slot ∧
          readingOfNode ((state.station i).vam.remote slot) =
            readingOfFrame message.kind message.frame ∧
          (message.current.InRange →
            (readingOfNode ((state.station i).vam.remote slot)).Close message.current) := by
  refine (genuine_always memory param pid evtHandler path).mono fun state genuine => ?_
  intro i neighbours free holds slot member
  obtain ⟨named, table, -⟩ := genuine.station i
  obtain ⟨foreign, message, listed, sender, reading⟩ := table.of_listed holds member
  refine ⟨fun same => foreign (same.trans named), message, listed, ?_, reading, fun range => ?_⟩
  · exact (genuine.station message.sender).named.trans sender
  · rw [reading]
    exact (genuine.sent message listed).close range

end NetState

end Rsu.Net
