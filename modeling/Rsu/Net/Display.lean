import Rsu.Vam.RoundTrip

/-!
# What a neighbour table shows

Both kinds of message write the position, the height, the heading and the speed of
their sender, and nothing else ever writes these: `Displays` says that all pairs of a
listed pid and its reading have a property, and is kept by every call that reaches
the table, as long as the messages have the property.
-/

namespace Rsu.Net

open Rsu.Rcp Rsu.Vam

/-- The part of a status that every message of its station renews. -/
structure Reading where
  lon : ℚ
  lat : ℚ
  elev : ℚ
  dir : ℚ
  speed : ℚ
  deriving DecidableEq

/-- The reading stored for a station. -/
def readingOfNode (node : VamStaNode) : Reading :=
  ⟨node.s.pos.lon, node.s.pos.lat, node.s.pos.elev, node.s.dir, node.s.speed⟩

/-- The reading a frame carries. -/
def readingOfFrame (kind : MsgKind) (frame : Frame) : Reading :=
  match kind with
  | .bsm =>
      let p_bsm := bsmOfFrame frame
      ⟨decodeLongtitude p_bsm.position.lon, decodeLongtitude p_bsm.position.lat,
        decodeElevation p_bsm.position.elev, decodeHeading p_bsm.motion.heading,
        decodeSpeed p_bsm.motion.speed⟩
  | .evam =>
      let p_evam := evamOfFrame frame
      ⟨decodeLongtitude p_evam.lon, decodeLongtitude p_evam.lat, decodeElevation p_evam.elev,
        decodeHeading p_evam.heading, decodeSpeed p_evam.speed⟩

/-- A message renews the whole reading. -/
theorem readingOfNode_write (msg : Reception) (node : VamStaNode) :
    readingOfNode (msg.write node) = readingOfFrame msg.kind msg.databuf := by
  obtain ⟨kind, databuf, now⟩ := msg
  cases kind with
  | bsm =>
      rw [Reception.write]
      dsimp only
      split <;> rfl
  | evam => rfl

@[simp] theorem readingOfNode_age (node : VamStaNode) :
    readingOfNode node.age = readingOfNode node := by
  unfold VamStaNode.age
  split <;> rfl

/-- Pausing the broadcast leaves the table and the own status alone. -/
theorem vsmPauseBsmBroadcast_frame (vam : VamEnvar) :
    vam.vsmPauseBsmBroadcast.toStaTable = vam.toStaTable ∧
      vam.vsmPauseBsmBroadcast.localSta = vam.localSta := by
  unfold VamEnvar.vsmPauseBsmBroadcast
  split <;> exact ⟨rfl, rfl⟩

/-- Every listed pid and its reading have a property. -/
def Displays (table : StaTable) (shown : TempId → Reading → Prop) : Prop :=
  ∃ neighbours free, table.Holds neighbours free ∧
    ∀ slot ∈ neighbours, shown (table.pid slot) (readingOfNode (table.remote slot))

namespace Displays

variable {table : StaTable} {vam : VamEnvar} {shown weaker : TempId → Reading → Prop}

/-- A table that shows something shows whatever follows from it. -/
theorem mono (displays : Displays table shown)
    (implies : ∀ pid reading, shown pid reading → weaker pid reading) :
    Displays table weaker := by
  obtain ⟨neighbours, free, holds, all⟩ := displays
  exact ⟨neighbours, free, holds, fun slot member => implies _ _ (all slot member)⟩

/-- After `vam_init` nobody is listed. -/
theorem init (memory : Rsu.Data.Links StaEntry) (shown : TempId → Reading → Prop) :
    Displays (.init memory) shown :=
  ⟨[], _, (StaTable.init_consistent memory).holds, fun _ member => absurd member List.not_mem_nil⟩

/-- Whoever is listed has the property. -/
theorem of_listed (displays : Displays table shown) {neighbours free : List Slot}
    (holds : table.Holds neighbours free) {slot : Slot} (member : slot ∈ neighbours) :
    shown (table.pid slot) (readingOfNode (table.remote slot)) := by
  obtain ⟨listed, rest, lists, all⟩ := displays
  obtain ⟨rfl, rfl⟩ := lists.unique holds
  exact all slot member

/-- A message writes its own reading under its own sender. -/
theorem write (displays : Displays table shown) {neighbours free : List Slot} {slot : Slot}
    (holds : table.Holds neighbours free) (msg : Reception)
    (genuine : shown (table.pid slot) (readingOfFrame msg.kind msg.databuf)) :
    Displays (table.modify slot msg.write) shown := by
  refine ⟨neighbours, free, holds.modify slot msg.write, fun other listed => ?_⟩
  rw [table.modify_pid slot msg.write_pid]
  by_cases same : other = slot
  · rw [same, StaTable.modify_remote_self, readingOfNode_write]
    exact genuine
  · rw [StaTable.modify_remote_of_ne table msg.write same]
    exact displays.of_listed holds listed

/-- Admitting a station and writing its first message. -/
theorem insertSlot (displays : Displays table shown) {neighbours free : List Slot} {slot : Slot}
    (holds : table.Holds neighbours (slot :: free)) (msg : Reception)
    (genuine : shown msg.sender (readingOfFrame msg.kind msg.databuf)) :
    Displays ((table.seat slot msg.sender).modify slot msg.write) shown := by
  refine ⟨slot :: neighbours, free, (holds.seat msg.sender).modify slot msg.write,
    fun other listed => ?_⟩
  rw [StaTable.modify_pid _ slot msg.write_pid]
  by_cases same : other = slot
  · rw [same, StaTable.modify_remote_self, readingOfNode_write, StaTable.seat_pid_self]
    exact genuine
  · rw [StaTable.modify_remote_of_ne _ msg.write same, StaTable.seat_remote_of_ne _ _ same,
      StaTable.seat_pid_of_ne _ _ same]
    exact displays.of_listed holds ((List.mem_cons.1 listed).resolve_left same)

/-- The parsers, for a message that has the property if it is not dropped. -/
theorem parse (displays : Displays vam.toStaTable shown) {msg : Reception} {result : RxResult}
    (genuine : msg.Reaches vam.localSta.pid →
      shown msg.sender (readingOfFrame msg.kind msg.databuf))
    (returns : Returns (msg.parse vam) result) : Displays result.vam.toStaTable shown := by
  have persistent := msg.parse_persistent vam
  obtain ⟨neighbours, free, holds, -⟩ := id displays
  by_cases reaches : msg.Reaches vam.localSta.pid
  · have carried := genuine reaches
    have called : ∀ result, vam.withStation msg.sender msg.write (msg.report vam.evtHandler)
        (neighbours.length + 1) = some result → Returns (msg.parse vam) result :=
      fun result stored => ⟨_, by rw [msg.parse_eq, if_pos reaches, stored]⟩
    rcases VamEnvar.withStation_cases holds msg.sender msg.write (msg.report vam.evtHandler)
        (Nat.lt_succ_self neighbours.length) with
      ⟨slot, -, own, stored⟩ | ⟨-, ⟨slot, rest, rfl, stored⟩ | ⟨-, stored⟩⟩
    · obtain rfl := returns.unique persistent (called _ stored)
      exact displays.write holds msg (own.symm ▸ carried)
    · obtain rfl := returns.unique persistent (called _ stored)
      exact displays.insertSlot holds msg carried
    · obtain rfl := returns.unique persistent (called _ stored)
      exact displays
  · obtain ⟨fuel, returned⟩ := returns
    rw [msg.parse_eq, if_neg reaches] at returned
    obtain rfl := Option.some.inj returned
    exact displays

/-- `rcp_parse_msg`, for a frame whose message has the property if it is not dropped. -/
theorem rcpParseMsg (displays : Displays vam.toStaTable shown) {databuf : Frame}
    {now : BitVec 32} {result : MsgResult}
    (genuine : ∀ kind : MsgKind, msgId databuf = kind.msgId →
      (⟨kind, databuf, now⟩ : Reception).Reaches vam.localSta.pid →
        shown (tempIdAt databuf kind.temporaryIdAt) (readingOfFrame kind databuf))
    (returns : Returns (vam.rcpParseMsg databuf now) result) :
    Displays result.vam.toStaTable shown := by
  obtain ⟨fuel, returned⟩ := returns
  unfold VamEnvar.rcpParseMsg at returned
  split at returned
  · obtain rfl := Option.some.inj returned
    exact displays
  dsimp only at returned
  split at returned
  · rename_i bsm
    obtain ⟨stored, parsed, rfl⟩ := Option.map_eq_some_iff.1 returned
    have reception : Returns ((⟨.bsm, databuf, now⟩ : Reception).parse _) stored := ⟨fuel, parsed⟩
    exact displays.parse (genuine .bsm bsm) reception
  split at returned
  · rename_i evam
    obtain ⟨stored, parsed, rfl⟩ := Option.map_eq_some_iff.1 returned
    split at parsed
    · obtain ⟨table, own⟩ := vsmPauseBsmBroadcast_frame vam
      have paused : Displays vam.vsmPauseBsmBroadcast.toStaTable shown := table.symm ▸ displays
      have reached := genuine .evam evam
      rw [← own] at reached
      have reception : Returns ((⟨.evam, databuf, now⟩ : Reception).parse _) stored :=
        ⟨fuel, parsed⟩
      exact paused.parse reached reception
    · have reception : Returns ((⟨.evam, databuf, now⟩ : Reception).parse _) stored :=
        ⟨fuel, parsed⟩
      exact displays.parse (genuine .evam evam) reception
  split at returned <;>
  · obtain rfl := Option.some.inj returned
    exact displays

/-- The neighbour tick drops stations and leaves the readings of the others alone. -/
theorem tick (displays : Displays vam.toStaTable shown) {events : List PeerEvent}
    {after : VamEnvar} (returns : Returns vam.vamUpdateSta (events, after)) :
    Displays after.toStaTable shown := by
  obtain ⟨neighbours, free, holds, all⟩ := displays
  obtain ⟨told, aged, returned, ticked⟩ :=
    VamEnvar.vamUpdateSta_ticked holds (Nat.lt_succ_self neighbours.length)
  obtain ⟨rfl, rfl⟩ := Prod.mk.inj (returns.unique vam.vamUpdateSta_persistent ⟨_, returned⟩)
  refine ⟨_, _, ticked.holds, fun slot survives => ?_⟩
  have member := (List.mem_filter.1 survives).1
  rw [StaTable.pid, ticked.remote, if_pos member, VamStaNode.age_pid, readingOfNode_age]
  exact all slot member

/-- The neighbour tick leaves the pid alone. -/
theorem tick_pid (displays : Displays vam.toStaTable shown) {events : List PeerEvent}
    {after : VamEnvar} (returns : Returns vam.vamUpdateSta (events, after)) :
    after.localSta.pid = vam.localSta.pid := by
  obtain ⟨neighbours, free, holds, -⟩ := displays
  obtain ⟨told, aged, returned, ticked⟩ :=
    VamEnvar.vamUpdateSta_ticked holds (Nat.lt_succ_self neighbours.length)
  obtain ⟨rfl, rfl⟩ := Prod.mk.inj (returns.unique vam.vamUpdateSta_persistent ⟨_, returned⟩)
  exact congrArg VamStastatus.pid ticked.localSta

/-- A count set by the application touches no reading. -/
theorem setPeerCnt (displays : Displays table shown) {pid : TempId} {cnt : Byte}
    {next : StaTable} (returns : Returns (table.vamSetPeerCnt pid cnt) next) :
    Displays next shown := by
  obtain ⟨fuel, returned⟩ := returns
  obtain ⟨found, -, rfl⟩ := Option.map_eq_some_iff.1 returned
  obtain ⟨neighbours, free, holds, all⟩ := displays
  cases found with
  | none => exact ⟨neighbours, free, holds, all⟩
  | some slot =>
      refine ⟨neighbours, free, holds.modify slot _, fun other member => ?_⟩
      rw [table.modify_pid slot (StaTable.setCnt_pid cnt)]
      by_cases same : other = slot
      · rw [same, StaTable.modify_remote_self]
        exact all slot (same ▸ member)
      · rw [StaTable.modify_remote_of_ne table _ same]
        exact all other member

end Displays

section Sending

variable (cast : FloatCast) (current : VamStastatus)

/-- The reading agrees with a status up to the resolution of the fields. -/
structure Reading.Close (reading : Reading) (sta : VamStastatus) : Prop where
  lon : |reading.lon - sta.pos.lon| < 1 / 10000000
  lat : |reading.lat - sta.pos.lat| < 1 / 10000000
  dir : |reading.dir - sta.dir| < 1 / 80

/-- A basic safety message carries the position and the heading it was made from. -/
theorem close_bsm (bsm : TxBsm) (dsecond : BitVec 16) (range : current.InRange) :
    (readingOfFrame .bsm (bsm.bytes cast current dsecond)).Close current := by
  obtain ⟨lon, lat, dir⟩ := range.close cast
  rw [readingOfFrame, bsmOfFrame_bytes]
  exact ⟨lon, lat, dir⟩

/-- An emergency vehicle alert carries the position and the heading it was made from. -/
theorem close_evam (evam : TxEvam) (range : current.InRange) :
    (readingOfFrame .evam (evam.bytes cast current)).Close current := by
  obtain ⟨lon, lat, dir⟩ := range.close cast
  rw [readingOfFrame, evamOfFrame_bytes]
  exact ⟨lon, lat, dir⟩

end Sending

end Rsu.Net
