import Rsu.Mda.ForwardList

/-!
# Reception of a message by the multihop module

The history table and `mda_handle`. The call is cut where the waiting list comes
in: `mdaDecide` is everything up to that point, `mdaHandle` finishes the call.
Three results of code outside the module are arguments: the relative position of
the last forwarder, the buffer the allocator hands out, and the single precision
expression that turns a position into a delay.
-/

namespace Rsu.Mda

open Rsu.Rcp

universe u

/-- `V2V_COMMUNICATION_RANGE`. -/
def v2vCommunicationRange : Int := 350

/-- `(1 - dis / V2V_COMMUNICATION_RANGE) * MDA_FORWARD_DELAY_TIME_UNIT` without
rounding errors, cut to an integer. -/
def exactRangeDelay (dis : Int) : Int := (v2vCommunicationRange - dis) * 70 / v2vCommunicationRange

/-- `alg_farest_node`, given the position of the last forwarder. `rangeDelay` is
`(1 - dis / V2V_COMMUNICATION_RANGE) * MDA_FORWARD_DELAY_TIME_UNIT`. -/
def algFarestNode (rangeDelay : Int → Int) (dis : Int) : Int :=
  if dis > 0 then
    rangeDelay (if dis > v2vCommunicationRange then v2vCommunicationRange else dis)
  else -1

/-- What `rcp_mda_process` passes to `mda_handle` as `src`. -/
def srcOf (rx : Received) : MdaMsgInfo where
  temporaryId := rx.temporaryId
  forwardId := tempIdAt rx.frame rx.kind.forwardIdAt
  msgCount := byteAt rx.frame rx.kind.msgCountAt
  leftHops := (msgHops rx.frame).setWidth 8

/-- What `mda_handle` does once the history has been consulted. -/
inductive Decision (Buf : Type u) where
  /-- return without touching the waiting list -/
  | done (result : Int)
  /-- `add_forward_list` -/
  | forward (txbuf : Buf) (delay : Int)
  /-- look for a waiting copy of the message -/
  | copy

namespace MdaEnvar

variable {Buf : Type u}

/-- `update_history_record`. -/
def updateHistoryRecord (mda : MdaEnvar Buf) : MdaEnvar Buf :=
  { mda with
    rxHistoryTable := fun slot =>
      { mda.rxHistoryTable slot with lifeTime := (mda.rxHistoryTable slot).lifeTime - 1 } }

/-- `find_history_record`: the first live entry with the key of the message. -/
def findHistoryRecord (mda : MdaEnvar Buf) (srcSta : MdaMsgInfo) : Option (Fin rxHistoryNum) :=
  (List.finRange rxHistoryNum).find? fun slot =>
    (mda.rxHistoryTable slot).lifeTime > 0 && (mda.rxHistoryTable slot).msg.sameKey srcSta

/-- The loop of `add_history_record`: the first dead entry, else the last one
among those with the shortest life. -/
def historySlot (table : Fin rxHistoryNum → MdaHistory) :
    List (Fin rxHistoryNum) → Int → Option (Fin rxHistoryNum) → Option (Fin rxHistoryNum)
  | [], _, new => new
  | slot :: rest, oldest, new =>
      if (table slot).lifeTime ≤ 0 then some slot
      else if (table slot).lifeTime ≤ oldest then
        historySlot table rest (table slot).lifeTime (some slot)
      else historySlot table rest oldest new

/-- `add_history_record`. The slot exists because no life exceeds the maximum. -/
def addHistoryRecord (mda : MdaEnvar Buf) (srcSta : MdaMsgInfo) : MdaEnvar Buf :=
  match historySlot mda.rxHistoryTable (List.finRange rxHistoryNum) (maxHistoryLife + 1) none with
  | none => mda
  | some slot =>
      { mda with
        rxHistoryTable := Function.update mda.rxHistoryTable slot ⟨srcSta, maxHistoryLife⟩ }

/-- `history_handler`. -/
def historyHandler (mda : MdaEnvar Buf) : MdaEnvar Buf :=
  if mda.flagHistoryTimeout then { mda with flagHistoryTimeout := false }.updateHistoryRecord
  else mda

/-- `timer_rx_history_callback`. -/
def timerRxHistoryCallback (mda : MdaEnvar Buf) : MdaEnvar Buf :=
  { mda with flagHistoryTimeout := true }

/-- Recording a message leaves the waiting list alone. -/
@[simp] theorem addHistoryRecord_links (mda : MdaEnvar Buf) (srcSta : MdaMsgInfo) :
    (mda.addHistoryRecord srcSta).forwardWaitingList = mda.forwardWaitingList := by
  unfold addHistoryRecord
  split <;> rfl

/-- Recording a message leaves the buffers alone. -/
@[simp] theorem addHistoryRecord_txbuf (mda : MdaEnvar Buf) (srcSta : MdaMsgInfo) :
    (mda.addHistoryRecord srcSta).txbuf = mda.txbuf := by
  unfold addHistoryRecord
  split <;> rfl

/-- A history lookup reads the history only. -/
theorem findHistoryRecord_congr {left right : MdaEnvar Buf}
    (same : left.rxHistoryTable = right.rxHistoryTable) (srcSta : MdaMsgInfo) :
    left.findHistoryRecord srcSta = right.findHistoryRecord srcSta := by
  unfold findHistoryRecord
  rw [same]

/-- What a history lookup finds is alive and has the key. -/
theorem of_findHistoryRecord_eq_some {mda : MdaEnvar Buf} {srcSta : MdaMsgInfo}
    {slot : Fin rxHistoryNum} (found : mda.findHistoryRecord srcSta = some slot) :
    0 < (mda.rxHistoryTable slot).lifeTime ∧
      (mda.rxHistoryTable slot).msg.sameKey srcSta = true := by
  have matched := List.find?_some found
  simpa using matched

/-- A live entry with the key is enough for a history lookup to succeed. -/
theorem findHistoryRecord_ne_none {mda : MdaEnvar Buf} {srcSta : MdaMsgInfo}
    {slot : Fin rxHistoryNum} (alive : 0 < (mda.rxHistoryTable slot).lifeTime)
    (same : (mda.rxHistoryTable slot).msg.sameKey srcSta = true) :
    mda.findHistoryRecord srcSta ≠ none := by
  intro absent
  have all := List.find?_eq_none.1 absent slot (List.mem_finRange slot)
  simp [alive, same] at all

/-- The record takes the slot that `history_slot` finds, or none. -/
theorem addHistoryRecord_table (mda : MdaEnvar Buf) (srcSta : MdaMsgInfo) :
    (mda.addHistoryRecord srcSta).rxHistoryTable =
      match historySlot mda.rxHistoryTable (List.finRange rxHistoryNum) (maxHistoryLife + 1) none
        with
      | none => mda.rxHistoryTable
      | some slot => Function.update mda.rxHistoryTable slot ⟨srcSta, maxHistoryLife⟩ := by
  unfold addHistoryRecord
  split <;> rfl

/-- Ageing only shortens lives. -/
theorem historyHandler_table (mda : MdaEnvar Buf) (slot : Fin rxHistoryNum) :
    (mda.historyHandler.rxHistoryTable slot).msg = (mda.rxHistoryTable slot).msg ∧
      (mda.historyHandler.rxHistoryTable slot).lifeTime ≤ (mda.rxHistoryTable slot).lifeTime := by
  unfold historyHandler
  split
  · exact ⟨rfl, Int.sub_le_self _ (by decide)⟩
  · exact ⟨rfl, Int.le_refl _⟩

@[simp] theorem historyHandler_links (mda : MdaEnvar Buf) :
    mda.historyHandler.forwardWaitingList = mda.forwardWaitingList := by
  unfold historyHandler
  split <;> rfl

@[simp] theorem historyHandler_txbuf (mda : MdaEnvar Buf) :
    mda.historyHandler.txbuf = mda.txbuf := by
  unfold historyHandler
  split <;> rfl

variable [DecidableEq Buf]

/-- `rcp_create_forward_msg` with the buffer the allocator returns: the hops of
the received bytes are overwritten before they are copied. This is what it leaves of a
message that fits the buffer; `Rsu.Wnet.rcpCreateForwardMsg` checks the write. -/
def rcpCreateForwardMsg (mda : MdaEnvar Buf) (leftHops : Byte) (pdata : Frame)
    (txbuf : Option Buf) : MdaEnvar Buf × Frame :=
  let pdata := setHops pdata (leftHops.setWidth 3)
  match txbuf with
  | none => (mda, pdata)
  | some txbuf =>
      ({ mda with txbuf := Function.update mda.txbuf txbuf { WnetTxbuf.zero with data := pdata } },
        pdata)

/-- `mda_handle` up to its use of the waiting list, for the decremented source.
The result holds the decision, the new state and the received bytes. -/
def mdaDecide (rangeDelay : Int → Int) (mda : MdaEnvar Buf) (srcSta : MdaMsgInfo)
    (msgData : Frame) (dis : Int) (txbuf : Option Buf) : Decision Buf × MdaEnvar Buf × Frame :=
  match mda.findHistoryRecord srcSta with
  | none =>
      if srcSta.leftHops ≤ 0 then (.done 0, mda, msgData)
      else
        let forwardDelayTime := algFarestNode rangeDelay dis
        if forwardDelayTime ≥ 0 then
          let (mda, msgData) := mda.rcpCreateForwardMsg srcSta.leftHops msgData txbuf
          match txbuf with
          | none => (.done (-1), mda, msgData)
          | some txbuf => (.forward txbuf forwardDelayTime, mda.addHistoryRecord srcSta, msgData)
        else (.done 0, mda, msgData)
  | some _ => (.copy, mda, msgData)

/-- `src_sta->left_hops -= 1`. -/
def spend (srcSta : MdaMsgInfo) : MdaMsgInfo := { srcSta with leftHops := srcSta.leftHops - 1 }

/-- `mda_handle`, granted `fuel` iterations of the list loops: the new state and
the value returned. -/
def mdaHandle (rangeDelay : Int → Int) (mda : MdaEnvar Buf) (srcSta : MdaMsgInfo)
    (msgData : Frame) (dis : Int) (txbuf : Option Buf) (fuel : Nat) :
    Option (MdaEnvar Buf × Int) :=
  let srcSta := spend srcSta
  match mda.mdaDecide rangeDelay srcSta msgData dis txbuf with
  | (.done result, mda, _) => some (mda, result)
  | (.forward txbuf delay, mda, _) =>
      (mda.addForwardList txbuf srcSta delay fuel).map fun mda => (mda, 0)
  | (.copy, mda, _) =>
      (mda.findForwardList srcSta fuel).map fun found =>
        match found with
        | none => (mda, 0)
        | some txbuf =>
            if srcSta.leftHops < (mda.txbuf txbuf).forward.msg.leftHops then
              (mda.removeFromForwardList txbuf, 0)
            else (mda, 0)

/-- A new message with hops left, heard from ahead, is forwarded. -/
theorem mdaDecide_forward {rangeDelay : Int → Int} {mda : MdaEnvar Buf} {srcSta : MdaMsgInfo}
    {dis : Int} (unknown : mda.findHistoryRecord srcSta = none) (left : ¬ srcSta.leftHops ≤ 0)
    (near : 0 ≤ algFarestNode rangeDelay dis) (msgData : Frame) (buf : Buf) :
    mda.mdaDecide rangeDelay srcSta msgData dis (some buf) =
      (.forward buf (algFarestNode rangeDelay dis),
        (mda.rcpCreateForwardMsg srcSta.leftHops msgData (some buf)).1.addHistoryRecord srcSta,
        (mda.rcpCreateForwardMsg srcSta.leftHops msgData (some buf)).2) := by
  simp only [mdaDecide, unknown, left, if_false]
  exact if_pos near

/-- The three ways through `mda_handle` before the waiting list. -/
theorem mdaDecide_cases (rangeDelay : Int → Int) (mda : MdaEnvar Buf) (srcSta : MdaMsgInfo)
    (msgData : Frame) (dis : Int) (txbuf : Option Buf) :
    (∃ result data, mda.mdaDecide rangeDelay srcSta msgData dis txbuf =
        (.done result, mda, data)) ∨
      (∃ buf delay, mda.mdaDecide rangeDelay srcSta msgData dis txbuf =
          (.forward buf delay,
            (mda.rcpCreateForwardMsg srcSta.leftHops msgData (some buf)).1.addHistoryRecord srcSta,
            (mda.rcpCreateForwardMsg srcSta.leftHops msgData (some buf)).2) ∧
        txbuf = some buf ∧ 0 ≤ delay ∧ mda.findHistoryRecord srcSta = none) ∨
      ∃ slot, mda.findHistoryRecord srcSta = some slot ∧
        mda.mdaDecide rangeDelay srcSta msgData dis txbuf = (.copy, mda, msgData) := by
  cases found : mda.findHistoryRecord srcSta with
  | some slot => exact .inr (.inr ⟨slot, rfl, by simp only [mdaDecide, found]⟩)
  | none =>
      by_cases last : srcSta.leftHops ≤ 0
      · exact .inl ⟨0, msgData, by simp only [mdaDecide, found, last, if_true]⟩
      · by_cases near : algFarestNode rangeDelay dis ≥ 0
        · cases txbuf with
          | none =>
              refine .inl ⟨-1, (mda.rcpCreateForwardMsg srcSta.leftHops msgData none).2, ?_⟩
              simp only [mdaDecide, found, last, near, if_true, if_false]
              rfl
          | some buf =>
              exact .inr (.inl ⟨buf, algFarestNode rangeDelay dis,
                mdaDecide_forward found last near msgData buf, rfl, near, rfl⟩)
        · exact .inl ⟨0, msgData, by simp only [mdaDecide, found, last, near, if_false]⟩

/-- Only what is heard from ahead is forwarded. -/
theorem near_of_forward {rangeDelay : Int → Int} {mda : MdaEnvar Buf} {srcSta : MdaMsgInfo}
    {msgData : Frame} {dis delay : Int} {txbuf : Option Buf} {buf : Buf}
    (decided : (mda.mdaDecide rangeDelay srcSta msgData dis txbuf).1 = .forward buf delay) :
    0 ≤ algFarestNode rangeDelay dis := by
  by_contra far
  unfold mdaDecide at decided
  rw [if_neg (c := algFarestNode rangeDelay dis ≥ 0) far] at decided
  split at decided
  · split at decided <;> cases decided
  · cases decided

/-- A search that returns a buffer found it on the list, with the key. -/
theorem of_findForwardList {mda : MdaEnvar Buf} {nodes : List Buf} {srcSta : MdaMsgInfo}
    (waiting : mda.Waiting nodes) {found : Option Buf}
    (returns : Returns (mda.findForwardList srcSta) found) :
    ∀ buf ∈ found, buf ∈ nodes ∧ (mda.txbuf buf).forward.msg.sameKey srcSta = true := by
  have spec := findForwardList_returns waiting srcSta
  rw [returns.unique (findForwardList_persistent mda srcSta) spec]
  intro buf member
  have matched := List.find?_some member
  exact ⟨List.mem_of_find?_eq_some member, matched⟩

/-- The three ways in which `mda_handle` comes back. -/
inductive HandleResult (rangeDelay : Int → Int) (mda : MdaEnvar Buf) (srcSta : MdaMsgInfo)
    (msgData : Frame) (dis : Int) (txbuf : Option Buf) (nodes : List Buf) :
    MdaEnvar Buf → Prop where
  /-- nothing changes -/
  | kept (notForward : ∀ buf delay,
        (mda.mdaDecide rangeDelay (spend srcSta) msgData dis txbuf).1 ≠ .forward buf delay) :
      HandleResult rangeDelay mda srcSta msgData dis txbuf nodes mda
  /-- the message is recorded and enters the list -/
  | queued {buf : Buf} {delay : Int} {next : MdaEnvar Buf}
      (decided : (mda.mdaDecide rangeDelay (spend srcSta) msgData dis txbuf).1 =
        .forward buf delay)
      (supplied : txbuf = some buf) (unknown : mda.findHistoryRecord (spend srcSta) = none)
      (waiting : next.Waiting (buf :: nodes))
      (contents : next.contents =
        (((mda.rcpCreateForwardMsg (spend srcSta).leftHops msgData (some buf)).1.addHistoryRecord
          (spend srcSta)).fill buf ⟨spend srcSta, delay⟩).contents) :
      HandleResult rangeDelay mda srcSta msgData dis txbuf nodes next
  /-- a waiting copy with more hops left is dropped -/
  | cancelled {front back : List Buf} {buf : Buf}
      (notForward : ∀ buf delay,
        (mda.mdaDecide rangeDelay (spend srcSta) msgData dis txbuf).1 ≠ .forward buf delay)
      (split : nodes = front ++ buf :: back)
      (found : Returns (mda.findForwardList (spend srcSta)) (some buf))
      (fewer : (spend srcSta).leftHops < (mda.txbuf buf).forward.msg.leftHops) :
      HandleResult rangeDelay mda srcSta msgData dis txbuf nodes (mda.removeFromForwardList buf)

/-- `mda_handle` comes back from a decision to forward when the addition does. -/
theorem mdaHandle_returns_of_forward {rangeDelay : Int → Int} {mda queued next : MdaEnvar Buf}
    {srcSta : MdaMsgInfo} {msgData data : Frame} {dis delay : Int} {txbuf : Option Buf} {buf : Buf}
    (decided : mda.mdaDecide rangeDelay (spend srcSta) msgData dis txbuf =
      (.forward buf delay, queued, data))
    (returns : Returns (queued.addForwardList buf (spend srcSta) delay) next) :
    Returns (mda.mdaHandle rangeDelay srcSta msgData dis txbuf) (next, 0) := by
  obtain ⟨fuel, returned⟩ := returns
  refine ⟨fuel, ?_⟩
  simp only [mdaHandle, decided, returned, Option.map_some]

/-- `mda_handle` comes back from a copy when the search of the waiting list does. -/
theorem mdaHandle_returns_of_copy (rangeDelay : Int → Int) {mda : MdaEnvar Buf}
    {srcSta : MdaMsgInfo} {slot : Fin rxHistoryNum}
    (known : mda.findHistoryRecord (spend srcSta) = some slot) {found : Option Buf}
    (returns : Returns (mda.findForwardList (spend srcSta)) found) (msgData : Frame) (dis : Int)
    (txbuf : Option Buf) :
    Returns (mda.mdaHandle rangeDelay srcSta msgData dis txbuf)
      (found.elim mda fun buf =>
        if (spend srcSta).leftHops < (mda.txbuf buf).forward.msg.leftHops then
          mda.removeFromForwardList buf
        else mda, 0) := by
  obtain ⟨fuel, returned⟩ := returns
  refine ⟨fuel, ?_⟩
  simp only [mdaHandle, mdaDecide, known, returned, Option.map_some]
  cases found with
  | none => rfl
  | some buf =>
      dsimp only [Option.elim_some]
      split_ifs <;> rfl

/-- All that `mda_handle` can do when it returns. -/
theorem mdaHandle_result {rangeDelay : Int → Int} {mda next : MdaEnvar Buf} {srcSta : MdaMsgInfo}
    {msgData : Frame} {dis : Int} {txbuf : Option Buf} {nodes : List Buf} {result : Int}
    (waiting : mda.Waiting nodes) (fresh : ∀ buf ∈ txbuf, buf ∉ nodes)
    (returns : Returns (mda.mdaHandle rangeDelay srcSta msgData dis txbuf) (next, result)) :
    HandleResult rangeDelay mda srcSta msgData dis txbuf nodes next := by
  obtain ⟨fuel, returned⟩ := returns
  unfold mdaHandle at returned
  rcases mdaDecide_cases rangeDelay mda (spend srcSta) msgData dis txbuf with
    ⟨value, data, decided⟩ | ⟨buf, delay, decided, supplied, -, unknown⟩ | ⟨slot, -, decided⟩
  · simp only [decided, Option.some.injEq, Prod.mk.injEq] at returned
    rw [← returned.1]
    exact .kept (by simp [decided])
  · simp only [decided] at returned
    obtain ⟨after, added, equal⟩ := Option.map_eq_some_iff.1 returned
    cases equal
    have created : ((mda.rcpCreateForwardMsg (spend srcSta).leftHops msgData
        (some buf)).1.addHistoryRecord (spend srcSta)).Waiting nodes := by
      rw [Waiting, addHistoryRecord_links]
      exact waiting
    rcases addForwardList_cases created (fresh buf supplied) (spend srcSta) delay with
      ⟨-, spec, returns, pushed⟩ | ⟨-, diverges⟩
    · obtain rfl := Returns.unique (addForwardList_persistent _ _ _ _) ⟨fuel, added⟩ returns
      exact .queued (by rw [decided]) supplied unknown pushed.waiting pushed.contents
    · exact absurd diverges (Returns.not_diverges ⟨fuel, added⟩)
  · simp only [decided] at returned
    obtain ⟨found, searched, equal⟩ := Option.map_eq_some_iff.1 returned
    have notForward : ∀ buf delay,
        (mda.mdaDecide rangeDelay (spend srcSta) msgData dis txbuf).1 ≠ .forward buf delay := by
      simp [decided]
    cases found with
    | none =>
        cases equal
        exact .kept notForward
    | some buf =>
        have returns : Returns (mda.findForwardList (spend srcSta)) (some buf) := ⟨fuel, searched⟩
        by_cases fewer : (spend srcSta).leftHops < (mda.txbuf buf).forward.msg.leftHops
        · simp only [fewer, if_true, Prod.mk.injEq] at equal
          have member := (of_findForwardList waiting returns buf rfl).1
          obtain ⟨front, back, split⟩ := List.append_of_mem member
          rw [← equal.1]
          exact .cancelled notForward split returns fewer
        · simp only [fewer, if_false, Prod.mk.injEq] at equal
          rw [← equal.1]
          exact .kept notForward

end MdaEnvar

/-- `rcp_send_forward_msg`: the bytes handed to the network layer. -/
def rcpSendForwardMsg (pid : TempId) (data : Frame) : Option Frame :=
  if msgId data = rcpMsgIdBsm then some (copyInto data MsgKind.bsm.forwardIdAt pid.toList)
  else if msgId data = rcpMsgIdEvam then some (copyInto data MsgKind.evam.forwardIdAt pid.toList)
  else none

end Rsu.Mda
