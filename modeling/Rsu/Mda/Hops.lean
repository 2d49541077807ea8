import Rsu.Mda.Handle
import Rsu.Wnet.Receive

/-!
# The hop limit of forwarding

What a node queues and sends on for a received frame, and chains of nodes that
forward one message. The remaining hops are computed on an unsigned copy, so a
frame received with no hops left is forwarded with seven; and the copy is written
into its buffer whatever its length is. `hop_limit_iff` says that these are the
only cases in which the limit is broken, and that even then a chain ends.
-/

namespace Rsu.Mda

open Rsu.Rcp Rsu.Wnet Checked

universe u

/-- All that a node's treatment of one frame depends on. -/
structure Node (Buf : Type u) where
  mda : MdaEnvar Buf
  /-- `local.pid` -/
  pid : TempId
  /-- `vam_get_peer_relative_pos` of the last forwarder -/
  dis : Int
  /-- the result of `wnet_get_txbuf` -/
  txbuf : Option Buf

namespace Node

variable {Buf : Type u} [DecidableEq Buf] (rangeDelay : Int → Int)

/-- The copy `mda_handle` makes of a frame to enter it into the waiting list, if it does. -/
def copied (node : Node Buf) (rx : Received) : Option Frame :=
  match node.mda.mdaDecide rangeDelay (MdaEnvar.spend (srcOf rx)) rx.frame node.dis node.txbuf with
  | (.forward txbuf _, mda, _) => some (mda.txbuf txbuf).data
  | _ => none

/-- The bytes that enter the waiting list. `rcp_create_forward_msg` writes the copy into the
buffer without a look at its length. -/
def queued (node : Node Buf) (rx : Received) : Checked (Option Frame) := do
  if (node.copied rangeDelay rx).isSome then
    (rcpCreateForwardMsg rx.frame.length).forM (Touch.perform rx.frame.length)
  pure (node.copied rangeDelay rx)

/-- The frame a node sends on for a received one: none for its own messages,
which the parser drops. -/
def retransmits (node : Node Buf) (rx : Received) : Checked (Option Frame) :=
  if rx.temporaryId = node.pid then pure none
  else (fun data => data.bind (rcpSendForwardMsg node.pid)) <$> node.queued rangeDelay rx

/-- Neither the history, nor the position, nor the allocator keeps the node
from forwarding the frame. -/
def Willing (node : Node Buf) (rx : Received) : Prop :=
  node.mda.findHistoryRecord (MdaEnvar.spend (srcOf rx)) = none ∧
    0 ≤ algFarestNode rangeDelay node.dis ∧ node.txbuf ≠ none

/-- Nothing is written behind a buffer, and the frame is queued only with at least two hops, as
a copy with one hop less, and the copy goes out with the node as its forwarder. -/
def HopLimited (node : Node Buf) (rx : Received) : Prop :=
  Ends (node.queued rangeDelay rx) fun queued => ∀ data, queued = some data →
    2 ≤ (msgHops rx.frame).toNat ∧
      ((msgHops data).toNat = (msgHops rx.frame).toNat - 1 ∧ msgId data = msgId rx.frame ∧
        data.length = rx.frame.length ∧ ∀ index, 0 < index → data[index]? = rx.frame[index]?) ∧
      ∃ sent, rcpSendForwardMsg node.pid data = some sent ∧
        tempIdAt sent rx.kind.forwardIdAt = node.pid ∧ sent.length = data.length ∧
        ∀ index, index < rx.kind.forwardIdAt ∨ rx.kind.forwardIdAt + rcpTempIdLen ≤ index →
          sent[index]? = data[index]?

end Node

/-- A chain of nodes that forward one message: each hears the frame the one
before it sent. -/
inductive Chain (Buf : Type u) [DecidableEq Buf] (rangeDelay : Int → Int) (first : Received) :
    Received → Type u where
  | start : Chain Buf rangeDelay first first
  | relay {last : Received} (prior : Chain Buf rangeDelay first last) (node : Node Buf)
      (next : Received) (heard : node.retransmits rangeDelay last = .ok (some next.frame)) :
      Chain Buf rangeDelay first next

section Node

variable {Buf : Type u} [DecidableEq Buf] {rangeDelay : Int → Int}

/-- The remaining hops count as none only if one was left. -/
theorem leftHops_eq_zero_iff (hops : BitVec 3) : hops.setWidth 8 - 1#8 = 0#8 ↔ hops = 1#3 := by
  revert hops
  decide

/-- Storing the remaining hops in their three bits takes one off, modulo eight. -/
theorem leftHops_stored (hops : BitVec 3) : (hops.setWidth 8 - 1#8).setWidth 3 = hops - 1#3 := by
  revert hops
  decide

/-- What a willing node copies, whatever the number of hops but one. -/
theorem Node.copied_eq_some_iff (node : Node Buf) (rx : Received) (data : Frame) :
    node.copied rangeDelay rx = some data ↔
      node.Willing rangeDelay rx ∧ msgHops rx.frame ≠ 1#3 ∧
        data = setHops rx.frame (msgHops rx.frame - 1#3) := by
  have left : (MdaEnvar.spend (srcOf rx)).leftHops = (msgHops rx.frame).setWidth 8 - 1#8 := rfl
  unfold Node.copied Node.Willing MdaEnvar.mdaDecide
  cases found : node.mda.findHistoryRecord (MdaEnvar.spend (srcOf rx)) with
  | some slot => simp
  | none =>
      simp only [left, BitVec.ofNat_eq_ofNat, BitVec.le_zero_iff, leftHops_eq_zero_iff, true_and]
      by_cases last : msgHops rx.frame = 1#3
      · simp [last]
      · by_cases near : 0 ≤ algFarestNode rangeDelay node.dis
        · cases buffer : node.txbuf with
          | none => simp [last, near]
          | some txbuf =>
              simp [last, near, MdaEnvar.rcpCreateForwardMsg, leftHops_stored, eq_comm]
        · simp [last, near]

/-- A node copies a frame exactly if it is willing and one hop is not all that is left. -/
theorem Node.isSome_copied_iff (node : Node Buf) (rx : Received) :
    (node.copied rangeDelay rx).isSome = true ↔
      node.Willing rangeDelay rx ∧ msgHops rx.frame ≠ 1#3 := by
  constructor
  · intro some
    obtain ⟨data, copied⟩ := Option.isSome_iff_exists.1 some
    obtain ⟨willing, notLast, -⟩ := (node.copied_eq_some_iff rx data).1 copied
    exact ⟨willing, notLast⟩
  · rintro ⟨willing, notLast⟩
    exact Option.isSome_iff_exists.2
      ⟨_, (node.copied_eq_some_iff rx _).2 ⟨willing, notLast, rfl⟩⟩

/-- A message is copied within its buffer exactly if it is no longer than the room there. -/
theorem ends_rcpCreateForwardMsg {pdata : Frame} (nonempty : 0 < pdata.length)
    (post : Unit → Prop) :
    Ends ((rcpCreateForwardMsg pdata.length).forM (Touch.perform pdata.length)) post ↔
      pdata.length ≤ txbufRoom ∧ post () := by
  have first : 0 + 1 ≤ pdata.length := nonempty
  simp only [rcpCreateForwardMsg, List.forM, Touch.perform, ends_bind,
    ends_readable, ends_writable, ends_pure, first, Nat.zero_add, le_refl, true_and]

/-- That is to say, exactly if what `MdaEnvar.rcpCreateForwardMsg` leaves in the buffer fits it. -/
theorem created_fits_iff (mda : MdaEnvar Buf) (leftHops : Byte) {pdata : Frame}
    (nonempty : 0 < pdata.length) (buf : Buf) :
    Ends ((rcpCreateForwardMsg pdata.length).forM (Touch.perform pdata.length))
        (fun _ => True) ↔
      ((mda.rcpCreateForwardMsg leftHops pdata (some buf)).1.txbuf buf).data.length ≤
        txbufRoom := by
  rw [ends_rcpCreateForwardMsg nonempty, and_true, MdaEnvar.rcpCreateForwardMsg]
  dsimp only
  rw [Function.update_self, setHops_length]

/-- What is known of the bytes that are queued. -/
theorem Node.ends_queued_iff (node : Node Buf) (rx : Received) (post : Option Frame → Prop) :
    Ends (node.queued rangeDelay rx) post ↔
      ((node.copied rangeDelay rx).isSome = true → rx.frame.length ≤ txbufRoom) ∧
        post (node.copied rangeDelay rx) := by
  rw [Node.queued]
  split_ifs with some
  · rw [ends_bind, ends_rcpCreateForwardMsg rx.nonempty, ends_pure]
    exact and_congr_left fun _ => ⟨fun fits _ => fits, fun fits => fits some⟩
  · change Ends (pure (node.copied rangeDelay rx)) post ↔ _
    rw [ends_pure]
    exact (and_iff_right fun other => absurd other some).symm

/-- A forwarded copy keeps its kind, so its forwarder is written in its place. -/
theorem rcpSendForwardMsg_setHops (rx : Received) (hops : BitVec 3) (pid : TempId) :
    rcpSendForwardMsg pid (setHops rx.frame hops) =
      some (copyInto (setHops rx.frame hops) rx.kind.forwardIdAt pid.toList) := by
  have same : msgId (setHops rx.frame hops) = rx.kind.msgId := by
    rw [msgId_setHops hops rx.nonempty, rx.idEq]
  unfold rcpSendForwardMsg
  rw [same]
  cases kind : rx.kind with
  | bsm => simp [MsgKind.msgId]
  | evam => simp [MsgKind.msgId, rcpMsgIdBsm, rcpMsgIdEvam]

/-- A retransmitted frame has one hop less, modulo eight, and the received one
did not have exactly one. -/
theorem Node.hops_of_retransmits {node : Node Buf} {rx next : Received}
    (heard : node.retransmits rangeDelay rx = .ok (some next.frame)) :
    msgHops rx.frame ≠ 1#3 ∧ msgHops next.frame = msgHops rx.frame - 1#3 := by
  unfold Node.retransmits at heard
  split at heard
  · cases heard
  · have ends := (ends_eq _ _).2 heard
    rw [ends_map, Node.ends_queued_iff] at ends
    obtain ⟨data, copied, sent⟩ := Option.bind_eq_some_iff.1 ends.2
    obtain ⟨-, notLast, rfl⟩ := (node.copied_eq_some_iff rx data).1 copied
    rw [rcpSendForwardMsg_setHops] at sent
    have fits : rx.kind.forwardIdAt + node.pid.toList.length ≤
        (setHops rx.frame (msgHops rx.frame - 1#3)).length := by
      simpa using rx.forwardId_fits
    have first : byteAt next.frame 0 = byteAt (setHops rx.frame (msgHops rx.frame - 1#3)) 0 := by
      rw [← Option.some.inj sent, byteAt, byteAt, List.getD_eq_getElem?_getD,
        List.getD_eq_getElem?_getD,
        copyInto_getElem?_outside fits (.inl rx.kind.forwardIdAt_fits.1)]
    refine ⟨notLast, ?_⟩
    rw [msgHops, first, ← msgHops, msgHops_setHops _ rx.nonempty]

/-- A frame that a node forwards as it should: it has hops left, and fits a buffer unless one hop
is all that is left. -/
def Forwardable (rx : Received) : Prop :=
  msgHops rx.frame = 1#3 ∨ msgHops rx.frame ≠ 0#3 ∧ rx.frame.length ≤ txbufRoom

/-- A node keeps the hop limit for a frame unless the frame has no hops left, or is too long, and
the node forwards it all the same. -/
theorem Node.hopLimited_iff (node : Node Buf) (rx : Received) :
    node.HopLimited rangeDelay rx ↔ Forwardable rx ∨ ¬ node.Willing rangeDelay rx := by
  rw [Node.HopLimited, Node.ends_queued_iff, Node.isSome_copied_iff]
  constructor
  · rintro ⟨fits, limited⟩
    by_cases willing : node.Willing rangeDelay rx
    · left
      by_cases last : msgHops rx.frame = 1#3
      · exact .inl last
      · refine .inr ⟨fun none => ?_, fits ⟨willing, last⟩⟩
        have atLeast := (limited _ ((node.copied_eq_some_iff rx _).2 ⟨willing, last, rfl⟩)).1
        simp [none] at atLeast
    · exact .inr willing
  · intro condition
    refine ⟨fun ⟨willing, notLast⟩ => ?_, fun data copied => ?_⟩
    · rcases condition.resolve_right fun unwilling => unwilling willing with last | some
      · exact absurd last notLast
      · exact some.2
    obtain ⟨willing, notLast, rfl⟩ := (node.copied_eq_some_iff rx data).1 copied
    have some : msgHops rx.frame ≠ 0#3 :=
      ((condition.resolve_right fun unwilling => unwilling willing).resolve_left notLast).1
    have enough : 2 ≤ (msgHops rx.frame).toNat ∧
        (msgHops rx.frame - 1#3).toNat = (msgHops rx.frame).toNat - 1 := by
      revert notLast some
      generalize msgHops rx.frame = hops
      revert hops
      decide
    have fits : rx.kind.forwardIdAt + node.pid.toList.length ≤
        (setHops rx.frame (msgHops rx.frame - 1#3)).length := by
      simpa using rx.forwardId_fits
    refine ⟨enough.1, ⟨?_, msgId_setHops _ rx.nonempty, setHops_length _ _,
      fun index later => setHops_getElem? _ _ later⟩, _, rcpSendForwardMsg_setHops rx _ _, ?_,
      copyInto_length fits, ?_⟩
    · rw [msgHops_setHops _ rx.nonempty, enough.2]
    · exact tempIdAt_copyInto node.pid (by simpa using fits)
    · intro index outside
      exact copyInto_getElem?_outside fits (by simpa using outside)

end Node

namespace Chain

variable {Buf : Type u} [DecidableEq Buf] {rangeDelay : Int → Int} {first last : Received}

/-- The number of retransmissions. -/
def length {last : Received} : Chain Buf rangeDelay first last → Nat
  | .start => 0
  | .relay prior _ _ _ => prior.length + 1

/-- The retransmissions a number of hops allows, counting the next reception:
none left stands for eight. -/
def budget (hops : BitVec 3) : Nat := if hops = 0#3 then 8 else hops.toNat

/-- A budget is never empty. -/
theorem budget_pos (hops : BitVec 3) : 0 < budget hops := by
  revert hops
  decide

/-- A retransmission uses up one unit of the budget. -/
theorem budget_pred {hops : BitVec 3} (notLast : hops ≠ 1#3) :
    budget (hops - 1#3) + 1 = budget hops := by
  revert hops
  decide

/-- Along a chain the budget goes down by one with every retransmission. -/
theorem length_add_budget (chain : Chain Buf rangeDelay first last) :
    chain.length + budget (msgHops last.frame) = budget (msgHops first.frame) := by
  induction chain with
  | start => simp [length]
  | relay prior node next heard inductionHypothesis =>
      obtain ⟨notLast, decremented⟩ := Node.hops_of_retransmits heard
      have spent := budget_pred notLast
      rw [length, decremented]
      omega

end Chain

/-- The hop limit holds at every node exactly for frames that arrive with hops left and fit a
buffer, or that are not forwarded at all, and along every chain exactly for frames that are first
sent with hops left, or that nobody sends on; no chain has more than seven retransmissions. -/
theorem hop_limit_iff (Buf : Type u) [DecidableEq Buf] (rangeDelay : Int → Int) :
    (∀ (node : Node Buf) (rx : Received),
      node.HopLimited rangeDelay rx ↔ Forwardable rx ∨ ¬ node.Willing rangeDelay rx) ∧
    ∀ (first last : Received) (chain : Chain Buf rangeDelay first last),
      (chain.length ≤ (msgHops first.frame).toNat - 1 ↔
        msgHops first.frame ≠ 0#3 ∨ chain.length = 0) ∧ chain.length ≤ 7 := by
  refine ⟨fun node rx => node.hopLimited_iff rx, fun first last chain => ?_⟩
  have total := chain.length_add_budget
  have left := Chain.budget_pos (msgHops last.frame)
  have small := (msgHops first.frame).isLt
  by_cases none : msgHops first.frame = 0#3
  · have start : Chain.budget (msgHops first.frame) = 8 := by simp [Chain.budget, none]
    simp only [none, ne_eq, not_true_eq_false, false_or, BitVec.toNat_ofNat, Nat.zero_mod]
    omega
  · have start : Chain.budget (msgHops first.frame) = (msgHops first.frame).toNat :=
      if_neg none
    simp only [none, ne_eq, not_false_eq_true, true_or, iff_true]
    omega

/-- A basic safety message that arrives with no hops left. -/
def spentBsm : Received where
  kind := .bsm
  frame := 0x02#8 :: List.replicate 41 0#8
  idEq := by decide
  long := by decide

/-- A node fresh from `mda_init` that heard the message from 100 m ahead. -/
def freshNode : Node Nat where
  mda := MdaEnvar.mdaInit
  pid := #v[1, 2, 3, 4]
  dis := 100
  txbuf := some 0

/-- A frame received with no hops left is queued with seven. -/
theorem spent_frame_is_queued :
    msgHops spentBsm.frame = 0#3 ∧
      Ends (freshNode.queued exactRangeDelay spentBsm)
        (fun queued => queued.map msgHops = some 7#3) ∧
      ¬ freshNode.HopLimited exactRangeDelay spentBsm := by
  have spent : msgHops spentBsm.frame = 0#3 := by decide
  have unknown : freshNode.mda.findHistoryRecord (MdaEnvar.spend (srcOf spentBsm)) = none := by
    decide
  have willing : freshNode.Willing exactRangeDelay spentBsm :=
    ⟨unknown, by decide, by decide⟩
  have copied : freshNode.copied exactRangeDelay spentBsm = _ :=
    (freshNode.copied_eq_some_iff spentBsm _).2 ⟨willing, by simp [spent], rfl⟩
  refine ⟨spent, (freshNode.ends_queued_iff spentBsm _).2 ⟨fun _ => by decide, ?_⟩, ?_⟩
  · rw [copied, Option.map_some, msgHops_setHops _ spentBsm.nonempty, spent]
    rfl
  · rw [Node.hopLimited_iff]
    simp [Forwardable, spent, willing]

end Rsu.Mda
