import Rsu.Mda.Hops
import Rsu.Rcp.Codec

/-!
# Copies of a message

What forwarding leaves of a message. Every node on the way lowers the hops and enters
itself as the last forwarder; `CopyOf` says that nothing else is touched, and counts
the nodes. What the parsers read is not among the bytes touched, so a copy reads like
the original, however far it came.
-/

namespace Rsu.Net

open Rsu.Rcp Rsu.Mda

/-- The bytes that forwarding a message of the kind leaves alone. -/
def Kept (kind : MsgKind) (index : Nat) : Prop :=
  0 < index ∧ (index < kind.forwardIdAt ∨ kind.forwardIdAt + rcpTempIdLen ≤ index)

/-- Two frames of one message: they differ in the hops and in the last forwarder at most. -/
structure SameMessage (kind : MsgKind) (left right : Frame) : Prop where
  length : left.length = right.length
  msgId : msgId left = msgId right
  kept : ∀ index, Kept kind index → left[index]? = right[index]?

namespace SameMessage

variable {kind : MsgKind} {left middle right : Frame}

theorem refl (frame : Frame) : SameMessage kind frame frame := ⟨rfl, rfl, fun _ _ => rfl⟩

/-- Two frames that are the same message as a third one. -/
theorem trans (first : SameMessage kind left middle) (second : SameMessage kind middle right) :
    SameMessage kind left right where
  length := first.length.trans second.length
  msgId := first.msgId.trans second.msgId
  kept index stays := (first.kept index stays).trans (second.kept index stays)

/-- The bytes that stay are the same. -/
theorem byteAt (same : SameMessage kind left right) {index : Nat}
    (stays : Kept kind index) : byteAt left index = byteAt right index := by
  rw [Rcp.byteAt, Rcp.byteAt, List.getD_eq_getElem?_getD, List.getD_eq_getElem?_getD,
    same.kept index stays]

theorem load16 (same : SameMessage kind left right) {offset : Nat}
    (low : Kept kind offset) (high : Kept kind (offset + 1)) :
    load16 left offset = load16 right offset := by
  rw [Rcp.load16, Rcp.load16, same.byteAt low, same.byteAt high]

/-- Words behind the last forwarder. -/
theorem load16_behind (same : SameMessage kind left right) {offset : Nat}
    (behind : kind.forwardIdAt + rcpTempIdLen ≤ offset) :
    Rcp.load16 left offset = Rcp.load16 right offset := by
  have positive := kind.forwardIdAt_fits.1
  exact same.load16 ⟨by omega, .inr behind⟩ ⟨by omega, .inr (by omega)⟩

theorem load32_behind (same : SameMessage kind left right) {offset : Nat}
    (behind : kind.forwardIdAt + rcpTempIdLen ≤ offset) :
    load32 left offset = load32 right offset := by
  rw [load32, load32, same.load16_behind behind, same.load16_behind (by omega)]

/-- The sender stands in front of the last forwarder. -/
theorem sender (same : SameMessage kind left right) :
    tempIdAt left kind.temporaryIdAt = tempIdAt right kind.temporaryIdAt := by
  apply Vector.ext
  intro index bound
  have inside : index < 4 := bound
  have stays : Kept kind (kind.temporaryIdAt + index) := by
    cases kind <;> simp only [Kept, MsgKind.temporaryIdAt, MsgKind.forwardIdAt] <;> omega
  simp only [tempIdAt, Vector.getElem_ofFn]
  exact same.byteAt stays

end SameMessage

/-- The parser reads the same basic safety message. -/
theorem SameMessage.bsmOfFrame {left right : Frame} (same : SameMessage .bsm left right) :
    bsmOfFrame left = bsmOfFrame right := by
  have word {offset : Nat} (behind : 10 ≤ offset) := same.load16_behind behind
  have long {offset : Nat} (behind : 10 ≤ offset) := same.load32_behind behind
  have yaw : Rcp.byteAt left 36 = Rcp.byteAt right 36 := same.byteAt ⟨by decide, .inr (by decide)⟩
  have pid : tempIdAt left 2 = tempIdAt right 2 := same.sender
  simp only [Rcp.bsmOfFrame, pid, yaw, word, long, Nat.reduceLeDiff]

/-- The parser reads the same emergency vehicle alert. -/
theorem SameMessage.evamOfFrame {left right : Frame} (same : SameMessage .evam left right) :
    evamOfFrame left = evamOfFrame right := by
  have word {offset : Nat} (behind : 9 ≤ offset) := same.load16_behind behind
  have long {offset : Nat} (behind : 9 ≤ offset) := same.load32_behind behind
  have pid : tempIdAt left 1 = tempIdAt right 1 := same.sender
  have codes : ((List.range 8).map fun index => Rcp.load16 left (13 + 2 * index)) =
      (List.range 8).map fun index => Rcp.load16 right (13 + 2 * index) :=
    List.map_congr_left fun index _ => word (by omega)
  simp only [Rcp.evamOfFrame, pid, codes, word, long, Nat.reduceLeDiff]

/-- A copy of a message that so many nodes have taken a hop from. -/
structure CopyOf (kind : MsgKind) (original : Frame) (relays : Nat) (copy : Frame) : Prop where
  same : SameMessage kind copy original
  hops : msgHops copy = msgHops original - BitVec.ofNat 3 relays
  limited : relays ≤ (msgHops original - 1#3).toNat

namespace CopyOf

variable {kind : MsgKind} {original copy : Frame} {relays : Nat}

/-- A message as it was sent. -/
theorem sent (original : Frame) : CopyOf kind original 0 original :=
  ⟨.refl original, by simp, Nat.zero_le _⟩

/-- The number of hops that stand for a full use of the limit. -/
theorem sub_pred : ∀ hops : BitVec 3, hops - (hops - 1#3) = 1#3 := by
  decide

/-- A copy with more than its last hop is short of the limit. -/
theorem more_left (copyOf : CopyOf kind original relays copy) (notLast : msgHops copy ≠ 1#3) :
    relays + 1 ≤ (msgHops original - 1#3).toNat := by
  refine Nat.lt_of_le_of_ne copyOf.limited fun last => notLast ?_
  rw [copyOf.hops, last, BitVec.ofNat_toNat, BitVec.setWidth_eq, sub_pred]

/-- What a node queues for a copy it hears. -/
theorem queued (copyOf : CopyOf kind original relays copy) (filled : 0 < copy.length)
    (notLast : msgHops copy ≠ 1#3) :
    CopyOf kind original (relays + 1) (setHops copy (msgHops copy - 1#3)) where
  same :=
    { length := (setHops_length _ _).trans copyOf.same.length
      msgId := (msgId_setHops _ filled).trans copyOf.same.msgId
      kept := fun index stays =>
        (setHops_getElem? copy _ stays.1).trans (copyOf.same.kept index stays) }
  hops := by
    rw [msgHops_setHops _ filled, copyOf.hops, BitVec.ofNat_add, BitVec.sub_sub]
  limited := copyOf.more_left notLast

/-- What a node sends of a copy it queued. -/
theorem forwarded (copyOf : CopyOf kind original relays copy)
    (long : kind.minLength ≤ copy.length) (pid : TempId) :
    CopyOf kind original relays (copyInto copy kind.forwardIdAt pid.toList) := by
  obtain ⟨positive, inside⟩ := kind.forwardIdAt_fits
  have fits : kind.forwardIdAt + pid.toList.length ≤ copy.length := by
    rw [Vector.length_toList]
    omega
  have first : byteAt (copyInto copy kind.forwardIdAt pid.toList) 0 = byteAt copy 0 := by
    rw [byteAt, byteAt, List.getD_eq_getElem?_getD, List.getD_eq_getElem?_getD,
      copyInto_getElem?_outside fits (.inl positive)]
  have unchanged : SameMessage kind (copyInto copy kind.forwardIdAt pid.toList) copy :=
    { length := copyInto_length fits
      msgId := by rw [msgId, msgId, first]
      kept := fun index stays => by
        refine copyInto_getElem?_outside fits ?_
        rw [Vector.length_toList]
        exact stays.2 }
  refine ⟨unchanged.trans copyOf.same, ?_, copyOf.limited⟩
  rw [← copyOf.hops, msgHops, msgHops, first]

end CopyOf

end Rsu.Net
