import Rsu.Wnet.Bounds

/-!
# What the message parsers read

The accesses of the parsers to the received bytes, first to last, however many bytes
there are. A message is read inside its length except for a basic safety message that
is one byte short of its safety extension: `reads_inside_iff`.
-/

namespace Rsu.Wnet

open Rsu.Rcp Rsu.Mda Checked

/-- An access to the message stays in front of this offset. -/
def Touch.Below (datalen : Nat) : Touch → Prop
  | .read offset count | .write offset count => offset + count ≤ datalen
  | .fill _ => True

variable {world : RxWorld} {databuf : Frame} {datalen : Nat}

/-- Accesses of the multihop module stay inside a message its parser accepts. -/
theorem rcpMdaProcess_below (world : RxWorld) (databuf : Frame) {kind : MsgKind}
    (long : kind.minLength ≤ datalen) :
    Every (Touch.Below datalen) (rcpMdaProcess world kind databuf datalen) := by
  unfold rcpMdaProcess rcpCreateForwardMsg
  cases kind <;>
    simp only [MsgKind.minLength, MsgKind.msgCountAt, MsgKind.temporaryIdAt, MsgKind.forwardIdAt,
      rcpTempIdLen] at long ⊢ <;>
    simp [Touch.Below] <;> omega

/-- `rcp_parse_bsm` reads behind a message exactly if it is one byte short of its safety
extension, of another node, and of a station in the table. -/
theorem rcpParseBsm_below_iff :
    Every (Touch.Below datalen) (rcpParseBsm world databuf datalen) ↔
      ¬ (datalen = 43 ∧ tempIdAt databuf 2 ≠ world.pid ∧
        world.finds (tempIdAt databuf 2) = true) := by
  unfold rcpParseBsm
  by_cases short : datalen < MsgKind.bsm.minLength
  · have other : datalen ≠ 43 := by
      rintro rfl
      exact absurd short (by decide)
    simp [short, other]
  · have long := Nat.not_lt.1 short
    have bound : 42 ≤ datalen := long
    have process := rcpMdaProcess_below world databuf long
    by_cases own : tempIdAt databuf 2 = world.pid
    · simp only [short, own, if_false, if_true, every_cons, every_nil, ne_eq,
        not_true_eq_false, false_and, and_false, not_false_eq_true, iff_true, and_true, Touch.Below]
      exact Nat.le_trans (by decide) bound
    · have first : 2 + rcpTempIdLen ≤ datalen := Nat.le_trans (by decide) bound
      have fields : 10 + 27 ≤ datalen := by omega
      have size : MsgKind.bsm.minLength = 42 := rfl
      simp only [own, if_false, every_cons, every_append, every_ite, every_nil, Touch.Below,
        first, process, fields, size, true_and, and_true, ne_eq, not_false_eq_true,
        implies_true]
      cases world.finds (tempIdAt databuf 2) with
      | false => simp
      | true =>
          simp only [true_implies, and_true]
          omega

/-- `rcp_parse_evam` reads inside the message. -/
theorem rcpParseEvam_below :
    Every (Touch.Below datalen) (rcpParseEvam world databuf datalen) := by
  unfold rcpParseEvam
  by_cases short : datalen < MsgKind.evam.minLength
  · simp [short]
  · have long := Nat.not_lt.1 short
    have bound : 71 ≤ datalen := long
    have process := rcpMdaProcess_below world databuf long
    have first : 1 + rcpTempIdLen ≤ datalen := Nat.le_trans (by decide) bound
    simp only [short, if_false, every_cons, every_append, every_ite, every_nil, Touch.Below,
      first, process, true_and, and_true, implies_true]
    omega

/-- `rcp_parse_rsa` reads inside the message. -/
theorem rcpParseRsa_below : Every (Touch.Below datalen) (rcpParseRsa datalen) := by
  unfold rcpParseRsa
  simp [Touch.Below]
  omega

/-- The parsers read inside the message, except for a basic safety message of another node
that is one byte short of its safety extension and finds a station. -/
theorem reads_inside_iff (world : RxWorld) (databuf : Frame) (datalen : Nat) :
    (Every (Touch.Below datalen) (rcpParseMsg world databuf datalen) ↔
        ¬ (msgId databuf = rcpMsgIdBsm ∧ datalen = 43 ∧ tempIdAt databuf 2 ≠ world.pid ∧
          world.finds (tempIdAt databuf 2) = true)) ∧
      (Every (Touch.Below datalen) (rcpParseBsm world databuf datalen) ↔
        ¬ (datalen = 43 ∧ tempIdAt databuf 2 ≠ world.pid ∧
          world.finds (tempIdAt databuf 2) = true)) ∧
      Every (Touch.Below datalen) (rcpParseEvam world databuf datalen) ∧
      Every (Touch.Below datalen) (rcpParseRsa datalen) := by
  refine ⟨?_, rcpParseBsm_below_iff, rcpParseEvam_below, rcpParseRsa_below⟩
  unfold rcpParseMsg
  by_cases short : datalen < 6
  · have other : datalen ≠ 43 := by omega
    simp [short, other]
  have first : (Touch.read 0 1).Below datalen := by
    simp only [Touch.Below]
    omega
  rw [if_neg short, every_cons, and_iff_right first]
  by_cases bsm : msgId databuf = rcpMsgIdBsm
  · rw [if_pos bsm, rcpParseBsm_below_iff, and_iff_right bsm]
  rw [if_neg bsm]
  refine iff_of_true ?_ fun both => bsm both.1
  by_cases evam : msgId databuf = rcpMsgIdEvam
  · rw [if_pos evam]
    exact rcpParseEvam_below
  rw [if_neg evam]
  by_cases rsa : msgId databuf = rcpMsgIdRsa
  · rw [if_pos rsa]
    exact rcpParseRsa_below
  · rw [if_neg rsa]
    exact every_nil

/-- A vehicle with room in its table. -/
def sociable : RxWorld where
  pid := Vector.replicate rcpTempIdLen 0xaa
  forwards _ := false
  finds _ := true

/-- A basic safety message with one byte of the safety extension. -/
def clippedBsm : Frame := [2] ++ List.replicate 42 0

/-- The safety extension of a clipped message is read, behind its last byte. -/
theorem clipped_extension_read :
    clippedBsm.length = 43 ∧ Touch.read 42 2 ∈ rcpParseMsg sociable clippedBsm 43 ∧
      ¬ Every (Touch.Below 43) (rcpParseMsg sociable clippedBsm 43) := by
  have extension : Touch.read 42 2 ∈ rcpParseMsg sociable clippedBsm 43 := by decide
  refine ⟨by decide, extension, fun inside => ?_⟩
  have bound : 42 + 2 ≤ 43 := inside _ extension
  exact absurd bound (by decide)

end Rsu.Wnet
