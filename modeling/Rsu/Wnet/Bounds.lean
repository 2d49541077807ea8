import Rsu.Wnet.Receive

/-!
# Which frames the receive path can take

Every layer strips its header and trusts a length of its own. The conditions below
follow the layers, from the message up to the frame of the driver; each is exact.
-/

namespace Rsu.Wnet

open Rsu.Rcp Rsu.Mda Checked

variable {world : RxWorld} {databuf pdata : Frame} {datalen : Nat}

/-- The message is one of another node that is long enough for its parser. -/
def Processed (world : RxWorld) (kind : MsgKind) (databuf : Frame) (datalen : Nat) : Prop :=
  msgId databuf = kind.msgId ∧ kind.minLength ≤ datalen ∧
    tempIdAt databuf kind.temporaryIdAt ≠ world.pid

/-- A message that is forwarded fits into a buffer, and the safety extension of one that
is a byte short of it is there nevertheless. -/
def MessageFits (world : RxWorld) (databuf : Frame) (datalen : Nat) : Prop :=
  (∀ kind, Processed world kind databuf datalen → world.forwards (mdaMsgInfo kind databuf) →
    datalen ≤ txbufRoom) ∧
  (Processed world .bsm databuf datalen → world.finds (tempIdAt databuf 2) → datalen = 43 →
    44 ≤ databuf.length)

/-- The DSMP header. -/
def pDsmp (pdata : Frame) : Frame := pdata.drop (dsmpHeaderAt (byteAt pdata 1))

/-- `dsm_length` -/
def dsmLength (pdata : Frame) : Nat := (cvNtohs (load16 (pDsmp pdata) 6)).toNat

/-- What follows the LLC header holds the headers as far as they are read, and the
declared message. -/
def DsmpFits (world : RxWorld) (pdata : Frame) : Prop :=
  2 ≤ pdata.length ∧ 5 ≤ (pDsmp pdata).length ∧
    (cvNtohl (load32 (pDsmp pdata) 1) = waveAidVehicleSafety →
      6 ≤ (pDsmp pdata).length ∧
        (byteAt (pDsmp pdata) 5 = waveElementIdWsm →
          dsmpHeaderLen + dsmLength pdata ≤ (pDsmp pdata).length ∧
            MessageFits world ((pDsmp pdata).drop dsmpHeaderLen) (dsmLength pdata)))

/-- The frame fits into a buffer, and a DSMP frame has what its headers declare. -/
def FrameFits (world : RxWorld) (pdata : Frame) : Prop :=
  pdata.length ≤ rxbufLength ∧
    (wnetLlcHeaderLen ≤ pdata.length → cvNtohs (load16 pdata 6) = llcEthertypeDsmpv1 →
      DsmpFits world (pdata.drop wnetLlcHeaderLen))

/-- `dsmp_recv` passes on no more than what follows the DSMP header. -/
def Within (delivered : Option Delivery) : Prop :=
  ∀ delivery ∈ delivered, delivery.datalen ≤ delivery.databuf.length

section Touches

variable {size : Nat}

/-- The access stays inside an object of `size` bytes, or inside the buffer. -/
def Touch.Inside (size : Nat) : Touch → Prop
  | .read offset count | .write offset count => offset + count ≤ size
  | .fill count => count ≤ txbufRoom

/-- Every access has a property. -/
def Every (holds : Touch → Prop) (touches : List Touch) : Prop := ∀ touch ∈ touches, holds touch

@[simp] theorem every_nil {holds : Touch → Prop} : Every holds [] := List.forall_mem_nil _

@[simp] theorem every_cons {holds : Touch → Prop} (touch : Touch) (touches : List Touch) :
    Every holds (touch :: touches) ↔ holds touch ∧ Every holds touches :=
  List.forall_mem_cons

@[simp] theorem every_append {holds : Touch → Prop} (front back : List Touch) :
    Every holds (front ++ back) ↔ Every holds front ∧ Every holds back :=
  List.forall_mem_append

@[simp] theorem every_ite {holds : Touch → Prop} {condition : Prop} [Decidable condition]
    (yes no : List Touch) :
    Every holds (if condition then yes else no) ↔
      (condition → Every holds yes) ∧ (¬condition → Every holds no) := by
  by_cases taken : condition <;> simp [taken]

/-- An access ends exactly if it stays inside. -/
theorem ends_perform (touch : Touch) (post : Unit → Prop) :
    Ends (touch.perform size) post ↔ touch.Inside size ∧ post () := by
  cases touch <;> simp [Touch.perform, Touch.Inside]

/-- Accesses one after another end exactly if each of them stays inside. -/
theorem ends_forM_perform (touches : List Touch) :
    Ends (touches.forM (Touch.perform size)) (fun _ => True) ↔ Every (Touch.Inside size) touches := by
  induction touches with
  | nil => simp
  | cons touch touches inductionHypothesis =>
      rw [List.forM, ends_bind, ends_perform, inductionHypothesis, every_cons]

end Touches

/-- `rcp_parse_bsm` on a message that is there. -/
theorem inside_rcpParseBsm (fits : datalen ≤ databuf.length) :
    Every (Touch.Inside databuf.length) (rcpParseBsm world databuf datalen) ↔
      (MsgKind.bsm.minLength ≤ datalen → tempIdAt databuf 2 ≠ world.pid →
        (world.forwards (mdaMsgInfo .bsm databuf) → datalen ≤ txbufRoom) ∧
        (world.finds (tempIdAt databuf 2) → datalen = 43 → 44 ≤ databuf.length)) := by
  simp only [rcpParseBsm, rcpMdaProcess, rcpCreateForwardMsg, MsgKind.minLength,
    MsgKind.msgCountAt, MsgKind.temporaryIdAt, MsgKind.forwardIdAt, rcpTempIdLen]
  by_cases long : 42 ≤ datalen
  · by_cases own : tempIdAt databuf 2 = world.pid
    · simp [own, Touch.Inside]
      omega
    · cases world.forwards (mdaMsgInfo .bsm databuf) <;>
        cases world.finds (tempIdAt databuf 2) <;> simp [own, long, Touch.Inside] <;> omega
  · simp [long]

/-- `rcp_parse_evam` on a message that is there. -/
theorem inside_rcpParseEvam (fits : datalen ≤ databuf.length) :
    Every (Touch.Inside databuf.length) (rcpParseEvam world databuf datalen) ↔
      (MsgKind.evam.minLength ≤ datalen → tempIdAt databuf 1 ≠ world.pid →
        world.forwards (mdaMsgInfo .evam databuf) → datalen ≤ txbufRoom) := by
  simp only [rcpParseEvam, rcpMdaProcess, rcpCreateForwardMsg, MsgKind.minLength,
    MsgKind.msgCountAt, MsgKind.temporaryIdAt, MsgKind.forwardIdAt, rcpTempIdLen]
  by_cases long : 71 ≤ datalen
  · by_cases own : tempIdAt databuf 1 = world.pid
    · simp [own, Touch.Inside]
      omega
    · cases world.forwards (mdaMsgInfo .evam databuf) <;>
        cases world.finds (tempIdAt databuf 1) <;> simp [own, long, Touch.Inside] <;> omega
  · simp [long]

/-- `rcp_parse_rsa` never leaves a message that is there. -/
theorem inside_rcpParseRsa (fits : datalen ≤ databuf.length) :
    Every (Touch.Inside databuf.length) (rcpParseRsa datalen) := by
  simp only [rcpParseRsa, every_ite, every_cons, every_nil, Touch.Inside]
  exact ⟨fun _ => trivial, fun long => ⟨by omega, by omega, trivial⟩⟩

/-- The parsers on a message that is there. -/
theorem ends_vamRcpRecv (fits : datalen ≤ databuf.length) :
    Ends (vamRcpRecv world databuf datalen) (fun _ => True) ↔
      MessageFits world databuf datalen := by
  have ids : MsgKind.bsm.msgId = rcpMsgIdBsm ∧ MsgKind.evam.msgId = rcpMsgIdEvam := ⟨rfl, rfl⟩
  have distinct : rcpMsgIdBsm ≠ rcpMsgIdEvam := by decide
  have lengths : MsgKind.bsm.minLength = 42 ∧ MsgKind.evam.minLength = 71 := ⟨rfl, rfl⟩
  rw [vamRcpRecv, ends_forM_perform]
  unfold rcpParseMsg MessageFits
  by_cases short : datalen < 6
  · have unprocessed : ∀ kind, ¬ Processed world kind databuf datalen := by
      rintro kind ⟨-, long, -⟩
      cases kind <;> omega
    simp [short, unprocessed]
  have first : (Touch.read 0 1).Inside databuf.length := by
    simp only [Touch.Inside]
    omega
  rw [if_neg short, every_cons, and_iff_right first]
  by_cases bsm : msgId databuf = rcpMsgIdBsm
  · have other : ¬ Processed world .evam databuf datalen := fun processed =>
      distinct (bsm.symm.trans processed.1)
    rw [if_pos bsm, inside_rcpParseBsm fits]
    constructor
    · refine fun parsed => ⟨?_, fun processed => (parsed processed.2.1 processed.2.2).2⟩
      intro kind processed
      cases kind with
      | bsm => exact (parsed processed.2.1 processed.2.2).1
      | evam => exact absurd processed other
    · intro fits long foreign
      have processed : Processed world .bsm databuf datalen := ⟨bsm, long, foreign⟩
      exact ⟨fits.1 .bsm processed, fits.2 processed⟩
  have noBsm : ¬ Processed world .bsm databuf datalen := fun processed => bsm processed.1
  rw [if_neg bsm]
  by_cases evam : msgId databuf = rcpMsgIdEvam
  · rw [if_pos evam, inside_rcpParseEvam fits]
    constructor
    · refine fun parsed => ⟨?_, fun processed => absurd processed noBsm⟩
      intro kind processed
      cases kind with
      | bsm => exact absurd processed noBsm
      | evam => exact parsed processed.2.1 processed.2.2
    · exact fun fits long foreign => fits.1 .evam ⟨evam, long, foreign⟩
  have noEvam : ¬ Processed world .evam databuf datalen := fun processed => evam processed.1
  have message : ∀ kind, ¬ Processed world kind databuf datalen := by
    intro kind
    cases kind <;> assumption
  rw [if_neg evam]
  refine iff_of_true ?_ ⟨fun kind processed => absurd processed (message kind),
    fun processed => absurd processed noBsm⟩
  rw [every_ite]
  exact ⟨fun _ => inside_rcpParseRsa fits, fun _ => every_nil⟩

/-- A declared message that is there and fits. -/
theorem ends_message :
    Ends (vamRcpRecv world databuf datalen) (fun _ => Within (some ⟨databuf, datalen⟩)) ↔
      datalen ≤ databuf.length ∧ MessageFits world databuf datalen := by
  have delivered : Within (some ⟨databuf, datalen⟩) ↔ datalen ≤ databuf.length := by simp [Within]
  rw [ends_const, delivered, and_comm]
  exact and_congr_right ends_vamRcpRecv

/-- Nothing delivered is within its message. -/
theorem within_none : Within none := by simp [Within]

/-- `dsmp_recv`, behind the LLC header. -/
theorem ends_dsmpRecv {length : Nat} :
    Ends (dsmpRecv (vamRcpRecv world) pdata length) Within ↔ DsmpFits world pdata := by
  have unfolded : Ends (dsmpRecv (vamRcpRecv world) pdata length) Within ↔
      1 + 1 ≤ pdata.length ∧ 1 + 4 ≤ (pDsmp pdata).length ∧
        (cvNtohl (load32 (pDsmp pdata) 1) = waveAidVehicleSafety →
          5 + 1 ≤ (pDsmp pdata).length ∧
            (byteAt (pDsmp pdata) 5 = waveElementIdWsm →
              6 + 2 ≤ (pDsmp pdata).length ∧
                dsmLength pdata ≤ ((pDsmp pdata).drop dsmpHeaderLen).length ∧
                  MessageFits world ((pDsmp pdata).drop dsmpHeaderLen) (dsmLength pdata))) := by
    simp only [dsmpRecv, pDsmp, dsmLength, ends_bind, ends_readable, ends_ite, ends_pure,
      ends_message, within_none, implies_true, and_true]
  have whole : 6 + 2 ≤ (pDsmp pdata).length ∧
        dsmLength pdata ≤ ((pDsmp pdata).drop dsmpHeaderLen).length ↔
      dsmpHeaderLen + dsmLength pdata ≤ (pDsmp pdata).length := by
    rw [List.length_drop, dsmpHeaderLen]
    omega
  rw [unfolded, DsmpFits, ← whole, and_assoc]

/-- `wnet_recv` stays in bounds, and passes on no more than it has, exactly for a frame
that fits. -/
theorem wnetRecv_in_bounds_iff (world : RxWorld) (pdata : Frame) :
    Ends (wnetRecv (vamRcpRecv world) pdata) Within ↔ FrameFits world pdata := by
  have unfolded : Ends (wnetRecv (vamRcpRecv world) pdata) Within ↔ pdata.length ≤ rxbufLength ∧
      (wnetLlcHeaderLen ≤ pdata.length → 6 + 2 ≤ pdata.length ∧
        (cvNtohs (load16 pdata 6) = llcEthertypeDsmpv1 →
          DsmpFits world (pdata.drop wnetLlcHeaderLen))) := by
    simp [wnetRecv, fpRecv, llcRecv, ends_dsmpRecv, within_none]
  rw [unfolded, FrameFits]
  refine and_congr_right fun _ => ?_
  constructor
  · exact fun fits long => (fits long).2
  · exact fun fits long => ⟨long, fits long⟩

/-- A vehicle that knows nobody and forwards nothing. -/
def lonely : RxWorld where
  pid := Vector.replicate rcpTempIdLen 0
  forwards _ := false
  finds _ := false

/-- A frame that ends with its DSMP header, which declares a message of 42 bytes. -/
def headersOnly : Frame :=
  [0xAA, 0xAA, 3, 0, 0, 0, 0x88, 0xE2] ++ [2, 0, 0, 0] ++ [1, 0, 0, 0, 20, 128, 0, 42]

/-- The declared length is trusted: the parser reads behind a frame of 20 bytes. -/
theorem wnetRecv_leaves_the_string :
    ∃ (world : RxWorld) (pdata : Frame), 1 ≤ pdata.length ∧ pdata.length ≤ 1280 ∧
      ¬ Ends (wnetRecv (vamRcpRecv world) pdata) Within := by
  have fault : wnetRecv (vamRcpRecv lonely) headersOnly = .error .read := by decide
  refine ⟨lonely, headersOnly, by decide, by decide, ?_⟩
  rw [fault]
  exact ends_error _ _

end Rsu.Wnet
