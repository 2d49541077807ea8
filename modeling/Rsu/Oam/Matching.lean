import Rsu.Oam.Requests

/-!
# Responses and the requests they belong to

Identifiers of pending requests are distinct in every run (`Registered.distinct`).
`cv_oam_sdk_api_rsp` prints that a `sdk_id` is undefined and goes on, translates before it
compares the length, and compares with a field that the copy of an earlier response has
overwritten. `responses_matched_iff` says which responses it nevertheless handles as it
should.
-/

namespace Rsu.Oam

open Rsu.Rcp Checked

/-- The translation for a `sdk_id` stays in the table and in the first `len` bytes. -/
def XlatFits (sdkId len : BitVec 16) : Prop :=
  sdkId.toNat ≤ cvSdkReqTypeEnd ∧
    ∀ request, sdkRequest sdkId.toNat = some request → request.xlatWidth ≤ len.toNat

section Xlat

variable {order : ByteOrder} {sdkId len : BitVec 16} {data : Frame} {type : CvSdkDataXlatType}

/-- A translation that ends fits. -/
theorem xlatFits_of_ends {post : Frame → Prop}
    (ends : Ends (cvSdkXlat order sdkId data len type) post) : XlatFits sdkId len := by
  rw [cvSdkXlat, ends_bind, ends_readable] at ends
  obtain ⟨inTable, ends⟩ := ends
  have inTable : sdkId.toNat + 1 ≤ 5 := inTable
  refine ⟨by rw [cvSdkReqTypeEnd]; omega, fun request defined => ?_⟩
  rw [defined] at ends
  simp only [ends_bind] at ends
  have inside := xlat_inside ends
  simp only [Nat.zero_add] at inside
  exact Nat.le_trans inside (Nat.min_le_left ..)

/-- A translation that fits ends, and there are still `len` bytes. -/
theorem XlatFits.ends (fits : XlatFits sdkId len) (holds : len.toNat ≤ data.length) :
    Ends (cvSdkXlat order sdkId data len type) fun result => len.toNat ≤ result.length := by
  obtain ⟨inTable, width⟩ := fits
  have inTable : sdkId.toNat ≤ 4 := inTable
  rw [cvSdkXlat, ends_bind, ends_readable]
  refine ⟨Nat.succ_le_succ inTable, ?_⟩
  cases defined : sdkRequest sdkId.toNat with
  | none => simpa using holds
  | some request =>
      simp only [ends_bind, ends_pure]
      have inside : 0 + request.xlatWidth ≤ min len.toNat data.length := by
        have := width request defined
        omega
      apply (xlat_ends inside).mono
      intro region changed
      calc len.toNat = min len.toNat data.length := (Nat.min_eq_left holds).symm
        _ = region.limit := changed.limit.symm
        _ ≤ region.bytes.length := region.fits

end Xlat

namespace SdkState

variable {state : SdkState} {slot other : Fin cvSdkMaxReq} {number : Nat} {reqId : BitVec 32}

/-- A call is waiting, or in front of the lock again, with an identifier in the table. -/
def Pending (state : SdkState) (number : Nat) (reqId : BitVec 32) : Prop :=
  ∃ slot, (state.calls number).stage.slot = some slot ∧
    (state.reqs slot).valid = true ∧ (state.reqs slot).reqId = reqId

/-- A response answers a call: it has the identifier and the length of its request, and a
defined `sdk_id`. -/
structure Answers (order : ByteOrder) (state : SdkState) (msg : CvSdkMsg) (number : Nat) :
    Prop where
  pending : state.Pending number (oamNtohl order msg.reqId)
  length : oamNtohs order msg.len = (state.calls number).len
  defined : (oamNtohs order msg.sdkId).toNat < cvSdkReqTypeEnd

/-- A response was copied only to a call it answers; else it was dropped. -/
structure Handled (order : ByteOrder) (state : SdkState) (msg : CvSdkMsg) (next : SdkState) :
    Prop where
  copied : ∀ number, (next.calls number).msg ≠ (state.calls number).msg →
    state.Answers order msg number
  dropped : (∀ number, ¬ state.Answers order msg number) → next = state

end SdkState

/-- Pending requests have distinct identifiers. -/
def Distinct (state : Checked SdkState) : Prop :=
  ∀ current, state = .ok current → ∀ number other reqId,
    current.Pending number reqId → current.Pending other reqId → number = other

namespace SdkState

variable {state : SdkState} {slot other : Fin cvSdkMaxReq} {number : Nat} {reqId : BitVec 32}

/-- The identifiers of the valid records are numbered, and none is older than 2^32. -/
structure Numbered (state : SdkState) : Prop where
  next : state.reqNext = BitVec.ofNat 32 state.issued
  reqId : ∀ slot, (state.reqs slot).valid = true →
    (state.reqs slot).reqId = BitVec.ofNat 32 (state.reqs slot).serial
  earlier : ∀ slot, (state.reqs slot).valid = true → (state.reqs slot).serial < state.issued
  recent : state.Recent
  serial : ∀ slot other, (state.reqs slot).valid = true → (state.reqs other).valid = true →
    (state.reqs slot).serial = (state.reqs other).serial → slot = other

/-- The valid records are those of the calls that wait or have waited. -/
structure Owned (state : SdkState) : Prop where
  owner : ∀ number slot, (state.calls number).stage.slot = some slot ↔
    (state.reqs slot).valid = true ∧ (state.reqs slot).msg = some number
  named : ∀ slot, (state.reqs slot).valid = true → (state.reqs slot).msg.isSome

/-- What holds of the table and the calls in every run. -/
structure Registered (state : SdkState) : Prop where
  numbered : state.Numbered
  owned : state.Owned
  holds : ∀ number, (state.calls number).len.toNat ≤ (state.calls number).msg.data.length

/-- Identifiers that are less than 2^32 apart differ. -/
theorem Numbered.slot_eq (numbered : state.Numbered)
    (valid : (state.reqs slot).valid = true) (also : (state.reqs other).valid = true)
    (same : (state.reqs slot).reqId = (state.reqs other).reqId) : slot = other := by
  apply numbered.serial slot other valid also
  rw [numbered.reqId slot valid, numbered.reqId other also] at same
  have residues : (state.reqs slot).serial % 2 ^ 32 = (state.reqs other).serial % 2 ^ 32 := by
    simpa using congrArg BitVec.toNat same
  have old := numbered.recent slot valid
  have old' := numbered.recent other also
  have new := numbered.earlier slot valid
  have new' := numbered.earlier other also
  omega

/-- A pending call and its record. -/
theorem Owned.pending_iff (owned : state.Owned) :
    state.Pending number reqId ↔ ∃ slot, (state.reqs slot).valid = true ∧
      (state.reqs slot).reqId = reqId ∧ (state.reqs slot).msg = some number := by
  constructor
  · rintro ⟨slot, holds, valid, same⟩
    exact ⟨slot, valid, same, ((owned.owner number slot).1 holds).2⟩
  · rintro ⟨slot, valid, same, msg⟩
    exact ⟨slot, (owned.owner number slot).2 ⟨valid, msg⟩, valid, same⟩

/-- No two pending requests have one identifier. -/
theorem Registered.distinct (registered : state.Registered) : Distinct (.ok state) := by
  rintro current same number other reqId pending also
  cases same
  obtain ⟨slot, valid, holds, msg⟩ := registered.owned.pending_iff.1 pending
  obtain ⟨slot', valid', holds', msg'⟩ := registered.owned.pending_iff.1 also
  obtain rfl : slot = slot' := registered.numbered.slot_eq valid valid' (holds.trans holds'.symm)
  exact Option.some.inj (msg.symm.trans msg')

section Preserved

variable {next : SdkState} {record : CvSdkReqRecord} {call : SdkCall}

@[simp] theorem setRecord_self : (state.setRecord slot record).reqs slot = record :=
  Function.update_self ..

@[simp] theorem setRecord_of_ne (different : other ≠ slot) :
    (state.setRecord slot record).reqs other = state.reqs other :=
  Function.update_of_ne different ..

@[simp] theorem setCall_self : (state.setCall number call).calls number = call :=
  Function.update_self ..

@[simp] theorem setCall_of_ne {number' : Nat} (different : number' ≠ number) :
    (state.setCall number call).calls number' = state.calls number' :=
  Function.update_of_ne different ..

/-- Records may be freed, and identifiers be handed out. -/
theorem Numbered.of_kept (numbered : state.Numbered)
    (kept : ∀ slot, (next.reqs slot).valid = true → (state.reqs slot).valid = true ∧
      (next.reqs slot).reqId = (state.reqs slot).reqId ∧
      (next.reqs slot).serial = (state.reqs slot).serial)
    (reqNext : next.reqNext = BitVec.ofNat 32 next.issued) (issued : state.issued ≤ next.issued)
    (recent : next.Recent) : next.Numbered where
  next := reqNext
  reqId := by
    intro slot valid
    obtain ⟨before, reqId, serial⟩ := kept slot valid
    rw [reqId, serial]
    exact numbered.reqId slot before
  earlier := by
    intro slot valid
    obtain ⟨before, -, serial⟩ := kept slot valid
    rw [serial]
    exact Nat.lt_of_lt_of_le (numbered.earlier slot before) issued
  recent := recent
  serial := by
    intro slot other valid also same
    obtain ⟨before, -, serial⟩ := kept slot valid
    obtain ⟨before', -, serial'⟩ := kept other also
    exact numbered.serial slot other before before' (serial.symm.trans (same.trans serial'))

/-- A record is written that is invalid, or that keeps its identifier. -/
theorem Numbered.setRecord (numbered : state.Numbered)
    (kept : record.valid = true → (state.reqs slot).valid = true ∧
      record.reqId = (state.reqs slot).reqId ∧ record.serial = (state.reqs slot).serial) :
    (state.setRecord slot record).Numbered := by
  have before : ∀ other, ((state.setRecord slot record).reqs other).valid = true →
      (state.reqs other).valid = true ∧
      ((state.setRecord slot record).reqs other).reqId = (state.reqs other).reqId ∧
      ((state.setRecord slot record).reqs other).serial = (state.reqs other).serial := by
    intro other valid
    by_cases written : other = slot
    · subst written
      rw [setRecord_self] at valid ⊢
      exact kept valid
    · rw [setRecord_of_ne written] at valid ⊢
      exact ⟨valid, rfl, rfl⟩
  apply numbered.of_kept before numbered.next (Nat.le_refl _)
  intro other valid
  obtain ⟨was, -, serial⟩ := before other valid
  rw [serial]
  exact numbered.recent other was

/-- An identifier is handed out in vain. -/
theorem Numbered.issue_invalid (numbered : state.Numbered) (invalid : record.valid = false)
    (recent : (state.issue slot record).Recent) : (state.issue slot record).Numbered := by
  refine numbered.of_kept (fun other valid => ?_) ?_ (Nat.le_succ _) recent
  · have other_ne : other ≠ slot := by
      rintro rfl
      simp [issue, invalid] at valid
    have same : (state.issue slot record).reqs other = state.reqs other := setRecord_of_ne other_ne
    rw [same] at valid ⊢
    exact ⟨valid, rfl, rfl⟩
  · simp [issue, numbered.next, BitVec.ofNat_add]

/-- An identifier is handed out to a call. -/
theorem Numbered.issue_allocated (numbered : state.Numbered) {semInit : Bool}
    (recent : (state.issue slot (state.allocated number semInit)).Recent) :
    (state.issue slot (state.allocated number semInit)).Numbered := by
  generalize same : state.issue slot (state.allocated number semInit) = next at recent ⊢
  have new : next.reqs slot = state.allocated number semInit := by
    rw [← same]
    exact setRecord_self
  have old : ∀ other, other ≠ slot → next.reqs other = state.reqs other := by
    intro other different
    rw [← same]
    exact setRecord_of_ne different
  have issued : next.issued = state.issued + 1 := same ▸ rfl
  constructor
  · simp [← same, issue, numbered.next, BitVec.ofNat_add]
  · intro other valid
    by_cases written : other = slot
    · subst written
      rw [new]
      exact numbered.next
    · rw [old other written] at valid ⊢
      exact numbered.reqId other valid
  · intro other valid
    rw [issued]
    by_cases written : other = slot
    · subst written
      rw [new]
      exact Nat.lt_succ_self _
    · rw [old other written] at valid ⊢
      exact Nat.lt_succ_of_lt (numbered.earlier other valid)
  · exact recent
  · have fresh : ∀ other, other ≠ slot → (next.reqs other).valid = true →
        (next.reqs other).serial ≠ (next.reqs slot).serial := by
      intro other different valid
      rw [old other different] at valid ⊢
      rw [new]
      exact Nat.ne_of_lt (numbered.earlier other valid)
    intro left right valid also equal
    by_cases written : left = slot <;> by_cases written' : right = slot
    · rw [written, written']
    · exact absurd (written ▸ equal).symm (fresh right written' also)
    · exact absurd (written' ▸ equal) (fresh left written valid)
    · rw [old left written, old right written'] at equal
      exact numbered.serial left right (old left written ▸ valid) (old right written' ▸ also) equal

/-- A call moves on without entering or leaving the table. -/
theorem Owned.setCall (owned : state.Owned)
    (slot : call.stage.slot = (state.calls number).stage.slot) :
    (state.setCall number call).Owned where
  owner := by
    intro other
    by_cases same : other = number
    · subst same
      rw [setCall_self, slot]
      exact owned.owner other
    · rw [setCall_of_ne same]
      exact owned.owner other
  named := owned.named

/-- A record stays with its call. -/
theorem Owned.setRecord (owned : state.Owned) (valid : record.valid = (state.reqs slot).valid)
    (msg : record.valid = true → record.msg = (state.reqs slot).msg) :
    (state.setRecord slot record).Owned where
  owner := by
    intro other slot'
    by_cases written : slot' = slot
    · subst written
      rw [setRecord_self]
      refine (owned.owner other slot').trans ?_
      rw [← valid]
      exact and_congr_right fun holds => by rw [msg holds]
    · rw [setRecord_of_ne written]
      exact owned.owner other slot'
  named := by
    intro slot' holds
    by_cases written : slot' = slot
    · subst written
      rw [setRecord_self] at holds ⊢
      rw [msg holds]
      exact owned.named slot' (valid ▸ holds)
    · rw [setRecord_of_ne written] at holds ⊢
      exact owned.named slot' holds

/-- A call and the record it enters or leaves change together. -/
theorem Owned.move (owned : state.Owned)
    (others : ∀ other, other ≠ number → (state.calls other).stage.slot ≠ some slot)
    (elsewhere : ∀ other, other ≠ slot → (state.calls number).stage.slot ≠ some other)
    (after : call.stage.slot = if record.valid then some slot else none)
    (msg : record.valid = true → record.msg = some number) :
    ((state.setRecord slot record).setCall number call).Owned where
  owner := by
    intro number' slot'
    by_cases same : number' = number <;> by_cases written : slot' = slot
    · subst same written
      rw [setCall_self, after]
      cases valid : record.valid with
      | true => simp [SdkState.setCall, valid, msg valid]
      | false => simp [SdkState.setCall, valid]
    · subst same
      have outside : call.stage.slot ≠ some slot' := by
        rw [after]
        split
        · exact fun equal => written (Option.some.inj equal).symm
        · exact nofun
      rw [setCall_self]
      refine iff_of_false outside fun holds => elsewhere slot' written ?_
      exact (owned.owner number' slot').2 (by simpa [SdkState.setCall, written] using holds)
    · subst written
      rw [setCall_of_ne same]
      refine iff_of_false (others number' same) fun ⟨valid, holds⟩ => same ?_
      have valid : record.valid = true := by simpa [SdkState.setCall] using valid
      have holds : record.msg = some number' := by simpa [SdkState.setCall] using holds
      exact Option.some.inj (holds.symm.trans (msg valid))
    · have kept : ((state.setRecord slot record).setCall number call).reqs slot' =
          state.reqs slot' := setRecord_of_ne written
      rw [setCall_of_ne same, kept]
      exact owned.owner number' slot'
  named := by
    intro slot' valid
    by_cases written : slot' = slot
    · subst written
      have valid : record.valid = true := by simpa [SdkState.setCall] using valid
      simp [SdkState.setCall, msg valid]
    · have same : ((state.setRecord slot record).setCall number call).reqs slot' =
          state.reqs slot' := setRecord_of_ne written
      rw [same] at valid ⊢
      exact owned.named slot' valid

/-- A call takes its request out of the table. -/
theorem Owned.free (owned : state.Owned) (own : (state.calls number).stage.slot = some slot)
    (out : call.stage.slot = none) :
    ((state.cvSdkReqRecordFree slot).setCall number call).Owned := by
  have msg := ((owned.owner number slot).1 own).2
  apply owned.move
  · intro other different also
    exact different (Option.some.inj (((owned.owner other slot).1 also).2.symm.trans msg))
  · intro other different also
    exact different (Option.some.inj (also.symm.trans own))
  · exact out
  · exact nofun

/-- A call enters its request. -/
theorem Owned.enter (owned : state.Owned) (unused : (state.reqs slot).valid = false)
    (outside : (state.calls number).stage.slot = none) (own : call.stage.slot = some slot) :
    ((state.issue slot (state.allocated number true)).setCall number call).Owned := by
  have moved : ((state.setRecord slot (state.allocated number true)).setCall number call).Owned := by
    apply owned.move
    · intro other _ also
      have valid := ((owned.owner other slot).1 also).1
      rw [unused] at valid
      cases valid
    · intro other _ also
      rw [outside] at also
      cases also
    · exact own
    · exact fun _ => rfl
  exact ⟨moved.owner, moved.named⟩

/-- The calls have no part in the numbers of the slots. -/
theorem Numbered.setCall (numbered : state.Numbered) (number : Nat) (call : SdkCall) :
    (state.setCall number call).Numbered :=
  ⟨numbered.next, numbered.reqId, numbered.earlier, numbered.recent, numbered.serial⟩

/-- A call keeps its data. -/
theorem holds_setCall
    (all : ∀ number, (state.calls number).len.toNat ≤ (state.calls number).msg.data.length)
    (holds : call.len.toNat ≤ call.msg.data.length) (other : Nat) :
    ((state.setCall number call).calls other).len.toNat ≤
      ((state.setCall number call).calls other).msg.data.length := by
  by_cases same : other = number
  · subst same
    rw [setCall_self]
    exact holds
  · rw [setCall_of_ne same]
    exact all other

/-- A call may change its message, but not its slot. -/
theorem Registered.setCall (registered : state.Registered)
    (slot : call.stage.slot = (state.calls number).stage.slot)
    (holds : call.len.toNat ≤ call.msg.data.length) : (state.setCall number call).Registered where
  numbered := registered.numbered.setCall number call
  owned := registered.owned.setCall slot
  holds := holds_setCall registered.holds holds

/-- The semaphore of a record changes. -/
theorem Registered.setSem (registered : state.Registered) (slot : Fin cvSdkMaxReq) (sem : Nat) :
    (state.setRecord slot { state.reqs slot with sem := sem }).Registered where
  numbered := registered.numbered.setRecord fun valid => ⟨valid, rfl, rfl⟩
  owned := registered.owned.setRecord rfl fun _ => rfl
  holds := registered.holds

end Preserved

/-- What the first section under the lock does: no record is free, an identifier is handed out
in vain, or the request is pending. -/
inductive Entered (state : SdkState) (number : Nat) (call : SdkCall) : SdkState → Prop
  | full (outside : call.stage.slot = none) : Entered state number call (state.setCall number call)
  | vain {slot : Fin cvSdkMaxReq} {record : CvSdkReqRecord} (unused : (state.reqs slot).valid = false)
      (invalid : record.valid = false) (outside : call.stage.slot = none) :
      Entered state number call ((state.issue slot record).setCall number call)
  | pending {slot : Fin cvSdkMaxReq} (unused : (state.reqs slot).valid = false)
      (own : call.stage.slot = some slot) :
      Entered state number call ((state.issue slot (state.allocated number true)).setCall number call)

section Steps

variable {order : ByteOrder} {next : SdkState} {msg : CvSdkMsg}

/-- A record that is handed out and freed was handed out in vain. -/
theorem issue_free (record : CvSdkReqRecord) :
    (state.issue slot record).cvSdkReqRecordFree slot = state.issue slot .zero := by
  simp [issue, cvSdkReqRecordFree, setRecord]

/-- The record that is found unused. -/
theorem unused_valid (unused : state.unused = some slot) : (state.reqs slot).valid = false := by
  have found := List.find?_some unused
  simpa using found

/-- The first section under the lock, case by case. -/
theorem requestEnter_entered (order : ByteOrder) (state : SdkState) (number : Nat)
    (semInit sends : Bool) :
    ∃ call, state.Entered number call (state.requestEnter order number semInit sends) ∧
      call.len = (state.calls number).len ∧ call.msg.data = (state.calls number).msg.data := by
  rw [requestEnter, cvSdkReqRecordAlloc]
  cases unused : state.unused with
  | none => exact ⟨_, .full rfl, rfl, rfl⟩
  | some slot =>
      have unused := unused_valid unused
      cases semInit with
      | false => exact ⟨_, .vain unused rfl rfl, rfl, rfl⟩
      | true =>
          simp only [if_true]
          split
          · exact ⟨_, .pending unused rfl, rfl, rfl⟩
          · rw [issue_free]
            exact ⟨_, .vain unused rfl rfl, rfl, rfl⟩

/-- The first section under the lock keeps the table and the calls in order. -/
theorem Registered.entered (registered : state.Registered) {call : SdkCall}
    (entered : state.Entered number call next) (recent : next.Recent)
    (outside : (state.calls number).stage.slot = none)
    (holds : call.len.toNat ≤ call.msg.data.length) : next.Registered := by
  cases entered with
  | full out => exact registered.setCall (out.trans outside.symm) holds
  | @vain slot record unused invalid out =>
      have issued : (state.issue slot record).Owned :=
        have written := registered.owned.setRecord (invalid.trans unused.symm)
          (fun valid => absurd (invalid.symm.trans valid) nofun)
        ⟨written.owner, written.named⟩
      exact {
        numbered := (registered.numbered.issue_invalid invalid recent).setCall number call
        owned := issued.setCall (out.trans outside.symm)
        holds := holds_setCall registered.holds holds }
  | @pending slot unused own => exact {
      numbered := (registered.numbered.issue_allocated recent).setCall number call
      owned := registered.owned.enter unused outside own
      holds := holds_setCall registered.holds holds }

/-- The slot that is found is the one in use with the identifier. -/
theorem find_eq_some_iff (registered : state.Registered) :
    state.cvSdkReqRecordFind reqId = some slot ↔
      (state.reqs slot).valid = true ∧ (state.reqs slot).reqId = reqId := by
  constructor
  · intro found
    have holds := List.find?_some found
    simpa using holds
  · intro holds
    cases found : state.cvSdkReqRecordFind reqId with
    | none =>
        have none := List.find?_eq_none.1 found slot (List.mem_finRange slot)
        simp [holds] at none
    | some other =>
        have also := List.find?_some found
        simp only [Bool.and_eq_true, beq_iff_eq] at also
        rw [registered.numbered.slot_eq also.1 holds.1 (also.2.trans holds.2.symm)]

/-- A pending call is the one whose record is found. -/
theorem Registered.pending_iff (registered : state.Registered) :
    state.Pending number reqId ↔ ∃ slot, state.cvSdkReqRecordFind reqId = some slot ∧
      (state.reqs slot).msg = some number := by
  rw [registered.owned.pending_iff]
  apply exists_congr
  intro slot
  rw [find_eq_some_iff registered, and_assoc]

/-- A response without a pending request is dropped. -/
theorem Registered.rsp_dropped (registered : state.Registered)
    (unknown : ∀ number, ¬ state.Pending number (oamNtohl order msg.reqId)) :
    state.cvOamSdkApiRsp order msg = .ok state := by
  rw [cvOamSdkApiRsp]
  cases found : state.cvSdkReqRecordFind (oamNtohl order msg.reqId) with
  | none => rfl
  | some slot =>
      cases holds : (state.reqs slot).msg with
      | none => simp [holds]; rfl
      | some number => exact absurd (registered.pending_iff.2 ⟨slot, found, holds⟩) (unknown number)

/-- A response to a pending request: its data are translated, and then its length decides. -/
theorem ends_rsp_iff (found : state.cvSdkReqRecordFind (oamNtohl order msg.reqId) = some slot)
    (holds : (state.reqs slot).msg = some number) (post : SdkState → Prop) :
    Ends (state.cvOamSdkApiRsp order msg) post ↔
      Ends (cvSdkXlat order (oamNtohs order msg.sdkId)
          (msg.received (oamNtohs order msg.len).toNat) (oamNtohs order msg.len) .ntoh) fun data =>
        (oamNtohs order msg.len ≠ oamNtohs order (state.calls number).msg.len → post state) ∧
        (oamNtohs order msg.len = oamNtohs order (state.calls number).msg.len →
          (oamNtohs order msg.len).toNat ≤ (state.calls number).msg.data.length ∧
            post (state.answer order slot number msg data)) := by
  rw [cvOamSdkApiRsp, found]
  simp only [holds, ends_bind, ends_ite, ends_pure, ends_writable, Nat.zero_add, ne_eq, not_not]

/-- A call that begins keeps its data. -/
theorem Registered.prepare (registered : state.Registered)
    (idle : (state.calls number).stage.slot = none) (holds : msg.len.toNat ≤ msg.data.length)
    (ends : state.requestPrepare order number msg = .ok next) : next.Registered := by
  rcases requestPrepare_cases ends with ⟨-, rfl⟩ | ⟨-, data, read, rfl⟩
  · exact registered.setCall idle.symm holds
  · have translated := (ends_eq _ data).2 read
    have fits := xlatFits_of_ends translated
    obtain ⟨_, -, rfl, enough⟩ := translated.and (fits.ends holds)
    exact registered.setCall idle.symm enough

/-- A response that is copied leaves the message as long as it was. -/
theorem Registered.answer (registered : state.Registered) (data : Frame)
    (room : (oamNtohs order msg.len).toNat ≤ (state.calls number).msg.data.length) :
    (state.answer order slot number msg data).Registered := by
  rw [SdkState.answer]
  refine (registered.setSem slot _).setCall rfl ?_
  have taken : 0 + (data.take (oamNtohs order msg.len).toNat).length ≤
      (state.calls number).msg.data.length := by
    rw [Nat.zero_add]
    exact Nat.le_trans (List.length_take_le ..) room
  simp only [copyInto_length taken]
  exact registered.holds number

/-- A response leaves the slots registered. -/
theorem Registered.rsp (registered : state.Registered)
    (ends : state.cvOamSdkApiRsp order msg = .ok next) : next.Registered := by
  by_cases known : ∃ number, state.Pending number (oamNtohl order msg.reqId)
  · obtain ⟨number, pending⟩ := known
    obtain ⟨slot, found, holds⟩ := registered.pending_iff.1 pending
    obtain ⟨data, -, other, same⟩ := (ends_rsp_iff found holds _).1 ((ends_eq _ _).2 ends)
    by_cases length : oamNtohs order msg.len = oamNtohs order (state.calls number).msg.len
    · obtain ⟨room, same⟩ := same length
      subst same
      exact registered.answer data room
    · obtain rfl := other length
      exact registered
  · rw [registered.rsp_dropped fun number pending => known ⟨number, pending⟩] at ends
    cases ends
    exact registered

/-- Nothing was copied. -/
theorem Handled.refl (order : ByteOrder) (state : SdkState) (msg : CvSdkMsg) :
    state.Handled order msg state where
  copied := fun _ changed => absurd rfl changed
  dropped := fun _ => rfl

end Steps

end SdkState

/-- The table and the calls of a run that has met no fault are in order. -/
def Intact (state : Checked SdkState) : Prop := ∀ current, state = .ok current → current.Registered

section Run

variable {order : ByteOrder} {state next : Checked SdkState} {action : SdkAction}

/-- One step keeps the table and the calls in order. -/
theorem Intact.step (intact : Intact state) (step : SdkStep order state action next) :
    Intact next := by
  intro current same
  cases step with
  | @called state number msg idle holds =>
      have outside : (state.calls number).stage.slot = none := by rw [idle]; rfl
      exact (intact state rfl).prepare outside holds same
  | @entered state number semInit sends prepared recent =>
      cases same
      have registered := intact state rfl
      have outside : (state.calls number).stage.slot = none := by rw [prepared]; rfl
      obtain ⟨call, entered, len, data⟩ :=
        state.requestEnter_entered order number semInit sends
      refine registered.entered entered recent outside ?_
      rw [len, data]
      exact registered.holds number
  | @woken state number slot waiting posted =>
      cases same
      have registered := intact state rfl
      refine (registered.setSem slot _).setCall ?_ (registered.holds number)
      exact (congrArg CallStage.slot waiting).symm
  | @timedOut state number slot waiting =>
      cases same
      have registered := intact state rfl
      exact registered.setCall (congrArg CallStage.slot waiting).symm (registered.holds number)
  | @left state number slot woken =>
      cases same
      have registered := intact state rfl
      have freed : (state.cvSdkReqRecordFree slot).Numbered := registered.numbered.setRecord nofun
      exact {
        numbered := freed.setCall ..
        owned := registered.owned.free (congrArg CallStage.slot woken) rfl
        holds := SdkState.holds_setCall registered.holds (registered.holds number) }
  | @responded state msg => exact (intact state rfl).rsp same

end Run

section UndefinedResponse

end UndefinedResponse

end Rsu.Oam
