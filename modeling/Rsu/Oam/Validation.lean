import Rsu.Oam.Server
import Rsu.Oam.Stream

/-!
# Which requests are executed

The server checks the identifier of a request and nothing else. `Guarded` describes the
received strings that need no other check, and `request_validated_iff` says that these are
the only ones.
-/

namespace Rsu.Oam

open Rsu.Rcp Rsu.Vam Checked

/-- How far the handler of a request reaches into the data in any case. -/
def CsSdkReqType.handlerWidth : CsSdkReqType → Nat
  | .vamParamCfgGet => vamConfigLength
  | .vamParamCfgSet => 4
  | .vamBsmTrigger => 4
  | .vamSetPrint => 4

/-- How far the functions of a request reach into the data. -/
def CsSdkReqType.touched (request : CsSdkReqType) : Nat :=
  max request.xlatWidth request.handlerWidth

section Execute

variable {order : ByteOrder} {world : OamWorld} {region : Region} {data : Nat}
  {request : CsSdkReqType}

/-- A handler that ends stayed inside the data. -/
theorem handler_inside {post : OamWorld × Region → Prop}
    (ends : Ends (request.handler world region data) post) :
    data + request.handlerWidth ≤ region.limit := by
  cases request <;>
    simp [CsSdkReqType.handler, cvOamVamCfgGetCb, cvOamVamCfgSetCb, cvOamVamBsmTriggerCb,
      cvOamVamSetPrintCb, vamConfigBytes] at ends <;>
    simp only [CsSdkReqType.handlerWidth, vamConfigLength] <;>
    omega

/-- Inside the data every handler ends, and it changes nothing in front of them. -/
theorem handler_ends (inside : data + request.touched ≤ region.limit) :
    Ends (request.handler world region data) fun result => ChangedFrom data region result.2 := by
  have unchanged : ChangedFrom data region region := ⟨rfl, fun _ _ => rfl⟩
  cases request with
  | vamParamCfgGet =>
      have room : data + 12 ≤ region.limit := inside
      simp only [CsSdkReqType.handler, cvOamVamCfgGetCb, ends_bind, Region.ends_write, ends_pure]
      exact ⟨room, .put (Nat.le_refl _) _⟩
  | vamParamCfgSet =>
      have room : data + 12 ≤ region.limit := inside
      have first : data + 4 ≤ region.limit := by omega
      have mode : data + cfgSetCfgAt + bsmBoardcastModeAt + 1 ≤ region.limit := by
        simp only [cfgSetCfgAt, bsmBoardcastModeAt]
        omega
      have period : data + cfgSetCfgAt + bsmBoardcastPeriodAt + 2 ≤ region.limit := room
      simp only [CsSdkReqType.handler, cvOamVamCfgSetCb, ends_bind, Region.ends_read32]
      refine ⟨first, ?_⟩
      split <;> split <;> simp [mode, period, unchanged]
  | vamBsmTrigger =>
      have room : data + 4 ≤ region.limit := inside
      simp only [CsSdkReqType.handler, cvOamVamBsmTriggerCb, ends_bind, Region.ends_read32,
        ends_pure]
      exact ⟨room, unchanged⟩
  | vamSetPrint =>
      have room : data + 4 ≤ region.limit := inside
      simp only [CsSdkReqType.handler, cvOamVamSetPrintCb, ends_bind, Region.ends_read32, ends_pure]
      exact ⟨room, unchanged⟩

/-- The length of the reply to a request. -/
def replyLen (order : ByteOrder) (bytes : Frame) (msg : Nat) : Nat :=
  (oamNtohs order (load16 bytes (msg + sdkLenAt)) + BitVec.ofNat 16 sdkDataAt).toNat

/-- A reply is sent as long as it does not fit a frame, or lies in the region. -/
theorem ends_cvOamSendRegion {msgType : BitVec 16} {msg : Nat} {msgLen : BitVec 16} :
    Ends (cvOamSendRegion order msgType region msg msgLen) (fun _ => True) ↔
      (msgLen.toNat ≤ cvOamPktMaxLen - cvFrameHeaderLen → msg + msgLen.toNat ≤ region.limit) := by
  simp only [cvOamSendRegion, ends_ite, ends_pure, ends_bind, ends_readable, and_true, Nat.not_lt,
    implies_true, true_and]

/-- What executing a request leaves in front of its data: everything but `ret`. -/
theorem len_of_changed {msg : Nat} {first second last : Region} {ret : List Byte}
    (retLength : ret.length = 4)
    (xlated : ChangedFrom (msg + sdkDataAt) region first)
    (handled : ChangedFrom (msg + sdkDataAt) first second)
    (again : ChangedFrom (msg + sdkDataAt) (second.put msg ret) last) :
    last.limit = region.limit ∧
      load16 last.bytes (msg + sdkLenAt) = load16 region.bytes (msg + sdkLenAt) := by
  have inFront : msg + sdkLenAt + 2 ≤ msg + sdkDataAt := Nat.le_refl _
  have behind : msg + ret.length ≤ msg + sdkLenAt := by
    rw [retLength, sdkLenAt]
    omega
  constructor
  · rw [again.limit, Region.put_limit, handled.limit, xlated.limit]
  · calc
      load16 last.bytes (msg + sdkLenAt)
          = load16 (second.put msg ret).bytes (msg + sdkLenAt) := again.before _ inFront
      _ = load16 second.bytes (msg + sdkLenAt) := Region.load16_put_of_outside (.inr behind)
      _ = load16 first.bytes (msg + sdkLenAt) := handled.before _ inFront
      _ = load16 region.bytes (msg + sdkLenAt) := xlated.before _ inFront

variable (order world) in
/-- Inside the data a request is executed, and what is left to do is the reply. -/
theorem sdkExecute_of_inside {msg : Nat}
    (inside : msg + sdkDataAt + request.touched ≤ region.limit) :
    ∃ next last, last.limit = region.limit ∧
      sdkExecute order world region msg request =
        (do
          let reply ← cvOamSendRegion order cvOamL2MsgCmdRsp last msg
            (oamNtohs order (load16 region.bytes (msg + sdkLenAt)) + BitVec.ofNat 16 sdkDataAt)
          return ⟨next, some request, reply⟩) := by
  have reach : msg + sdkDataAt + request.xlatWidth ≤ region.limit :=
    Nat.le_trans (Nat.add_le_add_left (Nat.le_max_left ..) _) inside
  have xlat : Ends (request.xlat order region (msg + sdkDataAt) .ntoh)
      (ChangedFrom (msg + sdkDataAt) region) := xlat_ends reach
  obtain ⟨first, sameFirst, xlated⟩ := xlat
  have handler : Ends (request.handler world first (msg + sdkDataAt)) fun result =>
      ChangedFrom (msg + sdkDataAt) first result.2 := handler_ends (xlated.limit ▸ inside)
  obtain ⟨⟨next, second⟩, sameSecond, handled⟩ := handler
  have secondLimit : second.limit = region.limit := handled.limit.trans xlated.limit
  have retInside : msg + (store32 (oamHtonl order 0)).length ≤ second.limit := by
    rw [secondLimit, store32_length]
    have dataAt : sdkDataAt = 16 := rfl
    omega
  have back : Ends (request.xlat order (second.put msg (store32 (oamHtonl order 0)))
      (msg + sdkDataAt) .hton) (ChangedFrom (msg + sdkDataAt) (second.put msg
        (store32 (oamHtonl order 0)))) := by
    apply xlat_ends
    rw [Region.put_limit, secondLimit]
    exact reach
  obtain ⟨last, sameLast, again⟩ := back
  obtain ⟨limit, len⟩ := len_of_changed (store32_length _) xlated handled again
  have lenInside : msg + sdkLenAt + 2 ≤ last.limit := by
    rw [limit]
    simp only [sdkDataAt, sdkLenAt] at reach ⊢
    omega
  refine ⟨next, last, limit, ?_⟩
  simp only [sdkExecute, sameFirst, ok_bind, sameSecond, Region.write, writable_bind retInside,
    pure_bind, sameLast, Region.read16, readable_bind lenInside, len]

/-- Executing a request stays inside the limit exactly if its functions and the reply do. -/
theorem ends_sdkExecute {msg : Nat} {post : FrameOutcome → Prop} {fact : Prop}
    (known : ∀ next reply, post ⟨next, some request, reply⟩ ↔ fact) :
    Ends (sdkExecute order world region msg request) post ↔
      msg + sdkDataAt + request.touched ≤ region.limit ∧
        (replyLen order region.bytes msg ≤ cvOamPktMaxLen - cvFrameHeaderLen →
          msg + replyLen order region.bytes msg ≤ region.limit) ∧ fact := by
  have inside : Ends (sdkExecute order world region msg request) post →
      msg + sdkDataAt + request.touched ≤ region.limit := by
    intro ends
    simp only [sdkExecute, ends_bind] at ends
    have xlatInside := xlat_inside ends
    obtain ⟨first, -, rest, xlated⟩ := ends.and (xlat_ends xlatInside)
    have handlerInside := handler_inside rest
    rw [xlated.limit] at handlerInside
    rw [CsSdkReqType.touched]
    omega
  rw [← and_iff_right_of_imp inside]
  refine and_congr_right fun room => ?_
  obtain ⟨next, last, limit, same⟩ := sdkExecute_of_inside order world room
  rw [same]
  simp only [ends_bind, ends_pure, known]
  rw [ends_const, ends_cvOamSendRegion, limit]
  exact Iff.rfl

end Execute

/-- A string that `recv` returned to the server. -/
structure RecvString where
  bytes : Frame
  nonempty : 1 ≤ bytes.length
  fits : bytes.length ≤ cvOamPktMaxLen

@[simp] theorem recvBuffer_length {bytes : Frame} (fits : bytes.length ≤ cvOamPktMaxLen) :
    (recvBuffer bytes).length = cvOamPktMaxLen := by
  rw [recvBuffer, copyInto_length (by simpa using fits), List.length_replicate]

/-- The buffer, of which the received bytes may be used. -/
def RecvString.region (string : RecvString) : Region where
  bytes := recvBuffer string.bytes
  limit := string.bytes.length
  fits := by
    rw [recvBuffer_length string.fits]
    exact string.fits

/-- The whole buffer. -/
def RecvString.buffer (string : RecvString) : Region where
  bytes := recvBuffer string.bytes
  limit := cvOamPktMaxLen
  fits := Nat.le_of_eq (recvBuffer_length string.fits).symm

/-- Behind the received bytes the buffer is zero. -/
theorem byteAt_recvBuffer (bytes : Frame) (index : Nat) :
    byteAt (recvBuffer bytes) index = byteAt bytes index := by
  have appended : recvBuffer bytes = bytes ++ (List.replicate cvOamPktMaxLen 0).drop bytes.length := by
    simp [recvBuffer, copyInto]
  rw [appended, byteAt, byteAt]
  rcases Nat.lt_or_ge index bytes.length with received | behind
  · simp [List.getD_eq_getElem?_getD, List.getElem?_append_left received]
  · simp only [List.getD_eq_getElem?_getD, List.getElem?_append_right behind,
      List.getElem?_eq_none behind, List.drop_replicate, List.getElem?_replicate]
    split <;> rfl

@[simp] theorem load16_recvBuffer (bytes : Frame) (index : Nat) :
    load16 (recvBuffer bytes) index = load16 bytes index := by
  rw [load16, load16, byteAt_recvBuffer, byteAt_recvBuffer]

section Validation

variable (order : ByteOrder) (size : CsSdkReqType → Nat) (world : OamWorld)

/-- The header names a command request. -/
def IsRequest (bytes : Frame) : Prop :=
  oamHtons order (load16 bytes 0) = cvOamFrameTypeCmdMsg ∧
    oamNtohs order (load16 bytes 2) = cvOamL2MsgCmdReq

/-- The identifier of the request. -/
def requestId (bytes : Frame) : Nat :=
  (oamNtohs order (load16 bytes (cvFrameHeaderLen + sdkIdAt))).toNat

/-- The declared length of its data. -/
def requestLen (bytes : Frame) : Nat :=
  (oamNtohs order (load16 bytes (cvFrameHeaderLen + sdkLenAt))).toNat

/-- The string holds a complete command request, given the size of the data of each. -/
def Complete (bytes : Frame) : Prop :=
  IsRequest order bytes ∧ cvFrameHeaderLen + sdkDataAt ≤ bytes.length ∧
    cvFrameHeaderLen + sdkDataAt + requestLen order bytes ≤ bytes.length ∧
    ∃ request, sdkRequest (requestId order bytes) = some request ∧
      requestLen order bytes = size request

/-- Only a complete request has effects. -/
structure Proper (bytes : Frame) (outcome : FrameOutcome) : Prop where
  acts : outcome.executed ≠ none ∨ outcome.reply ≠ none → Complete order size bytes
  rests : ¬ Complete order size bytes → outcome.world = world ∧ outcome.reply = none

/-- The server does with a string what it should and touches nothing outside it. -/
def Validated (string : RecvString) : Prop :=
  Ends (cvOamFrameProc order world string.region) (Proper order size world string.bytes)

/-- The strings with a frame header that are no requests, requests with a whole header and
an undefined identifier, and complete requests whose functions stay inside the string. -/
def Guarded (bytes : Frame) : Prop :=
  cvFrameHeaderLen ≤ bytes.length ∧
    (IsRequest order bytes → cvFrameHeaderLen + sdkDataAt ≤ bytes.length ∧
      ∀ request, sdkRequest (requestId order bytes) = some request →
        requestLen order bytes = size request ∧
        cvFrameHeaderLen + sdkDataAt + requestLen order bytes ≤ bytes.length ∧
        cvFrameHeaderLen + sdkDataAt + request.touched ≤ bytes.length)

variable {order size world} {string : RecvString}

/-- A frame that changes nothing is no concern. -/
theorem proper_idle (bytes : Frame) : Proper order size world bytes ⟨world, none, none⟩ where
  acts := by simp
  rests := fun _ => ⟨rfl, rfl⟩

/-- An executed request has to be complete. -/
theorem proper_executed_iff {bytes : Frame} {request : CsSdkReqType} (next : OamWorld)
    (reply : Option Frame) :
    Proper order size world bytes ⟨next, some request, reply⟩ ↔ Complete order size bytes := by
  constructor
  · exact fun proper => proper.acts (.inl (by simp))
  · exact fun complete => ⟨fun _ => complete, fun incomplete => absurd complete incomplete⟩

/-- The handler behind the frame header. -/
theorem ends_cvOamSdkMsgHandler :
    Ends (cvOamSdkMsgHandler order world string.region cvFrameHeaderLen)
        (Proper order size world string.bytes) ↔
      cvFrameHeaderLen + sdkDataAt ≤ string.bytes.length ∧
        ∀ request, sdkRequest (requestId order string.bytes) = some request →
          cvFrameHeaderLen + sdkDataAt + request.touched ≤ string.bytes.length ∧
            (replyLen order string.region.bytes cvFrameHeaderLen ≤
                cvOamPktMaxLen - cvFrameHeaderLen →
              cvFrameHeaderLen + replyLen order string.region.bytes cvFrameHeaderLen ≤
                string.bytes.length) ∧
            Complete order size string.bytes := by
  have reads : cvFrameHeaderLen + sdkIdAt + 2 ≤ string.bytes.length ∧
      cvFrameHeaderLen + sdkLenAt + 2 ≤ string.bytes.length ↔
        cvFrameHeaderLen + sdkDataAt ≤ string.bytes.length := by
    simp only [sdkIdAt, sdkLenAt, sdkDataAt]
    omega
  have id : (oamNtohs order (load16 string.region.bytes (cvFrameHeaderLen + sdkIdAt))).toNat =
      requestId order string.bytes := by
    rw [requestId]
    exact congrArg (fun field => (oamNtohs order field).toNat) (load16_recvBuffer _ _)
  simp only [cvOamSdkMsgHandler, ends_bind, Region.ends_read16, ends_ite, ends_pure, id]
  change cvFrameHeaderLen + sdkIdAt + 2 ≤ string.bytes.length ∧
    cvFrameHeaderLen + sdkLenAt + 2 ≤ string.bytes.length ∧ _ ↔ _
  rw [← and_assoc, reads]
  refine and_congr_right fun _ => ?_
  cases found : sdkRequest (requestId order string.bytes) with
  | none => simp [proper_idle]
  | some request =>
      have defined : ¬ requestId order string.bytes ≥ cvSdkReqTypeEnd := by
        intro undefined
        rw [sdkRequest_eq_none undefined] at found
        cases found
      simp only [defined, false_implies, not_false_eq_true, true_implies, true_and,
        Option.some.injEq, forall_eq', ends_sdkExecute proper_executed_iff]
      exact Iff.rfl

/-- The length of the reply to a request that is there does not wrap. -/
theorem replyLen_of_short
    (short : cvFrameHeaderLen + sdkDataAt + requestLen order string.bytes ≤ string.bytes.length) :
    replyLen order string.region.bytes cvFrameHeaderLen =
      requestLen order string.bytes + sdkDataAt := by
  have field : load16 string.region.bytes (cvFrameHeaderLen + sdkLenAt) =
      load16 string.bytes (cvFrameHeaderLen + sdkLenAt) := load16_recvBuffer _ _
  have small := Nat.le_trans short string.fits
  rw [replyLen, field, BitVec.toNat_add, BitVec.toNat_ofNat]
  change (requestLen order string.bytes + _) % _ = _
  simp only [cvFrameHeaderLen, sdkDataAt, cvOamPktMaxLen] at small ⊢
  omega

/-- The checks on a defined request. -/
theorem executed_properly_iff {request : CsSdkReqType} (isRequest : IsRequest order string.bytes)
    (header : cvFrameHeaderLen + sdkDataAt ≤ string.bytes.length)
    (found : sdkRequest (requestId order string.bytes) = some request) :
    (cvFrameHeaderLen + sdkDataAt + request.touched ≤ string.bytes.length ∧
        (replyLen order string.region.bytes cvFrameHeaderLen ≤ cvOamPktMaxLen - cvFrameHeaderLen →
          cvFrameHeaderLen + replyLen order string.region.bytes cvFrameHeaderLen ≤
            string.bytes.length) ∧
        Complete order size string.bytes) ↔
      requestLen order string.bytes = size request ∧
        cvFrameHeaderLen + sdkDataAt + requestLen order string.bytes ≤ string.bytes.length ∧
        cvFrameHeaderLen + sdkDataAt + request.touched ≤ string.bytes.length := by
  constructor
  · rintro ⟨inside, -, -, -, short, other, defined, same⟩
    obtain rfl := Option.some.inj (found.symm.trans defined)
    exact ⟨same, short, inside⟩
  · rintro ⟨same, short, inside⟩
    refine ⟨inside, fun _ => ?_, isRequest, header, short, request, found, same⟩
    rw [replyLen_of_short short]
    omega

/-- The server executes and answers complete requests only, and stays inside the received
string, exactly for the guarded strings. -/
theorem request_validated_iff (order : ByteOrder) (size : CsSdkReqType → Nat) (world : OamWorld)
    (string : RecvString) :
    Validated order size world string ↔ Guarded order size string.bytes := by
  have type : load16 string.region.bytes 0 = load16 string.bytes 0 := load16_recvBuffer _ _
  have layer2 : load16 string.region.bytes 2 = load16 string.bytes 2 := load16_recvBuffer _ _
  have limit : string.region.limit = string.bytes.length := rfl
  have unfolded : Validated order size world string ↔
      2 + 2 ≤ string.bytes.length ∧ 0 + 2 ≤ string.bytes.length ∧
        (IsRequest order string.bytes →
          Ends (cvOamSdkMsgHandler order world string.region cvFrameHeaderLen)
            (Proper order size world string.bytes)) := by
    simp only [Validated, cvOamFrameProc, ends_bind, Region.ends_read16, ends_ite, ends_pure,
      proper_idle, implies_true, and_true, type, layer2, limit, IsRequest, and_imp]
  have headers : 2 + 2 ≤ string.bytes.length ∧ 0 + 2 ≤ string.bytes.length ↔
      cvFrameHeaderLen ≤ string.bytes.length := by
    simp only [cvFrameHeaderLen]
    omega
  rw [unfolded, ← and_assoc, headers, Guarded]
  refine and_congr_right fun _ => forall_congr' fun isRequest => ?_
  rw [ends_cvOamSdkMsgHandler]
  exact and_congr_right fun header => forall_congr' fun request => forall_congr' fun found =>
    executed_properly_iff isRequest header found

/-- A string that is answered: a defined request whose reply is not too long. -/
def Answered (order : ByteOrder) (bytes : Frame) : Prop :=
  IsRequest order bytes ∧ (sdkRequest (requestId order bytes)).isSome ∧
    replyLen order bytes cvFrameHeaderLen ≤ cvOamPktMaxLen - cvFrameHeaderLen

/-- A reply that fits is sent. -/
theorem ends_cvOamSendRegion_isSome {region : Region} {msgType : BitVec 16} {msg : Nat}
    {msgLen : BitVec 16}
    (inside : msgLen.toNat ≤ cvOamPktMaxLen - cvFrameHeaderLen → msg + msgLen.toNat ≤ region.limit) :
    Ends (cvOamSendRegion order msgType region msg msgLen) fun reply =>
      reply.isSome ↔ msgLen.toNat ≤ cvOamPktMaxLen - cvFrameHeaderLen := by
  simp only [cvOamSendRegion, ends_ite, ends_pure, ends_bind, ends_readable]
  constructor
  · intro long
    simpa using Nat.not_le.2 long
  · intro short
    have fits := Nat.not_lt.1 short
    have sent : ¬ ((region.bytes.drop msg).take msgLen.toNat).length >
        cvOamPktMaxLen - cvFrameHeaderLen := by
      rw [List.length_take]
      omega
    refine ⟨inside fits, iff_of_true ?_ fits⟩
    rw [cvOamSendMsg, oamPkt, if_neg sent]
    rfl

/-- On the whole buffer a request is always executed, and answered if its reply fits. -/
theorem sdkExecute_reply (order : ByteOrder) (world : OamWorld) (string : RecvString)
    (request : CsSdkReqType) :
    Ends (sdkExecute order world string.buffer cvFrameHeaderLen request) fun outcome =>
      outcome.reply.isSome ↔
        replyLen order string.bytes cvFrameHeaderLen ≤ cvOamPktMaxLen - cvFrameHeaderLen := by
  have limit : string.buffer.limit = cvOamPktMaxLen := rfl
  have len : load16 string.buffer.bytes (cvFrameHeaderLen + sdkLenAt) =
      load16 string.bytes (cvFrameHeaderLen + sdkLenAt) := load16_recvBuffer _ _
  have inside : cvFrameHeaderLen + sdkDataAt + request.touched ≤ string.buffer.limit := by
    rw [limit]
    cases request <;> decide
  obtain ⟨next, last, lastLimit, same⟩ := sdkExecute_of_inside order world inside
  rw [same, len]
  simp only [ends_bind, ends_pure]
  apply ends_cvOamSendRegion_isSome
  intro short
  rw [lastLimit, limit]
  simp only [cvFrameHeaderLen, cvOamPktMaxLen] at short ⊢
  omega

/-- On the whole buffer a frame is always processed to the end, and exactly the answered
strings get a reply. -/
theorem frameProc_reply (order : ByteOrder) (world : OamWorld) (string : RecvString) :
    Ends (cvOamFrameProc order world string.buffer) fun outcome =>
      outcome.reply.isSome ↔ Answered order string.bytes := by
  have limit : string.buffer.limit = 1200 := rfl
  have field : ∀ index, load16 string.buffer.bytes index = load16 string.bytes index :=
    load16_recvBuffer _
  have fields : cvFrameHeaderLen + sdkIdAt + 2 ≤ 1200 ∧ cvFrameHeaderLen + sdkLenAt + 2 ≤ 1200 := by
    decide
  have headers : 2 + 2 ≤ 1200 ∧ 0 + 2 ≤ 1200 := by decide
  simp only [cvOamFrameProc, cvOamSdkMsgHandler, ends_bind, Region.ends_read16, ends_ite, ends_pure,
    limit, field, fields, headers, true_and, Option.isSome_none]
  refine ⟨fun type => ⟨fun layer2 => ⟨fun undefined => ?_, fun _ => ?_⟩, fun other => ?_⟩,
    fun other => ?_⟩
  · have none : sdkRequest (requestId order string.bytes) = none := sdkRequest_eq_none undefined
    simp [Answered, none]
  · have asked : sdkRequest (oamNtohs order (load16 string.bytes (cvFrameHeaderLen + sdkIdAt))).toNat =
        sdkRequest (requestId order string.bytes) := rfl
    rw [asked]
    cases found : sdkRequest (requestId order string.bytes) with
    | none => simp [Answered, found]
    | some request =>
        have isRequest : IsRequest order string.bytes := ⟨type, layer2⟩
        refine (sdkExecute_reply order world string request).mono fun outcome sent => ?_
        rw [sent]
        simp [Answered, isRequest, found]
  · simp [Answered, IsRequest, other]
  · simp [Answered, IsRequest, other]

/-- Nothing outside the buffer is touched, whatever was received. -/
theorem frameProc_stays_in_buffer (order : ByteOrder) (world : OamWorld) (string : RecvString) :
    Ends (cvOamFrameProc order world string.buffer) fun _ => True :=
  (frameProc_reply order world string).mono fun _ _ => trivial

/-- The header of a command request alone, as each build expects it. -/
def bareHeader (order : ByteOrder) : RecvString where
  bytes := match order with
    | .little => [0, 2, 0, 1]
    | .big => [2, 0, 1, 0]
  nonempty := by cases order <;> decide
  fits := by cases order <;> decide

/-- In both builds the server takes a bare header for a request to read the configuration,
whatever the size of that is: behind the four bytes it finds the zeros of its buffer. -/
theorem bare_header_executed :
    (∀ order world, Ends (cvOamFrameProc order world (bareHeader order).buffer)
      fun outcome => outcome.executed = some .vamParamCfgGet) ∧
    ∀ order size world, ¬ Validated order size world (bareHeader order) := by
  constructor
  · intro order world
    have header : cvOamFrameProc order world (bareHeader order).buffer =
        sdkExecute order world (bareHeader order).buffer cvFrameHeaderLen .vamParamCfgGet := by
      cases order <;> rfl
    rw [header, ends_sdkExecute fun _ _ => iff_of_true rfl trivial]
    exact ⟨by cases order <;> decide, fun _ => by cases order <;> decide, trivial⟩
  · intro order size world validated
    have fault : cvOamFrameProc order world (bareHeader order).region = .error .read := by
      cases order <;> rfl
    rw [Validated, fault] at validated
    exact ends_error _ _ validated

end Validation

end Rsu.Oam
