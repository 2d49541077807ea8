import Rsu.Oam.Routing

/-!
# The data of a request in both byte orders

The client translates `len` bytes and sends them, and the server translates what it received,
in front of the zeros of its buffer. The width of a value is fixed in four places: by the
client API, by the declared `len`, by the translating function and by the handler. They agree
for the two configuration requests and for no other.
-/

namespace Rsu.Oam

open Rsu.Rcp Rsu.Vam Rsu.Data.BitMask Checked

/-- The `len` that the client API of a request declares. -/
def CsSdkReqType.len : CsSdkReqType → Nat
  | .vamParamCfgGet => vamConfigLength
  | .vamParamCfgSet => cfgSetCfgAt + vamConfigLength
  | .vamBsmTrigger => 1
  | .vamSetPrint => 1

/-- How much of the server's buffer lies behind the header of a request. -/
def requestRoom : Nat := cvOamPktMaxLen - cvFrameHeaderLen - sdkDataAt

/-- `xlats[sdk_id](data, len, type)` where the data of a request is followed by other bytes.
An access to those is a fault. -/
def translate (order : ByteOrder) (request : CsSdkReqType) (type : CvSdkDataXlatType)
    (data rest : Frame) : Checked Frame := do
  let region ← request.xlat order
    { bytes := data ++ rest
      limit := data.length
      fits := by
        rw [List.length_append]
        exact Nat.le_add_right .. } 0 type
  return region.bytes

/-- A function of the server API with the values it is called with. -/
inductive ServerCall where
  /-- `cv_oam_vam_cfg_get` -/
  | cfgGet
  /-- `cv_oam_vam_cfg_set` -/
  | cfgSet (mask : BitVec 32) (cfg : Frame)
  /-- `cv_oam_vam_bsm_trigger` -/
  | bsmTrigger (trigger : Byte)
  /-- `cv_oam_vam_set_print` -/
  | setPrint (type : BitVec 32)

/-- What the call does to the server. -/
def ServerCall.perform (world : OamWorld) : ServerCall → OamWorld
  | .cfgGet => world
  | .cfgSet mask cfg =>
      let oldcfg := world.vam.workingParam
      vamSetConfig world
        { oldcfg with
          bsmBoardcastMode :=
            if has mask cvOamVamCfgMaskBsmBcastMode then byteAt cfg bsmBoardcastModeAt
            else oldcfg.bsmBoardcastMode
          bsmBoardcastPeriod :=
            if has mask cvOamVamCfgMaskBsmBcastPeriod then load16 cfg bsmBoardcastPeriodAt
            else oldcfg.bsmBoardcastPeriod }
  | .bsmTrigger trigger => if trigger ≠ 0 then vamStart world else vamStop world
  | .setPrint type => vamSetPrint world type

namespace CsSdkReqType

/-- What the client asks for when its API fills the data of the request so. The arguments of
the last two are single bytes. -/
def asked (payload : Frame) : CsSdkReqType → ServerCall
  | .vamParamCfgGet => .cfgGet
  | .vamParamCfgSet => .cfgSet (load32 payload 0) (payload.drop cfgSetCfgAt)
  | .vamBsmTrigger => .bsmTrigger (byteAt payload 0)
  | .vamSetPrint => .setPrint ((byteAt payload 0).setWidth 32)

/-- What the handler of the request calls when it finds its data so. -/
def handed (data : Frame) : CsSdkReqType → ServerCall
  | .vamParamCfgGet => .cfgGet
  | .vamParamCfgSet => .cfgSet (load32 data 0) ((data.drop cfgSetCfgAt).take vamConfigLength)
  | .vamBsmTrigger => .bsmTrigger ((load32 data 0).setWidth 8)
  | .vamSetPrint => .setPrint (load32 data 0)

end CsSdkReqType

/-- What came of a request that went to the server and back. -/
structure Carried where
  /-- What the handler called. -/
  call : ServerCall
  world : OamWorld
  /-- The data the handler left in the message. -/
  reply : Frame
  /-- The data the client API finds in its message. -/
  answer : Frame

/-- The data of a request from the client API to the handler and back. -/
def carry (order : ByteOrder) (world : OamWorld) (request : CsSdkReqType) (payload : Frame) :
    Checked Carried := do
  let sent ← translate order request .hton payload []
  let data ← translate order request .ntoh sent (List.replicate (requestRoom - sent.length) 0)
  let (world, region) ← request.handler world ⟨data, data.length, Nat.le_refl _⟩ 0
  let reply := region.bytes.take payload.length
  let returned ← translate order request .hton reply (region.bytes.drop payload.length)
  let answer ← translate order request .ntoh (returned.take payload.length) []
  return ⟨request.handed data, world, reply, answer⟩

/-- The server does what the client asked for, and its reply reaches the client. -/
structure Carried.Faithful (request : CsSdkReqType) (world : OamWorld) (payload : Frame)
    (carried : Carried) : Prop where
  call : carried.call = request.asked payload
  world : carried.world = (request.asked payload).perform world
  answer : carried.answer = carried.reply

/-- The data survives both ways, and no translation leaves it. -/
def RoundTrips (order : ByteOrder) (world : OamWorld) (request : CsSdkReqType) (payload : Frame) :
    Prop :=
  Ends (carry order world request payload) (Carried.Faithful request world payload)

section Swap

variable {order : ByteOrder} {region : Region} {front rest : Frame} {data : Nat}
  {type : CvSdkDataXlatType}

/-- Bytes are put where they fit. -/
theorem Region.put_bytes {bytes : List Byte} {offset : Nat}
    (inside : offset + bytes.length ≤ region.limit) :
    (region.put offset bytes).bytes = copyInto region.bytes offset bytes := by
  rw [put, dif_pos inside]

@[simp] theorem oamNtohl_oamNtohl (order : ByteOrder) (x : BitVec 32) :
    oamNtohl order (oamNtohl order x) = x := by
  cases order with
  | big => rfl
  | little => exact cvNtohl_cvNtohl x

/-- Both directions exchange the same bytes. -/
theorem cvShortByteReverse_eq (order : ByteOrder) (data : BitVec 16) (type : CvSdkDataXlatType) :
    cvShortByteReverse order data type = oamNtohs order data := by
  cases type <;> rfl

/-- Both directions exchange the same bytes. -/
theorem cvIntByteReverse_eq (order : ByteOrder) (data : BitVec 32) (type : CvSdkDataXlatType) :
    cvIntByteReverse order data type = oamNtohl order data := by
  cases type <;> rfl

/-- A 16-bit field of a frame is changed to `oamNtohs` of it. -/
theorem ends_reverse16 {value : BitVec 16} {post : Region → Prop}
    (bytes : region.bytes = front ++ (store16 value ++ rest))
    (inside : front.length + 2 ≤ region.limit)
    (next : ∀ after : Region, after.limit = region.limit →
      after.bytes = front ++ (store16 (oamNtohs order value) ++ rest) → post after) :
    Ends (reverse16 order region front.length type) post := by
  have loaded : load16 region.bytes front.length = value := by
    rw [bytes, ← Nat.add_zero front.length, load16_append, load16_append_left rest (by simp),
      load16_store16]
  have stored : copyInto region.bytes front.length (store16 (oamNtohs order value)) =
      front ++ (store16 (oamNtohs order value) ++ rest) := by
    rw [bytes, ← Nat.add_zero front.length, copyInto_append_add, copyInto_append rest (by simp)]
    simp [copyInto]
  simp only [reverse16, ends_bind, Region.ends_read16, Region.ends_write, store16_length, loaded,
    cvShortByteReverse_eq]
  refine ⟨inside, inside, next _ (Region.put_limit ..) ?_⟩
  rw [Region.put_bytes (by simpa using inside), stored]

/-- A 32-bit field of a frame is changed to `oamNtohl` of it. -/
theorem ends_reverse32 {value : BitVec 32} {post : Region → Prop}
    (bytes : region.bytes = store32 value ++ rest) (inside : 4 ≤ region.limit)
    (next : ∀ after : Region, after.limit = region.limit →
      after.bytes = store32 (oamNtohl order value) ++ rest → post after) :
    Ends (reverse32 order region 0 type) post := by
  have loaded : load32 region.bytes 0 = value := by
    rw [bytes, load32_append_left rest (by simp), load32_store32]
  have stored : copyInto region.bytes 0 (store32 (oamNtohl order value)) =
      store32 (oamNtohl order value) ++ rest := by
    rw [bytes, copyInto_append rest (by simp)]
    simp [copyInto]
  simp only [reverse32, ends_bind, Region.ends_read32, Region.ends_write, store32_length, loaded,
    cvIntByteReverse_eq]
  refine ⟨by omega, by omega, next _ (Region.put_limit ..) ?_⟩
  rw [Region.put_bytes (by simpa using inside), stored]

end Swap

/-- There is a 16-bit field at every offset of a frame. -/
theorem exists_field16 {frame : Frame} {offset : Nat} (inside : offset + 2 ≤ frame.length) :
    ∃ front value rest, frame = front ++ (store16 value ++ rest) ∧ front.length = offset := by
  have split := List.take_append_drop offset frame
  have length : (frame.drop offset).length = frame.length - offset := List.length_drop
  match field : frame.drop offset with
  | [] => simp [field] at length; omega
  | [low] => simp [field] at length; omega
  | low :: high :: rest =>
      refine ⟨frame.take offset, high ++ low, rest, ?_, List.length_take_of_le (by omega)⟩
      rw [field] at split
      rw [store16_append]
      exact split.symm

/-- A frame begins with a 32-bit field. -/
theorem exists_field32 {frame : Frame} (long : 4 ≤ frame.length) :
    ∃ value rest, frame = store32 value ++ rest := by
  obtain ⟨front, high, rest, rfl, two⟩ := exists_field16 (show 2 + 2 ≤ frame.length from long)
  obtain ⟨empty, low, none, rfl, zero⟩ := exists_field16 (show 0 + 2 ≤ front.length by omega)
  obtain rfl : empty = [] := List.eq_nil_of_length_eq_zero zero
  obtain rfl : none = [] := by simpa using two
  refine ⟨high ++ low, rest, ?_⟩
  rw [store32_append]
  simp

/-- Data that is translated, sent and translated again arrives as `received`. -/
def Crosses (order : ByteOrder) (request : CsSdkReqType) (data received : Frame) : Prop :=
  ∃ sent, sent.length = data.length ∧ received.length = sent.length ∧
    (∀ rest, translate order request .hton data rest = .ok (sent ++ rest)) ∧
    ∀ rest, translate order request .ntoh sent rest = .ok (received ++ rest)

section Crosses

variable {order : ByteOrder} {request : CsSdkReqType} {world next : OamWorld}
  {data received payload answer front tail rest : Frame} {region left : Region}
  {type : CvSdkDataXlatType}

/-- Of a configuration the period is translated, and nothing else. -/
theorem translate_cfgGet {value : BitVec 16} (six : front.length = bsmBoardcastPeriodAt) :
    translate order .vamParamCfgGet type (front ++ (store16 value ++ tail)) rest =
      .ok (front ++ (store16 (oamNtohs order value) ++ tail) ++ rest) := by
  rw [← ends_eq, translate, ends_bind]
  simp only [CsSdkReqType.xlat, cvOamVamCfgGetByteReverse, Nat.zero_add, ← six]
  refine ends_reverse16 (?_ : _ = front ++ (store16 value ++ (tail ++ rest))) ?_ ?_
  · simp
  · simp
  · intro after _ bytes
    simp [bytes]

/-- The configuration crosses in the answer to a request for it. -/
theorem crosses_cfgGet (long : data.length = CsSdkReqType.len .vamParamCfgGet) :
    Crosses order .vamParamCfgGet data data := by
  have inside : bsmBoardcastPeriodAt + 2 ≤ data.length := by
    rw [long]
    decide
  obtain ⟨front, value, tail, rfl, six⟩ := exists_field16 inside
  refine ⟨front ++ (store16 (oamNtohs order value) ++ tail), by simp, by simp,
    fun rest => translate_cfgGet six, fun rest => ?_⟩
  rw [translate_cfgGet six, oamNtohs_oamNtohs]

/-- Of a masked configuration the mask and the period are. -/
theorem translate_cfgSet {mask : BitVec 32} {value : BitVec 16}
    (six : front.length = bsmBoardcastPeriodAt) :
    translate order .vamParamCfgSet type (store32 mask ++ (front ++ (store16 value ++ tail))) rest =
      .ok (store32 (oamNtohl order mask) ++ (front ++ (store16 (oamNtohs order value) ++ tail)) ++
        rest) := by
  have place : 0 + cfgSetCfgAt + bsmBoardcastPeriodAt =
      (store32 (oamNtohl order mask) ++ front).length := by
    rw [List.length_append, six]
    rfl
  rw [← ends_eq, translate, ends_bind]
  simp only [CsSdkReqType.xlat, cvOamVamCfgSetByteReverse, ends_bind, place]
  refine ends_reverse32 (?_ : _ = store32 mask ++ (front ++ (store16 value ++ tail) ++ rest)) ?_ ?_
  · simp
  · simp
  · intro between limit masked
    refine ends_reverse16
      (?_ : _ = store32 (oamNtohl order mask) ++ front ++ (store16 value ++ (tail ++ rest))) ?_ ?_
    · simp [masked]
    · rw [limit]
      simp
      omega
    · intro after _ bytes
      simp [bytes]

/-- The configuration crosses in a request to set it. -/
theorem crosses_cfgSet (long : data.length = CsSdkReqType.len .vamParamCfgSet) :
    Crosses order .vamParamCfgSet data data := by
  have sixteen : CsSdkReqType.len .vamParamCfgSet = 16 := rfl
  obtain ⟨mask, cfg, rfl⟩ := exists_field32 (show 4 ≤ data.length by omega)
  have inside : bsmBoardcastPeriodAt + 2 ≤ cfg.length := by
    simp at long
    simp only [bsmBoardcastPeriodAt]
    omega
  obtain ⟨front, value, tail, rfl, six⟩ := exists_field16 inside
  refine ⟨store32 (oamNtohl order mask) ++ (front ++ (store16 (oamNtohs order value) ++ tail)),
    by simp, by simp, fun rest => translate_cfgSet six, fun rest => ?_⟩
  rw [translate_cfgSet six, oamNtohs_oamNtohs, oamNtohl_oamNtohl]

/-- What `cv_oam_vam_bsm_trigger_byte_reverse` makes of a byte. -/
def reversedTrigger (order : ByteOrder) (trigger : Byte) : Byte :=
  (oamNtohl order (trigger.setWidth 32)).setWidth 8

/-- The last byte of a value comes first when it is reversed. -/
theorem setWidth_cvNtohl (value : BitVec 32) :
    (cvNtohl value).setWidth 8 = value.extractLsb' 24 8 := by
  have half : (cvNtohl value).extractLsb' 0 16 = cvNtohs (value.extractLsb' 16 16) :=
    BitVec.extractLsb'_append_eq_right
  have byte : (cvNtohs (value.extractLsb' 16 16)).extractLsb' 0 8 =
      (value.extractLsb' 16 16).extractLsb' 8 8 :=
    BitVec.extractLsb'_append_eq_right
  have inner : (value.extractLsb' 16 16).extractLsb' 8 8 = value.extractLsb' 24 8 := by
    ext index bound
    have inside : 8 + index < 16 := by omega
    simp [inside, ← Nat.add_assoc]
  have low : (cvNtohl value).extractLsb' 0 8 = ((cvNtohl value).extractLsb' 0 16).extractLsb' 0 8 :=
    (BitVec.extractLsb'_extractLsb'_of_le (by decide)).symm
  rw [BitVec.setWidth_eq_extractLsb' (by decide), low, half, byte, inner]

/-- A byte that was reversed as an `int` is zero. -/
theorem reversedTrigger_eq (order : ByteOrder) (trigger : Byte) :
    reversedTrigger order trigger = if order = .big then trigger else 0 := by
  cases order with
  | big => simp [reversedTrigger, oamNtohl]
  | little =>
      rw [reversedTrigger, oamNtohl, setWidth_cvNtohl, if_neg (by decide)]
      ext index bound
      have outside : trigger.getLsbD (24 + index) = false :=
        BitVec.getLsbD_of_ge trigger _ (by omega)
      simp [outside]

/-- The trigger is translated as if it were a word. -/
theorem translate_bsmTrigger (trigger : Byte) :
    translate order .vamBsmTrigger type [trigger] rest =
      .ok ([reversedTrigger order trigger] ++ rest) := by
  rw [← ends_eq, translate, ends_bind]
  simp only [CsSdkReqType.xlat, cvOamVamBsmTriggerByteReverse, ends_bind, Region.ends_read8,
    Region.ends_write, ends_pure]
  refine ⟨by simp, by simp, ?_⟩
  rw [Region.put_bytes (by simp), cvIntByteReverse_eq]
  rfl

/-- A trigger crosses as what is left of it. -/
theorem crosses_bsmTrigger (trigger : Byte) :
    Crosses order .vamBsmTrigger [trigger] [reversedTrigger order trigger] := by
  refine ⟨[reversedTrigger order trigger], rfl, rfl, fun rest => translate_bsmTrigger trigger,
    fun rest => ?_⟩
  rw [translate_bsmTrigger, reversedTrigger_eq, reversedTrigger_eq]
  split <;> rfl

/-- The print type is translated as an `int`, of which one byte belongs to the data. -/
theorem not_ends_translate_setPrint {post : Frame → Prop} (short : data.length < 4) :
    ¬ Ends (translate order .vamSetPrint type data rest) post := by
  intro ends
  rw [translate, ends_bind] at ends
  have inside := xlat_inside ends
  simp only [CsSdkReqType.xlatWidth] at inside
  omega

/-- A request whose data crosses both ways. -/
theorem carry_eq (there : Crosses order request payload data)
    (handled : ∀ fits, request.handler world
      ⟨data ++ List.replicate (requestRoom - data.length) 0,
        (data ++ List.replicate (requestRoom - data.length) 0).length, fits⟩ 0 = .ok (next, left))
    (long : data.length ≤ left.bytes.length)
    (back : Crosses order request (left.bytes.take data.length) answer) :
    carry order world request payload =
      .ok ⟨request.handed (data ++ List.replicate (requestRoom - data.length) 0), next,
        left.bytes.take data.length, answer⟩ := by
  obtain ⟨sent, same, received, out, inward⟩ := there
  obtain ⟨returned, replied, answered, home, final⟩ := back
  have length : payload.length = data.length := same.symm.trans received.symm
  have whole : left.bytes.take data.length ++ left.bytes.drop data.length = left.bytes :=
    List.take_append_drop ..
  rw [carry, out, List.append_nil, ok_bind, inward, ok_bind, ← received]
  have width : returned.length = data.length :=
    replied.trans (List.length_take_of_le long)
  have cut : (returned ++ left.bytes.drop data.length).take data.length = returned := by
    rw [← width, List.take_left]
  have arrived := final []
  rw [List.append_nil] at arrived
  simp only [handled, ok_bind, length, home, cut, arrived]
  rfl

/-- A byte of a part of a frame. -/
theorem byteAt_part {start count offset : Nat} (inside : offset < count) :
    byteAt ((data.drop start).take count) offset = byteAt data (start + offset) := by
  simp [byteAt, List.getD_eq_getElem?_getD, List.getElem?_take_of_lt inside]

/-- A word of a part of the data. -/
theorem load16_part {start count offset : Nat} (inside : offset + 2 ≤ count) :
    load16 ((data.drop start).take count) offset = load16 data (start + offset) := by
  rw [load16, load16, byteAt_part (by omega), byteAt_part (by omega), Nat.add_assoc]

/-- The handler does what it finds in its data, and leaves the data unless it answers. -/
theorem handler_performs (room : cfgSetCfgAt + vamConfigLength ≤ region.limit) :
    Ends (request.handler world region 0) fun result =>
      result.1 = (request.handed region.bytes).perform world ∧
        result.2.bytes.length = region.bytes.length ∧
        (request ≠ .vamParamCfgGet → result.2 = region) := by
  cases request with
  | vamParamCfgGet =>
      have inside : 0 + (vamConfigBytes world.vam.workingParam world.padding).length ≤
          region.limit := Nat.le_trans (Nat.le_add_left ..) room
      have length : (region.put 0 (vamConfigBytes world.vam.workingParam world.padding)).bytes.length =
          region.bytes.length := by
        rw [Region.put_bytes inside, copyInto_length (Nat.le_trans inside region.fits)]
      simp only [CsSdkReqType.handler, cvOamVamCfgGetCb, ends_bind, Region.ends_write, ends_pure]
      exact ⟨inside, rfl, length, fun other => absurd rfl other⟩
  | vamParamCfgSet =>
      have four : 0 + 4 ≤ region.limit := Nat.le_trans (Nat.le_add_right ..) room
      have mode : cfgSetCfgAt + bsmBoardcastModeAt + 1 ≤ region.limit :=
        Nat.le_trans (by decide) room
      have period : cfgSetCfgAt + bsmBoardcastPeriodAt + 2 ≤ region.limit :=
        Nat.le_trans (by decide) room
      have cfgMode : byteAt ((region.bytes.drop cfgSetCfgAt).take vamConfigLength)
          bsmBoardcastModeAt = byteAt region.bytes (cfgSetCfgAt + bsmBoardcastModeAt) :=
        byteAt_part (by decide)
      have cfgPeriod : load16 ((region.bytes.drop cfgSetCfgAt).take vamConfigLength)
          bsmBoardcastPeriodAt = load16 region.bytes (cfgSetCfgAt + bsmBoardcastPeriodAt) :=
        load16_part (by decide)
      simp only [CsSdkReqType.handler, cvOamVamCfgSetCb, ends_bind, Region.ends_read32,
        CsSdkReqType.handed, ServerCall.perform, Nat.zero_add, cfgMode, cfgPeriod]
      refine ⟨four, ?_⟩
      split <;> split <;> simp [mode, period]
  | vamBsmTrigger =>
      simp only [CsSdkReqType.handler, cvOamVamBsmTriggerCb, ends_bind, Region.ends_read32,
        ends_pure]
      exact ⟨Nat.le_trans (by decide) room, rfl, trivial, fun _ => trivial⟩
  | vamSetPrint =>
      simp only [CsSdkReqType.handler, cvOamVamSetPrintCb, ends_bind, Region.ends_read32, ends_pure]
      exact ⟨Nat.le_trans (by decide) room, rfl, trivial, fun _ => trivial⟩

/-- What crosses both ways is faithful if the handler finds what the client asked for. -/
theorem roundTrips_iff_handed (there : Crosses order request payload data)
    (short : data.length ≤ cfgSetCfgAt + vamConfigLength)
    (back : ∀ bytes, data.length ≤ bytes.length →
      (request ≠ .vamParamCfgGet →
        bytes = data ++ List.replicate (requestRoom - data.length) 0) →
      Crosses order request (bytes.take data.length) (bytes.take data.length)) :
    RoundTrips order world request payload ↔
      request.handed (data ++ List.replicate (requestRoom - data.length) 0) =
        request.asked payload := by
  have enough : cfgSetCfgAt + vamConfigLength ≤ requestRoom := by decide
  have size : (data ++ List.replicate (requestRoom - data.length) (0 : Byte)).length =
      requestRoom := by
    rw [List.length_append, List.length_replicate]
    omega
  let region : Region := ⟨data ++ List.replicate (requestRoom - data.length) 0, _, Nat.le_refl _⟩
  have room : cfgSetCfgAt + vamConfigLength ≤ region.limit :=
    Nat.le_trans enough (Nat.le_of_eq size.symm)
  obtain ⟨⟨next, left⟩, handled, performed, length, kept⟩ : Ends (request.handler world region 0) _ :=
    handler_performs room
  have long : data.length ≤ left.bytes.length := by
    rw [length, size]
    omega
  have crossed := back left.bytes long fun other => congrArg Region.bytes (kept other)
  rw [RoundTrips, carry_eq there (fun _ => handled) long crossed, ends_ok]
  constructor
  · exact fun faithful => faithful.call
  · intro same
    exact
      { call := same
        world := same ▸ performed
        answer := rfl }

/-- The low byte of a loaded value. -/
theorem setWidth_load32 (data : Frame) : (load32 data 0).setWidth 8 = byteAt data 0 := by
  have half : (load32 data 0).extractLsb' 0 16 = load16 data 0 :=
    BitVec.extractLsb'_append_eq_right
  have byte : (load16 data 0).extractLsb' 0 8 = byteAt data 0 := BitVec.extractLsb'_append_eq_right
  have low : (load32 data 0).extractLsb' 0 8 = ((load32 data 0).extractLsb' 0 16).extractLsb' 0 8 :=
    (BitVec.extractLsb'_extractLsb'_of_le (by decide)).symm
  rw [BitVec.setWidth_eq_extractLsb' (by decide), low, half, byte]

/-- A configuration that is asked for comes back. -/
theorem roundTrips_cfgGet (long : payload.length = CsSdkReqType.len .vamParamCfgGet) :
    RoundTrips order world .vamParamCfgGet payload := by
  rw [roundTrips_iff_handed (crosses_cfgGet long) (by rw [long]; decide)]
  · rfl
  · intro bytes room _
    exact crosses_cfgGet ((List.length_take_of_le room).trans long)

theorem roundTrips_cfgSet (long : payload.length = CsSdkReqType.len .vamParamCfgSet) :
    RoundTrips order world .vamParamCfgSet payload := by
  have four : cfgSetCfgAt ≤ payload.length := by
    rw [long]
    decide
  have cfg : (payload.drop cfgSetCfgAt).length = vamConfigLength := by
    rw [List.length_drop, long]
    rfl
  rw [roundTrips_iff_handed (crosses_cfgSet long) (Nat.le_of_eq long)]
  · rw [CsSdkReqType.handed, CsSdkReqType.asked, load32_append_left _ four,
      List.drop_append_of_le_length four, ← cfg, List.take_left]
  · intro bytes room _
    exact crosses_cfgSet ((List.length_take_of_le room).trans long)

/-- A trigger comes back exactly where nothing is swapped, or if it is 0. -/
theorem roundTrips_bsmTrigger_iff (trigger : Byte) :
    RoundTrips order world .vamBsmTrigger [trigger] ↔ order = .big ∨ trigger = 0 := by
  have again : reversedTrigger order (reversedTrigger order trigger) =
      reversedTrigger order trigger := by
    rw [reversedTrigger_eq, reversedTrigger_eq]
    split <;> rfl
  have short : 1 ≤ cfgSetCfgAt + vamConfigLength := by decide
  rw [roundTrips_iff_handed (crosses_bsmTrigger trigger) short]
  · rw [CsSdkReqType.handed, CsSdkReqType.asked, setWidth_load32, ServerCall.bsmTrigger.injEq]
    change reversedTrigger order trigger = trigger ↔ _
    rw [reversedTrigger_eq]
    by_cases identity : order = .big
    · simp [identity]
    · simp only [identity, if_false, false_or]
      exact eq_comm
  · intro bytes _ kept
    rw [kept (by decide)]
    have crossed : Crosses order _ _ _ := crosses_bsmTrigger (reversedTrigger order trigger)
    rw [again] at crossed
    exact crossed

/-- A print type of fewer than four bytes is read and written behind its end. -/
theorem not_roundTrips_setPrint (short : payload.length < 4) :
    ¬ RoundTrips order world .vamSetPrint payload := by
  intro ends
  rw [RoundTrips, carry, ends_bind] at ends
  exact not_ends_translate_setPrint short ends

end Crosses

/-- The data of a request survives both ways exactly if it is a configuration request, or a
trigger that the reversal leaves alone. The print type never survives. -/
theorem roundTrips_iff (order : ByteOrder) (world : OamWorld) (request : CsSdkReqType)
    (payload : Vector Byte request.len) :
    RoundTrips order world request payload.toList ↔
      request = .vamParamCfgGet ∨ request = .vamParamCfgSet ∨
        (request = .vamBsmTrigger ∧ (order = .big ∨ byteAt payload.toList 0 = 0)) := by
  have long : payload.toList.length = request.len := Vector.length_toList
  cases request with
  | vamParamCfgGet => simp [roundTrips_cfgGet long]
  | vamParamCfgSet => simp [roundTrips_cfgSet long]
  | vamBsmTrigger =>
      obtain ⟨trigger, single⟩ := List.length_eq_one_iff.1 long
      rw [single, roundTrips_bsmTrigger_iff]
      simp [byteAt]
  | vamSetPrint =>
      have short : payload.toList.length < 4 := by
        rw [long]
        decide
      simp [not_roundTrips_setPrint short]

/-- A trigger arrives as a stop, and the print type is written over the end of its data. -/
theorem trigger_and_print_lost :
    ¬ RoundTrips .little RouteState.defaultWorld .vamBsmTrigger [1] ∧
      ¬ RoundTrips .little RouteState.defaultWorld .vamSetPrint [1] ∧
      ¬ RoundTrips .big RouteState.defaultWorld .vamSetPrint [1] := by
  refine ⟨?_, not_roundTrips_setPrint (by decide), not_roundTrips_setPrint (by decide)⟩
  rw [roundTrips_bsmTrigger_iff]
  decide

end Rsu.Oam
