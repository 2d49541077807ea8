import Rsu.Oam.ConfigMask
import Rsu.Oam.Matching

/-!
# The configuration of a caller whose request fails

The client's `cv_oam_vam_cfg_set` copies its message back to the caller before it looks at the
result. By then the request has been brought into network order, unless its identifier was
refused, and a response may have been copied over it.
-/

namespace Rsu.Oam

open Rsu.Rcp Rsu.Vam Rsu.Data.BitMask Checked

/-- `CV_SDK_MSG_MAX_LEN` -/
def cvSdkMsgMaxLen : Nat := 1024

/-- A function of the client API that carries a configuration. -/
inductive ConfigApi where
  /-- `cv_oam_vam_cfg_get` -/
  | cfgGet
  /-- `cv_oam_vam_cfg_set` -/
  | cfgSet (mask : BitVec 32)

/-- The configuration in the data of a request to set it. -/
def dataConfig (data : Frame) : Frame := (data.drop cfgSetCfgAt).take vamConfigLength

namespace ConfigApi

/-- The request it makes. -/
def request : ConfigApi → CsSdkReqType
  | .cfgGet => .vamParamCfgGet
  | .cfgSet _ => .vamParamCfgSet

/-- The identifier of the request. -/
def sdkId : ConfigApi → BitVec 16
  | .cfgGet => 0
  | .cfgSet _ => 1

/-- What it writes to the cleared data of its message. -/
def payload (cfg : Frame) : ConfigApi → Frame
  | .cfgGet => List.replicate vamConfigLength 0
  | .cfgSet mask => store32 mask ++ cfg

/-- The message it passes to `cv_oam_sdk_api_request`, if it knows its request by `sdkId`. -/
def msg (sdkId : BitVec 16) (cfg : Frame) (api : ConfigApi) : CvSdkMsg where
  ret := 0
  reqId := 0
  reservd := 0
  sdkId := sdkId
  len := BitVec.ofNat 16 api.request.len
  data := api.payload cfg ++
    List.replicate (cvSdkMsgMaxLen - sdkDataAt - (api.payload cfg).length) 0

/-- What it returns and leaves to its caller when the request returns. -/
def outcome (cfg : Frame) (call : SdkCall) : ConfigApi → Option (BitVec 32 × Frame)
  | .cfgGet =>
      match call.stage with
      | .returned result =>
          if result ≠ oamEOk then some (result, cfg)
          else some (oamEOk, call.msg.data.take vamConfigLength)
      | _ => none
  | .cfgSet _ =>
      match call.stage with
      | .returned result =>
          let cfg := dataConfig call.msg.data
          if result ≠ oamEOk then some (result, cfg) else some (oamEOk, cfg)
      | _ => none

end ConfigApi

/-- The data of a response that is copied to a call, in the order of the host. -/
def SdkState.answered (order : ByteOrder) (state : SdkState) (number : Nat) (msg : CvSdkMsg) :
    Option Frame :=
  match state.cvSdkReqRecordFind (oamNtohl order msg.reqId) with
  | none => none
  | some slot =>
      let len := oamNtohs order msg.len
      if (state.reqs slot).msg = some number ∧
          len = oamNtohs order (state.calls number).msg.len then
        match cvSdkXlat order (oamNtohs order msg.sdkId) (msg.received len.toNat) len .ntoh with
        | .ok data => some data
        | .error _ => none
      else none

/-- The data that a step copies to a call. -/
def answeredBy (order : ByteOrder) (number : Nat) : Checked SdkState → SdkAction → Option Frame
  | .ok state, .respond msg => state.answered order number msg
  | _, _ => none

namespace SdkState

variable {order : ByteOrder} {state next : SdkState} {number other : Nat} {call : SdkCall}
  {msg : CvSdkMsg} {data : Frame}

/-- A step leaves the buffer of a call alone, and the call has still begun. -/
structure Kept (number : Nat) (state next : SdkState) : Prop where
  data : (next.calls number).msg.data = (state.calls number).msg.data
  len : (next.calls number).msg.len = (state.calls number).msg.len
  begun : (state.calls number).stage ≠ .idle → (next.calls number).stage ≠ .idle

theorem Kept.refl (number : Nat) (state : SdkState) : Kept number state state :=
  ⟨rfl, rfl, id⟩

/-- A call moves on with its buffer. -/
theorem Kept.move (calls : next.calls = Function.update state.calls other call)
    (data : call.msg.data = (state.calls other).msg.data)
    (len : call.msg.len = (state.calls other).msg.len) (begun : call.stage ≠ .idle) :
    Kept number state next := by
  by_cases same : number = other
  · subst same
    have moved : next.calls number = call := by
      rw [calls, Function.update_self]
    exact ⟨moved ▸ data, moved ▸ len, fun _ => moved ▸ begun⟩
  · have still : next.calls number = state.calls number := by
      rw [calls, Function.update_of_ne same]
    exact ⟨by rw [still], by rw [still], fun before => still ▸ before⟩

/-- The first section under the lock leaves the buffers alone. -/
theorem requestEnter_kept (order : ByteOrder) (state : SdkState) (other : Nat)
    (semInit sends : Bool) : Kept number state (state.requestEnter order other semInit sends) := by
  rw [requestEnter, cvSdkReqRecordAlloc]
  cases state.unused with
  | none => exact .move rfl rfl rfl fun begun => by cases begun
  | some slot =>
      cases semInit with
      | false => exact .move rfl rfl rfl fun begun => by cases begun
      | true =>
          simp only [if_true]
          split
          · exact .move rfl rfl rfl fun begun => by cases begun
          · exact .move rfl rfl rfl fun begun => by cases begun

/-- A call that begins leaves the others alone. -/
theorem requestPrepare_kept (different : number ≠ other)
    (ends : state.requestPrepare order other msg = .ok next) : Kept number state next := by
  have still : ∀ call, Kept number state (state.setCall other call) := by
    intro call
    have same : (state.setCall other call).calls number = state.calls number :=
      setCall_of_ne different
    exact ⟨by rw [same], by rw [same], fun before => same ▸ before⟩
  rcases requestPrepare_cases ends with ⟨-, rfl⟩ | ⟨-, data, -, rfl⟩
  · exact still _
  · exact still _

/-- A response that was copied to the call. -/
structure Copied (order : ByteOrder) (number : Nat) (msg : CvSdkMsg) (data : Frame)
    (state next : SdkState) : Prop where
  matched : oamNtohs order msg.len = oamNtohs order (state.calls number).msg.len
  holds : (oamNtohs order msg.len).toNat ≤ data.length
  data : (next.calls number).msg.data =
    copyInto (state.calls number).msg.data 0 (data.take (oamNtohs order msg.len).toNat)
  len : (next.calls number).msg.len = oamNtohs order msg.len
  stage : (next.calls number).stage = (state.calls number).stage

/-- A response is copied to the call or leaves its buffer alone. -/
theorem rsp_answered (ends : state.cvOamSdkApiRsp order msg = .ok next) :
    (state.answered order number msg = none ∧ Kept number state next) ∨
      ∃ data, state.answered order number msg = some data ∧
        Copied order number msg data state next := by
  cases found : state.cvSdkReqRecordFind (oamNtohl order msg.reqId) with
  | none =>
      rw [cvOamSdkApiRsp, found] at ends
      cases ends
      exact .inl ⟨by rw [answered, found], .refl number state⟩
  | some slot =>
      cases owner : (state.reqs slot).msg with
      | none =>
          simp only [cvOamSdkApiRsp, found, owner] at ends
          cases ends
          exact .inl ⟨by simp [answered, found, owner], .refl number state⟩
      | some other =>
          have ends := (ends_rsp_iff found owner _).1 ((ends_eq _ _).2 ends)
          obtain ⟨data, translated, dropped, copied⟩ := ends
          have within : Ends (cvSdkXlat order (oamNtohs order msg.sdkId)
              (msg.received (oamNtohs order msg.len).toNat) (oamNtohs order msg.len) .ntoh)
              (fun result => (oamNtohs order msg.len).toNat ≤ result.length) :=
            (xlatFits_of_ends ((ends_eq _ _).2 translated)).ends (msg.received_length _).ge
          rw [translated, ends_ok] at within
          by_cases matched : oamNtohs order msg.len = oamNtohs order (state.calls other).msg.len
          · obtain ⟨room, rfl⟩ := copied matched
            by_cases same : number = other
            · subst same
              refine .inr ⟨data, ?_, matched, within, ?_, ?_, ?_⟩
              · simp [answered, found, owner, ← matched, translated]
              · simp [answer]
              · simp [answer]
              · simp [answer]
            · have still : ((state.answer order slot other msg data).calls number) =
                  state.calls number := setCall_of_ne same
              refine .inl ⟨?_, by rw [still], by rw [still], fun before => still ▸ before⟩
              simp [answered, found, owner, Ne.symm same]
          · obtain rfl := dropped matched
            refine .inl ⟨?_, .refl number state⟩
            rw [answered, found]
            simp only [owner]
            rw [if_neg]
            rintro ⟨same, equal⟩
            cases same
            exact matched equal

end SdkState

/-- The length of a request to set the configuration, in one of both orders. -/
def CfgSetLen (order : ByteOrder) (len : BitVec 16) : Prop :=
  oamNtohs order len = 16 ∨ len = 16

/-- The length is one of the two in either order. -/
theorem CfgSetLen.reverse {order : ByteOrder} {len : BitVec 16} (either : CfgSetLen order len) :
    CfgSetLen order (oamNtohs order len) := by
  rcases either with network | host
  · exact .inr network
  · subst host
    exact .inl (oamNtohs_oamNtohs order 16)

/-- In either order it covers the configuration. -/
theorem CfgSetLen.long {order : ByteOrder} {len : BitVec 16} (either : CfgSetLen order len) :
    cfgSetCfgAt + vamConfigLength ≤ (oamNtohs order len).toNat := by
  rcases either with network | host
  · rw [network]
    decide
  · subst host
    cases order <;> decide

/-- Data that are copied over a request bring their configuration. -/
theorem dataConfig_copyInto {old data : Frame} {count : Nat} (holds : count ≤ data.length)
    (long : cfgSetCfgAt + vamConfigLength ≤ count) :
    dataConfig (copyInto old 0 (data.take count)) = dataConfig data := by
  have length : (data.take count).length = count := List.length_take_of_le holds
  have four : cfgSetCfgAt ≤ (data.take count).length := by omega
  have room : vamConfigLength ≤ ((data.take count).drop cfgSetCfgAt).length := by
    rw [List.length_drop]
    omega
  have part : (data.drop cfgSetCfgAt).take vamConfigLength =
      ((data.take count).drop cfgSetCfgAt).take vamConfigLength := by
    rw [List.drop_take, List.take_take, Nat.min_eq_left (by omega)]
  rw [dataConfig, dataConfig, part, copyInto, List.take_zero, List.nil_append,
    List.drop_append_of_le_length four, List.take_append_of_le_length room]

/-- The call has begun, and its buffer holds `config`, or what was copied to it last. -/
def Carrying (order : ByteOrder) (number : Nat) (config : Frame) (state : Checked SdkState)
    (latest : Option Frame) : Prop :=
  ∀ current, state = .ok current →
    (current.calls number).stage ≠ .idle ∧
      CfgSetLen order (current.calls number).msg.len ∧
      dataConfig (current.calls number).msg.data = latest.elim config dataConfig

section Run

variable {order : ByteOrder} {number : Nat} {config : Frame} {state next : Checked SdkState}
  {action : SdkAction} {latest : Option Frame}

/-- What leaves the buffer alone. -/
theorem Carrying.kept {current after : SdkState}
    (carrying : Carrying order number config (.ok current) latest)
    (kept : SdkState.Kept number current after) : Carrying order number config (.ok after) latest := by
  rintro _ ⟨⟩
  obtain ⟨begun, len, data⟩ := carrying current rfl
  exact ⟨kept.begun begun, kept.len ▸ len, kept.data ▸ data⟩

/-- Every step leaves the buffer of the call alone, or copies a response to it. -/
theorem Carrying.step (carrying : Carrying order number config state latest)
    (step : SdkStep order state action next) :
    Carrying order number config next ((answeredBy order number state action).or latest) := by
  cases step with
  | @called state other msg idle holds =>
      intro after same
      have different : number ≠ other := by
        rintro rfl
        exact (carrying state rfl).1 idle
      exact carrying.kept (SdkState.requestPrepare_kept different same) after rfl
  | entered prepared recent => exact carrying.kept (SdkState.requestEnter_kept ..)
  | woken waiting posted => exact carrying.kept (.move rfl rfl rfl nofun)
  | timedOut waiting => exact carrying.kept (.move rfl rfl rfl nofun)
  | left woken => exact carrying.kept (.move rfl rfl rfl nofun)
  | @responded state msg =>
      intro after same
      rcases SdkState.rsp_answered same with ⟨none, kept⟩ | ⟨data, some, copied⟩
      · rw [answeredBy, none, Option.none_or]
        exact carrying.kept kept after rfl
      · obtain ⟨begun, len, -⟩ := carrying state rfl
        have long := len.long
        rw [← copied.matched] at long
        rw [answeredBy, some, Option.some_or]
        refine ⟨copied.stage ▸ begun, ?_, ?_⟩
        · rw [copied.len, copied.matched]
          exact len.reverse
        · rw [copied.data]
          exact dataConfig_copyInto copied.holds long

end Run

/-- The translation of a message whose data are followed by other bytes. -/
theorem cvSdkXlat_eq_translate {order : ByteOrder} {sdkId len : BitVec 16} {request : CsSdkReqType}
    {data rest : Frame} {type : CvSdkDataXlatType} (defined : sdkRequest sdkId.toNat = some request)
    (covers : len.toNat = data.length) :
    cvSdkXlat order sdkId (data ++ rest) len type = translate order request type data rest := by
  have inTable : sdkId.toNat + 1 ≤ sdkTable.length := by
    by_contra outside
    have beyond : cvSdkReqTypeEnd ≤ sdkId.toNat := by
      have five : sdkTable.length = 5 := rfl
      simp only [cvSdkReqTypeEnd]
      omega
    rw [sdkRequest_eq_none beyond] at defined
    cases defined
  have limit : min len.toNat (data ++ rest).length = data.length := by
    rw [covers, List.length_append]
    exact Nat.min_eq_left (Nat.le_add_right ..)
  rw [cvSdkXlat, readable_bind inTable, defined, translate]
  simp only [limit]

/-- The configuration with its period in network order. -/
def networkConfig (order : ByteOrder) (cfg : VamConfig) : VamConfig :=
  { cfg with bsmBoardcastPeriod := oamHtons order cfg.bsmBoardcastPeriod }

/-- The buffer is left as it was exactly if the period reads the same in both orders. -/
theorem networkConfig_bytes_iff {order : ByteOrder} {cfg : VamConfig} {padding : Byte} :
    vamConfigBytes (networkConfig order cfg) padding = vamConfigBytes cfg padding ↔
      oamHtons order cfg.bsmBoardcastPeriod = cfg.bsmBoardcastPeriod := by
  constructor
  · intro same
    have loaded := congrArg (fun bytes => (loadVamConfig bytes).bsmBoardcastPeriod) same
    simp only [loadVamConfig_vamConfigBytes] at loaded
    exact loaded
  · intro same
    rw [networkConfig, same]

/-- The data of a request to set the configuration in the other order. -/
theorem cvSdkXlat_cfgSet (order : ByteOrder) (mask : BitVec 32) (cfg : VamConfig) (padding : Byte)
    (rest : Frame) (type : CvSdkDataXlatType) :
    cvSdkXlat order 1 (store32 mask ++ vamConfigBytes cfg padding ++ rest) 16 type =
      .ok (store32 (oamHtonl order mask) ++ vamConfigBytes (networkConfig order cfg) padding ++
        rest) := by
  let front : Frame := [cfg.bsmHops, cfg.bsmBoardcastMode, cfg.bsmBoardcastSaftyfactor,
    cfg.bsmPauseMode, cfg.bsmPauseHoldTime, padding]
  have six : front.length = bsmBoardcastPeriodAt := rfl
  rw [cvSdkXlat_eq_translate (by rfl) (by rfl)]
  exact translate_cfgSet six

section Begin

variable {order : ByteOrder} {start begun : SdkState} {number : Nat} {sdkId : BitVec 16}
  {mask : BitVec 32} {cfg : VamConfig} {padding : Byte}

/-- The message of a request to set the configuration in front of the lock. -/
def cfgSetPrepared (order : ByteOrder) (mask : BitVec 32) (cfg : VamConfig) (padding : Byte) :
    CvSdkMsg where
  ret := oamEOk
  reqId := 0
  reservd := 0
  sdkId := oamHtons order 1
  len := oamHtons order 16
  data := store32 (oamHtonl order mask) ++ vamConfigBytes (networkConfig order cfg) padding ++
    List.replicate (cvSdkMsgMaxLen - sdkDataAt - (cfgSetCfgAt + vamConfigLength)) 0

/-- A request to set the configuration begins. -/
theorem requestPrepare_cfgSet (order : ByteOrder) (start : SdkState) (number : Nat)
    (mask : BitVec 32) (cfg : VamConfig) (padding : Byte) :
    start.requestPrepare order number
        (ConfigApi.msg 1 (vamConfigBytes cfg padding) (.cfgSet mask)) =
      .ok (start.setCall number ⟨.prepared, 16, cfgSetPrepared order mask cfg padding⟩) := by
  have translated : cvSdkXlat order 1
      (ConfigApi.msg 1 (vamConfigBytes cfg padding) (.cfgSet mask)).data 16 .hton = _ :=
    cvSdkXlat_cfgSet order mask cfg padding
      (List.replicate (cvSdkMsgMaxLen - sdkDataAt - (cfgSetCfgAt + vamConfigLength)) 0) .hton
  have inTable : ¬ cvSdkReqTypeEnd < (1 : BitVec 16).toNat := by decide
  rw [SdkState.requestPrepare,
    show (ConfigApi.msg 1 (vamConfigBytes cfg padding) (.cfgSet mask)).sdkId = 1 from rfl,
    show (ConfigApi.msg 1 (vamConfigBytes cfg padding) (.cfgSet mask)).len = 16 from rfl,
    if_neg inTable, translated]
  rfl

/-- What the buffer of a call holds when it is in front of the lock, or refused. -/
def firstConfig (order : ByteOrder) (sdkId : BitVec 16) (cfg : VamConfig) : VamConfig :=
  if cvSdkReqTypeEnd < sdkId.toNat then cfg else networkConfig order cfg

/-- A request to set the configuration begins. -/
theorem carrying_cfgSet (known : sdkId = ConfigApi.sdkId (.cfgSet mask) ∨ cvSdkReqTypeEnd < sdkId.toNat)
    (begins : start.requestPrepare order number
      (ConfigApi.msg sdkId (vamConfigBytes cfg padding) (.cfgSet mask)) = .ok begun) :
    Carrying order number (vamConfigBytes (firstConfig order sdkId cfg) padding) (.ok begun) none := by
  rintro _ ⟨⟩
  by_cases undefined : cvSdkReqTypeEnd < sdkId.toNat
  · rw [SdkState.requestPrepare, if_pos (by exact undefined)] at begins
    cases begins
    rw [firstConfig, if_pos undefined, SdkState.setCall_self]
    refine ⟨fun returned => ?_, .inr rfl, rfl⟩
    cases returned
  · obtain rfl : sdkId = 1 := known.resolve_right undefined
    rw [requestPrepare_cfgSet] at begins
    cases begins
    rw [firstConfig, if_neg undefined, SdkState.setCall_self]
    refine ⟨fun returned => ?_, .inl (oamNtohs_oamNtohs order 16), rfl⟩
    cases returned

end Begin

/-- A function of the client API whose request fails leaves the caller's configuration as it was
exactly if it is `cv_oam_vam_cfg_get`, or if the last response that was copied to its message
carries that configuration; without a response, if the request was refused for its identifier or the
period reads the same in both orders. -/
theorem failed_config_intact_iff {order : ByteOrder} {start begun finish : SdkState} {number : Nat}
    {api : ConfigApi} {sdkId : BitVec 16} {cfg : VamConfig} {padding : Byte} {result : BitVec 32}
    (known : sdkId = api.sdkId ∨ cvSdkReqTypeEnd < sdkId.toNat)
    (begins : start.requestPrepare order number (api.msg sdkId (vamConfigBytes cfg padding)) =
      .ok begun)
    (path : (sdkSystem order).Path (.ok begun) (.ok finish))
    (returned : (finish.calls number).stage = .returned result) (failed : result ≠ oamEOk) :
    api.outcome (vamConfigBytes cfg padding) (finish.calls number) =
        some (result, vamConfigBytes cfg padding) ↔
      api = .cfgGet ∨
        match path.latest (answeredBy order number) with
        | none => cvSdkReqTypeEnd < sdkId.toNat ∨
            oamHtons order cfg.bsmBoardcastPeriod = cfg.bsmBoardcastPeriod
        | some data => dataConfig data = vamConfigBytes cfg padding := by
  cases api with
  | cfgGet =>
      refine iff_of_true ?_ (.inl rfl)
      simp [ConfigApi.outcome, returned, failed]
  | cfgSet mask =>
      have carrying : Carrying order number _ (.ok finish) _ :=
        path.latest_rule (carrying_cfgSet known begins) Carrying.step
      obtain ⟨-, -, holds⟩ := carrying finish rfl
      have outcome : ConfigApi.outcome (vamConfigBytes cfg padding) (finish.calls number)
          (.cfgSet mask) = some (result, dataConfig (finish.calls number).msg.data) := by
        simp [ConfigApi.outcome, returned, failed]
      rw [outcome, holds]
      cases path.latest (answeredBy order number) with
      | some data => simp
      | none =>
          by_cases undefined : cvSdkReqTypeEnd < sdkId.toNat
          · simp [firstConfig, undefined]
          · simp [firstConfig, undefined, networkConfig_bytes_iff]

section LateResponse

/-- The default configuration with another period. -/
def periodConfig (period : BitVec 16) : VamConfig :=
  { loadDefaultParam with bsmBoardcastPeriod := period }

/-- The record of the first call. -/
def firstRecord : Fin cvSdkMaxReq := ⟨0, by decide⟩

/-- The first call, which sets a period of 100, is in front of the lock. -/
def periodPrepared : SdkState :=
  SdkState.initial.setCall 0 ⟨.prepared, 16, cfgSetPrepared .big 4 (periodConfig 100) 0⟩

/-- Its request is sent. -/
def periodSent : SdkState := periodPrepared.requestEnter .big 0 true true

/-- It has waited in vain and is in front of the lock again. -/
def periodTimedOut : SdkState := periodSent.requestTimeOut 0 firstRecord

/-- A response that refuses the request and carries a period. -/
def refusal (period : BitVec 16) : CvSdkMsg where
  ret := oamEParam
  reqId := 0
  reservd := 0
  sdkId := 1
  len := 16
  data := store32 4 ++ vamConfigBytes (periodConfig period) 0

/-- The response comes before the call gets the lock. -/
def periodAnswered (period : BitVec 16) : SdkState :=
  periodTimedOut.answer .big firstRecord 0 (refusal period) (refusal period).data

/-- The call returns. -/
def periodReturned (period : BitVec 16) : SdkState :=
  (periodAnswered period).requestLeave 0 firstRecord

/-- The request has been sent. -/
theorem periodSent_stage : (periodSent.calls 0).stage = .waiting firstRecord := by decide +kernel

/-- Its identifier is the newest. -/
theorem periodSent_recent : periodSent.Recent := by
  intro slot _
  have issued : periodSent.issued = 1 := rfl
  omega

/-- The data of the response stay as they are. -/
theorem refusal_xlat (period : BitVec 16) :
    cvSdkXlat .big 1 ((refusal period).received 16) 16 .ntoh = .ok (refusal period).data := by
  have received : (refusal period).received 16 = (refusal period).data := rfl
  have translated := cvSdkXlat_cfgSet .big 4 (periodConfig period) 0 [] .ntoh
  rw [networkConfig_bytes_iff.2 rfl, List.append_nil] at translated
  rw [received]
  exact translated

/-- The slot is still in use. -/
theorem periodTimedOut_found : periodTimedOut.cvSdkReqRecordFind 0 = some firstRecord := by
  decide +kernel

/-- The response is copied to the call. -/
theorem refusal_answered (period : BitVec 16) :
    periodTimedOut.cvOamSdkApiRsp .big (refusal period) = .ok (periodAnswered period) := by
  have owner : (periodTimedOut.reqs firstRecord).msg = some 0 := rfl
  have room : 16 ≤ (periodTimedOut.calls 0).msg.data.length := by decide +kernel
  have translated : Ends (cvSdkXlat .big 1 ((refusal period).received 16) 16 .ntoh)
      (fun data => data = (refusal period).data) := (ends_eq _ _).2 (refusal_xlat period)
  have found : periodTimedOut.cvSdkReqRecordFind (oamNtohl .big (refusal period).reqId) =
      some firstRecord := periodTimedOut_found
  rw [← ends_eq, SdkState.ends_rsp_iff found owner]
  apply translated.mono
  rintro data rfl
  exact ⟨fun other => absurd rfl other, fun _ => ⟨room, rfl⟩⟩

/-- A call times out, and a response overtakes its return. -/
def latePath (period : BitVec 16) :
    (sdkSystem .big).Path (.ok periodPrepared) (.ok (periodReturned period)) :=
  @ActionSystem.Path.snoc _ (sdkSystem .big) _ _
    (@ActionSystem.Path.snoc _ (sdkSystem .big) _ _
      (@ActionSystem.Path.snoc _ (sdkSystem .big) _ _
        (@ActionSystem.Path.snoc _ (sdkSystem .big) _ _ .nil (.enter 0 true true)
          (.ok periodSent) (.entered rfl periodSent_recent))
        (.timeOut 0) (.ok periodTimedOut) (.timedOut periodSent_stage))
      (.respond (refusal period)) (.ok (periodAnswered period))
        (refusal_answered period ▸ .responded))
    (.leave 0) (.ok (periodReturned period)) (.left rfl)

/-- The response is the last one that was copied to the call. -/
theorem latePath_latest (period : BitVec 16) :
    (latePath period).latest (answeredBy .big 0) = some (refusal period).data := by
  have owner : (periodTimedOut.reqs firstRecord).msg = some 0 := rfl
  have copied : periodTimedOut.answered .big 0 (refusal period) = some (refusal period).data := by
    rw [SdkState.answered, show oamNtohl .big (refusal period).reqId = 0 from rfl,
      periodTimedOut_found]
    simp only
    rw [if_pos ⟨owner, rfl⟩]
    change (match cvSdkXlat .big 1 ((refusal period).received 16) 16 .ntoh with
      | .ok data => some data
      | .error _ => none) = _
    rw [refusal_xlat]
  change Option.or none (Option.or (periodTimedOut.answered .big 0 (refusal period)) _) = _
  rw [copied]
  rfl

/-- A late response that carries the period of the caller leaves it as it was. -/
theorem same_period_intact :
    ConfigApi.outcome (vamConfigBytes (periodConfig 100) 0) ((periodReturned 100).calls 0)
        (.cfgSet 4) =
      some (oamEParam, vamConfigBytes (periodConfig 100) 0) :=
  (failed_config_intact_iff (.inl rfl) (requestPrepare_cfgSet .big .initial ..) (latePath 100) rfl
    (by decide)).2 (.inr (by rw [latePath_latest]; rfl))

/-- A late response that carries another period replaces that of the caller. -/
theorem late_response_replaces_period :
    ∃ begun finish : SdkState,
      SdkState.initial.requestPrepare .big 0
          (ConfigApi.msg 1 (vamConfigBytes (periodConfig 100) 0) (.cfgSet 4)) = .ok begun ∧
      (∃ path : (sdkSystem .big).Path (.ok begun) (.ok finish),
        path.actions = [.enter 0 true true, .timeOut 0, .respond (refusal 200), .leave 0]) ∧
      (finish.calls 0).stage = .returned oamEParam ∧
      ConfigApi.outcome (vamConfigBytes (periodConfig 100) 0) (finish.calls 0) (.cfgSet 4) =
        some (oamEParam, vamConfigBytes (periodConfig 200) 0) ∧
      vamConfigBytes (periodConfig 200) 0 ≠ vamConfigBytes (periodConfig 100) 0 :=
  ⟨periodPrepared, periodReturned 200, requestPrepare_cfgSet .big .initial .., ⟨latePath 200, rfl⟩,
    rfl, rfl, by decide⟩

end LateResponse

end Rsu.Oam
