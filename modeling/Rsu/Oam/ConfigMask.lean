import Rsu.Oam.Translation

/-!
# Setting part of the configuration

A request to set the configuration carries a mask. `test_api.h` documents three bits of it, and
the server looks at two of them.
-/

namespace Rsu.Oam

open Rsu.Rcp Rsu.Vam Rsu.Data.BitMask Checked

/-- The fields of `vam_config_t`. -/
inductive ConfigField where
  | bsmHops
  | bsmBoardcastMode
  | bsmBoardcastSaftyfactor
  | bsmPauseMode
  | bsmPauseHoldTime
  | bsmBoardcastPeriod
  | evamHops
  | evamBroadcastType
  | evamBroadcastPeroid

/-- The bits of a field. -/
def ConfigField.width : ConfigField → Nat
  | .bsmBoardcastPeriod | .evamBroadcastPeroid => 16
  | _ => 8

/-- The values of the fields. -/
def configValues (config : VamConfig) : (field : ConfigField) → BitVec field.width
  | .bsmHops => config.bsmHops
  | .bsmBoardcastMode => config.bsmBoardcastMode
  | .bsmBoardcastSaftyfactor => config.bsmBoardcastSaftyfactor
  | .bsmPauseMode => config.bsmPauseMode
  | .bsmPauseHoldTime => config.bsmPauseHoldTime
  | .bsmBoardcastPeriod => config.bsmBoardcastPeriod
  | .evamHops => config.evamHops
  | .evamBroadcastType => config.evamBroadcastType
  | .evamBroadcastPeroid => config.evamBroadcastPeroid

/-- A configuration is the values of its fields. -/
theorem configValues_injective : Function.Injective configValues := by
  intro config other same
  rw [VamConfig.mk.injEq]
  exact ⟨congrFun same .bsmHops, congrFun same .bsmBoardcastMode,
    congrFun same .bsmBoardcastSaftyfactor, congrFun same .bsmPauseMode,
    congrFun same .bsmPauseHoldTime, congrFun same .bsmBoardcastPeriod, congrFun same .evamHops,
    congrFun same .evamBroadcastType, congrFun same .evamBroadcastPeroid⟩

/-- `CV_OAM_VAM_CFG_MASK_BSM_HOPS` -/
def cvOamVamCfgMaskBsmHops : BitVec 32 := 1

/-- The documented bit of a field. -/
def ConfigField.documentedBit : ConfigField → BitVec 32
  | .bsmHops => cvOamVamCfgMaskBsmHops
  | .bsmBoardcastMode => cvOamVamCfgMaskBsmBcastMode
  | .bsmBoardcastPeriod => cvOamVamCfgMaskBsmBcastPeriod
  | _ => 0

/-- The bit of a field that the server looks at. -/
def ConfigField.servedBit : ConfigField → BitVec 32
  | .bsmBoardcastMode => cvOamVamCfgMaskBsmBcastMode
  | .bsmBoardcastPeriod => cvOamVamCfgMaskBsmBcastPeriod
  | _ => 0

/-- `vam_get_config` -/
def vamGetConfig (world : OamWorld) : VamConfig := world.vam.workingParam

/-- `cv_oam_vam_cfg_get` of the server -/
def cvOamVamCfgGet (world : OamWorld) : VamConfig := vamGetConfig world

/-- `cv_oam_vam_cfg_set` of the server -/
def cvOamVamCfgSet (world : OamWorld) (mask : BitVec 32) (cfg : VamConfig) : OamWorld :=
  let oldcfg := vamGetConfig world
  let oldcfg :=
    if has mask cvOamVamCfgMaskBsmBcastMode then
      { oldcfg with bsmBoardcastMode := cfg.bsmBoardcastMode }
    else oldcfg
  let oldcfg :=
    if has mask cvOamVamCfgMaskBsmBcastPeriod then
      { oldcfg with bsmBoardcastPeriod := cfg.bsmBoardcastPeriod }
    else oldcfg
  vamSetConfig world oldcfg

/-- The configuration that lies in memory. -/
def loadVamConfig (bytes : Frame) : VamConfig where
  bsmHops := byteAt bytes 0
  bsmBoardcastMode := byteAt bytes bsmBoardcastModeAt
  bsmBoardcastSaftyfactor := byteAt bytes 2
  bsmPauseMode := byteAt bytes 3
  bsmPauseHoldTime := byteAt bytes 4
  bsmBoardcastPeriod := load16 bytes bsmBoardcastPeriodAt
  evamHops := byteAt bytes 8
  evamBroadcastType := byteAt bytes 9
  evamBroadcastPeroid := load16 bytes 10

/-- The server processes a request to set the configuration. -/
def serveCfgSet (order : ByteOrder) (world : OamWorld) (mask : BitVec 32) (cfg : VamConfig)
    (padding : Byte) : Checked OamWorld := do
  let carried ← carry order world .vamParamCfgSet (store32 mask ++ vamConfigBytes cfg padding)
  return carried.world

/-- The server processes a request for the configuration, and the answer comes back. -/
def serveCfgGet (order : ByteOrder) (world : OamWorld) : Checked VamConfig := do
  let carried ← carry order world .vamParamCfgGet (List.replicate vamConfigLength 0)
  return loadVamConfig carried.answer

/-- A request to set the configuration does what its mask says. -/
structure MaskedUpdate (order : ByteOrder) (world : OamWorld) (mask : BitVec 32) (cfg : VamConfig)
    (padding : Byte) : Prop where
  /-- The fields of the documented bits are replaced, and nothing else is. -/
  updated : Ends (serveCfgSet order world mask cfg padding) fun next =>
    next = vamSetConfig world (vamGetConfig next) ∧
      configValues (vamGetConfig next) =
        update ConfigField.documentedBit mask (configValues cfg) (configValues (vamGetConfig world))
  readBack : Ends (serveCfgSet order world mask cfg padding >>= serveCfgGet order) fun config =>
    configValues config =
      update ConfigField.documentedBit mask (configValues cfg) (configValues (vamGetConfig world))
  again : (serveCfgSet order world mask cfg padding >>= fun next =>
      serveCfgSet order next mask cfg padding) = serveCfgSet order world mask cfg padding
  commutes : ∀ other otherCfg otherPadding, mask &&& other = 0 →
    (serveCfgSet order world mask cfg padding >>= fun next =>
        serveCfgSet order next other otherCfg otherPadding) =
      serveCfgSet order world other otherCfg otherPadding >>= fun next =>
        serveCfgSet order next mask cfg padding

section Served

variable {order : ByteOrder} {world : OamWorld} {mask : BitVec 32} {cfg : VamConfig}
  {padding : Byte}

@[simp] theorem vamConfigBytes_length (config : VamConfig) (padding : Byte) :
    (vamConfigBytes config padding).length = vamConfigLength := rfl

/-- A configuration that was stored is loaded again. -/
@[simp] theorem loadVamConfig_vamConfigBytes (config : VamConfig) (padding : Byte) :
    loadVamConfig (vamConfigBytes config padding) = config := by
  have period : load16 (vamConfigBytes config padding) bsmBoardcastPeriodAt =
      config.bsmBoardcastPeriod := load16_store16 config.bsmBoardcastPeriod
  have evamPeriod : load16 (vamConfigBytes config padding) 10 = config.evamBroadcastPeroid :=
    load16_store16 config.evamBroadcastPeroid
  rw [loadVamConfig, period, evamPeriod]
  rfl

/-- What is set is what is read. -/
@[simp] theorem vamGetConfig_vamSetConfig (world : OamWorld) (config : VamConfig) :
    vamGetConfig (vamSetConfig world config) = config := rfl

/-- Two of the fields can be set. -/
theorem cvOamVamCfgSet_values (world : OamWorld) (mask : BitVec 32) (cfg : VamConfig) :
    configValues (vamGetConfig (cvOamVamCfgSet world mask cfg)) =
      update ConfigField.servedBit mask (configValues cfg) (configValues (vamGetConfig world)) := by
  funext field
  have none : has mask 0 = false := has_zero mask
  cases mode : has mask cvOamVamCfgMaskBsmBcastMode <;>
    cases period : has mask cvOamVamCfgMaskBsmBcastPeriod <;>
    cases field <;>
    simp only [cvOamVamCfgSet, update, ConfigField.servedBit, none, mode, period, if_true] <;>
    rfl

/-- Only the configuration changes. -/
theorem cvOamVamCfgSet_frame (world : OamWorld) (mask : BitVec 32) (cfg : VamConfig) :
    cvOamVamCfgSet world mask cfg =
      vamSetConfig world (vamGetConfig (cvOamVamCfgSet world mask cfg)) := rfl

/-- The request reaches `cv_oam_vam_cfg_set` as it was made. -/
theorem serveCfgSet_eq (order : ByteOrder) (world : OamWorld) (mask : BitVec 32) (cfg : VamConfig)
    (padding : Byte) :
    serveCfgSet order world mask cfg padding = .ok (cvOamVamCfgSet world mask cfg) := by
  have long : (store32 mask ++ vamConfigBytes cfg padding).length =
      CsSdkReqType.len .vamParamCfgSet := rfl
  have faithful : RoundTrips order world .vamParamCfgSet _ := roundTrips_cfgSet long
  have mode : byteAt (vamConfigBytes cfg padding) bsmBoardcastModeAt = cfg.bsmBoardcastMode := rfl
  have period : load16 (vamConfigBytes cfg padding) bsmBoardcastPeriodAt =
      cfg.bsmBoardcastPeriod := load16_store16 cfg.bsmBoardcastPeriod
  have asked : CsSdkReqType.asked (store32 mask ++ vamConfigBytes cfg padding) .vamParamCfgSet =
      .cfgSet mask (vamConfigBytes cfg padding) := by
    rw [CsSdkReqType.asked, load32_append_left _ (by simp), load32_store32]
    rfl
  rw [← ends_eq, serveCfgSet, ends_bind]
  apply faithful.mono
  intro carried faithful
  rw [ends_pure, faithful.world, asked, ServerCall.perform, mode, period, cvOamVamCfgSet]
  cases has mask cvOamVamCfgMaskBsmBcastMode <;>
    cases has mask cvOamVamCfgMaskBsmBcastPeriod <;> rfl

/-- The configuration comes back as it is. -/
theorem serveCfgGet_eq (order : ByteOrder) (world : OamWorld) :
    serveCfgGet order world = .ok (cvOamVamCfgGet world) := by
  let found := vamConfigBytes world.vam.workingParam world.padding
  let cleared : Frame := List.replicate vamConfigLength 0
  let region : Region := ⟨cleared ++ List.replicate (requestRoom - cleared.length) 0, _, Nat.le_refl _⟩
  have room : 0 + found.length ≤ region.limit := by
    simp [region, found, cleared]
  have handled : CsSdkReqType.handler world region 0 .vamParamCfgGet =
      .ok (world, region.put 0 found) := by
    rw [CsSdkReqType.handler, cvOamVamCfgGetCb, Region.write, writable_bind room]
    rfl
  have bytes : (region.put 0 found).bytes = found ++ region.bytes.drop found.length := by
    rw [Region.put_bytes room, copyInto]
    simp
  have reply : (region.put 0 found).bytes.take cleared.length = found := by
    rw [bytes]
    exact List.take_left' rfl
  have long : cleared.length ≤ (region.put 0 found).bytes.length := by
    rw [bytes, List.length_append]
    exact Nat.le_add_right ..
  have there : Crosses order .vamParamCfgGet cleared cleared := crosses_cfgGet rfl
  have back : Crosses order .vamParamCfgGet found found := crosses_cfgGet rfl
  rw [← reply] at back
  have carried := carry_eq there (fun _ => handled) long back
  rw [serveCfgGet, carried, ok_bind, reply]
  exact congrArg Except.ok (loadVamConfig_vamConfigBytes ..)

/-- No field has two bits. -/
theorem servedBit_single : Single ConfigField.servedBit := by
  intro field
  cases field with
  | bsmBoardcastMode => exact .inr ⟨1, rfl⟩
  | bsmBoardcastPeriod => exact .inr ⟨2, rfl⟩
  | _ => exact .inl rfl

/-- Setting twice is setting once. -/
theorem cvOamVamCfgSet_again (world : OamWorld) (mask : BitVec 32) (cfg : VamConfig) :
    cvOamVamCfgSet (cvOamVamCfgSet world mask cfg) mask cfg = cvOamVamCfgSet world mask cfg := by
  have values : configValues (vamGetConfig (cvOamVamCfgSet (cvOamVamCfgSet world mask cfg) mask cfg)) =
      configValues (vamGetConfig (cvOamVamCfgSet world mask cfg)) := by
    rw [cvOamVamCfgSet_values, cvOamVamCfgSet_values, update_update]
  exact congrArg (vamSetConfig world) (configValues_injective values)

/-- Sets with disjoint masks commute. -/
theorem cvOamVamCfgSet_comm {other : BitVec 32} (disjoint : mask &&& other = 0)
    (world : OamWorld) (cfg otherCfg : VamConfig) :
    cvOamVamCfgSet (cvOamVamCfgSet world mask cfg) other otherCfg =
      cvOamVamCfgSet (cvOamVamCfgSet world other otherCfg) mask cfg := by
  have values :
      configValues (vamGetConfig (cvOamVamCfgSet (cvOamVamCfgSet world mask cfg) other otherCfg)) =
        configValues (vamGetConfig
          (cvOamVamCfgSet (cvOamVamCfgSet world other otherCfg) mask cfg)) := by
    rw [cvOamVamCfgSet_values, cvOamVamCfgSet_values, cvOamVamCfgSet_values,
      cvOamVamCfgSet_values, update_comm servedBit_single disjoint]
  exact congrArg (vamSetConfig world) (configValues_injective values)

/-- The server looks at the documented bits, but for that of the hops. -/
theorem served_iff (mask : BitVec 32) (field : ConfigField) :
    has mask field.servedBit ≠ has mask field.documentedBit ↔
      field = .bsmHops ∧ has mask cvOamVamCfgMaskBsmHops = true := by
  cases field <;> simp [ConfigField.servedBit, ConfigField.documentedBit]

/-- A request to set the configuration does what its mask says exactly if it does not ask for other
hops. -/
theorem maskedUpdate_iff (order : ByteOrder) (world : OamWorld) (mask : BitVec 32)
    (cfg : VamConfig) (padding : Byte) :
    MaskedUpdate order world mask cfg padding ↔
      (has mask cvOamVamCfgMaskBsmHops = true →
        cfg.bsmHops = (vamGetConfig world).bsmHops) := by
  have values_iff : configValues (vamGetConfig (cvOamVamCfgSet world mask cfg)) =
      update ConfigField.documentedBit mask (configValues cfg)
        (configValues (vamGetConfig world)) ↔
      (has mask cvOamVamCfgMaskBsmHops = true → cfg.bsmHops = (vamGetConfig world).bsmHops) := by
    rw [cvOamVamCfgSet_values, update_eq_iff]
    simp only [served_iff]
    constructor
    · exact fun same asked => same .bsmHops ⟨rfl, asked⟩
    · rintro same field ⟨rfl, asked⟩
      exact same asked
  rw [← values_iff]
  constructor
  · intro masked
    have updated := masked.updated
    rw [serveCfgSet_eq, ends_ok] at updated
    exact updated.2
  · intro values
    exact {
      updated := by
        rw [serveCfgSet_eq, ends_ok]
        exact ⟨cvOamVamCfgSet_frame .., values⟩
      readBack := by
        rw [serveCfgSet_eq, ok_bind, serveCfgGet_eq, ends_ok]
        exact values
      again := by
        rw [serveCfgSet_eq, ok_bind, serveCfgSet_eq, cvOamVamCfgSet_again]
      commutes := by
        intro other otherCfg otherPadding disjoint
        rw [serveCfgSet_eq, ok_bind, serveCfgSet_eq, serveCfgSet_eq, ok_bind, serveCfgSet_eq,
          cvOamVamCfgSet_comm disjoint] }

/-- Other hops are asked for, and nothing happens. -/
theorem hops_not_set :
    ¬ MaskedUpdate .little RouteState.defaultWorld 1
      { loadDefaultParam with bsmHops := 3 } 0 := by
  intro masked
  have updated := masked.updated
  rw [serveCfgSet_eq, ends_ok] at updated
  have hops := congrFun updated.2 .bsmHops
  revert hops
  decide

end Served

end Rsu.Oam
