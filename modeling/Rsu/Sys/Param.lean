import Rsu.Data.Store
import Rsu.Rcp.Encode
import Rsu.Vsa.Envar

/-!
# The system parameters

`cfg_param_t` is kept four times in the flash, once for each work mode, and the set of the
active mode a fifth time in memory. `param_set` reads the four sets, changes a field of the one
that is active, and writes everything back into an erased sector.
-/

namespace Rsu.Sys

open Rsu.Rcp Rsu.Vam Rsu.Data

/-- `vsa_config_t`: what the judgements read, and the rest. -/
structure VsaParam extends Rsu.Vsa.VsaConfig where
  crdSaftyfactor : Byte
  crdOppsiteRearSpeed : Byte
  ebdMode : Byte
  ebdAccelerationThreshold : Byte
  ebdAlertHoldTime : Byte

/-- `wnet_config_t` -/
structure WnetConfig where
  channel : Byte
  txrate : Byte
  mode : Byte

/-- `cfg_param_t`, with the three bytes that lie between its fields. -/
structure CfgParam where
  pid : TempId
  vam : VamConfig
  vsa : VsaParam
  wnet : WnetConfig
  printXxx : Byte
  padding : Fin 3 → Byte

/-- The part of a set behind the ID, as it lies in memory. -/
def cfgParamBody (param : CfgParam) : List Byte :=
  [param.vam.bsmHops, param.vam.bsmBoardcastMode, param.vam.bsmBoardcastSaftyfactor,
    param.vam.bsmPauseMode, param.vam.bsmPauseHoldTime, param.padding 0] ++
  store16 param.vam.bsmBoardcastPeriod ++
  [param.vam.evamHops, param.vam.evamBroadcastType] ++ store16 param.vam.evamBroadcastPeroid ++
  [param.vsa.dangerDetectSpeedThreshold, param.padding 1] ++ store16 param.vsa.laneDis ++
  [param.vsa.crdSaftyfactor, param.vsa.crdOppsiteSpeed, param.vsa.crdOppsiteRearSpeed,
    param.vsa.crdRearDistance, param.vsa.ebdMode, param.vsa.ebdAccelerationThreshold,
    param.vsa.ebdAlertHoldTime, param.padding 2] ++
  [param.wnet.channel, param.wnet.txrate, param.wnet.mode, param.printXxx]

/-- A set as it lies in memory. -/
def cfgParamBytes (param : CfgParam) : List Byte := param.pid.toList ++ cfgParamBody param

/-- `sizeof(cfg_param_t)` -/
def cfgParamLength : Nat := rcpTempIdLen + 28

/-- The set that lies in memory. -/
def loadCfgParam (bytes : Frame) : CfgParam :=
  let body := bytes.drop rcpTempIdLen
  { pid := tempIdAt bytes 0
    vam :=
      { bsmHops := byteAt body 0
        bsmBoardcastMode := byteAt body 1
        bsmBoardcastSaftyfactor := byteAt body 2
        bsmPauseMode := byteAt body 3
        bsmPauseHoldTime := byteAt body 4
        bsmBoardcastPeriod := load16 body 6
        evamHops := byteAt body 8
        evamBroadcastType := byteAt body 9
        evamBroadcastPeroid := load16 body 10 }
    vsa :=
      { dangerDetectSpeedThreshold := byteAt body 12
        laneDis := load16 body 14
        crdSaftyfactor := byteAt body 16
        crdOppsiteSpeed := byteAt body 17
        crdOppsiteRearSpeed := byteAt body 18
        crdRearDistance := byteAt body 19
        ebdMode := byteAt body 20
        ebdAccelerationThreshold := byteAt body 21
        ebdAlertHoldTime := byteAt body 22 }
    wnet := { channel := byteAt body 24, txrate := byteAt body 25, mode := byteAt body 26 }
    printXxx := byteAt body 27
    padding := fun index => byteAt body (match index with | 0 => 5 | 1 => 13 | 2 => 23) }

/-- The flash. -/
abbrev Flash := Store Byte

/-- `drv_fls_erase`, given the addresses of each sector. -/
def drvFlsErase (sectors : Nat → Nat → Bool) (flash : Flash) (sector : Nat) : Flash := fun place =>
  if sectors sector place then 0xff else flash place

/-- `drv_fls_read` -/
def drvFlsRead (flash : Flash) (address length : Nat) : List Byte := flash.read address length

/-- `drv_fls_write` -/
def drvFlsWrite (flash : Flash) (address : Nat) (databuf : List Byte) : Flash :=
  flash.write address databuf

/-- `PARAM_SECTOR` -/
def paramSector : Nat := 11

/-- `PARAM_FLAG_ADDR` -/
def paramFlagAddr : Nat := 0x80E0000

/-- `PARAM_OFFSET` -/
def paramOffset : Nat := 0x200

/-- `PARAM_MODE_ADDR` -/
def paramModeAddr : Nat := paramFlagAddr + 0x10

/-- `PARAM_ADDR` -/
def paramAddr : Nat := paramModeAddr + 0x10

/-- `PARAM_ADDR_CUSTOM` -/
def paramAddrCustom : Nat := paramAddr

/-- `PARAM_ADDR_HIGHWAY` -/
def paramAddrHighway : Nat := paramAddr + paramOffset

/-- `PARAM_ADDR_MOUNTAIN` -/
def paramAddrMountain : Nat := paramAddr + 2 * paramOffset

/-- `PARAM_ADDR_CITY` -/
def paramAddrCity : Nat := paramAddr + 3 * paramOffset

/-- `param_init_words`, "Vanet-param1" with its zero. -/
def paramInitWords : List Byte :=
  [0x56, 0x61, 0x6e, 0x65, 0x74, 0x2d, 0x70, 0x61, 0x72, 0x61, 0x6d, 0x31, 0]

/-- The four modes. -/
inductive ParamMode where
  | custom
  | highway
  | mountain
  | city
  deriving DecidableEq

/-- `get_param_addr` -/
def getParamAddr : ParamMode → Nat
  | .custom => paramAddrCustom
  | .highway => paramAddrHighway
  | .mountain => paramAddrMountain
  | .city => paramAddrCity

/-- `get_param_num` -/
def getParamNum : ParamMode → Fin 4
  | .custom => 0
  | .highway => 1
  | .mountain => 2
  | .city => 3

/-- The addresses from which the array of the sets is filled. -/
def allParamAddr : Fin 4 → Nat
  | 0 => paramAddrCustom
  | 1 => paramAddrHighway
  | 2 => paramAddrMountain
  | 3 => paramAddrCity

/-- The fields of a byte. -/
inductive ByteField where
  | bsmHops
  | bsmBoardcastMode
  | bsmBoardcastSaftyfactor
  | bsmPauseMode
  | bsmPauseHoldTime
  | evamHops
  | evamBroadcastType
  | dangerDetectSpeedThreshold
  | crdSaftyfactor
  | crdOppsiteSpeed
  | crdOppsiteRearSpeed
  | crdRearDistance
  | ebdMode
  | ebdAccelerationThreshold
  | ebdAlertHoldTime
  | channel
  | txrate
  | wnetMode
  | printXxx
  deriving DecidableEq

/-- The fields of two bytes. -/
inductive WordField where
  | bsmBoardcastPeriod
  | evamBroadcastPeroid
  | laneDis
  deriving DecidableEq

/-- The fields of `cfg_param_t`. -/
inductive ParamField where
  | pid
  | byte (field : ByteField)
  | word (field : WordField)
  deriving DecidableEq

/-- What a field holds. -/
def ParamField.Content : ParamField → Type
  | .pid => TempId
  | .byte _ => Byte
  | .word _ => BitVec 16

def ByteField.get (param : CfgParam) : ByteField → Byte
  | .bsmHops => param.vam.bsmHops
  | .bsmBoardcastMode => param.vam.bsmBoardcastMode
  | .bsmBoardcastSaftyfactor => param.vam.bsmBoardcastSaftyfactor
  | .bsmPauseMode => param.vam.bsmPauseMode
  | .bsmPauseHoldTime => param.vam.bsmPauseHoldTime
  | .evamHops => param.vam.evamHops
  | .evamBroadcastType => param.vam.evamBroadcastType
  | .dangerDetectSpeedThreshold => param.vsa.dangerDetectSpeedThreshold
  | .crdSaftyfactor => param.vsa.crdSaftyfactor
  | .crdOppsiteSpeed => param.vsa.crdOppsiteSpeed
  | .crdOppsiteRearSpeed => param.vsa.crdOppsiteRearSpeed
  | .crdRearDistance => param.vsa.crdRearDistance
  | .ebdMode => param.vsa.ebdMode
  | .ebdAccelerationThreshold => param.vsa.ebdAccelerationThreshold
  | .ebdAlertHoldTime => param.vsa.ebdAlertHoldTime
  | .channel => param.wnet.channel
  | .txrate => param.wnet.txrate
  | .wnetMode => param.wnet.mode
  | .printXxx => param.printXxx

def WordField.get (param : CfgParam) : WordField → BitVec 16
  | .bsmBoardcastPeriod => param.vam.bsmBoardcastPeriod
  | .evamBroadcastPeroid => param.vam.evamBroadcastPeroid
  | .laneDis => param.vsa.laneDis

/-- The content of a field. -/
def ParamField.get (param : CfgParam) : (field : ParamField) → field.Content
  | .pid => param.pid
  | .byte field => field.get param
  | .word field => field.get param

/-- The numbers that are assigned to the bytes of the ID. -/
def pidDigit (value : Int) : Fin 4 → Int
  | 0 => value.tdiv 1000
  | 1 => (value.tmod 1000).tdiv 100
  | 2 => ((value.tmod 1000).tmod 100).tdiv 10
  | 3 => ((value.tmod 1000).tmod 100).tmod 10

def pidBytes (value : Int) : TempId :=
  Vector.ofFn fun index : Fin 4 => BitVec.ofInt 8 (pidDigit value index)

/-- The cases of the switch, with assignments that cut the value to the field. Another number is
reported, and nothing else. -/
def switchParam (param : Nat) (value : BitVec 32) (cfgParam : CfgParam) : CfgParam :=
  let byte : Byte := value.setWidth 8
  let word : BitVec 16 := value.setWidth 16
  match param with
  | 0 => { cfgParam with pid := pidBytes value.toInt }
  | 1 => { cfgParam with vam := { cfgParam.vam with bsmHops := byte } }
  | 2 => { cfgParam with vam := { cfgParam.vam with bsmBoardcastMode := byte } }
  | 3 => { cfgParam with vam := { cfgParam.vam with bsmBoardcastSaftyfactor := byte } }
  | 4 => { cfgParam with vam := { cfgParam.vam with bsmPauseMode := byte } }
  | 5 => { cfgParam with vam := { cfgParam.vam with bsmPauseHoldTime := byte } }
  | 6 => { cfgParam with vam := { cfgParam.vam with bsmBoardcastPeriod := word } }
  | 7 => { cfgParam with vam := { cfgParam.vam with evamHops := byte } }
  | 8 => { cfgParam with vam := { cfgParam.vam with evamBroadcastType := byte } }
  | 9 => { cfgParam with vam := { cfgParam.vam with evamBroadcastPeroid := word } }
  | 10 => { cfgParam with vsa := { cfgParam.vsa with dangerDetectSpeedThreshold := byte } }
  | 11 => { cfgParam with vsa := { cfgParam.vsa with laneDis := word } }
  | 12 => { cfgParam with vsa := { cfgParam.vsa with crdSaftyfactor := byte } }
  | 13 => { cfgParam with vsa := { cfgParam.vsa with crdOppsiteSpeed := byte } }
  | 14 => { cfgParam with vsa := { cfgParam.vsa with crdOppsiteRearSpeed := byte } }
  | 15 => { cfgParam with vsa := { cfgParam.vsa with crdRearDistance := byte } }
  | 16 => { cfgParam with vsa := { cfgParam.vsa with ebdMode := byte } }
  | 17 => { cfgParam with vsa := { cfgParam.vsa with ebdAccelerationThreshold := byte } }
  | 18 => { cfgParam with vsa := { cfgParam.vsa with ebdAlertHoldTime := byte } }
  | 29 => { cfgParam with wnet := { cfgParam.wnet with channel := byte } }
  | 30 => { cfgParam with wnet := { cfgParam.wnet with txrate := byte } }
  | 31 => { cfgParam with printXxx := byte }
  | _ => cfgParam

/-- What `param_set` works on: the flash, `param_mode` and `*p_cms_param`. -/
structure ParamWorld where
  flash : Flash
  paramMode : ParamMode
  cmsParam : CfgParam

/-- Read the four sets. -/
def readParams (flash : Flash) (num : Fin 4) : CfgParam :=
  loadCfgParam (drvFlsRead flash (allParamAddr num) cfgParamLength)

/-- Erase the sector and write it anew. -/
def writeParams (sectors : Nat → Nat → Bool) (flash : Flash) (mode : List Byte)
    (allParam : Fin 4 → CfgParam) : Flash :=
  let flash := drvFlsErase sectors flash paramSector
  let flash := drvFlsWrite flash paramFlagAddr paramInitWords
  let flash := drvFlsWrite flash paramModeAddr mode
  let flash := drvFlsWrite flash paramAddrCustom (cfgParamBytes (allParam 0))
  let flash := drvFlsWrite flash paramAddrHighway (cfgParamBytes (allParam 1))
  let flash := drvFlsWrite flash paramAddrMountain (cfgParamBytes (allParam 2))
  drvFlsWrite flash paramAddrCity (cfgParamBytes (allParam 3))

/-- `param_set` -/
def paramSet (sectors : Nat → Nat → Bool) (world : ParamWorld) (param : Byte)
    (value : BitVec 32) : Int × ParamWorld :=
  let allParam := readParams world.flash
  let mode := drvFlsRead world.flash paramModeAddr 2
  let paramNum := getParamNum world.paramMode
  if param = 29 ∧ value.toInt < 1 ∧ value.toInt > 13 then (-1, world)
  else if param = 30 ∧ value.toInt ≠ 1 ∧ value.toInt ≠ 2 ∧ value.toInt ≠ 6 then (-1, world)
  else if param = 0 ∧ value.toInt > 9999 then (-1, world)
  else
    let cfgParam := switchParam param.toNat value (allParam paramNum)
    let allParam := Function.update allParam paramNum cfgParam
    let flash := writeParams sectors world.flash mode allParam
    (0, { world with flash := flash, cmsParam := cfgParam })

section Codec

@[simp] theorem cfgParamBytes_length (param : CfgParam) :
    (cfgParamBytes param).length = cfgParamLength := by
  rw [cfgParamBytes, List.length_append, Vector.length_toList]
  rfl

/-- A set that was stored is loaded again. -/
theorem loadCfgParam_cfgParamBytes (param : CfgParam) :
    loadCfgParam (cfgParamBytes param) = param := by
  have behind : (cfgParamBytes param).drop rcpTempIdLen = cfgParamBody param :=
    List.drop_left' Vector.length_toList
  have front : tempIdAt (cfgParamBytes param) 0 = param.pid :=
    tempIdAt_append [] (cfgParamBody param) param.pid
  have period : load16 (cfgParamBody param) 6 = param.vam.bsmBoardcastPeriod :=
    load16_store16 param.vam.bsmBoardcastPeriod
  have evamPeriod : load16 (cfgParamBody param) 10 = param.vam.evamBroadcastPeroid :=
    load16_store16 param.vam.evamBroadcastPeroid
  have lane : load16 (cfgParamBody param) 14 = param.vsa.laneDis :=
    load16_store16 param.vsa.laneDis
  have between : (fun index : Fin 3 => byteAt (cfgParamBody param)
      (match index with | 0 => 5 | 1 => 13 | 2 => 23)) = param.padding := by
    funext index
    match index with
    | 0 => rfl
    | 1 => rfl
    | 2 => rfl
  rw [loadCfgParam, behind, front, period, evamPeriod, lane, between]
  rfl

end Codec

section Flash

variable {sectors : Nat → Nat → Bool} {flash : Flash} {mode : List Byte}
  {allParam : Fin 4 → CfgParam}

/-- Each set is read back as it was written. -/
theorem readParams_writeParams (short : mode.length = 2) :
    readParams (writeParams sectors flash mode allParam) = allParam := by
  let blocks : List (Nat × List Byte) :=
    [(paramFlagAddr, paramInitWords), (paramModeAddr, mode),
      (paramAddrCustom, cfgParamBytes (allParam 0)),
      (paramAddrHighway, cfgParamBytes (allParam 1)),
      (paramAddrMountain, cfgParamBytes (allParam 2)),
      (paramAddrCity, cfgParamBytes (allParam 3))]
  have apart : blocks.Pairwise Store.Apart := by
    simp [blocks, Store.Apart, short, cfgParamLength, paramAddrCustom, paramAddrHighway,
      paramAddrMountain, paramAddrCity, paramAddr, paramModeAddr, paramFlagAddr, paramOffset,
      paramInitWords, rcpTempIdLen]
  have written : ∀ num, (allParamAddr num, cfgParamBytes (allParam num)) ∈ blocks := by
    intro num
    match num with
    | 0 => simp [blocks, allParamAddr]
    | 1 => simp [blocks, allParamAddr]
    | 2 => simp [blocks, allParamAddr]
    | 3 => simp [blocks, allParamAddr]
  funext num
  have block : (Store.writeAll (drvFlsErase sectors flash paramSector) blocks).read
      (allParamAddr num) (cfgParamBytes (allParam num)).length = cfgParamBytes (allParam num) :=
    Store.read_writeAll apart (written num)
  rw [cfgParamBytes_length] at block
  exact (congrArg loadCfgParam block).trans (loadCfgParam_cfgParamBytes _)

end Flash

end Rsu.Sys
