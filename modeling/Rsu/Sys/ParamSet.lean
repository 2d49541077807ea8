import Rsu.Semantics.ActionSystem
import Rsu.Sys.Param

/-!
# Setting a system parameter

What `param_set` should do, and when it does: a call is refused and changes nothing, or it
changes one field of the active set, in the flash and in memory.
-/

namespace Rsu.Sys

open Rsu.Rcp Rsu.Vam Rsu.Data

/-- The field of a number, as `param_get` prints them. -/
def paramField : Nat → Option ParamField
  | 0 => some .pid
  | 1 => some (.byte .bsmHops)
  | 2 => some (.byte .bsmBoardcastMode)
  | 3 => some (.byte .bsmBoardcastSaftyfactor)
  | 4 => some (.byte .bsmPauseMode)
  | 5 => some (.byte .bsmPauseHoldTime)
  | 6 => some (.word .bsmBoardcastPeriod)
  | 7 => some (.byte .evamHops)
  | 8 => some (.byte .evamBroadcastType)
  | 9 => some (.word .evamBroadcastPeroid)
  | 10 => some (.byte .dangerDetectSpeedThreshold)
  | 11 => some (.word .laneDis)
  | 12 => some (.byte .crdSaftyfactor)
  | 13 => some (.byte .crdOppsiteSpeed)
  | 14 => some (.byte .crdOppsiteRearSpeed)
  | 15 => some (.byte .crdRearDistance)
  | 16 => some (.byte .ebdMode)
  | 17 => some (.byte .ebdAccelerationThreshold)
  | 18 => some (.byte .ebdAlertHoldTime)
  | 29 => some (.byte .channel)
  | 30 => some (.byte .txrate)
  | 31 => some (.byte .printXxx)
  | _ => none

/-- The number that a field shows. The ID shows a decimal digit in each byte. -/
def ParamField.number : (field : ParamField) → field.Content → Int
  | .pid, digits =>
      (Vector.toList digits).foldl (fun number digit => 10 * number + BitVec.toNat digit) 0
  | .byte _, content => BitVec.toNat content
  | .word _, content => BitVec.toNat content

/-- The numbers that a field can show. -/
def ParamField.Fits (value : Int) : ParamField → Prop
  | .pid => 0 ≤ value ∧ value ≤ 9999
  | .byte _ => 0 ≤ value ∧ value < 2 ^ 8
  | .word _ => 0 ≤ value ∧ value < 2 ^ 16

/-- The set of a mode in the flash. -/
def ParamWorld.stored (world : ParamWorld) (mode : ParamMode) : CfgParam :=
  loadCfgParam (drvFlsRead world.flash (getParamAddr mode) cfgParamLength)

/-- One field was assigned, and no other. -/
structure Assigned (before after : CfgParam) (field : ParamField) (value : Int) : Prop where
  named : field.number (field.get after) = value
  others : ∀ other, other ≠ field → other.get after = other.get before

def CfgParam.ValidChannel (param : CfgParam) : Prop :=
  1 ≤ param.wnet.channel.toNat ∧ param.wnet.channel.toNat ≤ 13

/-- One field of the active set was assigned, in the flash and in memory. -/
structure Updated (world next : ParamWorld) (field : ParamField) (value : Int) : Prop where
  flash : Assigned (world.stored world.paramMode) (next.stored world.paramMode) field value
  live : Assigned world.cmsParam next.cmsParam field value
  modes : ∀ mode, mode ≠ world.paramMode → next.stored mode = world.stored mode
  channel : (next.stored world.paramMode).ValidChannel ∧ next.cmsParam.ValidChannel

/-- The call changes nothing, or one field and nothing else. -/
def AllOrNothing (world : ParamWorld) (param : Byte) (value : BitVec 32)
    (outcome : Int × ParamWorld) : Prop :=
  (outcome = (-1, world) ∨ outcome.1 = 0 ∧ ∃ field, paramField param.toNat = some field ∧
    Updated world outcome.2 field value.toInt) ∧
  ((∀ field, paramField param.toNat = some field → ¬ field.Fits value.toInt) →
    outcome = (-1, world))

/-- An ID above 9999, or a rate that does not exist. -/
def Refused (param : Byte) (value : BitVec 32) : Prop :=
  param = 0 ∧ 9999 < value.toInt ∨
    param = 30 ∧ value.toInt ≠ 1 ∧ value.toInt ≠ 2 ∧ value.toInt ≠ 6

/-- The field exists and can show the value, the channel is valid, and the other fields of the
parameters in memory are those of the active set. -/
structure Settable (world : ParamWorld) (value : Int) (field : ParamField) : Prop where
  fits : field.Fits value
  channel : if field = .byte .channel then 1 ≤ value ∧ value ≤ 13
    else (world.stored world.paramMode).ValidChannel
  coherent : ∀ other, other ≠ field →
    other.get world.cmsParam = other.get (world.stored world.paramMode)

/-- What the switch makes of a value. -/
def ParamField.convert (value : BitVec 32) : (field : ParamField) → field.Content
  | .pid => pidBytes value.toInt
  | .byte _ => value.setWidth 8
  | .word _ => value.setWidth 16

/-- The switch assigns to the field of the number, and to no other. -/
theorem switchParam_spec (value : BitVec 32) (cfgParam : CfgParam) {number : Nat}
    {field : ParamField} (known : paramField number = some field) :
    field.get (switchParam number value cfgParam) = field.convert value ∧
      ∀ other, other ≠ field →
        other.get (switchParam number value cfgParam) = other.get cfgParam := by
  unfold paramField at known
  split at known <;> cases known <;> refine ⟨rfl, fun other different => ?_⟩
  all_goals
    rcases other with _ | field | field
    · first | rfl | exact absurd rfl different
    · cases field <;> first | rfl | exact absurd rfl different
    · cases field <;> first | rfl | exact absurd rfl different

/-- The digits of a pid. -/
theorem pidBytes_toList (value : Int) :
    (pidBytes value).toList = [BitVec.ofInt 8 (pidDigit value 0), BitVec.ofInt 8 (pidDigit value 1),
      BitVec.ofInt 8 (pidDigit value 2), BitVec.ofInt 8 (pidDigit value 3)] := by
  rfl

/-- A value shows again in the bits it was cut to exactly if it fits them. -/
theorem toNat_setWidth_eq_iff (width : Nat) (value : BitVec 32) :
    ((value.setWidth width).toNat : Int) = value.toInt ↔
      0 ≤ value.toInt ∧ value.toInt < 2 ^ width := by
  have isLt := value.isLt
  rw [BitVec.toNat_setWidth, BitVec.toInt_eq_toNat_cond]
  split
  · have positive : 2 ^ width ≠ 0 := by simp
    have bounded := Nat.mod_eq_iff_lt (m := value.toNat) positive
    norm_cast
    rw [bounded]
    exact (and_iff_right (Nat.zero_le _)).symm
  · constructor
    · intro same
      have nonneg := Int.natCast_nonneg (value.toNat % 2 ^ width)
      omega
    · rintro ⟨nonneg, -⟩
      omega

/-- What fits a byte is kept by it. -/
theorem toNat_ofInt_of_byte {digit : Int} (nonneg : 0 ≤ digit) (small : digit < 2 ^ 8) :
    ((BitVec.ofInt 8 digit).toNat : Int) = digit := by
  rw [BitVec.toNat_ofInt]
  omega

/-- The ID shows the value exactly if it is no negative number. -/
theorem number_pidBytes_iff (value : Int) (small : value ≤ 9999) :
    ParamField.number .pid (pidBytes value) = value ↔ 0 ≤ value ∧ value ≤ 9999 := by
  change (pidBytes value).toList.foldl (fun (number : Int) digit => 10 * number + digit.toNat) 0 =
    value ↔ _
  rw [pidBytes_toList]
  simp only [List.foldl_cons, List.foldl_nil]
  constructor
  · intro same
    refine ⟨?_, small⟩
    rw [← same]
    positivity
  · rintro ⟨nonneg, -⟩
    have digits : pidDigit value 0 = value / 1000 ∧ pidDigit value 1 = value % 1000 / 100 ∧
        pidDigit value 2 = value % 1000 % 100 / 10 ∧
          pidDigit value 3 = value % 1000 % 100 % 10 := by
      have first := Int.emod_nonneg value (show (1000 : Int) ≠ 0 by decide)
      have second := Int.emod_nonneg (value % 1000) (show (100 : Int) ≠ 0 by decide)
      simp only [pidDigit, Int.tdiv_eq_ediv_of_nonneg nonneg, Int.tmod_eq_emod_of_nonneg nonneg,
        Int.tdiv_eq_ediv_of_nonneg first, Int.tmod_eq_emod_of_nonneg first,
        Int.tdiv_eq_ediv_of_nonneg second, Int.tmod_eq_emod_of_nonneg second, and_self]
    obtain ⟨zeroth, first, second, third⟩ := digits
    have kept : ∀ index, ((BitVec.ofInt 8 (pidDigit value index)).toNat : Int) =
        pidDigit value index := by
      intro index
      match index with
      | 0 => exact toNat_ofInt_of_byte (by omega) (by omega)
      | 1 => exact toNat_ofInt_of_byte (by omega) (by omega)
      | 2 => exact toNat_ofInt_of_byte (by omega) (by omega)
      | 3 => exact toNat_ofInt_of_byte (by omega) (by omega)
    rw [kept, kept, kept, kept]
    omega

/-- What is assigned shows the value exactly if it fits the field. -/
theorem number_convert_iff (field : ParamField) (value : BitVec 32)
    (small : field = .pid → value.toInt ≤ 9999) :
    field.number (field.convert value) = value.toInt ↔ field.Fits value.toInt := by
  cases field with
  | pid => exact number_pidBytes_iff value.toInt (small rfl)
  | byte field => exact toNat_setWidth_eq_iff 8 value
  | word field => exact toNat_setWidth_eq_iff 16 value

/-- The address of a mode is that of its number. -/
theorem allParamAddr_getParamNum (mode : ParamMode) :
    allParamAddr (getParamNum mode) = getParamAddr mode := by
  cases mode <;> rfl

/-- Different modes have different numbers. -/
theorem getParamNum_injective : Function.Injective getParamNum := by
  intro mode other same
  cases mode <;> cases other <;> first | rfl | cases same

/-- The set of a mode is the entry of its number. -/
theorem readParams_getParamNum (world : ParamWorld) (mode : ParamMode) :
    readParams world.flash (getParamNum mode) = world.stored mode := by
  rw [readParams, allParamAddr_getParamNum, ParamWorld.stored]

section Calls

variable {sectors : Nat → Nat → Bool} {world : ParamWorld} {param : Byte} {value : BitVec 32}

/-- The new content of the active set. -/
def assignedSet (world : ParamWorld) (param : Byte) (value : BitVec 32) : CfgParam :=
  switchParam param.toNat value (world.stored world.paramMode)

/-- A call that is refused changes nothing. -/
theorem paramSet_of_refused (refused : Refused param value) :
    paramSet sectors world param value = (-1, world) := by
  unfold paramSet
  dsimp only
  rcases refused with ⟨rfl, large⟩ | ⟨rfl, rate⟩
  · have noChannel : (0 : Byte) ≠ 29 := by decide
    have noRate : (0 : Byte) ≠ 30 := by decide
    rw [if_neg fun wrong => noChannel wrong.1, if_neg fun wrong => noRate wrong.1,
      if_pos ⟨rfl, large⟩]
  · have noChannel : (30 : Byte) ≠ 29 := by decide
    rw [if_neg fun wrong => noChannel wrong.1, if_pos ⟨rfl, rate⟩]

/-- Any other call assigns to the active set, in the flash and in memory. -/
theorem paramSet_of_accepted (sectors : Nat → Nat → Bool) (world : ParamWorld)
    (accepted : ¬ Refused param value) :
    ∃ next, paramSet sectors world param value = (0, next) ∧
      next.paramMode = world.paramMode ∧ next.cmsParam = assignedSet world param value ∧
      next.stored world.paramMode = assignedSet world param value ∧
      ∀ mode, mode ≠ world.paramMode → next.stored mode = world.stored mode := by
  obtain ⟨notPid, notRate⟩ := not_or.1 accepted
  have channel : ¬ (param = 29 ∧ value.toInt < 1 ∧ value.toInt > 13) := by omega
  have word : (drvFlsRead world.flash paramModeAddr 2).length = 2 := Store.read_length
  unfold paramSet
  dsimp only
  rw [if_neg channel, if_neg notRate, if_neg notPid, readParams_getParamNum]
  refine ⟨_, rfl, rfl, rfl, ?_, ?_⟩
  · rw [← readParams_getParamNum, readParams_writeParams word, Function.update_self]
    rfl
  · intro mode different
    rw [← readParams_getParamNum, readParams_writeParams word,
      Function.update_of_ne (getParamNum_injective.ne different), readParams_getParamNum]

/-- The switch has the ID under its own number. -/
theorem number_eq_zero {number : Nat} (known : paramField number = some .pid) : number = 0 := by
  unfold paramField at known
  split at known <;> first | rfl | cases known

/-- A call that is not refused assigns what shows the value, if it fits. -/
theorem assignedSet_named (world : ParamWorld) {field : ParamField}
    (accepted : ¬ Refused param value) (known : paramField param.toNat = some field) :
    field.number (field.get (assignedSet world param value)) = value.toInt ↔
      field.Fits value.toInt := by
  rw [assignedSet, (switchParam_spec value _ known).1]
  apply number_convert_iff
  rintro rfl
  have first : param = 0 := BitVec.eq_of_toNat_eq (number_eq_zero known)
  exact Int.not_lt.1 fun large => accepted (.inl ⟨first, large⟩)

/-- The other fields of a set stay. -/
theorem assignedSet_others (world : ParamWorld) (value : BitVec 32) {field : ParamField}
    (known : paramField param.toNat = some field) :
    ∀ other, other ≠ field → other.get (assignedSet world param value) =
      other.get (world.stored world.paramMode) :=
  (switchParam_spec value _ known).2

/-- The channel of the new set is the value, or what it was. -/
theorem validChannel_assignedSet {field : ParamField} (accepted : ¬ Refused param value)
    (known : paramField param.toNat = some field) (fits : field.Fits value.toInt) :
    (assignedSet world param value).ValidChannel ↔
      if field = .byte .channel then 1 ≤ value.toInt ∧ value.toInt ≤ 13
      else (world.stored world.paramMode).ValidChannel := by
  unfold CfgParam.ValidChannel
  split
  case isTrue named =>
    subst named
    have shown : ((assignedSet world param value).wnet.channel.toNat : Int) = value.toInt :=
      (assignedSet_named world accepted known).2 fits
    omega
  case isFalse different =>
    have kept : (assignedSet world param value).wnet.channel =
        (world.stored world.paramMode).wnet.channel :=
      assignedSet_others world value known (.byte .channel) (Ne.symm different)
    rw [kept]

/-- What is refused changes nothing. -/
theorem allOrNothing_of_refused (refused : Refused param value) :
    AllOrNothing world param value (paramSet sectors world param value) := by
  rw [paramSet_of_refused refused]
  exact ⟨.inl rfl, fun _ => rfl⟩

/-- A call that is not refused does what it should exactly if the field can be set. -/
theorem allOrNothing_iff_of_accepted (accepted : ¬ Refused param value) :
    AllOrNothing world param value (paramSet sectors world param value) ↔
      ∃ field, paramField param.toNat = some field ∧ Settable world value.toInt field := by
  obtain ⟨next, same, -, live, stored, modes⟩ := paramSet_of_accepted sectors world accepted
  rw [same]
  constructor
  · rintro ⟨rejected | ⟨-, field, known, updated⟩, -⟩
    · cases rejected
    have named := updated.live.named
    have others := updated.live.others
    have channel := updated.channel.2
    rw [live] at named others channel
    have fits := (assignedSet_named world accepted known).1 named
    refine ⟨field, known, fits, (validChannel_assignedSet accepted known fits).1 channel, ?_⟩
    intro other different
    rw [← others other different, assignedSet_others world value known other different]
  · rintro ⟨field, known, fits, channel, coherent⟩
    have named := (assignedSet_named world accepted known).2 fits
    have others := assignedSet_others world value known
    have valid := (validChannel_assignedSet accepted known fits).2 channel
    refine ⟨.inr ⟨rfl, field, known, ?_⟩, fun unfit => absurd fits (unfit field known)⟩
    refine ⟨?_, ?_, modes, ?_⟩
    · rw [stored]
      exact ⟨named, others⟩
    · rw [live]
      refine ⟨named, fun other different => ?_⟩
      rw [others other different, coherent other different]
    · rw [stored, live]
      exact ⟨valid, valid⟩

/-- The call changes one field and nothing else, or nothing, exactly if it is refused, or the
field can be set. -/
theorem paramSet_allOrNothing_iff (sectors : Nat → Nat → Bool) (world : ParamWorld) (param : Byte)
    (value : BitVec 32) :
    AllOrNothing world param value (paramSet sectors world param value) ↔
      Refused param value ∨
        ∃ field, paramField param.toNat = some field ∧ Settable world value.toInt field := by
  by_cases refused : Refused param value
  · exact iff_of_true (allOrNothing_of_refused refused) (.inl refused)
  · rw [or_iff_right refused]
    exact allOrNothing_iff_of_accepted refused

end Calls

section Runs

variable {sectors : Nat → Nat → Bool} {world : ParamWorld} {param : Byte} {value : BitVec 32}

/-- The parameters in memory are those of the active set, with a valid channel. -/
structure ParamWorld.Coherent (world : ParamWorld) : Prop where
  same : world.cmsParam = world.stored world.paramMode
  valid : world.cmsParam.ValidChannel

/-- The number exists, and the value fits its field and is no wrong channel. -/
def WellFormed (param : Byte) (value : BitVec 32) : Prop :=
  ∃ field, paramField param.toNat = some field ∧ field.Fits value.toInt ∧
    (field = .byte .channel → 1 ≤ value.toInt ∧ value.toInt ≤ 13)

/-- In a coherent world a field can be set to whatever fits it. -/
theorem ParamWorld.Coherent.settable_iff (coherent : world.Coherent) :
    (∃ field, paramField param.toNat = some field ∧ Settable world value.toInt field) ↔
      WellFormed param value := by
  constructor
  · rintro ⟨field, known, fits, channel, -⟩
    refine ⟨field, known, fits, fun named => ?_⟩
    rwa [if_pos named] at channel
  · rintro ⟨field, known, fits, channel⟩
    refine ⟨field, known, fits, ?_, fun other _ => by rw [coherent.same]⟩
    split
    case isTrue named => exact channel named
    case isFalse => exact coherent.same ▸ coherent.valid

/-- A call that does what it should keeps the world coherent. -/
theorem ParamWorld.Coherent.paramSet (coherent : world.Coherent)
    (sound : AllOrNothing world param value (paramSet sectors world param value)) :
    (Sys.paramSet sectors world param value).2.Coherent := by
  by_cases refused : Refused param value
  · rw [paramSet_of_refused refused]
    exact coherent
  · obtain ⟨next, outcome, mode, live, stored, -⟩ := paramSet_of_accepted sectors world refused
    rw [outcome] at sound ⊢
    refine ⟨by rw [mode, live, stored], ?_⟩
    rcases sound.1 with rejected | ⟨-, field, -, updated⟩
    · cases rejected
    · exact updated.channel.2

/-- A call of `param_set`. -/
structure ParamCall where
  param : Byte
  value : BitVec 32

/-- Calls of `param_set`, one after another. -/
def paramSystem (sectors : Nat → Nat → Bool) : ActionSystem ParamCall :=
  .ofFunction ParamWorld.Coherent fun world call => (paramSet sectors world call.param call.value).2

/-- From a coherent world on, all calls change one field or nothing exactly if all of them are
refused or well formed. -/
theorem paramSets_allOrNothing_iff {start finish : ParamWorld} (coherent : start.Coherent)
    (path : (paramSystem sectors).Path start finish) :
    path.StepsMeet (fun world call => AllOrNothing world call.param call.value
        (paramSet sectors world call.param call.value)) ↔
      path.StepsMeet fun _ call => Refused call.param call.value ∨
        WellFormed call.param call.value := by
  have exact : ∀ {world : ParamWorld} {call : ParamCall}, world.Coherent →
      (AllOrNothing world call.param call.value
          (paramSet sectors world call.param call.value) ↔
        Refused call.param call.value ∨ WellFormed call.param call.value) := by
    intro world call coherent
    by_cases refused : Refused call.param call.value
    · exact iff_of_true (allOrNothing_of_refused refused) (.inl refused)
    · rw [or_iff_right refused, ← coherent.settable_iff]
      exact allOrNothing_iff_of_accepted refused
  constructor
  · intro sound
    refine ActionSystem.Path.stepsMeet_of_stepsMeet coherent ?_ ?_ sound
    · rintro world call next known rfl sound
      exact ParamWorld.Coherent.paramSet known sound
    · intro world call known
      exact (exact known).1
  · intro met
    refine ActionSystem.Path.stepsMeet_of_stepsMeet coherent ?_ ?_ met
    · rintro world call next known rfl met
      exact ParamWorld.Coherent.paramSet known ((exact known).2 met)
    · intro world call known
      exact (exact known).2

end Runs

section Defaults

/-- `load_default_param_custom` and its siblings, which differ in the broadcast mode. -/
def loadDefaultParam (mode : ParamMode) : CfgParam where
  pid := Vector.replicate rcpTempIdLen 0
  vam := { Rsu.Vam.loadDefaultParam with bsmBoardcastMode := if mode = .custom then 2 else 1 }
  vsa :=
    { dangerDetectSpeedThreshold := 60
      laneDis := 25
      crdSaftyfactor := 4
      crdOppsiteSpeed := 20
      crdOppsiteRearSpeed := 15
      crdRearDistance := 60
      ebdMode := 1
      ebdAccelerationThreshold := 3
      ebdAlertHoldTime := 5 }
  wnet := { channel := 13, txrate := 1, mode := 0 }
  printXxx := 0
  padding := fun _ => 0

/-- `CUSTOM_MODE` -/
def customMode : BitVec 16 := 0x019F

/-- The modes in the order of the sets. -/
def paramModeOf : Fin 4 → ParamMode
  | 0 => .custom
  | 1 => .highway
  | 2 => .mountain
  | 3 => .city

/-- `write_def_param`, and the parameters of the custom mode in memory. -/
def defaultWorld (sectors : Nat → Nat → Bool) (flash : Flash) : ParamWorld where
  flash := writeParams sectors flash (store16 customMode) fun num =>
    loadDefaultParam (paramModeOf num)
  paramMode := .custom
  cmsParam := loadDefaultParam .custom

/-- Every mode starts with its own defaults. -/
theorem stored_defaultWorld (sectors : Nat → Nat → Bool) (flash : Flash) (mode : ParamMode) :
    (defaultWorld sectors flash).stored mode = loadDefaultParam mode := by
  rw [← readParams_getParamNum, defaultWorld, readParams_writeParams rfl]
  cases mode <;> rfl

/-- The defaults are coherent. -/
theorem coherent_defaultWorld (sectors : Nat → Nat → Bool) (flash : Flash) :
    (defaultWorld sectors flash).Coherent where
  same := (stored_defaultWorld sectors flash .custom).symm
  valid := by
    change (loadDefaultParam .custom).ValidChannel
    exact ⟨by decide, by decide⟩

/-- The channel 14 is set. -/
theorem channel_fourteen_set : ¬ AllOrNothing (defaultWorld (fun _ _ => true) fun _ => 0) 29 14
    (paramSet (fun _ _ => true) (defaultWorld (fun _ _ => true) fun _ => 0) 29 14) := by
  have accepted : ¬ Refused 29 14 := by
    rintro (⟨named, -⟩ | ⟨named, -⟩)
    · exact absurd named (by decide)
    · exact absurd named (by decide)
  have known : paramField (29 : Byte).toNat = some (.byte .channel) := rfl
  obtain ⟨next, same, -, live, -, -⟩ := paramSet_of_accepted (fun _ _ => true)
    (defaultWorld (fun _ _ => true) fun _ => 0) accepted
  rw [same]
  rintro ⟨rejected | ⟨-, field, again, updated⟩, -⟩
  · cases rejected
  cases known.symm.trans again
  have channel := updated.channel.2
  rw [live, validChannel_assignedSet accepted known ⟨by decide, by decide⟩, if_pos rfl] at channel
  exact absurd channel.2 (by decide)

end Defaults

end Rsu.Sys
