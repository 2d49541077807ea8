import Rsu.Semantics.ActionSystem
import Rsu.Vam.Lip
import Rsu.Vam.Period

/-!
# The record of the broadcast period

`bsm_send_period_ticks` is the interval that the broadcast timer was asked for.
`osal_timer_change` starts the timer again also when its new interval was rejected,
and nobody looks at what it returns; so after a request for an interval of 0 the
timer runs with the old one, and the record says 0.
-/

namespace Rsu.Vam

open Rsu.Rcp Rsu.Osal

/-- `vsm_start_bsm_broadcast` asks for an interval of 0. -/
def VamConfig.StartsWithZero (config : VamConfig) : Prop :=
  config.bsmBoardcastMode ≠ bsmBcModeAuto ∧
    (config.bsmBoardcastMode = bsmBcModeFixed → config.bsmBoardcastPeriod = 0)

/-- `vsm_update_bsm_bcast_timer` asks for an interval of 0. -/
def VamConfig.WantsZero (config : VamConfig) (neighbourCnt : Byte) : Prop :=
  config.bsmBoardcastMode ≠ bsmBcModeAuto ∧ neighbourCnt ≤ 50 ∧ config.bsmBoardcastPeriod = 0

/-- A period that follows the speed is bounded from below. -/
theorem calPeroidFromSpeed_ne_zero (speed : ℚ) (bsmBoardcastSaftyfactor : Byte) :
    calPeroidFromSpeed speed bsmBoardcastSaftyfactor ≠ 0 := by
  intro zero
  have bounded := congrArg BitVec.toNat zero
  rw [calPeroidFromSpeed, toNat_bounded, boundedPeriod] at bounded
  have none : (0 : BitVec 16).toNat = 0 := rfl
  omega

namespace VamEnvar

/-- The period `vsm_start_bsm_broadcast` computes. -/
def startPeriod (vam : VamEnvar) : BitVec 16 :=
  if vam.workingParam.bsmBoardcastMode = bsmBcModeAuto then
    calPeroidFromSpeed vam.localSta.speed vam.workingParam.bsmBoardcastSaftyfactor
  else if vam.workingParam.bsmBoardcastMode = bsmBcModeFixed then
    vam.workingParam.bsmBoardcastPeriod
  else 0

/-- The period at the start is 0 exactly if the parameters make it so. -/
theorem startPeriod_eq_zero (vam : VamEnvar) :
    vam.startPeriod = 0 ↔ vam.workingParam.StartsWithZero := by
  unfold startPeriod VamConfig.StartsWithZero
  split_ifs with auto fixed
  · exact iff_of_false (calPeroidFromSpeed_ne_zero _ _) fun zero => zero.1 auto
  · exact ⟨fun zero => ⟨auto, fun _ => zero⟩, fun zero => zero.2 fixed⟩
  · exact iff_of_true rfl ⟨auto, fun same => absurd same fixed⟩

/-- The wanted period is 0 exactly if the parameters and the neighbours make it so. -/
theorem bsmBcastPeriod_eq_zero (vam : VamEnvar) :
    vam.bsmBcastPeriod = 0 ↔ vam.workingParam.WantsZero vam.neighbourCnt := by
  unfold bsmBcastPeriod VamConfig.WantsZero
  dsimp only
  split_ifs with auto crowd
  · exact iff_of_false (calPeroidFromSpeed_ne_zero _ _) fun zero => zero.1 auto
  · have many : ¬ vam.neighbourCnt ≤ 50 := by bv_omega
    exact iff_of_false (by decide) fun zero => many zero.2.1
  · have few : vam.neighbourCnt ≤ 50 := by bv_omega
    exact ⟨fun zero => ⟨auto, few, zero⟩, fun zero => zero.2.2⟩

/-- `vam_set_config` -/
def vamSetConfig (vam : VamEnvar) (config : VamConfig) : VamEnvar :=
  { vam with workingParam := config }

/-- The record is the interval with which the broadcast timer is armed. -/
def Recorded (vam : VamEnvar) : Prop :=
  vam.timerSendBsm.due ≠ none → vam.bsmSendPeriodTicks.toNat = vam.timerSendBsm.millisec

/-- While the timer is armed, the record is its interval, and it is armed again exactly if
another interval is wanted. -/
structure Agrees (vam : VamEnvar) : Prop where
  recorded : vam.Recorded
  rearmed : vam.timerSendBsm.due ≠ none →
    (vam.vsmUpdateBsmBcastTimer ≠ vam ↔
      vam.timerSendBsm.millisec ≠ vam.bsmBcastPeriod.toNat)

/-- An update leaves everything alone, or records what it wants. -/
theorem vsmUpdateBsmBcastTimer_ne (vam : VamEnvar) :
    vam.vsmUpdateBsmBcastTimer ≠ vam ↔ vam.bsmSendPeriodTicks ≠ vam.bsmBcastPeriod := by
  unfold vsmUpdateBsmBcastTimer
  split
  · next other =>
      refine iff_of_true (fun same => other ?_) other
      exact (congrArg VamEnvar.bsmSendPeriodTicks same).symm
  · next same => simp [same]

/-- If the record is the interval, the timer is armed again exactly for another one. -/
theorem agrees_iff (vam : VamEnvar) : vam.Agrees ↔ vam.Recorded := by
  constructor
  · exact fun agrees => agrees.recorded
  · intro recorded
    refine ⟨recorded, fun armed => ?_⟩
    rw [vsmUpdateBsmBcastTimer_ne, ← recorded armed, ne_eq, ne_eq, BitVec.toNat_inj]

/-- A change to an interval is recorded, unless the interval is 0. -/
theorem recorded_change {vam next : VamEnvar} {period : BitVec 16}
    (record : next.bsmSendPeriodTicks = period)
    (timer : next.timerSendBsm = vam.timerSendBsm.change period.toNat ∨
      next.timerSendBsm = (vam.timerSendBsm.change period.toNat).start) :
    next.Recorded ↔ period ≠ 0 := by
  have armed : next.timerSendBsm.due ≠ none := by
    rcases timer with timer | timer <;> simp [timer]
  have interval : next.timerSendBsm.millisec = (vam.timerSendBsm.change period.toNat).millisec := by
    rcases timer with timer | timer <;> simp [timer]
  rw [Recorded, record, interval, imp_iff_right armed]
  constructor
  · rintro same rfl
    have positive := (vam.timerSendBsm.change 0).positive
    exact absurd same positive.ne
  · intro nonzero
    have positive : 0 < period.toNat := by bv_omega
    exact (vam.timerSendBsm.change_millisec positive).symm

/-- An update keeps the record, unless it wants an interval of 0 and another one is
recorded. -/
theorem recorded_update {vam : VamEnvar} (recorded : vam.Recorded) :
    vam.vsmUpdateBsmBcastTimer.Recorded ↔
      (vam.workingParam.WantsZero vam.neighbourCnt → vam.bsmSendPeriodTicks = 0) := by
  rw [← bsmBcastPeriod_eq_zero]
  unfold vsmUpdateBsmBcastTimer
  split
  · next other =>
      rw [recorded_change rfl (.inl rfl)]
      constructor
      · exact fun nonzero zero => absurd zero nonzero
      · intro kept zero
        exact other ((kept zero).trans zero.symm)
  · next same =>
      rw [not_not] at same
      exact iff_of_true recorded fun zero => same.trans zero

/-- Another change of the module, with the record and the timer as they are. -/
def elsewhere (vam other : VamEnvar) : VamEnvar :=
  { other with
    bsmSendPeriodTicks := vam.bsmSendPeriodTicks
    timerSendBsm := vam.timerSendBsm }

/-- A station that is looked up changes the table only. -/
theorem withStation_elsewhere {vam : VamEnvar} {temporaryId : TempId}
    {write : VamStaNode → VamStaNode} {report : VamStaNode → List PeerEvent} {fuel : Nat}
    {result : RxResult} (returned : vam.withStation temporaryId write report fuel = some result) :
    result.vam = vam.elsewhere result.vam := by
  rw [withStation] at returned
  obtain ⟨found, -, rfl⟩ := Option.map_eq_some_iff.1 returned
  dsimp only
  split <;> rfl

/-- A received safety message leaves the broadcast timer alone. -/
theorem rcpParseBsm_elsewhere {vam : VamEnvar} {databuf : Frame} {now : BitVec 32} {fuel : Nat}
    {result : RxResult} (returned : vam.rcpParseBsm databuf now fuel = some result) :
    result.vam = vam.elsewhere result.vam := by
  unfold rcpParseBsm at returned
  split at returned
  · exact Option.some.inj returned ▸ rfl
  · dsimp only at returned
    split at returned
    · exact Option.some.inj returned ▸ rfl
    · exact withStation_elsewhere returned

theorem rcpParseEvam_elsewhere {vam : VamEnvar} {databuf : Frame} {now : BitVec 32} {fuel : Nat}
    {result : RxResult} (returned : vam.rcpParseEvam databuf now fuel = some result) :
    result.vam = vam.elsewhere result.vam := by
  unfold rcpParseEvam at returned
  split at returned
  · exact Option.some.inj returned ▸ rfl
  · dsimp only at returned
    split at returned
    · exact Option.some.inj returned ▸ rfl
    · exact withStation_elsewhere returned

theorem vsmPauseBsmBroadcast_elsewhere (vam : VamEnvar) :
    vam.vsmPauseBsmBroadcast = vam.elsewhere vam.vsmPauseBsmBroadcast := by
  unfold vsmPauseBsmBroadcast
  split <;> rfl

/-- Changes elsewhere add up to one. -/
theorem elsewhere_trans {vam between next : VamEnvar} (first : between = vam.elsewhere between)
    (second : next = between.elsewhere next) : next = vam.elsewhere next := by
  rw [second, first]
  rfl

/-- A received message leaves the record and the timer alone. -/
theorem rcpParseMsg_elsewhere {vam : VamEnvar} {databuf : Frame} {now : BitVec 32} {fuel : Nat}
    {result : MsgResult} (returned : vam.rcpParseMsg databuf now fuel = some result) :
    result.vam = vam.elsewhere result.vam := by
  unfold rcpParseMsg at returned
  split at returned
  · exact Option.some.inj returned ▸ rfl
  · dsimp only at returned
    split at returned
    · obtain ⟨parsed, called, rfl⟩ := Option.map_eq_some_iff.1 returned
      exact rcpParseBsm_elsewhere called
    · split at returned
      · obtain ⟨parsed, called, rfl⟩ := Option.map_eq_some_iff.1 returned
        refine elsewhere_trans ?_ (rcpParseEvam_elsewhere called)
        split
        · exact vam.vsmPauseBsmBroadcast_elsewhere
        · rfl
      · split at returned <;> exact Option.some.inj returned ▸ rfl

end VamEnvar

/-- What happens to the broadcast timer. -/
inductive BcastAction where
  /-- `VAM_MSG_START` -/
  | start
  /-- `VAM_MSG_STOP` -/
  | stop
  /-- `vam_set_config` -/
  | setConfig (config : VamConfig)
  /-- `lip_update_local` for a fix, which may change the speed. -/
  | fix (p_rmc : TNmeaRmc) (now t : BitVec 32)
  /-- `vam_update_sta`, with the table it leaves. -/
  | neighTimeout (table : StaTable)
  /-- Anything else, such as a message from a new neighbour. -/
  | elsewhere (other : VamEnvar)

namespace LipEnvar

/-- One step. -/
def step (lib : Libm) (lip : LipEnvar) : BcastAction → LipEnvar
  | .start => { lip with vam := lip.vam.mainStart }
  | .stop => { lip with vam := lip.vam.mainStop }
  | .setConfig config => { lip with vam := lip.vam.vamSetConfig config }
  | .fix p_rmc now t => lip.lipUpdateLocal lib (some p_rmc) none now t
  | .neighTimeout table => { lip with vam := (lip.vam.withTable table).vsmUpdateBsmBcastTimer }
  | .elsewhere other => { lip with vam := lip.vam.elsewhere other }

/-- The step does not ask for an interval of 0 while another one is recorded. -/
def Asks (lip : LipEnvar) (action : BcastAction) : Prop :=
  match action with
  | .start =>
      lip.vam.workingParam.bsmBoardcastMode ≠ bsmBcModeDisable →
        ¬ lip.vam.workingParam.StartsWithZero
  | .fix p_rmc _ _ =>
      p_rmc.speed ≠ lip.vam.localSta.speed →
        lip.vam.workingParam.WantsZero lip.vam.neighbourCnt → lip.vam.bsmSendPeriodTicks = 0
  | .neighTimeout table =>
      lip.vam.workingParam.WantsZero table.neighbourCnt → lip.vam.bsmSendPeriodTicks = 0
  | _ => True

variable {lip : LipEnvar}

/-- The record is kept where the record and the timer are. -/
theorem recorded_congr {vam next : VamEnvar} (recorded : vam.Recorded)
    (record : next.bsmSendPeriodTicks = vam.bsmSendPeriodTicks)
    (timer : next.timerSendBsm = vam.timerSendBsm) : next.Recorded := by
  rw [VamEnvar.Recorded, record, timer]
  exact recorded

/-- A start keeps the record right exactly if it asks for no zero. -/
theorem recorded_start (recorded : lip.vam.Recorded) :
    lip.vam.mainStart.Recorded ↔ lip.Asks .start := by
  rw [Asks]
  by_cases disabled : lip.vam.workingParam.bsmBoardcastMode = bsmBcModeDisable
  · refine iff_of_true ?_ fun enabled => absurd disabled enabled
    refine recorded_congr recorded ?_ ?_ <;> simp [VamEnvar.mainStart, disabled]
  · have record : lip.vam.mainStart.bsmSendPeriodTicks = lip.vam.startPeriod := by
      simp [VamEnvar.mainStart, disabled, VamEnvar.vsmStartBsmBroadcast, VamEnvar.startPeriod]
    have timer : lip.vam.mainStart.timerSendBsm =
        (lip.vam.timerSendBsm.change lip.vam.startPeriod.toNat).start := by
      simp [VamEnvar.mainStart, disabled, VamEnvar.vsmStartBsmBroadcast, VamEnvar.startPeriod]
    rw [VamEnvar.recorded_change record (.inr timer), ne_eq, VamEnvar.startPeriod_eq_zero]
    exact (imp_iff_right disabled).symm

theorem recorded_fix (lib : Libm) (p_rmc : TNmeaRmc) (now t : BitVec 32)
    (recorded : lip.vam.Recorded) :
    (lip.lipUpdateLocal lib (some p_rmc) none now t).vam.Recorded ↔
      lip.Asks (.fix p_rmc now t) := by
  let fixed := { lip.vam with localSta := storeFix p_rmc now lip.vam.localSta }
  have kept : fixed.Recorded := recorded
  obtain ⟨flag, updated⟩ := lip.updateRmc_vam lib p_rmc now t
  rw [lipUpdateLocal, updated, Asks]
  by_cases same : lip.vam.localSta.speed = p_rmc.speed
  · rw [if_neg (not_not.2 same)]
    exact iff_of_true kept fun other => absurd same.symm other
  · rw [if_pos same, imp_iff_right (Ne.symm same)]
    exact VamEnvar.recorded_update kept

/-- A step keeps the record exactly if it does not ask for an interval of 0. -/
theorem recorded_step (lib : Libm) (recorded : lip.vam.Recorded) (action : BcastAction) :
    (lip.step lib action).vam.Recorded ↔ lip.Asks action := by
  cases action with
  | start => exact recorded_start recorded
  | stop =>
      refine iff_of_true ?_ trivial
      rw [step, VamEnvar.mainStop]
      split
      · exact fun armed => absurd rfl armed
      · exact recorded
  | setConfig config => exact iff_of_true recorded trivial
  | fix p_rmc now t => exact recorded_fix lib p_rmc now t recorded
  | neighTimeout table =>
      have kept : (lip.vam.withTable table).Recorded := recorded
      exact VamEnvar.recorded_update kept
  | elsewhere other => exact iff_of_true recorded trivial

end LipEnvar

/-- Starts, stops, new parameters, fixes and neighbour ticks in any order, after
`vam_init` and `lip_init`. -/
def bcastSystem (lib : Libm) : ActionSystem BcastAction :=
  .ofFunction
    (fun lip => ∃ memory param pid handlers, lip = ⟨vamInit memory param pid handlers, false⟩)
    (LipEnvar.step lib)

/-- In every run the record agrees with the timer in all states, exactly if no step asks
for an interval of 0 while another one is recorded. -/
theorem agrees_iff_asks {lib : Libm} {start finish : (bcastSystem lib).State}
    (initial : (bcastSystem lib).Initial start) (path : (bcastSystem lib).Path start finish) :
    path.Always (fun lip => VamEnvar.Agrees (LipEnvar.vam lip)) ↔ path.StepsMeet LipEnvar.Asks := by
  have begins : (LipEnvar.vam start).Agrees := by
    obtain ⟨memory, param, pid, handlers, rfl⟩ := initial
    exact (VamEnvar.agrees_iff _).2 fun armed => absurd rfl armed
  refine @ActionSystem.Path.always_iff_stepsMeet _ (bcastSystem lib) start finish (fun _ => True)
    _ _ trivial begins ?_ ?_ path
  · exact fun _ _ _ _ => trivial
  · rintro lip action next - agrees rfl
    rw [VamEnvar.agrees_iff]
    exact LipEnvar.recorded_step lib agrees.recorded action

section Cases

/-- A mathematical library that is not used. -/
def idle : Libm := ⟨id, id, id, some, fun y _ => y, id⟩

/-- The node sends messages, and gets another period. -/
def reconfigured (period : BitVec 16) : LipEnvar :=
  { LipEnvar.fresh with
    vam := LipEnvar.fresh.vam.mainStart.vamSetConfig
      { loadDefaultParam with bsmBoardcastPeriod := period } }

/-- The next neighbour tick takes the period over. -/
def ticked (period : BitVec 16) : LipEnvar :=
  { reconfigured period with
    vam := ((reconfigured period).vam.withTable (reconfigured period).vam.toStaTable
      ).vsmUpdateBsmBcastTimer }

/-- The run to there. -/
def reconfiguring (period : BitVec 16) : (bcastSystem idle).Path LipEnvar.fresh (ticked period) :=
  let system := bcastSystem idle
  let started := @ActionSystem.Path.snoc _ system _ _ .nil .start _ rfl
  let set := @ActionSystem.Path.snoc _ system _ _ started
    (.setConfig { loadDefaultParam with bsmBoardcastPeriod := period }) (reconfigured period) rfl
  @ActionSystem.Path.snoc _ system _ _ set (.neighTimeout (reconfigured period).vam.toStaTable) _ rfl

/-- Another period than 0 is recorded. -/
theorem reconfiguring_agrees :
    (reconfiguring 300).Always fun lip => VamEnvar.Agrees (LipEnvar.vam lip) := by
  refine (agrees_iff_asks ⟨_, _, _, _, rfl⟩ (reconfiguring 300)).2 ⟨⟨⟨trivial, ?_⟩, trivial⟩, ?_⟩
  · exact fun _ zero => absurd (zero.2 rfl) (by decide)
  · exact fun zero => absurd zero.2.2 (by decide)

/-- The period 0 is recorded as well, but the timer goes on with the old one. -/
theorem reconfiguring_zero :
    (ticked 0).vam.timerSendBsm.due = some 100 ∧ (ticked 0).vam.timerSendBsm.millisec = 100 ∧
      (ticked 0).vam.bsmSendPeriodTicks = 0 ∧
      ¬ (reconfiguring 0).Always fun lip => VamEnvar.Agrees (LipEnvar.vam lip) := by
  refine ⟨rfl, rfl, rfl, fun always => ?_⟩
  have recorded : (ticked 0).vam.Recorded := always.last.recorded
  exact absurd (recorded (by decide)) (by decide)

end Cases

end Rsu.Vam
