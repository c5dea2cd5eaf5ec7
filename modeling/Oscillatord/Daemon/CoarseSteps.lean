import Oscillatord.Config.ConfigFile
import Oscillatord.Daemon.FreshInput
import Oscillatord.Daemon.PhaseSign
import Oscillatord.Library.HexText

/-!
# Coarse steps of the mRO50

A request `REQUEST_MRO_COARSE_INC` or `REQUEST_MRO_COARSE_DEC` makes the main loop build an output
`ADJUST_COARSE` one above or one below the coarse value it has read in the same iteration, in
unsigned arithmetic of 32 bits, and `mRo50_oscillator_apply_output` sends it in hexadecimal.

`CoarseStepsLaw` asks that the setpoint stay in the range the tools enforce. An iteration whose
reading fails goes back to the top of the loop, so what is stepped is the value the driver has just
written; but nothing looks at the range. Over any run the law holds exactly as long as no increment
is carried out at the upper end of the range and no decrement at the lower end
(`coarseStepsLaw_eachStep_iff`), where it wraps to `0xFFFFFFFF`.
-/

namespace Oscillatord

open StepRun CNumber CText

variable {D : Type}

/-! ### The command -/

/-- `COARSE_RANGE_MAX`. -/
def coarseRangeMax : ℤ := 4194303

/-- The command `mRo50_oscillator_apply_output` sends, `none` for another action. -/
def mRo50ApplyOutputCommand (action : OdAction) (setpoint : ℤ) : Option (List UInt8) :=
  match action with
  | .adjustFine =>
    some (ascii "MON_tpcb PIL_cfield C " ++ hexadecimal 4 setpoint.toNat ++ ascii "\r")
  | .adjustCoarse => some (ascii "FD " ++ hexadecimal 8 setpoint.toNat ++ ascii "\r")
  | _ => none

/-- A command sends a setpoint as its hexadecimal numeral: eight digits that `%x` reads as the
setpoint. -/
def SentAsNumeral (setpoint : ℤ) : Prop :=
  ∃ digits : List UInt8, (∀ b ∈ digits, IsUpperHex b) ∧ digits.length = 8 ∧
    mRo50ApplyOutputCommand .adjustCoarse setpoint = some (ascii "FD " ++ digits ++ ascii "\r") ∧
    scanInt 16 digits = .number setpoint []

theorem sentAsNumeral {setpoint : ℤ} (hlo : 0 ≤ setpoint) (hhi : setpoint < 2 ^ 32) :
    SentAsNumeral setpoint := by
  have hscan := scanInt_hexadecimal (n := setpoint.toNat) (by decide : 0 < 8)
  rw [Int.toNat_of_nonneg hlo] at hscan
  exact ⟨hexadecimal 8 setpoint.toNat, fun b hb => isUpperHex_of_mem hb,
    length_hexadecimal (by omega), rfl, hscan⟩

/-! ### The switch -/

/-- The setpoint of an output `ADJUST_COARSE`. -/
def MainEffect.coarseSetpoint : MainEffect D → Option ℤ
  | .applyOutput .adjustCoarse setpoint => some setpoint
  | _ => none

/-- The coarse setpoints built for the request of an iteration: the request is taken when the data
are published, after the output of the algorithm was carried out. -/
def requestedSetpoints (effects : List (MainEffect D)) : List ℤ :=
  (effects.dropWhile fun effect => effect.published.isNone).filterMap MainEffect.coarseSetpoint

/-- The setpoint a request asks for, from the coarse value that was read. -/
def MonitoringRequest.coarseSetpoint (coarseCtrl : ℤ) : MonitoringRequest → Option ℤ
  | .mroCoarseInc => some (toUnsigned 32 (coarseCtrl + 1))
  | .mroCoarseDec => some (toUnsigned 32 (coarseCtrl - 1))
  | _ => Option.none

/-- The output of the algorithm does not end the iteration. -/
def ActionProceeds (cfg : MainConfig) (env : MainEnv D) (action : OdAction) : Prop :=
  (action = .phaseJump → env.clockAdjusted = true) ∧
    (action = .calibrate → ∃ calibParams, env.calibrationParameters = some calibParams ∧
      (oscillatorCalibrate env.calibrate calibParams cfg.sign).isSome = true)

/-- The iteration comes to the switch: monitoring is on, everything is read, and in disciplining
mode the algorithm runs and its output is carried out. -/
structure ReachesSwitch (cfg : MainConfig) (env : MainEnv D) (st : MainState D) : Prop where
  monitoring : cfg.monitoringMode = true
  attributes : env.attributes ≠ .failed
  ctrl : env.ctrl.succeeded = true
  disciplining : cfg.discipliningMode = true → st.ignoreNextIrq = false ∧ env.epochData ≠ none ∧
    ∃ output, env.odProcess = some output ∧ ActionProceeds cfg env output.action

/-- The body of the loop before the monitoring block. -/
def mainBody (cfg : MainConfig) (env : MainEnv D) (st : MainState D) :
    MainState D × List (MainEffect D) × Flow :=
  if cfg.discipliningMode then
    match acquire cfg env st with
    | (st, .proceed) => process cfg env st
    | (st, flow) => (st, [], flow)
  else monitorOnly cfg env st

variable {cfg : MainConfig} {env : MainEnv D} {st : MainState D} {request : MonitoringRequest}

theorem mainIteration_eq : mainIteration cfg env st request
    = finishIteration cfg env request (mainBody cfg env st) := rfl

variable (cfg env st) in
/-- The data of the oscillator are published in the monitoring block alone. -/
theorem published_mainBody : ∀ effect ∈ (mainBody cfg env st).2.1, effect.published = none := by
  intro effect hmem
  rw [mainBody] at hmem
  split_ifs at hmem
  · rcases hacquire : acquire cfg env st with ⟨st', flow⟩
    rw [hacquire] at hmem
    cases flow
    case proceed => exact (process_uses cfg env st' effect hmem).published
    all_goals cases hmem
  · exact (monitorOnly_uses cfg env st effect hmem).published

variable (cfg env st) in
theorem flow_applyAction_iff (output : OdOutput) :
    (applyAction cfg env st output).2.2 = .proceed ↔ ActionProceeds cfg env output.action := by
  obtain ⟨action, setpoint, valuePhaseCtrl⟩ := output
  cases action
  case phaseJump =>
    simp only [applyAction, ActionProceeds]
    split_ifs with hadjusted <;> simp [hadjusted]
  case calibrate =>
    simp only [applyAction, ActionProceeds]
    rcases hparams : env.calibrationParameters with _ | calibParams
    · simp
    · rcases hresults : oscillatorCalibrate env.calibrate calibParams cfg.sign with _ | results
      · simp only [hresults]
        split_ifs <;> simp [hresults]
      · simp [hresults]
  all_goals simp [applyAction, ActionProceeds]

variable (cfg env st) in
/-- The block of the algorithm ends the iteration where the algorithm fails or its output does. -/
theorem flow_process_iff :
    (process cfg env st).2.2 = .proceed ↔
      ∃ output, env.odProcess = some output ∧ ActionProceeds cfg env output.action := by
  rw [process]
  rcases env.odProcess with _ | output
  · simp
  have hflow := flow_applyAction_iff cfg env { st with input := odInputZero } output
  rcases happly : applyAction cfg env { st with input := odInputZero } output
    with ⟨st', effects, flow⟩
  rw [happly] at hflow
  simp only [Option.some.injEq, exists_eq_left', ← hflow, happly]
  cases flow <;> exact Iff.rfl

/-- Without disciplining, the attributes and the control values have to be read. -/
theorem monitorOnly_proceed_iff :
    (monitorOnly cfg env st).2.2 = .proceed ↔
      env.attributes ≠ .failed ∧ env.ctrl.succeeded = true := by
  rw [monitorOnly]
  rcases hattributes : env.attributes with _ | _ | ⟨temperature, locked⟩
  · cases env.ctrl.succeeded <;> simp [parseAttributes]
  · simp [parseAttributes]
  · cases env.ctrl.succeeded <;> simp [parseAttributes]

variable (cfg env st) in
/-- **When the body runs to its end.** -/
theorem mainBody_proceed_iff :
    (mainBody cfg env st).2.2 = .proceed ↔ env.attributes ≠ .failed ∧
      env.ctrl.succeeded = true ∧
        (cfg.discipliningMode = true → st.ignoreNextIrq = false ∧ env.epochData ≠ none ∧
          ∃ output, env.odProcess = some output ∧ ActionProceeds cfg env output.action) := by
  rw [mainBody]
  split_ifs with hmode
  · have hread := acquire_proceed_iff cfg env st
    rcases hacquire : acquire cfg env st with ⟨st', flow⟩
    rw [hacquire] at hread
    cases flow
    case proceed =>
      rw [flow_process_iff]
      tauto
    all_goals
      simp only [reduceCtorEq, false_iff] at hread ⊢
      tauto
  · rw [monitorOnly_proceed_iff]
    tauto

/-- The body leaves in the control values what the driver has written there. -/
theorem ctrlValues_mainBody (h : (mainBody cfg env st).2.2 = .proceed) :
    (mainBody cfg env st).1.ctrlValues = env.ctrl.store st.ctrlValues := by
  rw [mainBody] at h ⊢
  split_ifs at h ⊢
  · rcases hacquire : acquire cfg env st with ⟨st', flow⟩
    rw [hacquire] at h
    cases flow
    case proceed =>
      obtain ⟨-, -, epoch, oscAttr, -, -, rfl⟩ := acquire_eq_proceed_iff.mp hacquire
      rw [(measured_process _ _ _).2]
      rfl
    all_goals cases h
  · simp only [monitorOnly] at h ⊢
    rcases hattributes : parseAttributes st.oscAttr env.attributes with _ | oscAttr
    · simp only [hattributes] at h
      cases h
    · rfl

/-- **What the switch builds.** Where the iteration comes to it, the setpoint is that of the request
for the coarse value in the local variables. -/
theorem requestedSetpoints_of_reaches (h : ReachesSwitch cfg env st) :
    requestedSetpoints (mainIteration cfg env st request).effects
      = (request.coarseSetpoint (env.ctrl.store st.ctrlValues).coarseCtrl).toList := by
  have hflow := (mainBody_proceed_iff cfg env st).mpr ⟨h.attributes, h.ctrl, h.disciplining⟩
  have hvalues := ctrlValues_mainBody hflow
  have hbody := published_mainBody cfg env st
  rw [mainIteration_eq, ← hvalues]
  rcases hmain : mainBody cfg env st with ⟨st', effects, flow⟩
  rw [hmain] at hflow hbody
  obtain rfl : flow = .proceed := hflow
  have hskip : ∀ effect ∈ effects, effect.published.isNone = true := fun effect hmem => by
    rw [hbody effect hmem, Option.isNone_none]
  rw [requestedSetpoints, finishIteration]
  simp only [List.dropWhile_append_of_pos hskip, monitoringPart, h.monitoring, if_true]
  cases request <;> rfl

/-- Elsewhere it builds nothing. -/
theorem requestedSetpoints_of_not_reaches (h : ¬ ReachesSwitch cfg env st) :
    requestedSetpoints (mainIteration cfg env st request).effects = [] := by
  have hbody := published_mainBody cfg env st
  have hflow := mainBody_proceed_iff cfg env st
  have hnot : cfg.monitoringMode = true → (mainBody cfg env st).2.2 ≠ .proceed := by
    intro hmonitoring hproceed
    obtain ⟨hattributes, hctrl, hdisciplining⟩ := hflow.mp hproceed
    exact h ⟨hmonitoring, hattributes, hctrl, hdisciplining⟩
  rw [mainIteration_eq]
  rcases hmain : mainBody cfg env st with ⟨st', effects, flow⟩
  rw [hmain] at hbody hnot
  have hskip : ∀ effect ∈ effects, effect.published.isNone = true := fun effect hmem => by
    rw [hbody effect hmem, Option.isNone_none]
  have hnone : requestedSetpoints effects = [] := by
    rw [requestedSetpoints, List.dropWhile_eq_nil_iff.mpr hskip, List.filterMap_nil]
  cases flow
  case proceed =>
    have hoff : ¬ cfg.monitoringMode = true := fun hmonitoring => hnot hmonitoring rfl
    rw [finishIteration, monitoringPart, if_neg hoff]
    simpa using hnone
  all_goals exact hnone

/-! ### The law -/

/-- A coarse step: the setpoint is in the range, one away from the coarse value read in the same
iteration, and sent as its numeral. -/
structure CoarseStep (env : MainEnv D) (setpoint : ℤ) : Prop where
  range : 0 ≤ setpoint ∧ setpoint ≤ coarseRangeMax
  step : ∃ coarse, env.ctrl.coarseCtrl = some coarse ∧ |setpoint - coarse| = 1
  sent : SentAsNumeral setpoint

/-- **The law of the coarse steps.** -/
def CoarseStepsLaw (cfg : MainConfig) (o : ObservedMain D) (e : MainEnv D × MonitoringRequest) :
    Prop :=
  o.running = true →
    ∀ setpoint ∈ requestedSetpoints (mainIteration cfg e.1 o.main e.2).effects,
      CoarseStep e.1 setpoint

/-- No increment is carried out at the upper end of the range, and no decrement at the lower
end. The coarse value is the one read in the iteration. -/
def CoarseStepsKept (cfg : MainConfig) (o : ObservedMain D) (e : MainEnv D × MonitoringRequest) :
    Prop :=
  o.running = true → ReachesSwitch cfg e.1 o.main →
    (e.2 = .mroCoarseInc → ∃ coarse, e.1.ctrl.coarseCtrl = some coarse ∧ coarse ≠ coarseRangeMax) ∧
      (e.2 = .mroCoarseDec → ∃ coarse, e.1.ctrl.coarseCtrl = some coarse ∧ coarse ≠ 0)

/-- The coarse value, where it is read, is in the range. -/
def CoarseReadInRange (_ : ObservedMain D) (e : MainEnv D × MonitoringRequest) : Prop :=
  ∀ coarse, e.1.ctrl.coarseCtrl = some coarse → 0 ≤ coarse ∧ coarse ≤ coarseRangeMax

/-- A setpoint of the range, one away from what was read, is a coarse step. -/
theorem coarseStep_of_abs {coarse setpoint : ℤ} (hcoarse : env.ctrl.coarseCtrl = some coarse)
    (hlo : 0 ≤ setpoint) (hhi : setpoint ≤ coarseRangeMax) (hone : |setpoint - coarse| = 1) :
    CoarseStep env setpoint := by
  rw [coarseRangeMax] at hhi
  exact ⟨⟨hlo, hhi⟩, ⟨coarse, hcoarse, hone⟩, sentAsNumeral hlo (by omega)⟩

/-- One step up from a value of the range. -/
theorem coarseStep_inc_iff {coarse : ℤ} (hcoarse : env.ctrl.coarseCtrl = some coarse)
    (hlo : 0 ≤ coarse) (hhi : coarse ≤ coarseRangeMax) :
    CoarseStep env (toUnsigned 32 (coarse + 1)) ↔ coarse ≠ coarseRangeMax := by
  rw [coarseRangeMax] at hhi
  have hwrap : toUnsigned 32 (coarse + 1) = coarse + 1 := Int.emod_eq_of_lt (by omega) (by omega)
  rw [hwrap]
  constructor
  · intro h hmax
    have hrange := h.range.2
    rw [hmax] at hrange
    omega
  · intro hmax
    rw [coarseRangeMax] at hmax
    exact coarseStep_of_abs hcoarse (by omega) (by rw [coarseRangeMax]; omega) (by simp)

/-- One step down from a value of the range. -/
theorem coarseStep_dec_iff {coarse : ℤ} (hcoarse : env.ctrl.coarseCtrl = some coarse)
    (hlo : 0 ≤ coarse) (hhi : coarse ≤ coarseRangeMax) :
    CoarseStep env (toUnsigned 32 (coarse - 1)) ↔ coarse ≠ 0 := by
  rw [coarseRangeMax] at hhi
  constructor
  · intro h hzero
    -- the step wraps
    have hrange := h.range
    rw [hzero] at hrange
    exact absurd hrange (by decide)
  · intro hzero
    have hwrap : toUnsigned 32 (coarse - 1) = coarse - 1 :=
      Int.emod_eq_of_lt (by omega) (by omega)
    rw [hwrap]
    exact coarseStep_of_abs hcoarse (by omega) (by rw [coarseRangeMax]; omega) (by simp)

/-- A setpoint is no step where the driver has left the coarse value alone. -/
theorem not_coarseStep_of_none (hnone : env.ctrl.coarseCtrl = none) (setpoint : ℤ) :
    ¬ CoarseStep env setpoint := by
  intro h
  obtain ⟨coarse, hcoarse, -⟩ := h.step
  rw [hnone] at hcoarse
  cases hcoarse

/-- The setpoint built for a request is a coarse step exactly away from the ends. -/
theorem coarseStep_iff (ctrlValues : OscillatorCtrl)
    (hrange : ∀ coarse, env.ctrl.coarseCtrl = some coarse →
      0 ≤ coarse ∧ coarse ≤ coarseRangeMax) :
    (∀ setpoint ∈ (request.coarseSetpoint (env.ctrl.store ctrlValues).coarseCtrl).toList,
        CoarseStep env setpoint) ↔
      (request = .mroCoarseInc → ∃ coarse, env.ctrl.coarseCtrl = some coarse ∧
          coarse ≠ coarseRangeMax) ∧
        (request = .mroCoarseDec → ∃ coarse, env.ctrl.coarseCtrl = some coarse ∧ coarse ≠ 0) := by
  rcases hcoarse : env.ctrl.coarseCtrl with _ | coarse
  · have hnot := not_coarseStep_of_none hcoarse
    cases request <;> simp [MonitoringRequest.coarseSetpoint, hnot]
  · obtain ⟨hlo, hhi⟩ := hrange coarse hcoarse
    have hinc := coarseStep_inc_iff hcoarse hlo hhi
    have hdec := coarseStep_dec_iff hcoarse hlo hhi
    cases request <;> simp [MonitoringRequest.coarseSetpoint, CtrlReply.store, hcoarse, hinc, hdec]

/-- **The step of the law**, in an iteration whose reading is in the range. -/
theorem coarseStepsLaw_iff {o : ObservedMain D} {e : MainEnv D × MonitoringRequest}
    (hrange : CoarseReadInRange o e) : CoarseStepsLaw cfg o e ↔ CoarseStepsKept cfg o e := by
  refine imp_congr_right fun _ => ?_
  by_cases hreaches : ReachesSwitch cfg e.1 o.main
  · rw [requestedSetpoints_of_reaches hreaches, coarseStep_iff o.main.ctrlValues hrange]
    simp only [hreaches, true_imp_iff]
  · rw [requestedSetpoints_of_not_reaches hreaches]
    simp [hreaches]

/-- **Coarse steps.** Over every run of the main loop whose coarse values are read in the range,
with any requests and any failures of the calls: every setpoint built for a request is in the
range, one away from the value just read and sent as its numeral, exactly when no increment is
carried out at the upper end of the range and no decrement at the lower one. -/
theorem coarseStepsLaw_eachStep_iff (cfg : MainConfig) (dscParams : D)
    (ctrlValues : OscillatorCtrl) (start : ℤ) (es : List (MainEnv D × MonitoringRequest))
    (hrange : ∀ e ∈ es, ∀ coarse, e.1.ctrl.coarseCtrl = some coarse →
      0 ≤ coarse ∧ coarse ≤ coarseRangeMax) :
    EachStep (observedMainStep cfg) (CoarseStepsLaw cfg)
        (observedMainStart dscParams ctrlValues start) es ↔
      EachStep (observedMainStep cfg) (CoarseStepsKept cfg)
        (observedMainStart dscParams ctrlValues start) es := by
  have hread : EachStep (observedMainStep cfg) CoarseReadInRange
      (observedMainStart dscParams ctrlValues start) es := by
    intro pre e hpre
    exact hrange e (hpre.subset (by simp))
  exact eachStep_congr_of_eachStep hread fun o e h => coarseStepsLaw_iff h

/-! ### The lower end -/

/-- The daemon without disciplining, with monitoring. -/
def mainConfigCoarse : MainConfig :=
  { discipliningMode := false, monitoringMode := true, phaseErrorSupported := false, sign := 1 }

/-- An iteration that reads this coarse value. -/
def mainEnvCoarse (coarseCtrl : ℤ) : MainEnv Unit :=
  { mainEnvCalibrate 0 0 with
    ctrl := { succeeded := true, fineCtrl := some 2400, coarseCtrl := some coarseCtrl } }

/-- A step up and a step down, inside the range. -/
theorem coarseSteps_up_down :
    EachStep (observedMainStep mainConfigCoarse) (CoarseStepsLaw mainConfigCoarse)
        (observedMainStart () ⟨0, 0⟩ 0)
        [(mainEnvCoarse 4194302, .mroCoarseInc), (mainEnvCoarse 1, .mroCoarseDec)] ↔
      EachStep (observedMainStep mainConfigCoarse) (CoarseStepsKept mainConfigCoarse)
        (observedMainStart () ⟨0, 0⟩ 0)
        [(mainEnvCoarse 4194302, .mroCoarseInc), (mainEnvCoarse 1, .mroCoarseDec)] :=
  coarseStepsLaw_eachStep_iff mainConfigCoarse () ⟨0, 0⟩ 0 _ (by decide)

/-- A step down from zero: the oscillator is sent `FFFFFFFF`. -/
theorem coarseSteps_fails_zero :
    ¬ EachStep (observedMainStep mainConfigCoarse) (CoarseStepsLaw mainConfigCoarse)
        (observedMainStart () ⟨0, 0⟩ 0) [(mainEnvCoarse 0, .mroCoarseDec)] := by
  intro h
  have hstep := h [] _ (List.prefix_refl _) rfl 4294967295 (by decide)
  exact absurd hstep.range (by decide)

end Oscillatord
