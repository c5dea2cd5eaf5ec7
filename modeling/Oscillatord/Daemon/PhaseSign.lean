import Oscillatord.Daemon.Effects

/-!
# One sign for the phase error

The configuration may ask for the opposite of what the phasemeter measures. The phase error is
then used in four places: the initial jump of the clock, the input of the disciplining algorithm,
the published data and the measures of a calibration. `UsesSignedPhase` says that all four use the
same signed reading.

The first three do, in every iteration and from every state. The dispatch hands the sign over to
the calibration, but the mRO50 does not apply it (`mRo50OscillatorCalibrate_measures`), so the
measures use the signed reading exactly when the sign does not change it
(`usesSignedPhase_iff`).
-/

namespace Oscillatord

variable {D : Type} {cfg : MainConfig} {env : MainEnv D} {st : MainState D}
  {request : MonitoringRequest}

/-! ### The reading the iteration works on -/

/-- The action of the algorithm leaves the attributes and the control values of the oscillator
alone. -/
theorem measured_applyAction (cfg : MainConfig) (env : MainEnv D) (st : MainState D)
    (output : OdOutput) :
    (applyAction cfg env st output).1.oscAttr = st.oscAttr ∧
      (applyAction cfg env st output).1.ctrlValues = st.ctrlValues := by
  obtain ⟨action, setpoint, valuePhaseCtrl⟩ := output
  cases action
  case phaseJump =>
    simp only [applyAction]
    split_ifs <;> exact ⟨rfl, rfl⟩
  case calibrate =>
    simp only [applyAction]
    split
    · exact ⟨rfl, rfl⟩
    · split <;> exact ⟨rfl, rfl⟩
  all_goals exact ⟨rfl, rfl⟩

/-- The block of the algorithm does too. -/
theorem measured_process (cfg : MainConfig) (env : MainEnv D) (st : MainState D) :
    (process cfg env st).1.oscAttr = st.oscAttr ∧
      (process cfg env st).1.ctrlValues = st.ctrlValues := by
  simp only [process]
  rcases env.odProcess with _ | output
  · exact ⟨rfl, rfl⟩
  have hmeasured := measured_applyAction cfg env { st with input := odInputZero } output
  rcases happly : applyAction cfg env { st with input := odInputZero } output
    with ⟨st', effects, flow⟩
  rw [happly] at hmeasured
  simp only [happly]
  have hperiodic : (periodicSave env st').1.oscAttr = st'.oscAttr ∧
      (periodicSave env st').1.ctrlValues = st'.ctrlValues := by
    rw [periodicSave]
    split_ifs <;> exact ⟨rfl, rfl⟩
  cases flow
  case proceed => exact ⟨hperiodic.1.trans hmeasured.1, hperiodic.2.trans hmeasured.2⟩
  all_goals exact hmeasured

/-- What the algorithm is about to be given is the signed reading of this iteration, split into
seconds and nanoseconds. -/
theorem acquire_proceed {st' : MainState D} (h : acquire cfg env st = (st', .proceed)) :
    st'.oscAttr.phaseError = env.phasemeter.phaseError ∧
      st'.input.phaseError = ⟨(cfg.sign * env.phasemeter.phaseError).tdiv nsInSecond,
        (cfg.sign * env.phasemeter.phaseError).tmod nsInSecond⟩ := by
  obtain ⟨-, -, epoch, oscAttr, -, hattributes, rfl⟩ := acquire_eq_proceed_iff.mp h
  have hphase : oscAttr.phaseError = env.phasemeter.phaseError :=
    phaseError_parseAttributes hattributes
  exact ⟨hphase, by simp only [acquired, fillInput, hphase]⟩

/-- The monitoring block publishes the signed phase. -/
theorem monitoringPart_effects (hmode : cfg.discipliningMode = true) :
    ∀ effect ∈ (monitoringPart cfg env st request).2.2,
      effect.processed = none ∧ effect.calibrated = none ∧
        ∀ attributes, effect.published = some attributes →
          attributes.phaseError = cfg.sign * st.oscAttr.phaseError := by
  intro effect hmem
  rw [monitoringPart] at hmem
  split_ifs at hmem
  · simp only [publishedData, hmode, if_true, List.mem_cons] at hmem
    rcases hmem with rfl | rfl | hmem
    · refine ⟨rfl, rfl, fun attributes h => ?_⟩
      rw [← Option.some.inj h, mul_comm]
    · exact ⟨rfl, rfl, fun _ h => by cases h⟩
    · obtain ⟨hprocessed, hpublished, -, hcalibrated⟩ :=
        executeRequest_effects _ request effect hmem
      exact ⟨hprocessed, hcalibrated, by simp [hpublished]⟩
  · cases hmem

/-- An effect that uses the reading of its iteration with the sign of the daemon: as the input of
the algorithm, split into seconds and nanoseconds; as the published phase; and by handing the sign
over to the calibration of the oscillator. -/
structure MainEffect.Signed (cfg : MainConfig) (env : MainEnv D) (effect : MainEffect D) :
    Prop where
  processed : ∀ input, effect.processed = some input →
    input.phaseError = ⟨(cfg.sign * env.phasemeter.phaseError).tdiv nsInSecond,
      (cfg.sign * env.phasemeter.phaseError).tmod nsInSecond⟩
  published : ∀ attributes, effect.published = some attributes →
    attributes.phaseError = cfg.sign * env.phasemeter.phaseError
  calibrated : ∀ calibration, effect.calibrated = some calibration →
    calibration.2 = oscillatorCalibrate env.calibrate calibration.1 cfg.sign

/-- **The effects of an iteration in disciplining mode** use its reading with the sign of the
daemon. -/
theorem mainIteration_signed (hmode : cfg.discipliningMode = true) :
    ∀ effect ∈ (mainIteration cfg env st request).effects, effect.Signed cfg env := by
  intro effect hmem
  simp only [mainIteration, hmode, if_true] at hmem
  rcases hacquire : acquire cfg env st with ⟨st', flow⟩
  rw [hacquire] at hmem
  cases flow
  case proceed =>
    obtain ⟨hphase, hinput⟩ := acquire_proceed hacquire
    have huses := process_uses cfg env st'
    have hattr := (measured_process cfg env st').1
    rcases hprocess : process cfg env st' with ⟨st'', effects, flow⟩
    rw [hprocess] at huses hattr
    simp only [hprocess] at hmem
    -- one call of the step, and what the action it asked for does: the phase is the one acquired
    have hpart : effect ∈ effects → effect.Signed cfg env := by
      intro hmem
      obtain ⟨hprocessed, hpublished, -, -, hcalibrated⟩ := huses effect hmem
      refine ⟨fun input h => ?_, by simp [hpublished], hcalibrated⟩
      rw [← Option.some.inj (hprocessed input h), hinput]
    cases flow
    case proceed =>
      rcases List.mem_append.mp hmem with hmem | hmem
      · exact hpart hmem
      · obtain ⟨hprocessed, hcalibrated, hpublished⟩ := monitoringPart_effects hmode effect hmem
        refine ⟨by simp [hprocessed], fun attributes h => ?_, by simp [hcalibrated]⟩
        rw [hpublished attributes h, hattr, hphase]
    all_goals exact hpart hmem
  -- an iteration that leaves before the step has no effects
  all_goals simp [finishIteration] at hmem

/-- The initial jump is the opposite of the first signed reading with both timestamps. -/
theorem initialPhaseJump_append (sign : ℤ) {before after : List Phasemeter}
    {reading : Phasemeter} (hbefore : ∀ r ∈ before, r.status ≠ .bothTimestamps)
    (hstatus : reading.status = .bothTimestamps) :
    initialPhaseJump sign (before ++ reading :: after)
      = some (applyPhaseOffset (-reading.phaseError * sign)) := by
  induction before with
  | nil => simp [initialPhaseJump, hstatus]
  | cons r before ih =>
    have hr : r.status ≠ .bothTimestamps := hbefore r (by simp)
    rw [List.cons_append, initialPhaseJump, if_neg hr]
    exact ih fun r' h' => hbefore r' (by simp [h'])

/-! ### The law -/

/-- **One sign everywhere.** The reading `p` of the phasemeter is used as `s * p`, where `s` is the
sign of the configuration: by the initial jump, by the input of the algorithm, by what is
published, and by every measure an mRO50 stores for it with the quantization error `q`. -/
structure UsesSignedPhase (D : Type) (oppositePhaseError : Bool) (p q : ℤ) : Prop where
  initialJump : ∀ before after, (∀ r ∈ before, r.status ≠ .bothTimestamps) →
    ∃ timex, initialPhaseJump (discipliningSign oppositePhaseError)
        (before ++ ⟨.bothTimestamps, p⟩ :: after) = some timex ∧
      timex.offset = -(discipliningSign oppositePhaseError * p)
  tracking : ∀ (cfg : MainConfig) (env : MainEnv D) (st : MainState D)
    (request : MonitoringRequest) (input : OdInput),
    cfg.discipliningMode = true → cfg.sign = discipliningSign oppositePhaseError →
    env.phasemeter.phaseError = p →
    .odProcess input ∈ (mainIteration cfg env st request).effects →
    input.phaseError.tvSec * nsInSecond + input.phaseError.tvNsec
        = discipliningSign oppositePhaseError * p ∧ |input.phaseError.tvNsec| < nsInSecond
  publication : ∀ (cfg : MainConfig) (env : MainEnv D) (st : MainState D)
    (request : MonitoringRequest) (attributes : OscillatorAttributes) (ctrl : OscillatorCtrl)
    (disciplining : OdMonitoring),
    cfg.discipliningMode = true → cfg.sign = discipliningSign oppositePhaseError →
    env.phasemeter.phaseError = p →
    .publish attributes ctrl disciplining ∈ (mainIteration cfg env st request).effects →
    attributes.phaseError = discipliningSign oppositePhaseError * p
  calibration : ∀ (cfg : MainConfig) (env : MainEnv D) (st : MainState D)
    (request : MonitoringRequest) (calibration : CalibrationEnv)
    (calibParams : CalibrationParameters) (results : CalibrationResults) (i j : ℕ) (measure : ℚ),
    cfg.discipliningMode = true → cfg.sign = discipliningSign oppositePhaseError →
    env.calibrate = some (mRo50OscillatorCalibrate calibration) →
    .calibrate calibParams (some results) ∈ (mainIteration cfg env st request).effects →
    i < calibParams.length → j < calibParams.nbCalibration →
    (calibration.reading i j).phasemeter.phaseError = p →
    (calibration.reading i j).qErr = some q →
    results.measures[i * calibParams.nbCalibration + j]? = some measure →
    measure = calibrationMeasure (discipliningSign oppositePhaseError * p) q

/-- The daemon itself uses the signed reading: only the measures of a calibration may not. -/
theorem usesSignedPhase_of_measure {oppositePhaseError : Bool} {p q : ℤ}
    (h : calibrationMeasure p q
      = calibrationMeasure (discipliningSign oppositePhaseError * p) q) :
    UsesSignedPhase D oppositePhaseError p q := by
  constructor
  · intro before after hbefore
    refine ⟨_, initialPhaseJump_append _ hbefore rfl, ?_⟩
    rw [offset_applyPhaseOffset]
    ring
  · intro cfg env st request input hmode hsign hphase hmem
    have hinput := (mainIteration_signed hmode _ hmem).processed input rfl
    -- whole seconds and the rest make up the phase, and the rest is below a second
    have hsplit := Int.mul_tdiv_add_tmod (cfg.sign * env.phasemeter.phaseError) nsInSecond
    rw [hsign, hphase] at hinput hsplit
    rw [hinput]
    refine ⟨by linarith, abs_lt.mpr ⟨?_, ?_⟩⟩
    · exact Int.lt_tmod_of_pos _ (by decide)
    · exact Int.tmod_lt_of_pos _ (by decide)
  · intro cfg env st request attributes ctrl disciplining hmode hsign hphase hmem
    rw [(mainIteration_signed hmode _ hmem).published attributes rfl, hsign, hphase]
  · intro cfg env st request calibration calibParams results i j measure hmode hsign hcalibrate
      hmem hi hj hphase hqErr hmeasure
    have hresults := (mainIteration_signed hmode _ hmem).calibrated _ rfl
    rw [hcalibrate] at hresults
    have hsome : mRo50OscillatorCalibrate calibration calibParams cfg.sign = some results :=
      hresults.symm
    obtain ⟨measure', hstored, htaken⟩ := mRo50OscillatorCalibrate_measures hsome hi hj
    obtain ⟨-, -, q', hq', rfl⟩ := takeMeasure_eq_some_iff.mp htaken
    rw [hqErr] at hq'
    rw [hmeasure] at hstored
    rw [Option.some.inj hstored, ← Option.some.inj hq', hphase, h]

/-! ### A calibration of one measure -/

/-- A calibration that meets one reading, again and again. -/
def calibrationOf (p q : ℤ) : CalibrationEnv :=
  { allocated := true
    point := fun _ => { loop := true, applyOutput := fun _ => 0 }
    reading := fun _ _ => { loop := true, phasemeter := ⟨.bothTimestamps, p⟩, qErr := some q } }

/-- One measure at one control point. -/
def calibrationParametersOne : CalibrationParameters :=
  { ctrlPoints := [2400], length := 1, nbCalibration := 1 }

/-- The daemon in disciplining mode, about to enter its loop. -/
def mainConfigDisciplining (oppositePhaseError : Bool) : MainConfig :=
  { discipliningMode := true, monitoringMode := false, phaseErrorSupported := true
    sign := discipliningSign oppositePhaseError }

/-- An iteration in which the algorithm asks for a calibration. -/
def mainEnvCalibrate (p q : ℤ) : MainEnv D :=
  { phasemeter := ⟨.bothTimestamps, p⟩
    epochData := some ⟨true, true, q⟩
    attributes := .read 40 true
    ctrl := { succeeded := true, fineCtrl := some 2400, coarseCtrl := some 2000000 }
    odProcess := some ⟨.calibrate, 0, 0⟩
    clockAdjusted := true
    calibrationParameters := some calibrationParametersOne
    calibrate := some (mRo50OscillatorCalibrate (calibrationOf p q))
    loopAfterCalibrate := true
    odGetDiscipliningParameters := id
    endSaveEepromParameters := 0
    fixInfo := (true, ⟨0, 0⟩)
    odGetMonitoringData := none
    oscillatorPhaseError := id
    oscillatorDiscipliningStatus := id }

/-- The results of the calibration. -/
def calibrationResultsOne (p q : ℤ) : CalibrationResults :=
  { measures := [calibrationMeasure p q], length := 1, nbCalibration := 1 }

theorem mRo50OscillatorCalibrate_one (p q phaseSign : ℤ) :
    mRo50OscillatorCalibrate (calibrationOf p q) calibrationParametersOne phaseSign
      = some (calibrationResultsOne p q) := rfl

theorem calibrate_mem_mainIteration (dscParams : D) (oppositePhaseError : Bool) (p q : ℤ) :
    .calibrate calibrationParametersOne (some (calibrationResultsOne p q)) ∈
      (mainIteration (mainConfigDisciplining oppositePhaseError) (mainEnvCalibrate p q)
        (mainStateZero dscParams) .none).effects := by
  have hcalibrate : oscillatorCalibrate (some (mRo50OscillatorCalibrate (calibrationOf p q)))
      calibrationParametersOne (discipliningSign oppositePhaseError)
        = some (calibrationResultsOne p q) :=
    mRo50OscillatorCalibrate_one p q (discipliningSign oppositePhaseError)
  simp [mainIteration, mainConfigDisciplining, mainEnvCalibrate, mainStateZero, acquire,
    parseAttributes, process, applyAction, hcalibrate, finishIteration, periodicSave]

/-- The law asks of a measure that it be the one of the signed reading. -/
theorem UsesSignedPhase.measure {oppositePhaseError : Bool} {p q : ℤ} (dscParams : D)
    (h : UsesSignedPhase D oppositePhaseError p q) :
    calibrationMeasure p q = calibrationMeasure (discipliningSign oppositePhaseError * p) q :=
  h.calibration (mainConfigDisciplining oppositePhaseError) (mainEnvCalibrate p q)
    (mainStateZero dscParams) .none (calibrationOf p q) calibrationParametersOne
    (calibrationResultsOne p q) 0 0 _ rfl rfl rfl
    (calibrate_mem_mainIteration dscParams oppositePhaseError p q) Nat.one_pos Nat.one_pos rfl rfl
    rfl

/-- **One sign for the phase error.** For every reading of the phasemeter, every quantization
error and both settings of the configuration, the reading is used with the sign of the
configuration everywhere exactly when the configuration does not ask for the opposite or the
reading is zero. -/
theorem usesSignedPhase_iff (dscParams : D) (oppositePhaseError : Bool) (p q : Int32) :
    UsesSignedPhase D oppositePhaseError p.toInt q.toInt ↔
      oppositePhaseError = false ∨ p.toInt = 0 := by
  have hlo : -2 ^ 31 ≤ q.toInt := q.le_toInt
  have hhi : q.toInt ≤ 2 ^ 31 := q.toInt_lt.le
  constructor
  · intro h
    have hmeasure := h.measure dscParams
    cases oppositePhaseError
    · exact .inl rfl
    · rw [discipliningSign, if_pos rfl, neg_one_mul] at hmeasure
      exact .inr ((calibrationMeasure_neg_eq_iff hlo hhi).mp hmeasure)
  · rintro (rfl | hzero)
    · refine usesSignedPhase_of_measure ?_
      rw [discipliningSign, if_neg Bool.false_ne_true, one_mul]
    · refine usesSignedPhase_of_measure ?_
      rw [hzero, mul_zero]

/-- With the opposite asked for, a reading of 100 ns is stored as it is. -/
theorem usesSignedPhase_fails_opposite : ¬ UsesSignedPhase Unit true 100 0 := by
  intro h
  have hmeasure := h.measure ()
  rw [discipliningSign, if_pos rfl, neg_one_mul] at hmeasure
  have hzero := (calibrationMeasure_neg_eq_iff (by decide) (by decide)).mp hmeasure
  exact absurd hzero (by decide)

end Oscillatord
