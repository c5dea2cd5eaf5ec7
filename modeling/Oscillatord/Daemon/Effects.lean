import Oscillatord.Daemon.MainLoop

/-!
# What an iteration of the main loop does

The effects of an iteration, block by block. Five kinds of effect matter to the rest of the
daemon, and a selector picks each: the input handed to the disciplining algorithm, the published
attributes, the calibrations, the requests taken from the slot, and the actions handed to the GNSS
thread. Outside the monitoring block no effect publishes, takes a request or hands out an action,
and the only input and the only calibration an effect uses are those `MainEffect.Uses` names.
-/

namespace Oscillatord

variable {D : Type} {cfg : MainConfig} {env : MainEnv D} {st : MainState D}

/-! ### Selectors -/

/-- The input an effect hands to the algorithm. -/
def MainEffect.processed : MainEffect D → Option OdInput
  | .odProcess input => some input
  | _ => none

/-- The attributes an effect publishes. -/
def MainEffect.published : MainEffect D → Option OscillatorAttributes
  | .publish attributes _ _ => some attributes
  | _ => none

/-- The calibration an effect stands for. -/
def MainEffect.calibrated :
    MainEffect D → Option (CalibrationParameters × Option CalibrationResults)
  | .calibrate calibParams results => some (calibParams, results)
  | _ => none

/-- The request an effect takes from the slot, when it asks for an action. -/
def MainEffect.taken : MainEffect D → Option MonitoringRequest
  | .takeRequest request => if request.isAction then some request else none
  | _ => none

/-- The action an effect hands to the GNSS thread. -/
def MainEffect.gnssAction : MainEffect D → Option GnssAction
  | .gnssSetAction action => some action
  | _ => none

@[simp] theorem taken_publish (attributes : OscillatorAttributes) (ctrl : OscillatorCtrl)
    (disciplining : OdMonitoring) :
    (MainEffect.publish (D := D) attributes ctrl disciplining).taken = none := rfl

@[simp] theorem taken_takeRequest (request : MonitoringRequest) :
    (MainEffect.takeRequest (D := D) request).taken
      = if request.isAction then some request else none := rfl

/-- What an effect outside the monitoring block may use: the input `input` for the algorithm, if
any, and the calibration of the oscillator, with the sign of the daemon. -/
structure MainEffect.Uses (cfg : MainConfig) (env : MainEnv D) (input : Option OdInput)
    (effect : MainEffect D) : Prop where
  processed : ∀ i, effect.processed = some i → input = some i
  published : effect.published = none
  taken : effect.taken = none
  gnssAction : effect.gnssAction = none
  calibrated : ∀ calibration, effect.calibrated = some calibration →
    calibration.2 = oscillatorCalibrate env.calibrate calibration.1 cfg.sign

/-- An effect of another kind. -/
theorem MainEffect.Uses.of_none {input : Option OdInput} {effect : MainEffect D}
    (hprocessed : effect.processed = none) (hpublished : effect.published = none)
    (htaken : effect.taken = none) (hgnssAction : effect.gnssAction = none)
    (hcalibrated : effect.calibrated = none) : effect.Uses cfg env input :=
  ⟨by simp [hprocessed], hpublished, htaken, hgnssAction, by simp [hcalibrated]⟩

theorem MainEffect.Uses.calibrate {input : Option OdInput} (calibParams : CalibrationParameters) :
    MainEffect.Uses cfg env input (.calibrate calibParams
      (oscillatorCalibrate env.calibrate calibParams cfg.sign)) :=
  ⟨fun _ h => (by cases h), rfl, rfl, rfl, fun _ h => (by rw [← Option.some.inj h])⟩

/-! ### What is read -/

/-- Reading the attributes does not touch the phase. -/
theorem phaseError_parseAttributes {oscAttr oscAttr' : OscillatorAttributes}
    {reply : AttributesReply} (h : parseAttributes oscAttr reply = some oscAttr') :
    oscAttr'.phaseError = oscAttr.phaseError := by
  cases reply with
  | notImplemented => rw [← Option.some.inj h]
  | failed => cases h
  | read temperature locked => rw [← Option.some.inj h]

/-- The local variables once everything the algorithm is given has been read. -/
def acquired (cfg : MainConfig) (env : MainEnv D) (st : MainState D) (epoch : EpochData)
    (oscAttr : OscillatorAttributes) : MainState D :=
  let input := { st.input with
    valid := epoch.valid, surveyCompleted := epoch.survey, qErr := epoch.qErr }
  let ctrlValues := env.ctrl.store st.ctrlValues
  { st with
    oscAttr, ctrlValues
    input := fillInput cfg { st with oscAttr, ctrlValues, input } env.phasemeter.status }

/-- The input is handed over exactly when everything was read and no reading is to be skipped. -/
theorem acquire_eq_proceed_iff {st' : MainState D} :
    acquire cfg env st = (st', .proceed) ↔
      st.ignoreNextIrq = false ∧ env.ctrl.succeeded = true ∧ ∃ epoch oscAttr,
        env.epochData = some epoch ∧
        parseAttributes { st.oscAttr with phaseError := env.phasemeter.phaseError }
            env.attributes = some oscAttr ∧
          st' = acquired cfg env st epoch oscAttr := by
  simp only [acquire]
  rcases hepoch : env.epochData with _ | epoch
  · simp
  rcases hattributes : parseAttributes
      { st.oscAttr with phaseError := env.phasemeter.phaseError } env.attributes with _ | oscAttr
  · simp
  cases hctrl : env.ctrl.succeeded
  · simp
  cases hignore : st.ignoreNextIrq
  · simp [hignore, acquired, eq_comm]
  · simp

theorem exists_parseAttributes_iff (oscAttr : OscillatorAttributes) {reply : AttributesReply} :
    (∃ read, parseAttributes oscAttr reply = some read) ↔ reply ≠ .failed := by
  cases reply <;> simp [parseAttributes]

variable (cfg env st) in
/-- What has to be read before the algorithm runs. -/
theorem acquire_proceed_iff :
    (acquire cfg env st).2 = .proceed ↔ env.attributes ≠ .failed ∧ env.ctrl.succeeded = true ∧
      st.ignoreNextIrq = false ∧ env.epochData ≠ none := by
  rw [← exists_parseAttributes_iff { st.oscAttr with phaseError := env.phasemeter.phaseError }]
  constructor
  · intro h
    obtain ⟨hignore, hctrl, epoch, oscAttr, hepoch, hattributes, -⟩ :=
      acquire_eq_proceed_iff.mp (Prod.ext rfl h :
        acquire cfg env st = ((acquire cfg env st).1, .proceed))
    exact ⟨⟨oscAttr, hattributes⟩, hctrl, hignore, by simp [hepoch]⟩
  · rintro ⟨⟨oscAttr, hattributes⟩, hctrl, hignore, hepoch⟩
    obtain ⟨epoch, hepoch⟩ := Option.ne_none_iff_exists'.mp hepoch
    rw [acquire_eq_proceed_iff.mpr ⟨hignore, hctrl, epoch, oscAttr, hepoch, hattributes, rfl⟩]

/-! ### The blocks -/

theorem executeRequest_effects (st : MainState D) (request : MonitoringRequest) :
    ∀ effect ∈ (executeRequest st request).2,
      effect.processed = none ∧ effect.published = none ∧ effect.taken = none ∧
        effect.calibrated = none := by
  cases request <;>
    simp [executeRequest, MainEffect.processed, MainEffect.published, MainEffect.taken,
      MainEffect.calibrated]

theorem monitorOnly_uses (cfg : MainConfig) (env : MainEnv D) (st : MainState D) :
    ∀ effect ∈ (monitorOnly cfg env st).2.1, effect.Uses cfg env none := by
  have hpushed : ∀ effect ∈ (if cfg.phaseErrorSupported then
      [MainEffect.pushGnssInfo (D := D) env.fixInfo.1 env.fixInfo.2] else []),
      effect.Uses cfg env none := by
    intro effect hmem
    split_ifs at hmem
    · obtain rfl := List.mem_singleton.mp hmem
      exact .of_none rfl rfl rfl rfl rfl
    · cases hmem
  simp only [monitorOnly]
  rcases parseAttributes st.oscAttr env.attributes with _ | oscAttr
  · simp
  · exact hpushed

theorem periodicSave_uses (cfg : MainConfig) (env : MainEnv D) (st : MainState D)
    (input : Option OdInput) :
    ∀ effect ∈ (periodicSave env st).2, effect.Uses cfg env input := by
  intro effect hmem
  rw [periodicSave] at hmem
  split_ifs at hmem
  · obtain rfl := List.mem_singleton.mp hmem
    exact .of_none rfl rfl rfl rfl rfl
  · cases hmem

/-- The only calibration the daemon asks for is the one of its oscillator, with its sign. -/
theorem applyAction_uses (cfg : MainConfig) (env : MainEnv D) (st : MainState D)
    (output : OdOutput) (input : Option OdInput) :
    ∀ effect ∈ (applyAction cfg env st output).2.1, effect.Uses cfg env input := by
  obtain ⟨action, setpoint, valuePhaseCtrl⟩ := output
  intro effect hmem
  cases action
  case phaseJump =>
    simp only [applyAction] at hmem
    split_ifs at hmem
    all_goals
      obtain rfl := List.mem_singleton.mp hmem
      exact .of_none rfl rfl rfl rfl rfl
  case calibrate =>
    -- the publication is made whatever the calibration returns
    have hpublish : ∀ effect : MainEffect D,
        effect ∈ (if cfg.monitoringMode then [.publishDisciplining] else []) →
          effect.Uses cfg env input := by
      intro effect hmem
      split_ifs at hmem
      · obtain rfl := List.mem_singleton.mp hmem
        exact .of_none rfl rfl rfl rfl rfl
      · cases hmem
    simp only [applyAction] at hmem
    rcases hparams : env.calibrationParameters with _ | calibParams
    · simp only [hparams] at hmem
      exact hpublish effect hmem
    · have huses : MainEffect.Uses cfg env input (.calibrate calibParams
          (oscillatorCalibrate env.calibrate calibParams cfg.sign)) := .calibrate calibParams
      rcases hresults : oscillatorCalibrate env.calibrate calibParams cfg.sign with _ | results
      all_goals
        rw [hresults] at huses
        simp only [hparams, hresults] at hmem
        rcases List.mem_append.mp hmem with hmem | hmem
        · exact hpublish effect hmem
        · exact List.mem_singleton.mp hmem ▸ huses
  case saveDiscipliningParameters =>
    simp only [applyAction, List.mem_cons, List.not_mem_nil, or_false] at hmem
    rcases hmem with rfl | rfl <;> exact .of_none rfl rfl rfl rfl rfl
  case noOp => cases hmem
  all_goals
    obtain rfl := List.mem_singleton.mp hmem
    exact .of_none rfl rfl rfl rfl rfl

/-- The block of the algorithm hands over the input it is given. -/
theorem process_uses (cfg : MainConfig) (env : MainEnv D) (st : MainState D) :
    ∀ effect ∈ (process cfg env st).2.1, effect.Uses cfg env (some st.input) := by
  intro effect hmem
  have hcalled : MainEffect.Uses cfg env (some st.input) (.odProcess st.input) :=
    ⟨fun _ h => h, rfl, rfl, rfl, fun _ h => by cases h⟩
  simp only [process] at hmem
  rcases hprocess : env.odProcess with _ | output
  · simp only [hprocess] at hmem
    exact List.mem_singleton.mp hmem ▸ hcalled
  simp only [hprocess] at hmem
  have heffects := applyAction_uses cfg env { st with input := odInputZero } output (some st.input)
  rcases happly : applyAction cfg env { st with input := odInputZero } output
    with ⟨st', effects, flow⟩
  rw [happly] at heffects
  simp only [happly] at hmem
  -- the part of the effects that every way out of the step has
  have hpart : effect ∈ [MainEffect.odProcess st.input] ++ effects →
      effect.Uses cfg env (some st.input) := by
    intro hmem
    rcases List.mem_append.mp hmem with hmem | hmem
    · exact List.mem_singleton.mp hmem ▸ hcalled
    · exact heffects effect hmem
  cases flow
  case proceed =>
    rcases List.mem_append.mp hmem with hmem | hmem
    · exact hpart hmem
    · exact periodicSave_uses cfg env st' _ effect hmem
  all_goals exact hpart hmem

/-- **The effects of an iteration**: those of its first block, and then those of the monitoring
block when it is reached. -/
theorem mainIteration_effects (cfg : MainConfig) (env : MainEnv D) (st : MainState D)
    (request : MonitoringRequest) :
    ∃ body input, (∀ effect ∈ body, MainEffect.Uses cfg env input effect) ∧
      (((mainIteration cfg env st request).effects = body ∧
          (mainIteration cfg env st request).request = request) ∨
        ∃ st', (mainIteration cfg env st request).effects
              = body ++ (monitoringPart cfg env st' request).2.2 ∧
            (mainIteration cfg env st request).request
              = (monitoringPart cfg env st' request).2.1) := by
  have hfinish : ∀ (body : MainState D × List (MainEffect D) × Flow) (input : Option OdInput),
      (∀ effect ∈ body.2.1, MainEffect.Uses cfg env input effect) →
      ∃ effects input, (∀ effect ∈ effects, MainEffect.Uses cfg env input effect) ∧
        (((finishIteration cfg env request body).effects = effects ∧
            (finishIteration cfg env request body).request = request) ∨
          ∃ st', (finishIteration cfg env request body).effects
                = effects ++ (monitoringPart cfg env st' request).2.2 ∧
              (finishIteration cfg env request body).request
                = (monitoringPart cfg env st' request).2.1) := by
    intro body input huses
    obtain ⟨st', effects, flow⟩ := body
    refine ⟨effects, input, huses, ?_⟩
    cases flow
    case proceed => exact .inr ⟨st', rfl, rfl⟩
    all_goals exact .inl ⟨rfl, rfl⟩
  rw [mainIteration]
  split_ifs
  · rcases acquire cfg env st with ⟨st', flow⟩
    cases flow
    case proceed => exact hfinish _ _ (process_uses cfg env st')
    all_goals exact hfinish (st', [], _) none (by simp)
  · exact hfinish _ _ (monitorOnly_uses cfg env st)

/-! ### The input of the algorithm -/

/-- The monitoring block does not call the algorithm. -/
theorem processed_monitoringPart {request : MonitoringRequest} {effect : MainEffect D}
    (hmem : effect ∈ (monitoringPart cfg env st request).2.2) : effect.processed = none := by
  rw [monitoringPart] at hmem
  split_ifs at hmem
  · rcases List.mem_cons.mp hmem with rfl | hmem
    · rfl
    rcases List.mem_cons.mp hmem with rfl | hmem
    · rfl
    · exact (executeRequest_effects _ request effect hmem).1
  · cases hmem

/-- The end of the body does not call the algorithm. -/
theorem mem_of_mem_finishIteration {request : MonitoringRequest}
    {body : MainState D × List (MainEffect D) × Flow} {effect : MainEffect D} {input : OdInput}
    (hmem : effect ∈ (finishIteration cfg env request body).effects)
    (hinput : effect.processed = some input) : effect ∈ body.2.1 := by
  obtain ⟨st', effects, flow⟩ := body
  cases flow
  case proceed =>
    rcases List.mem_append.mp hmem with hmem | hmem
    · exact hmem
    · rw [processed_monitoringPart hmem] at hinput
      cases hinput
  all_goals exact hmem

/-- **What an iteration hands to the algorithm** is the input it has read, in disciplining mode. -/
theorem acquire_of_processed {request : MonitoringRequest} {effect : MainEffect D}
    {input : OdInput} (hmem : effect ∈ (mainIteration cfg env st request).effects)
    (hinput : effect.processed = some input) :
    cfg.discipliningMode = true ∧ ∃ st', acquire cfg env st = (st', .proceed) ∧
      st'.input = input := by
  have hbody := mem_of_mem_finishIteration hmem hinput
  split_ifs at hbody with hmode
  · refine ⟨hmode, ?_⟩
    rcases hacquire : acquire cfg env st with ⟨st', flow⟩
    rw [hacquire] at hbody
    cases flow
    case proceed =>
      have huses := (process_uses cfg env st' effect hbody).processed input hinput
      exact ⟨st', rfl, Option.some.inj huses⟩
    all_goals cases hbody
  · have huses := (monitorOnly_uses cfg env st effect hbody).processed input hinput
    cases huses

/-- The block of the algorithm calls it first. -/
theorem odProcess_mem_process (cfg : MainConfig) (env : MainEnv D) (st : MainState D) :
    .odProcess st.input ∈ (process cfg env st).2.1 := by
  rw [process]
  rcases env.odProcess with _ | output
  · exact List.mem_singleton.mpr rfl
  · rcases happly : applyAction cfg env { st with input := odInputZero } output
      with ⟨st', effects, flow⟩
    simp only [happly]
    cases flow <;> exact List.mem_cons_self

/-- The effects of the body are effects of the iteration. -/
theorem mem_finishIteration {request : MonitoringRequest} {effect : MainEffect D}
    {body : MainState D × List (MainEffect D) × Flow} (hmem : effect ∈ body.2.1) :
    effect ∈ (finishIteration cfg env request body).effects := by
  obtain ⟨st', effects, flow⟩ := body
  cases flow
  case proceed => exact List.mem_append_left _ hmem
  all_goals exact hmem

/-- In disciplining mode, what was read in full is handed over. -/
theorem odProcess_mem_mainIteration (hmode : cfg.discipliningMode = true) {st' : MainState D}
    (hacquire : acquire cfg env st = (st', .proceed)) (request : MonitoringRequest) :
    .odProcess st'.input ∈ (mainIteration cfg env st request).effects := by
  rw [mainIteration, if_pos hmode, hacquire]
  exact mem_finishIteration (odProcess_mem_process cfg env st')

end Oscillatord
