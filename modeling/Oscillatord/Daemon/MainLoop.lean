import Oscillatord.Gnss.Thread
import Oscillatord.Monitoring.Request
import Oscillatord.Oscillators.Mro50
import Oscillatord.Oscillators.Sa5x

/-!
# The main loop of the daemon

One iteration of the main loop of `oscillatord`, in each of its modes, as a function of the local
variables of `main`, of `monitoring->request` and of an environment that gives the result of every
call the iteration makes. What the iteration does to the rest of the daemon is the list of its
`MainEffect`s, in order; the way it ends is a `Flow`, since three of its failures go back to the
top of the loop before the monitoring requests are looked at and others leave it.

The iteration is cut where the source has its blocks: `acquire` reads the phase, the GNSS data and
the oscillator, `process` hands them to the disciplining algorithm and carries its output out,
`monitorOnly` stands for both without an algorithm, and `monitoringPart` publishes and takes a
request.
-/

namespace Oscillatord

/-! ### Data of the disciplining library -/

/-- The actions of the disciplining algorithm. -/
inductive OdAction
  | noOp
  | adjustFine
  | adjustCoarse
  | phaseJump
  | calibrate
  | saveDiscipliningParameters
  | unlisted (code : ℤ)
  deriving Repr, DecidableEq

/-- `struct od_output`. -/
structure OdOutput where
  action : OdAction
  setpoint : ℤ
  valuePhaseCtrl : ℤ
  deriving Repr, DecidableEq

/-- `struct od_input`. -/
structure OdInput where
  phaseError : Timespec
  phasemeterStatus : PhasemeterStatus
  valid : Bool
  surveyCompleted : Bool
  qErr : ℤ
  lock : Bool
  fineSetpoint : ℤ
  coarseSetpoint : ℤ
  temperature : ℚ
  calibrationRequested : Bool
  deriving Repr, DecidableEq

/-- `(struct od_input) {0}`. -/
def odInputZero : OdInput :=
  { phaseError := ⟨0, 0⟩, phasemeterStatus := .init, valid := false, surveyCompleted := false
    qErr := 0, lock := false, fineSetpoint := 0, coarseSetpoint := 0, temperature := 0
    calibrationRequested := false }

/-- The clock classes the daemon itself reports. -/
inductive OdClockClass
  | uncalibrated
  | unlisted (code : ℤ)
  deriving Repr, DecidableEq

/-- The states of the disciplining the daemon itself reports. -/
inductive OdStatus
  | warmup
  | init
  | unlisted (code : ℤ)
  deriving Repr, DecidableEq

/-- `struct od_monitoring`. -/
structure OdMonitoring where
  clockClass : OdClockClass
  status : OdStatus
  currentPhaseConvergenceCount : ℤ
  validPhaseConvergenceThreshold : ℤ
  convergenceProgress : ℚ
  readyForHoldover : Bool
  deriving Repr, DecidableEq

/-- What is published without disciplining data. -/
def odMonitoringWarmup : OdMonitoring :=
  { clockClass := .uncalibrated, status := .warmup, currentPhaseConvergenceCount := -1
    validPhaseConvergenceThreshold := -1, convergenceProgress := 0, readyForHoldover := false }

/-- `struct oscillator_attributes`. -/
structure OscillatorAttributes where
  phaseError : ℤ
  temperature : ℚ
  locked : Bool
  deriving Repr, DecidableEq

/-! ### Phase offsets -/

/-- `NS_IN_SECOND`. -/
def nsInSecond : ℤ := 1000000000

/-- `struct timex` as `apply_phase_offset` fills it: an offset of `tvSec` seconds and `tvUsec`
nanoseconds (`ADJ_NANO`). -/
structure Timex where
  tvSec : ℤ
  tvUsec : ℤ
  deriving Repr, DecidableEq

/-- The argument `apply_phase_offset` gives to `clock_adjtime`. -/
def applyPhaseOffset (phaseError : ℤ) : Timex :=
  if 0 < phaseError ∨ phaseError.tmod nsInSecond = 0 then
    { tvSec := phaseError.tdiv nsInSecond, tvUsec := phaseError.tmod nsInSecond }
  else
    { tvSec := phaseError.tdiv nsInSecond - 1
      tvUsec := phaseError.tmod nsInSecond + nsInSecond }

/-- The offset the clock is moved by, in nanoseconds. -/
def Timex.offset (timex : Timex) : ℤ := timex.tvSec * nsInSecond + timex.tvUsec

/-- The clock is moved by the offset asked for. -/
@[simp] theorem offset_applyPhaseOffset (phaseError : ℤ) :
    (applyPhaseOffset phaseError).offset = phaseError := by
  have hsplit := Int.mul_tdiv_add_tmod phaseError nsInSecond
  rw [applyPhaseOffset]
  split_ifs <;> simp only [Timex.offset] <;> linarith

/-- `sign`, in disciplining mode. -/
def discipliningSign (oppositePhaseError : Bool) : ℤ := if oppositePhaseError then -1 else 1

/-- The initial phase jump, on what successive calls of `get_phase_error` deliver: the first
reading with both timestamps is taken, `none` while there is none. -/
def initialPhaseJump (sign : ℤ) : List Phasemeter → Option Timex
  | [] => none
  | reading :: readings =>
    if reading.status = .bothTimestamps then some (applyPhaseOffset (-reading.phaseError * sign))
    else initialPhaseJump sign readings

/-! ### The loop -/

/-- What the main loop reads from its configuration and its start. -/
structure MainConfig where
  discipliningMode : Bool
  monitoringMode : Bool
  phaseErrorSupported : Bool
  sign : ℤ
  deriving Repr, DecidableEq

/-- The local variables of `main` that outlive an iteration; `D` is
`struct disciplining_parameters`. -/
structure MainState (D : Type) where
  oscAttr : OscillatorAttributes
  input : OdInput
  ctrlValues : OscillatorCtrl
  ignoreNextIrq : Bool
  fakeHoldoverActivated : Bool
  dscParams : D
  startSaveEepromParameters : ℤ

/-- The local variables on entering the loop. -/
def mainStateZero {D : Type} (dscParams : D) : MainState D :=
  { oscAttr := ⟨0, 0, false⟩, input := odInputZero, ctrlValues := ⟨0, 0⟩, ignoreNextIrq := false
    fakeHoldoverActivated := false, dscParams, startSaveEepromParameters := 0 }

/-- How an iteration ends: it runs to the end of the body, goes back to the top by `continue`,
leaves the loop by `break`, or exits the process. -/
inductive Flow
  | proceed
  | continueLoop
  | breakLoop
  | exitProcess
  deriving Repr, DecidableEq

/-- Whether another iteration follows. -/
def Flow.again : Flow → Bool
  | .proceed | .continueLoop => true
  | .breakLoop | .exitProcess => false

/-- The commands of `gnss_set_action`. -/
inductive GnssAction
  | start
  | stop
  | soft
  | hard
  | cold
  | resetSerial
  deriving Repr, DecidableEq

/-- What an iteration does to the rest of the daemon. -/
inductive MainEffect (D : Type)
  | odProcess (input : OdInput)
  | clockAdjtime (timex : Timex)
  | publishDisciplining
  | calibrate (calibParams : CalibrationParameters) (results : Option CalibrationResults)
  | writeDiscipliningParameters (dscParams : D)
  | disableCalibrateFirst
  | applyOutput (action : OdAction) (setpoint : ℤ)
  | startSaveThread
  | pushGnssInfo (fixOk : Bool) (lastFix : Timespec)
  | publish (attributes : OscillatorAttributes) (ctrl : OscillatorCtrl)
      (disciplining : OdMonitoring)
  | takeRequest (request : MonitoringRequest)
  | gnssSetAction (action : GnssAction)

/-- What `oscillator_parse_attributes` does. -/
inductive AttributesReply
  | notImplemented
  | failed
  | read (temperature : ℚ) (locked : Bool)
  deriving Repr, DecidableEq

/-- What `oscillator_get_ctrl` does: whether it returns 0, and what it writes into the structure it
is given, `none` for a field the driver leaves as it is. -/
structure CtrlReply where
  succeeded : Bool
  fineCtrl : Option ℤ
  coarseCtrl : Option ℤ
  deriving Repr, DecidableEq

/-- The structure once the driver has written into it. -/
def CtrlReply.store (reply : CtrlReply) (ctrlValues : OscillatorCtrl) : OscillatorCtrl :=
  { fineCtrl := reply.fineCtrl.getD ctrlValues.fineCtrl
    coarseCtrl := reply.coarseCtrl.getD ctrlValues.coarseCtrl }

/-- `sa3x_oscillator_get_ctrl`. -/
def sa3xOscillatorGetCtrl : CtrlReply :=
  { succeeded := true, fineCtrl := some 0, coarseCtrl := some 0 }

/-- `sim_oscillator_get_ctrl`: it writes `dac` alone. -/
def simOscillatorGetCtrl : CtrlReply :=
  { succeeded := true, fineCtrl := none, coarseCtrl := none }

/-- `dummy_oscillator_get_ctrl`: it writes `dac` alone. -/
def dummyOscillatorGetCtrl : CtrlReply :=
  { succeeded := true, fineCtrl := none, coarseCtrl := none }

/-- The results of the calls of one iteration. -/
structure MainEnv (D : Type) where
  /-- What `get_phase_error` delivers. -/
  phasemeter : Phasemeter
  /-- What `gnss_get_epoch_data` delivers, `none` when it fails. -/
  epochData : Option EpochData
  attributes : AttributesReply
  ctrl : CtrlReply
  /-- The output of `od_process`, `none` when it fails. -/
  odProcess : Option OdOutput
  /-- Whether `clock_adjtime` succeeds. -/
  clockAdjusted : Bool
  calibrationParameters : Option CalibrationParameters
  calibrate : CalibrateCb
  /-- The flag `loop` after a calibration. -/
  loopAfterCalibrate : Bool
  /-- What `od_get_disciplining_parameters` leaves in `dsc_params`, with the date of the save. -/
  odGetDiscipliningParameters : D → D
  /-- The clock, in seconds. -/
  endSaveEepromParameters : ℤ
  fixInfo : Bool × Timespec
  /-- The data of `od_get_monitoring_data`, `none` when it fails. -/
  odGetMonitoringData : Option OdMonitoring
  /-- What `oscillator_get_phase_error` leaves. -/
  oscillatorPhaseError : ℤ → ℤ
  /-- What `oscillator_get_disciplining_status` leaves. -/
  oscillatorDiscipliningStatus : OdMonitoring → OdMonitoring

/-- `UPDATE_DISCIPLINING_PARAMETERS_SEC`. -/
def updateDiscipliningParametersSec : ℤ := 3600

variable {D : Type}

/-- The attributes after `oscillator_parse_attributes`, `none` when it fails. -/
def parseAttributes (oscAttr : OscillatorAttributes) :
    AttributesReply → Option OscillatorAttributes
  | .notImplemented => some { oscAttr with temperature := 0, locked := false }
  | .failed => none
  | .read temperature locked => some { oscAttr with temperature, locked }

/-- The input of the algorithm, from what the iteration has read. -/
def fillInput (cfg : MainConfig) (st : MainState D) (status : PhasemeterStatus) : OdInput :=
  { st.input with
    phasemeterStatus := status
    coarseSetpoint := st.ctrlValues.coarseCtrl
    fineSetpoint := st.ctrlValues.fineCtrl
    temperature := st.oscAttr.temperature
    lock := st.oscAttr.locked
    phaseError :=
      ⟨(cfg.sign * st.oscAttr.phaseError).tdiv nsInSecond,
        (cfg.sign * st.oscAttr.phaseError).tmod nsInSecond⟩
    valid := if st.fakeHoldoverActivated then false else st.input.valid }

/-- The first half of the disciplining block: everything the algorithm is given is read. -/
def acquire (cfg : MainConfig) (env : MainEnv D) (st : MainState D) : MainState D × Flow :=
  let st := { st with oscAttr := { st.oscAttr with phaseError := env.phasemeter.phaseError } }
  match env.epochData with
  | none => (st, .breakLoop)
  | some epoch =>
    let input := { st.input with
      valid := epoch.valid, surveyCompleted := epoch.survey, qErr := epoch.qErr }
    let st := { st with input }
    match parseAttributes st.oscAttr env.attributes with
    | none => (st, .continueLoop)
    | some oscAttr =>
      let st := { st with oscAttr, ctrlValues := env.ctrl.store st.ctrlValues }
      if env.ctrl.succeeded then
        if st.ignoreNextIrq then ({ st with ignoreNextIrq := false }, .continueLoop)
        else ({ st with input := fillInput cfg st env.phasemeter.status }, .proceed)
      else (st, .continueLoop)

/-- The branches on the action of the algorithm. -/
def applyAction (cfg : MainConfig) (env : MainEnv D) (st : MainState D) (output : OdOutput) :
    MainState D × List (MainEffect D) × Flow :=
  match output.action with
  | .phaseJump =>
    let effects := [.clockAdjtime (applyPhaseOffset (-output.valuePhaseCtrl))]
    if env.clockAdjusted then ({ st with ignoreNextIrq := true }, effects, .proceed)
    else (st, effects, .exitProcess)
  | .calibrate =>
    let published := if cfg.monitoringMode then [.publishDisciplining] else []
    match env.calibrationParameters with
    | none => (st, published, .exitProcess)
    | some calibParams =>
      let results := oscillatorCalibrate env.calibrate calibParams cfg.sign
      let effects := published ++ [.calibrate calibParams results]
      match results with
      | some _ => (st, effects, .proceed)
      | none => (st, effects, if env.loopAfterCalibrate then .exitProcess else .breakLoop)
  | .saveDiscipliningParameters =>
    let dscParams := env.odGetDiscipliningParameters st.dscParams
    ({ st with dscParams }, [.writeDiscipliningParameters dscParams, .disableCalibrateFirst],
      .proceed)
  | .noOp => (st, [], .proceed)
  | action => (st, [.applyOutput action output.setpoint], .proceed)

/-- The periodic save. -/
def periodicSave (env : MainEnv D) (st : MainState D) : MainState D × List (MainEffect D) :=
  if updateDiscipliningParametersSec ≤ env.endSaveEepromParameters - st.startSaveEepromParameters
  then ({ st with startSaveEepromParameters := env.endSaveEepromParameters }, [.startSaveThread])
  else (st, [])

/-- The second half of the disciplining block: the algorithm runs and its output is carried
out. -/
def process (cfg : MainConfig) (env : MainEnv D) (st : MainState D) :
    MainState D × List (MainEffect D) × Flow :=
  let called := [.odProcess st.input]
  match env.odProcess with
  | none => (st, called, .exitProcess)
  | some output =>
    match applyAction cfg env { st with input := odInputZero } output with
    | (st, effects, .proceed) =>
      let (st, saved) := periodicSave env st
      (st, called ++ effects ++ saved, .proceed)
    | (st, effects, flow) => (st, called ++ effects, flow)

/-- The block without disciplining. -/
def monitorOnly (cfg : MainConfig) (env : MainEnv D) (st : MainState D) :
    MainState D × List (MainEffect D) × Flow :=
  match parseAttributes st.oscAttr env.attributes with
  | none => (st, [], .exitProcess)
  | some oscAttr =>
    let st := { st with oscAttr, ctrlValues := env.ctrl.store st.ctrlValues }
    let pushed :=
      if cfg.phaseErrorSupported then [.pushGnssInfo env.fixInfo.1 env.fixInfo.2] else []
    (st, pushed, if env.ctrl.succeeded then .proceed else .continueLoop)

/-- The switch on the request taken from the slot. -/
def executeRequest (st : MainState D) :
    MonitoringRequest → MainState D × List (MainEffect D)
  | .calibration => ({ st with input := { st.input with calibrationRequested := true } }, [])
  | .gnssStart => (st, [.gnssSetAction .start])
  | .gnssStop => (st, [.gnssSetAction .stop])
  | .gnssSoft => (st, [.gnssSetAction .soft])
  | .gnssHard => (st, [.gnssSetAction .hard])
  | .gnssCold => (st, [.gnssSetAction .cold])
  | .saveEeprom => (st, [.startSaveThread])
  | .fakeHoldoverStart => ({ st with fakeHoldoverActivated := true }, [])
  | .fakeHoldoverStop => ({ st with fakeHoldoverActivated := false }, [])
  | .resetUbloxSerial => (st, [.gnssSetAction .resetSerial])
  | .mroCoarseInc =>
    (st, [.applyOutput .adjustCoarse (CNumber.toUnsigned 32 (st.ctrlValues.coarseCtrl + 1))])
  | .mroCoarseDec =>
    (st, [.applyOutput .adjustCoarse (CNumber.toUnsigned 32 (st.ctrlValues.coarseCtrl - 1))])
  | .readEeprom | .none | .unlisted _ => (st, [])

/-- What is published: the phase with its sign, and the disciplining data of the algorithm or of
the oscillator. -/
def publishedData (cfg : MainConfig) (env : MainEnv D) (oscAttr : OscillatorAttributes) :
    OscillatorAttributes × OdMonitoring :=
  if cfg.discipliningMode then
    ({ oscAttr with phaseError := oscAttr.phaseError * cfg.sign },
      match env.odGetMonitoringData with
      | some disciplining => disciplining
      | none => { odMonitoringWarmup with status := .init })
  else if cfg.phaseErrorSupported then
    ({ oscAttr with phaseError := env.oscillatorPhaseError oscAttr.phaseError },
      env.oscillatorDiscipliningStatus odMonitoringWarmup)
  else (oscAttr, odMonitoringWarmup)

/-- The monitoring block: data are published, and the request in the slot is taken and carried
out. -/
def monitoringPart (cfg : MainConfig) (env : MainEnv D) (st : MainState D)
    (request : MonitoringRequest) :
    MainState D × MonitoringRequest × List (MainEffect D) :=
  if cfg.monitoringMode then
    let (oscAttr, disciplining) := publishedData cfg env st.oscAttr
    let published := .publish oscAttr st.ctrlValues disciplining
    let (st, effects) := executeRequest { st with oscAttr } request
    (st, .none, published :: .takeRequest request :: effects)
  else (st, request, [])

/-- The outcome of an iteration: the local variables, the slot, the effects and the flow. -/
structure MainOutcome (D : Type) where
  state : MainState D
  request : MonitoringRequest
  effects : List (MainEffect D)
  flow : Flow

/-- The end of the body, when it is reached. -/
def finishIteration (cfg : MainConfig) (env : MainEnv D) (request : MonitoringRequest) :
    MainState D × List (MainEffect D) × Flow → MainOutcome D
  | (st, effects, .proceed) =>
    let (st, request, monitored) := monitoringPart cfg env st request
    { state := st, request, effects := effects ++ monitored, flow := .proceed }
  | (st, effects, flow) => { state := st, request, effects, flow }

/-- **One iteration of the main loop.** -/
def mainIteration (cfg : MainConfig) (env : MainEnv D) (st : MainState D)
    (request : MonitoringRequest) : MainOutcome D :=
  finishIteration cfg env request <|
    if cfg.discipliningMode then
      match acquire cfg env st with
      | (st, .proceed) => process cfg env st
      | (st, flow) => (st, [], flow)
    else monitorOnly cfg env st

end Oscillatord
