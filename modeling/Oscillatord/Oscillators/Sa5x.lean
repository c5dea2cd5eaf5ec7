import Oscillatord.Gnss.Session
import Oscillatord.Library.Rounding
import Oscillatord.Library.Runs

/-!
# The SA5x driver

The state machine of `sa5x_oscillator.c`: `sa5x_oscillator_new`, the poll
`sa5x_oscillator_get_ctrl` and `sa5x_oscillator_push_gnss_info`. The device is an arbitrary
environment: each query is answered by an `IntReading`, which is what
`sa5x_oscillator_read_intval` makes of a reply, and each call of the clock returns an arbitrary
time. Every command the driver sends is recorded, in order.

A poll runs four stages one after the other on the same status fields, and the model keeps them
apart: the latch sequence (`latchNeeded`, `sa5xOscillatorLatch`), the classification
(`sa5xClassify`), the advance of the disciplining phase with the time elapsed
(`sa5xAdvancePhase`) and the adjustment of the time constant (`sa5xAdjustTau`).
-/

namespace Oscillatord

open CNumber

/-! ### Constants -/

/-- `DISCIPLINING_PHASES`. -/
def discipliningPhases : ℕ := 3

/-- `tau_values`. -/
def tauValues (phase : ℕ) : ℤ := [50, 500, 10000].getD phase 0

/-- `tau_interval`, in seconds. -/
def tauInterval (phase : ℕ) : ℤ := [600, 7200, 86400].getD phase 0

/-- `NO_GNSS_FIX_TIMEOUT`, in seconds. -/
def noGnssFixTimeout : ℤ := 9

/-- `DIGITAL_TUNING_MAX`. -/
def digitalTuningMax : ℤ := 20000000

/-- `DEFAULT_PHASELIMIT`. -/
def defaultPhaselimit : ℤ := 100000

/-! ### State -/

/-- `enum SA5x_ClockClass`. -/
inductive Sa5xClockClass
  | uncalibrated
  | calibrating
  | holdover
  | lock
  deriving Repr, DecidableEq

/-- `enum SA5x_Disciplining_State`. -/
inductive Sa5xDiscipliningState
  | init
  | tracking
  | holdover
  | calibration
  deriving Repr, DecidableEq

/-- `struct sa5x_disciplining_status`. -/
structure Sa5xDiscipliningStatus where
  status : Sa5xDiscipliningState
  clockClass : Sa5xClockClass
  currentPhaseConvergenceCount : ℤ
  validPhaseConvergenceThreshold : ℤ
  convergenceProgress : ℚ
  holdoverReady : Bool
  deriving Repr, DecidableEq

/-- `struct sa5x_oscillator`. -/
structure Sa5xOscillator where
  discipliningPhase : ℕ
  status : Sa5xDiscipliningStatus
  discipliningStart : Timespec
  gnssLastFix : Timespec
  gnssLastFixUtc : Timespec
  macLastLatch : Timespec
  gnssFixStatus : Bool
  latchFixed : Bool
  deriving Repr, DecidableEq

/-- `struct sa5x_attributes`. The one-bit fields are Booleans. -/
structure Sa5xAttributes where
  alarms : ℕ
  phaseoffset : ℤ
  lastcorrection : ℤ
  temperature : ℤ
  digitaltuning : ℤ
  tau : ℤ
  ppsindetected : Bool
  locked : Bool
  disciplinelocked : Bool
  disciplining : Bool
  deriving Repr, DecidableEq

/-- `struct sa5x_attributes a = {}`. -/
def sa5xAttributesZero : Sa5xAttributes := ⟨0, 0, 0, 0, 0, 0, false, false, false, false⟩

/-- `struct oscillator_ctrl`, the fields of the atomic clocks, as unsigned 32-bit values. -/
structure OscillatorCtrl where
  fineCtrl : ℤ
  coarseCtrl : ℤ
  deriving Repr, DecidableEq

/-! ### Commands and replies -/

/-- The commands of the driver (`CMD_*`). -/
inductive Sa5xCmd
  | swver
  | serial
  | latch
  | getAlarms
  | getLocked
  | getDisciplineLocked
  | getGnssPps
  | getPhase
  | getLastcorrection
  | getTemperature
  | getDigitalTuning
  | getTau
  | setTau (tau : ℤ)
  | getDisciplining
  | setDisciplining (on : Bool)
  | getPhaselimit
  | setPhaselimit (limit : ℤ)
  deriving Repr, DecidableEq

/-- What `sa5x_oscillator_read_intval` makes of an exchange: a number, an answer that holds
none, an answer that ends before one, or no answer (`sa5x_oscillator_cmd` returned `-1`). -/
inductive IntReading
  | value (v : ℤ)
  | noMatch
  | ended
  | failed
  deriving Repr, DecidableEq

/-- The result of `sa5x_oscillator_read_intval`. -/
def IntReading.err : IntReading → ℤ
  | .value _ => 1
  | .noMatch => 0
  | .ended => -1
  | .failed => -1

/-- The variable the reading stores into, which only a number changes. -/
def IntReading.store (reading : IntReading) (old : ℤ) : ℤ :=
  match reading with
  | .value v => v
  | _ => old

/-- What `sa5x_oscillator_read_phase` makes of an exchange. Without a number it converts its
uninitialised variable, unless the answer was well formed. -/
inductive PhaseReading
  | value (phase : ℚ)
  | noMatch
  | uninitialised (junk : ℤ)
  deriving Repr, DecidableEq

/-- The `int32_t` made of a phase: half is added to it as a `double`, and the sum is cut. -/
def phaseOffsetOf (phase : ℚ) : ℤ :=
  toInt32OfFloat (trunc (Rounding.binary64.round (phase + if 0 ≤ phase then 1 / 2 else -1 / 2)))

/-- The phase offset `sa5x_oscillator_read_phase` stores. -/
def PhaseReading.store (reading : PhaseReading) (old : ℤ) : ℤ :=
  match reading with
  | .value phase => phaseOffsetOf phase
  | .noMatch => old
  | .uninitialised junk => junk

/-- The replies to the queries of one `sa5x_oscillator_get_attributes`, with the content of its
uninitialised local variable `val`. -/
structure Sa5xReplies where
  disciplineLocked : IntReading
  gnssPps : IntReading
  digitalTuning : IntReading
  locked : IntReading
  tau : IntReading
  lastcorrection : IntReading
  alarms : IntReading
  disciplining : IntReading
  phase : PhaseReading
  temperature : IntReading
  junk : ℤ
  deriving Repr, DecidableEq

/-- The attributes a caller of `sa5x_oscillator_get_attributes` asks for. -/
structure Sa5xMask where
  ctrl : Bool
  status : Bool
  phase : Bool
  statusPps : Bool
  statusTemperature : Bool
  deriving Repr, DecidableEq

/-- The outcome of `sa5x_oscillator_get_attributes`. -/
structure Sa5xScan where
  err : ℤ
  attributes : Sa5xAttributes
  cmds : List Sa5xCmd
  deriving Repr, DecidableEq

/-- Assignment of an `int` to a one-bit field. -/
def bitOf (v : ℤ) : Bool := decide (v % 2 = 1)

/-! ### Reading the attributes -/

/-- The part of `sa5x_oscillator_get_attributes` under `ATTR_STATUS_PPS` or `ATTR_STATUS`, with
the running value of its local variable `val`. The PPS status is the only reading whose failure
ends the function here, with the result of that reading. -/
def sa5xReadPps (mask : Sa5xMask) (replies : Sa5xReplies) (a : Sa5xAttributes) (val : ℤ) :
    Option ℤ × Sa5xAttributes × ℤ :=
  if mask.statusPps || mask.status then
    let val := replies.disciplineLocked.store val
    let a :=
      if 0 < replies.disciplineLocked.err then { a with disciplinelocked := bitOf val } else a
    let val := replies.gnssPps.store val
    if 0 < replies.gnssPps.err then (none, { a with ppsindetected := bitOf val }, val)
    else (some replies.gnssPps.err, a, val)
  else (none, a, val)

/-- The part under `ATTR_CTRL`. -/
def sa5xReadCtrl (mask : Sa5xMask) (replies : Sa5xReplies) (a : Sa5xAttributes) (val : ℤ) :
    Sa5xAttributes × ℤ :=
  if mask.ctrl then
    let a := { a with digitaltuning := replies.digitalTuning.store a.digitaltuning }
    let val := replies.locked.store val
    let a := if 0 < replies.locked.err then { a with locked := bitOf val } else a
    let val := replies.tau.store val
    let a := if 0 < replies.tau.err then { a with tau := toUnsigned 32 val } else a
    ({ a with lastcorrection := replies.lastcorrection.store a.lastcorrection }, val)
  else (a, val)

/-- The part under `ATTR_STATUS`, which also tells whether to read the phase of a device that
reports disciplining off. A failed alarm query stores the last value read. -/
def sa5xReadStatus (mask : Sa5xMask) (replies : Sa5xReplies) (a : Sa5xAttributes) (val : ℤ) :
    Sa5xAttributes × Bool :=
  if mask.status then
    let val := replies.alarms.store val
    let a := if replies.alarms.err ≠ 0 then { a with alarms := (toUnsigned 32 val).toNat } else a
    let val := replies.disciplining.store val
    if 0 < replies.disciplining.err then ({ a with disciplining := bitOf val }, decide (val = 0))
    else (a, false)
  else (a, false)

/-- The part under `ATTR_PHASE`: disciplining is switched on again once the phase is zero. -/
def sa5xReadPhase (mask : Sa5xMask) (replies : Sa5xReplies) (a : Sa5xAttributes)
    (disciplinedOff : Bool) : Sa5xAttributes × List Sa5xCmd :=
  if mask.phase || disciplinedOff then
    let a := { a with phaseoffset := replies.phase.store a.phaseoffset }
    if mask.status && !a.disciplining && decide (a.phaseoffset = 0) then
      (a, [.getPhase, .setDisciplining true])
    else (a, [.getPhase])
  else (a, [])

/-- The part under `ATTR_STATUS_TEMPERATURE`. -/
def sa5xReadTemperature (mask : Sa5xMask) (replies : Sa5xReplies) (a : Sa5xAttributes) :
    ℤ × Sa5xAttributes × List Sa5xCmd :=
  if mask.statusTemperature then
    (if replies.temperature.err ≤ 0 then replies.temperature.err else 0,
      { a with temperature := replies.temperature.store a.temperature }, [.getTemperature])
  else (0, a, [])

/-- The queries of the first three parts. -/
def sa5xQueries (pps ctrl status : Bool) : List Sa5xCmd :=
  (if pps then [.getDisciplineLocked, .getGnssPps] else []) ++
    (if ctrl then [.getDigitalTuning, .getLocked, .getTau, .getLastcorrection] else []) ++
    (if status then [.getAlarms, .getDisciplining] else [])

/-- `sa5x_oscillator_get_attributes`, for the masks without `ATTR_FW_SERIAL`. -/
def sa5xOscillatorGetAttributes (mask : Sa5xMask) (replies : Sa5xReplies) : Sa5xScan :=
  match sa5xReadPps mask replies sa5xAttributesZero replies.junk with
  | (some err, a, _) =>
    { err := err, attributes := a, cmds := sa5xQueries true false false }
  | (none, a, val) =>
    let ctrl := sa5xReadCtrl mask replies a val
    let status := sa5xReadStatus mask replies ctrl.1 ctrl.2
    let phase := sa5xReadPhase mask replies status.1 status.2
    let temperature := sa5xReadTemperature mask replies phase.1
    { err := temperature.1
      attributes := temperature.2.1
      cmds := sa5xQueries (mask.statusPps || mask.status) mask.ctrl mask.status ++ phase.2 ++
        temperature.2.2 }

/-! ### The latch sequence -/

/-- The replies to one `sa5x_oscillator_latch`: in each round the outcome of the disabling
command and the reading that follows, then the reading of the latch command and the time. -/
structure Sa5xLatchReplies where
  disable : ℕ → Bool × IntReading
  latch : IntReading
  now : Timespec
  junk : ℤ

/-- The loop of `sa5x_oscillator_latch` that switches disciplining off, `none` where it returns:
the retries left and the commands sent. -/
def sa5xLatchDisable (replies : Sa5xLatchReplies) : ℕ → Bool → ℤ → Option ℕ × List Sa5xCmd
  | 0, _, _ => (some 0, [])
  | retry + 1, false, _ => (some (retry + 1), [])
  | retry + 1, true, val =>
    let round := replies.disable retry
    if !round.1 then (none, [.setDisciplining false])
    else if round.2.err = -1 then (none, [.setDisciplining false, .getDisciplining])
    else
      let val := round.2.store val
      let rest := sa5xLatchDisable replies retry (bitOf val) val
      (rest.1, .setDisciplining false :: .getDisciplining :: rest.2)

/-- `sa5x_oscillator_latch`: a complete sequence records its time. -/
def sa5xOscillatorLatch (sa5x : Sa5xOscillator) (a : Sa5xAttributes)
    (replies : Sa5xLatchReplies) : Sa5xOscillator × List Sa5xCmd :=
  match sa5xLatchDisable replies 3 a.disciplining replies.junk with
  | (none, cmds) => (sa5x, cmds)
  | (some 0, cmds) => (sa5x, cmds)
  | (some (_ + 1), cmds) =>
    if 0 < replies.latch.err ∧ replies.latch.store 0 ≠ 0 then
      ({ sa5x with macLastLatch := replies.now }, cmds ++ [.latch])
    else (sa5x, cmds ++ [.latch])

/-- The condition under which a poll issues the latch sequence: the digital tuning is reported
out of range, or stuck at its limit, and the firmware does not recover by itself. -/
def latchNeeded (sa5x : Sa5xOscillator) (a : Sa5xAttributes) (ts : Timespec) : Bool :=
  if a.alarms ≠ 0 then
    a.alarms.testBit 18 && decide (a.lastcorrection = 0) && !sa5x.latchFixed
  else if a.lastcorrection = 0 ∧ a.disciplinelocked = false ∧
      (a.digitaltuning = digitalTuningMax ∨ a.digitaltuning = -digitalTuningMax) ∧
      tauInterval 0 < ts.tvSec - sa5x.macLastLatch.tvSec then
    !sa5x.latchFixed
  else false

/-! ### The poll -/

/-- The holdover condition of `sa5x_oscillator_get_ctrl`: no GNSS fix for the timeout, no PPS
input, or the alarm that says so. -/
def holdoverCondition (sa5x : Sa5xOscillator) (a : Sa5xAttributes) (ts : Timespec) : Bool :=
  (!sa5x.gnssFixStatus && decide (noGnssFixTimeout ≤ ts.tvSec - sa5x.gnssLastFix.tvSec)) ||
    (!a.ppsindetected || a.alarms.testBit 17)

/-- Writing the two status fields a poll reports. -/
def Sa5xOscillator.report (sa5x : Sa5xOscillator) (clockClass : Sa5xClockClass)
    (status : Sa5xDiscipliningState) : Sa5xOscillator :=
  { sa5x with status := { sa5x.status with clockClass := clockClass, status := status } }

/-- The classification of `sa5x_oscillator_get_ctrl`, with the value of `adjust_tau` after it. -/
def sa5xClassify (sa5x : Sa5xOscillator) (a : Sa5xAttributes) (ts : Timespec) (latch : Bool) :
    Sa5xOscillator × Bool :=
  if holdoverCondition sa5x a ts then
    let clockClass :=
      if sa5x.status.clockClass = .calibrating ∨
          24 * 3600 < ts.tvSec - sa5x.gnssLastFix.tvSec then .uncalibrated
      else .holdover
    (sa5x.report clockClass .holdover, latch)
  else if latch then (sa5x.report .uncalibrated .holdover, latch)
  else
    let (sa5x, adjustTau) :=
      if sa5x.status.clockClass = .holdover ∨ sa5x.status.clockClass = .uncalibrated then
        ({ sa5x.report .calibrating .tracking with
            discipliningPhase := 0
            discipliningStart := ts }, true)
      else (sa5x, false)
    if a.disciplinelocked then (sa5x, adjustTau)
    else
      let sa5x := { sa5x with discipliningStart := ts }
      if sa5x.status.clockClass ≠ .calibrating then
        ({ sa5x.report .calibrating .tracking with discipliningPhase := 0 }, true)
      else (sa5x, adjustTau)

/-- The time constant is due for its next value: the phase is not the last one and its interval
has elapsed. -/
def tauDue (sa5x : Sa5xOscillator) (ts : Timespec) : Bool :=
  decide (sa5x.discipliningPhase < discipliningPhases - 1) &&
    decide (tauInterval sa5x.discipliningPhase < ts.tvSec - sa5x.discipliningStart.tvSec)

/-- The advance of the disciplining phase with the time elapsed. -/
def sa5xAdvancePhase (sa5x : Sa5xOscillator) (ts : Timespec) (adjustTau : Bool) :
    Sa5xOscillator × Bool :=
  if tauDue sa5x ts then
    ({ sa5x with discipliningPhase := sa5x.discipliningPhase + 1 }, true)
  else (sa5x, adjustTau)

/-- The block of `sa5x_oscillator_get_ctrl` under `adjust_tau`. The outcome of the command only
reaches the log. -/
def sa5xAdjustTau (sa5x : Sa5xOscillator) (adjustTau : Bool) : Sa5xOscillator × List Sa5xCmd :=
  if adjustTau then
    let reported :=
      if sa5x.discipliningPhase = 0 then sa5x.report .calibrating .tracking
      else sa5x.report .lock .calibration
    ({ reported with
        status := { reported.status with
          holdoverReady := decide (sa5x.discipliningPhase = discipliningPhases - 1) } },
      [.setTau (tauValues sa5x.discipliningPhase)])
  else (sa5x, [])

/-- The environment of one poll. -/
structure GetCtrlEnv where
  replies : Sa5xReplies
  now : Timespec
  latch : Sa5xLatchReplies

/-- The attributes a poll asks for. -/
def getCtrlMask : Sa5xMask := ⟨true, true, true, false, false⟩

/-- The outcome of a poll. -/
structure GetCtrlResult where
  sa5x : Sa5xOscillator
  ctrl : OscillatorCtrl
  cmds : List Sa5xCmd
  deriving Repr, DecidableEq

/-- The attributes of a poll, as `sa5x_oscillator_get_attributes` returns them. -/
def GetCtrlEnv.scan (env : GetCtrlEnv) : Sa5xScan :=
  sa5xOscillatorGetAttributes getCtrlMask env.replies

/-- `sa5x_oscillator_get_ctrl`. -/
def sa5xOscillatorGetCtrl (sa5x : Sa5xOscillator) (env : GetCtrlEnv) : GetCtrlResult :=
  let scan := env.scan
  if scan.err ≠ 0 then
    { sa5x := sa5x, ctrl := ⟨toUnsigned 32 (-1), 0⟩, cmds := scan.cmds }
  else
    let a := scan.attributes
    let latch := latchNeeded sa5x a env.now
    let latched := if latch then sa5xOscillatorLatch sa5x a env.latch else (sa5x, [])
    let classified := sa5xClassify latched.1 a env.now latch
    let advanced := sa5xAdvancePhase classified.1 env.now classified.2
    let adjusted := sa5xAdjustTau advanced.1 advanced.2
    { sa5x := adjusted.1
      ctrl := ⟨toUnsigned 32 a.lastcorrection, a.tau⟩
      cmds := scan.cmds ++ latched.2 ++ adjusted.2 }

/-- `sa5x_oscillator_push_gnss_info`. -/
def sa5xOscillatorPushGnssInfo (sa5x : Sa5xOscillator) (fixOk : Bool)
    (lastFixUtcTime : Option Timespec) (now : Timespec) : Sa5xOscillator :=
  let sa5x := { sa5x with gnssFixStatus := fixOk }
  match fixOk, lastFixUtcTime with
  | true, some utc => { sa5x with gnssLastFixUtc := utc, gnssLastFix := now }
  | _, _ => sa5x

/-- `sa5x_oscillator_new` once the serial port is open: `version` is what the firmware version
parses to, `phaselimit` the reading of the phase limit. -/
def sa5xOscillatorNew (version : Option (ℤ × ℤ)) (phaselimit : IntReading) (now : Timespec) :
    Sa5xOscillator × List Sa5xCmd :=
  let latchFixed := match version with
    | some (major, minor) => decide (0x101 ≤ major * 0x100 + minor)
    | none => false
  let limitCmds := match phaselimit with
    | .value v => if v ≠ defaultPhaselimit then [Sa5xCmd.setPhaselimit defaultPhaselimit] else []
    | _ => []
  ({ discipliningPhase := 0
     status := ⟨.init, .calibrating, -1, -1, 0, false⟩
     discipliningStart := now
     gnssLastFix := ⟨0, 0⟩
     gnssLastFixUtc := ⟨0, 0⟩
     macLastLatch := ⟨0, 0⟩
     gnssFixStatus := false
     latchFixed := latchFixed },
    [.swver, .serial, .getPhaselimit] ++ limitCmds ++ [.setTau (tauValues 0)])

/-! ### Runs -/

/-- What the daemon does with the driver, in any order. -/
inductive Sa5xEvent
  | getCtrl (env : GetCtrlEnv)
  | pushGnssInfo (fixOk : Bool) (lastFixUtcTime : Option Timespec) (now : Timespec)

/-- The driver after one call. -/
def sa5xStep (sa5x : Sa5xOscillator) : Sa5xEvent → Sa5xOscillator
  | .getCtrl env => (sa5xOscillatorGetCtrl sa5x env).sa5x
  | .pushGnssInfo fixOk utc now => sa5xOscillatorPushGnssInfo sa5x fixOk utc now

end Oscillatord
