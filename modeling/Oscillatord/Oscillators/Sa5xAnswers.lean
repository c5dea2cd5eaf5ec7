import Oscillatord.Config.ConfigFile
import Oscillatord.Library.FloatText
import Oscillatord.Oscillators.Descriptors

/-!
# What the SA5x has said

All exchanges with an SA5x share one buffer, and the numbers read one variable. A reply is written
over what the buffer held, without a terminator; the conversion that takes it in clears its bytes,
a reply that breaks off and the reply to a command that sets something leave theirs. So a number at
the very end of a reply goes on with whatever follows it in the buffer.

Here are the readings of a call, each in the buffer that the earlier ones have left, and what they
have to be for a field to have its value before the call, or the number that the reply to its own
command holds (`scanLaw_iff`). The readings of the alarms and of the phase are stored without a look
at whether there is a number, and the mandatory fields give `0` for a reply without one.
-/

namespace Oscillatord

open CNumber CText Rounding

/-! ### The buffer -/

/-- The size of `answer_str`. -/
def answerLen : ℕ := 4101

/-- What an exchange meets: the command cannot be written; a poll or a read fails after some bytes;
or nothing more comes after some bytes. More bytes than the buffer holds are never taken in. -/
inductive Sa5xExchange
  | unsent
  | broken (bytes : List UInt8) (h : bytes.length ≤ answerLen)
  | answered (bytes : List UInt8) (h : bytes.length ≤ answerLen)
  deriving Repr, DecidableEq

/-- Bytes written over the beginning of some memory. -/
def overwriteAnswer (bytes memory : List UInt8) : List UInt8 := bytes ++ memory.drop bytes.length

/-- `memset(answer_str, 0, n)`. -/
def clearAnswer (n : ℕ) (memory : List UInt8) : List UInt8 :=
  overwriteAnswer (List.replicate n 0) memory

/-- A reply has the form of an answer: long enough, and without an error. -/
def isAnswer (bytes : List UInt8) : Bool :=
  decide (5 ≤ bytes.length) && bytes.take 2 == ascii "[="

/-- `sa5x_oscillator_cmd`: the length of the answer or `-1`, and the memory from `answer_str` on. -/
def sa5xOscillatorCmd (exchange : Sa5xExchange) (memory : List UInt8) : ℤ × List UInt8 :=
  match exchange with
  | .unsent => (-1, memory)
  | .broken bytes _ => (-1, overwriteAnswer bytes memory)
  | .answered bytes _ =>
    if isAnswer bytes then (bytes.length, overwriteAnswer bytes memory)
    else (-1, clearAnswer bytes.length (overwriteAnswer bytes memory))

/-! ### The readings -/

/-- The conversion of `sscanf` after `[=`, in the string at the beginning of the memory. -/
def scanAnswer (conv : ℤ → ℤ) (memory : List UInt8) : IntReading :=
  match scanInt 10 ((cString memory).drop 2) with
  | .number value _ => .value (conv value)
  | .noMatch => .noMatch
  | .ended => .ended

/-- What is read of an integer. -/
def intReadingOf (conv : ℤ → ℤ) : Conversion → IntReading
  | .number value _ => .value (conv value)
  | .noMatch => .noMatch
  | .ended => .ended

theorem scanAnswer_eq (conv : ℤ → ℤ) (memory : List UInt8) :
    scanAnswer conv memory = intReadingOf conv (scanInt 10 ((cString memory).drop 2)) := by
  rw [scanAnswer]
  cases scanInt 10 ((cString memory).drop 2) <;> rfl

/-- `sa5x_oscillator_read_intval` and `sa5x_oscillator_read_int64val`, on a command and with the
type of the variable. -/
def sa5xOscillatorRead (conv : ℤ → ℤ) (exchange : Sa5xExchange) (memory : List UInt8) :
    IntReading × List UInt8 :=
  let (size, memory) := sa5xOscillatorCmd exchange memory
  if 0 < size then (scanAnswer conv memory, clearAnswer size.toNat memory) else (.failed, memory)

/-- A number read as a `double`. What is none, or infinite, is out of the range of an `int`. -/
def doubleOf : FloatValue → ℚ
  | .finite negative magnitude =>
    if negative then -binary64.round magnitude else binary64.round magnitude
  | _ => 2 ^ 31

/-- The conversion in the string at the beginning of the memory, with the content of the
uninitialised variable. -/
def scanPhaseAnswer (junk : ℤ) (memory : List UInt8) : PhaseReading :=
  match scanFloat ((cString memory).drop 2) with
  | .number value => .value (doubleOf value)
  | .noMatch => .noMatch
  | .ended => .uninitialised junk

/-- What is read of a phase. -/
def phaseReadingOf (junk : ℤ) : FloatConversion → PhaseReading
  | .number value => .value (doubleOf value)
  | .noMatch => .noMatch
  | .ended => .uninitialised junk

theorem scanPhaseAnswer_eq (junk : ℤ) (memory : List UInt8) :
    scanPhaseAnswer junk memory = phaseReadingOf junk (scanFloat ((cString memory).drop 2)) := by
  rw [scanPhaseAnswer]
  cases scanFloat ((cString memory).drop 2) <;> rfl

/-- `sa5x_oscillator_read_phase`, on a command. -/
def sa5xOscillatorReadPhase (junk : ℤ) (exchange : Sa5xExchange) (memory : List UInt8) :
    PhaseReading × List UInt8 :=
  let (size, memory) := sa5xOscillatorCmd exchange memory
  if 0 < size then (scanPhaseAnswer junk memory, clearAnswer size.toNat memory)
  else (.uninitialised junk, memory)

/-- What each command of a scan meets. -/
structure Sa5xExchanges where
  disciplineLocked : Sa5xExchange
  gnssPps : Sa5xExchange
  digitalTuning : Sa5xExchange
  locked : Sa5xExchange
  tau : Sa5xExchange
  lastcorrection : Sa5xExchange
  alarms : Sa5xExchange
  disciplining : Sa5xExchange
  phase : Sa5xExchange
  setDisciplining : Sa5xExchange
  temperature : Sa5xExchange
  deriving Repr, DecidableEq

/-- The readings of the replies alone. -/
def Sa5xExchanges.own (x : Sa5xExchanges) : Sa5xReplies where
  disciplineLocked := (sa5xOscillatorRead intOf x.disciplineLocked []).1
  gnssPps := (sa5xOscillatorRead intOf x.gnssPps []).1
  digitalTuning := (sa5xOscillatorRead clampLong x.digitalTuning []).1
  locked := (sa5xOscillatorRead intOf x.locked []).1
  tau := (sa5xOscillatorRead intOf x.tau []).1
  lastcorrection := (sa5xOscillatorRead intOf x.lastcorrection []).1
  alarms := (sa5xOscillatorRead intOf x.alarms []).1
  disciplining := (sa5xOscillatorRead intOf x.disciplining []).1
  phase := (sa5xOscillatorReadPhase 0 x.phase []).1
  temperature := (sa5xOscillatorRead intOf x.temperature []).1
  junk := 0

/-! ### The scan -/

/-- `sa5x_oscillator_get_attributes` with these readings, on attributes that hold anything. -/
def sa5xScanFrom (mask : Sa5xMask) (replies : Sa5xReplies) (a : Sa5xAttributes) : Sa5xScan :=
  match sa5xReadPps mask replies a replies.junk with
  | (some err, a, _) =>
    { err := err, attributes := a, cmds := sa5xQueries true false false }
  | (none, a, val) =>
    let ctrl := sa5xReadCtrl mask replies a val
    let status := sa5xReadStatus mask replies ctrl.1 ctrl.2
    let phase := sa5xReadPhase mask replies status.1 status.2
    let temperature := sa5xReadTemperature mask replies phase.1
    { err := temperature.1
      attributes := temperature.2.1
      cmds := sa5xQueries (mask.statusPps || mask.status) mask.ctrl mask.status ++ phase.2 ++
        temperature.2.2 }

/-- On cleared attributes it is the scan of a poll. -/
theorem sa5xScanFrom_zero (mask : Sa5xMask) (replies : Sa5xReplies) :
    sa5xScanFrom mask replies sa5xAttributesZero = sa5xOscillatorGetAttributes mask replies :=
  rfl

/-- The masks, with `ATTR_FW_SERIAL`. -/
structure Sa5xFullMask extends Sa5xMask where
  fwSerial : Bool
  deriving Repr, DecidableEq

/-- The memory and the variables a scan finds. -/
structure Sa5xFound where
  memory : List UInt8
  val : ℤ
  phase : ℤ
  deriving Repr, DecidableEq

/-- The readings of a scan, each in the memory the earlier ones have left. -/
def sa5xReplies (mask : Sa5xMask) (x : Sa5xExchanges) (found : Sa5xFound) (a : Sa5xAttributes) :
    Sa5xReplies :=
  let disciplineLocked := sa5xOscillatorRead intOf x.disciplineLocked found.memory
  let gnssPps := sa5xOscillatorRead intOf x.gnssPps disciplineLocked.2
  let memory := if mask.statusPps || mask.status then gnssPps.2 else found.memory
  let digitalTuning := sa5xOscillatorRead clampLong x.digitalTuning memory
  let locked := sa5xOscillatorRead intOf x.locked digitalTuning.2
  let tau := sa5xOscillatorRead intOf x.tau locked.2
  let lastcorrection := sa5xOscillatorRead intOf x.lastcorrection tau.2
  let memory := if mask.ctrl then lastcorrection.2 else memory
  let alarms := sa5xOscillatorRead intOf x.alarms memory
  let disciplining := sa5xOscillatorRead intOf x.disciplining alarms.2
  let memory := if mask.status then disciplining.2 else memory
  let phase := sa5xOscillatorReadPhase found.phase x.phase memory
  let replies : Sa5xReplies :=
    { disciplineLocked := disciplineLocked.1
      gnssPps := gnssPps.1
      digitalTuning := digitalTuning.1
      locked := locked.1
      tau := tau.1
      lastcorrection := lastcorrection.1
      alarms := alarms.1
      disciplining := disciplining.1
      phase := phase.1
      temperature := .failed
      junk := found.val }
  let cmds := (sa5xScanFrom mask replies a).cmds
  let memory := if .getPhase ∈ cmds then phase.2 else memory
  -- the command that switches disciplining on is printed into the buffer, and its reply stays
  let memory :=
    if .setDisciplining true ∈ cmds then
      (sa5xOscillatorCmd x.setDisciplining
        (overwriteAnswer (ascii "\x7bset,Disciplining,1\x7d" ++ [0]) memory)).2
    else memory
  { replies with temperature := (sa5xOscillatorRead intOf x.temperature memory).1 }

/-- `sa5x_oscillator_get_attributes`: under `ATTR_FW_SERIAL` it reads no attribute. -/
def sa5xOscillatorGetAttributesInto (mask : Sa5xFullMask) (x : Sa5xExchanges)
    (found : Sa5xFound) (a : Sa5xAttributes) : ℤ × Sa5xAttributes :=
  if mask.fwSerial then (0, a)
  else
    let scan := sa5xScanFrom mask.toSa5xMask (sa5xReplies mask.toSa5xMask x found a) a
    (scan.err, scan.attributes)

/-- `sa5x_oscillator_parse_attributes`: the temperature in degrees and the lock. -/
def sa5xOscillatorParseAttributes (x : Sa5xExchanges) (found : Sa5xFound) : ℚ × Bool :=
  let outcome :=
    sa5xOscillatorGetAttributesInto ⟨parseAttributesMask, false⟩ x found sa5xAttributesZero
  if outcome.1 = 0 then
    (binary64.round (outcome.2.temperature / 1000),
      outcome.2.ppsindetected && outcome.2.disciplinelocked)
  else (-400, false)

/-- The attributes `sa5x_oscillator_get_phase_error` asks for. -/
def phaseErrorMask : Sa5xMask := ⟨false, false, true, false, false⟩

/-- `sa5x_oscillator_get_phase_error`, with what its attributes hold before: the return value and
`*phase_error`. -/
def sa5xOscillatorGetPhaseError (x : Sa5xExchanges) (found : Sa5xFound) (a : Sa5xAttributes) :
    ℤ × ℤ :=
  let outcome := sa5xOscillatorGetAttributesInto ⟨phaseErrorMask, false⟩ x found a
  if outcome.1 = 0 then (0, outcome.2.phaseoffset) else (-einval, 0)

/-! ### The law -/

/-- A value is the one before, or the number of a reply. -/
def FromReply {α : Type} (conv : ℤ → α) (own : IntReading) (old new : α) : Prop :=
  new = old ∨ ∃ v, own = .value v ∧ new = conv v

/-- The conversion of an `int` to `uint32_t`. -/
def alarmBits (v : ℤ) : ℕ := (toUnsigned 32 v).toNat

/-- Each field is as before, or the number of the reply to its own command. -/
structure ToldBy (own : Sa5xReplies) (a a' : Sa5xAttributes) : Prop where
  alarms : FromReply alarmBits own.alarms a.alarms a'.alarms
  phaseoffset : a'.phaseoffset = a.phaseoffset ∨
    ∃ q, own.phase = .value q ∧ a'.phaseoffset = (PhaseReading.value q).store 0
  lastcorrection : FromReply id own.lastcorrection a.lastcorrection a'.lastcorrection
  temperature : FromReply id own.temperature a.temperature a'.temperature
  digitaltuning : FromReply id own.digitalTuning a.digitaltuning a'.digitaltuning
  tau : FromReply (toUnsigned 32) own.tau a.tau a'.tau
  ppsindetected : FromReply bitOf own.gnssPps a.ppsindetected a'.ppsindetected
  locked : FromReply bitOf own.locked a.locked a'.locked
  disciplinelocked : FromReply bitOf own.disciplineLocked a.disciplinelocked a'.disciplinelocked
  disciplining : FromReply bitOf own.disciplining a.disciplining a'.disciplining

/-- The reply holds a number. -/
def IntReading.IsValue (reading : IntReading) : Prop := ∃ v, reading = .value v

theorem IntReading.IsValue.ne_noMatch {reading : IntReading} (h : reading.IsValue) :
    reading ≠ .noMatch := by
  obtain ⟨v, rfl⟩ := h
  exact IntReading.noConfusion

/-- The mandatory fields of a mask were read; under `ATTR_FW_SERIAL` nothing asks for them. -/
def MandatoryRead (mask : Sa5xFullMask) (own : Sa5xReplies) : Prop :=
  (mask.statusPps = true ∨ mask.status = true → mask.fwSerial = false ∧ own.gnssPps.IsValue) ∧
    (mask.statusTemperature = true → mask.fwSerial = false ∧ own.temperature.IsValue)

/-- What the replies say about the lock. -/
def lockedOf (replies : Sa5xReplies) : Bool :=
  bitOf (replies.gnssPps.store 0) && bitOf (replies.disciplineLocked.store 0)

/-- The temperature that is published. -/
def degrees (v : ℤ) : ℚ := binary64.round (v / 1000)

/-! ### What the law needs -/

/-- A number that was read says what the reply alone says, once stored. -/
def Says {α : Type} (conv : ℤ → α) (reading own : IntReading) : Prop :=
  ∀ v, reading = .value v → ∃ w, own = .value w ∧ conv w = conv v

/-- The queries under `ATTR_STATUS_PPS` or `ATTR_STATUS`. -/
structure PpsKept (replies own : Sa5xReplies) : Prop where
  disciplineLocked : Says bitOf replies.disciplineLocked own.disciplineLocked
  answered : replies.gnssPps ≠ .noMatch
  gnssPps : Says bitOf replies.gnssPps own.gnssPps

/-- The queries under `ATTR_CTRL`. -/
structure CtrlKept (replies own : Sa5xReplies) : Prop where
  digitalTuning : Says id replies.digitalTuning own.digitalTuning
  locked : Says bitOf replies.locked own.locked
  tau : Says (toUnsigned 32) replies.tau own.tau
  lastcorrection : Says id replies.lastcorrection own.lastcorrection

/-- The queries under `ATTR_STATUS`: there is an answer about the alarms, with a number or with
something else than a number. -/
structure StatusKept (replies own : Sa5xReplies) : Prop where
  answered : replies.alarms ≠ .failed ∧ replies.alarms ≠ .ended
  alarms : Says alarmBits replies.alarms own.alarms
  disciplining : Says bitOf replies.disciplining own.disciplining

/-- The number of a phase says what the reply alone says. -/
def SaysPhase (reading own : PhaseReading) : Prop :=
  ∀ q, reading = .value q →
    ∃ q', own = .value q' ∧ (PhaseReading.value q').store 0 = (PhaseReading.value q).store 0

/-- The query of the phase: there is an answer, with a number or with something else. -/
structure PhaseKept (replies own : Sa5xReplies) : Prop where
  answered : ∀ junk, replies.phase ≠ .uninitialised junk
  phase : SaysPhase replies.phase own.phase

/-- The query of the temperature. -/
structure TemperatureKept (replies own : Sa5xReplies) : Prop where
  answered : replies.temperature ≠ .noMatch
  temperature : Says id replies.temperature own.temperature

/-- The scan goes on after the status of the PPS. -/
def Sa5xMask.GoesOn (mask : Sa5xMask) (replies : Sa5xReplies) : Prop :=
  mask.statusPps = true ∨ mask.status = true → replies.gnssPps.IsValue

/-- The scan asks for the phase. -/
def Sa5xMask.AsksPhase (mask : Sa5xMask) (replies : Sa5xReplies) : Prop :=
  mask.phase = true ∨ mask.status = true ∧ replies.disciplining = .value 0

instance (mask : Sa5xMask) (replies : Sa5xReplies) : Decidable (mask.AsksPhase replies) :=
  inferInstanceAs (Decidable (_ ∨ _ ∧ _))

/-- What the readings of a scan have to be. -/
structure ScanKept (mask : Sa5xMask) (replies own : Sa5xReplies) : Prop where
  pps : mask.statusPps = true ∨ mask.status = true → PpsKept replies own
  ctrl : mask.GoesOn replies → mask.ctrl = true → CtrlKept replies own
  status : mask.GoesOn replies → mask.status = true → StatusKept replies own
  phase : mask.GoesOn replies → mask.AsksPhase replies → PhaseKept replies own
  temperature : mask.GoesOn replies → mask.statusTemperature = true → TemperatureKept replies own

/-! ### The fields after a scan -/

/-- What a reading leaves in a field that only a number changes. -/
def stored {α : Type} (conv : ℤ → α) (reading : IntReading) (old : α) : α :=
  match reading with
  | .value v => conv v
  | _ => old

/-- A query of a field stores what its reply alone says exactly when the number read says it. -/
theorem fromReply_stored_iff {α : Type} [Nontrivial α] {conv : ℤ → α} {reading own : IntReading} :
    (∀ old, FromReply conv own old (stored conv reading old)) ↔ Says conv reading own := by
  constructor
  · intro h v hv
    -- an old value that is not the number that was read
    obtain ⟨old, hold⟩ := exists_ne (conv v)
    rcases h old with heq | ⟨w, hw, heq⟩
    · rw [hv] at heq
      exact absurd heq.symm hold
    · rw [hv] at heq
      exact ⟨w, hw, heq.symm⟩
  · intro h old
    rcases reading with v | _ | _ | _
    · obtain ⟨w, hw, heq⟩ := h v rfl
      exact .inr ⟨w, hw, heq.symm⟩
    · exact .inl rfl
    · exact .inl rfl
    · exact .inl rfl

/-- The readings of the alarms and of the phase are stored unless they are an answer without a
number; the variable they share with other readings then has a value. -/
def storedAlarms (reading : IntReading) (val : ℤ) (old : ℕ) : ℕ :=
  if reading.err ≠ 0 then alarmBits (reading.store val) else old

section Stages

variable (mask : Sa5xMask) (r : Sa5xReplies) (a : Sa5xAttributes) (val : ℤ)

/-- The variable the readings share, after the queries of the PPS and of the control. -/
def sa5xVal : ℤ :=
  let val := if mask.statusPps || mask.status then
    r.gnssPps.store (r.disciplineLocked.store r.junk) else r.junk
  if mask.ctrl then r.tau.store (r.locked.store val) else val

variable {mask r a val}

theorem sa5xReadPps_of_goesOn (h : mask.GoesOn r) :
    sa5xReadPps mask r a val =
      (none,
        { a with
          disciplinelocked := if mask.statusPps || mask.status
            then stored bitOf r.disciplineLocked a.disciplinelocked else a.disciplinelocked
          ppsindetected := if mask.statusPps || mask.status
            then stored bitOf r.gnssPps a.ppsindetected else a.ppsindetected },
        if mask.statusPps || mask.status then r.gnssPps.store (r.disciplineLocked.store val)
        else val) := by
  rw [sa5xReadPps]
  by_cases hasked : mask.statusPps || mask.status
  · obtain ⟨v, hv⟩ := h (Bool.or_eq_true_iff.mp hasked)
    simp only [hasked, if_true, hv]
    cases r.disciplineLocked <;> rfl
  · simp only [hasked]
    rfl

variable (a val) in
theorem sa5xReadPps_of_not_goesOn (h : ¬ mask.GoesOn r) :
    (mask.statusPps = true ∨ mask.status = true) ∧ ¬ r.gnssPps.IsValue ∧
      sa5xReadPps mask r a val =
        (some r.gnssPps.err,
          { a with disciplinelocked := stored bitOf r.disciplineLocked a.disciplinelocked },
          r.gnssPps.store (r.disciplineLocked.store val)) := by
  obtain ⟨hasked, hvalue⟩ := Classical.not_imp.mp h
  refine ⟨hasked, hvalue, ?_⟩
  rw [sa5xReadPps, if_pos (Bool.or_eq_true_iff.mpr hasked)]
  rcases hpps : r.gnssPps with v | _ | _ | _
  · exact absurd ⟨v, hpps⟩ hvalue
  all_goals cases r.disciplineLocked <;> rfl

theorem sa5xReadCtrl_eq :
    sa5xReadCtrl mask r a val =
      ({ a with
          digitaltuning := if mask.ctrl then stored id r.digitalTuning a.digitaltuning
            else a.digitaltuning
          locked := if mask.ctrl then stored bitOf r.locked a.locked else a.locked
          tau := if mask.ctrl then stored (toUnsigned 32) r.tau a.tau else a.tau
          lastcorrection := if mask.ctrl then stored id r.lastcorrection a.lastcorrection
            else a.lastcorrection },
        if mask.ctrl then r.tau.store (r.locked.store val) else val) := by
  rw [sa5xReadCtrl]
  cases mask.ctrl
  · rfl
  · cases r.digitalTuning <;> cases r.locked <;> cases r.tau <;> cases r.lastcorrection <;> rfl

theorem sa5xReadStatus_fst :
    (sa5xReadStatus mask r a val).1 =
      { a with
        alarms := if mask.status then storedAlarms r.alarms val a.alarms else a.alarms
        disciplining := if mask.status then stored bitOf r.disciplining a.disciplining
          else a.disciplining } := by
  rw [sa5xReadStatus]
  cases mask.status
  · rfl
  · cases r.alarms <;> cases r.disciplining <;> rfl

theorem sa5xReadStatus_snd_iff :
    (sa5xReadStatus mask r a val).2 = true ↔
      mask.status = true ∧ r.disciplining = .value 0 := by
  rw [sa5xReadStatus]
  cases mask.status
  · simp
  · rcases r.disciplining with v | _ | _ | _
    · simp only [IntReading.err, IntReading.store, if_true, zero_lt_one, true_and,
        IntReading.value.injEq]
      exact decide_eq_true_iff
    all_goals simp [IntReading.err]

theorem sa5xReadPhase_fst {disciplinedOff : Bool} :
    (sa5xReadPhase mask r a disciplinedOff).1 =
      { a with
        phaseoffset := if mask.phase || disciplinedOff then r.phase.store a.phaseoffset
          else a.phaseoffset } := by
  rw [sa5xReadPhase]
  split_ifs with hasked
  · dsimp only
    split_ifs <;> rfl
  · rfl

theorem sa5xReadTemperature_eq :
    (sa5xReadTemperature mask r a).2.1 =
      { a with
        temperature := if mask.statusTemperature then stored id r.temperature a.temperature
          else a.temperature } := by
  rw [sa5xReadTemperature]
  cases mask.statusTemperature
  · rfl
  · cases r.temperature <;> rfl

/-- **The attributes after a scan** that goes on after the status of the PPS. -/
theorem attributes_of_goesOn (h : mask.GoesOn r) :
    (sa5xScanFrom mask r a).attributes =
      { alarms := if mask.status then storedAlarms r.alarms (sa5xVal mask r) a.alarms else a.alarms
        phaseoffset := if mask.AsksPhase r then r.phase.store a.phaseoffset else a.phaseoffset
        lastcorrection := if mask.ctrl then stored id r.lastcorrection a.lastcorrection
          else a.lastcorrection
        temperature := if mask.statusTemperature then stored id r.temperature a.temperature
          else a.temperature
        digitaltuning := if mask.ctrl then stored id r.digitalTuning a.digitaltuning
          else a.digitaltuning
        tau := if mask.ctrl then stored (toUnsigned 32) r.tau a.tau else a.tau
        ppsindetected := if mask.statusPps || mask.status
          then stored bitOf r.gnssPps a.ppsindetected else a.ppsindetected
        locked := if mask.ctrl then stored bitOf r.locked a.locked else a.locked
        disciplinelocked := if mask.statusPps || mask.status
          then stored bitOf r.disciplineLocked a.disciplinelocked else a.disciplinelocked
        disciplining := if mask.status then stored bitOf r.disciplining a.disciplining
          else a.disciplining } := by
  simp only [sa5xScanFrom, sa5xReadPps_of_goesOn h, sa5xReadTemperature_eq, sa5xReadPhase_fst,
    sa5xReadStatus_fst, sa5xReadCtrl_eq, Bool.or_eq_true, sa5xReadStatus_snd_iff, sa5xVal]
  rfl

end Stages

/-! ### Readings with and without the rest of the buffer -/

/-- A number that a reply holds is read, whatever follows the reply, perhaps with more digits. -/
theorem isValue_of_own {conv : ℤ → ℤ} {exchange : Sa5xExchange} (memory : List UInt8)
    (h : (sa5xOscillatorRead conv exchange []).1.IsValue) :
    (sa5xOscillatorRead conv exchange memory).1.IsValue := by
  obtain ⟨v, hv⟩ := h
  rcases exchange with _ | ⟨bytes, hbytes⟩ | ⟨bytes, hbytes⟩
  · cases hv
  · cases hv
  by_cases hanswer : isAnswer bytes = true
  · have hpos : (0 : ℤ) < bytes.length := by
      simp only [isAnswer, Bool.and_eq_true, decide_eq_true_eq] at hanswer
      omega
    simp only [sa5xOscillatorRead, sa5xOscillatorCmd, hanswer, if_true, hpos, overwriteAnswer,
      List.drop_nil, List.append_nil] at hv ⊢
    -- the string goes on behind the reply, to the next terminator in the buffer
    obtain ⟨more, hmore⟩ := exists_cString_append bytes (memory.drop bytes.length)
    rw [scanAnswer] at hv ⊢
    rcases hscan : scanInt 10 ((cString bytes).drop 2) with ⟨value, rest⟩ | _ | _
    · have hlong : 2 ≤ (cString bytes).length := by
        by_contra hshort
        rw [List.drop_eq_nil_of_le (by omega)] at hscan
        cases hscan
      obtain ⟨value', rest', hscan'⟩ := exists_scanInt_append hscan more
      rw [hmore, List.drop_append_of_le_length hlong, hscan']
      exact ⟨_, rfl⟩
    · simp [hscan] at hv
    · simp [hscan] at hv
  · simp [sa5xOscillatorRead, sa5xOscillatorCmd, hanswer] at hv

/-- A phase that is not read is whatever the variable held. -/
theorem readPhase_uninitialised {exchange : Sa5xExchange} {memory : List UInt8} {phase junk : ℤ}
    (h : (sa5xOscillatorReadPhase phase exchange memory).1 = .uninitialised junk) (phase' : ℤ) :
    (sa5xOscillatorReadPhase phase' exchange memory).1 = .uninitialised phase' := by
  simp only [sa5xOscillatorReadPhase] at h ⊢
  split_ifs at h ⊢ with hsize
  · rw [scanPhaseAnswer] at h ⊢
    rcases hscan : scanFloat ((cString (sa5xOscillatorCmd exchange memory).2).drop 2) with
      value | _ | _
    · simp [hscan] at h
    · simp [hscan] at h
    · rfl
  · rfl

/-! ### The outcome of a scan -/

section Outcome

variable {mask : Sa5xMask} {r own : Sa5xReplies} {a : Sa5xAttributes}

theorem scan_of_not_goesOn (h : ¬ mask.GoesOn r) :
    (sa5xScanFrom mask r a).err = r.gnssPps.err ∧
      (sa5xScanFrom mask r a).attributes =
        { a with disciplinelocked := stored bitOf r.disciplineLocked a.disciplinelocked } := by
  rw [sa5xScanFrom, (sa5xReadPps_of_not_goesOn _ _ h).2.2]
  exact ⟨rfl, rfl⟩

theorem err_of_goesOn (h : mask.GoesOn r) :
    (sa5xScanFrom mask r a).err =
      if mask.statusTemperature then min r.temperature.err 0 else 0 := by
  simp only [sa5xScanFrom, sa5xReadPps_of_goesOn h, sa5xReadTemperature]
  cases mask.statusTemperature
  · rfl
  · cases r.temperature <;> rfl

theorem err_eq_zero_iff (reading : IntReading) : reading.err = 0 ↔ reading = .noMatch := by
  cases reading <;> simp [IntReading.err]

theorem fromReply_ite {α : Type} {conv : ℤ → α} {reading : IntReading} {c : Prop} [Decidable c]
    {old new : α} :
    FromReply conv reading old (if c then new else old) ↔ (c → FromReply conv reading old new) := by
  split_ifs with hc
  · exact ⟨fun h _ => h, fun h => h hc⟩
  · exact iff_of_true (.inl rfl) fun h => absurd h hc

theorem sa5xReadPhase_snd {disciplinedOff : Bool} :
    (sa5xReadPhase mask r a disciplinedOff).2 =
      if mask.phase || disciplinedOff then
        if mask.status && !a.disciplining && decide (r.phase.store a.phaseoffset = 0) then
          [.getPhase, .setDisciplining true]
        else [.getPhase]
      else [] := by
  rw [sa5xReadPhase]
  cases mask.phase || disciplinedOff
  · rfl
  · simp only [if_true, apply_ite Prod.snd]

theorem sa5xReadTemperature_cmds :
    (sa5xReadTemperature mask r a).2.2
      = if mask.statusTemperature then [.getTemperature] else [] := by
  rw [sa5xReadTemperature]
  split_ifs <;> rfl

/-- The commands of a scan do not depend on the temperature it finds. -/
theorem cmds_temperature (t : ℤ) :
    (sa5xScanFrom mask r { a with temperature := t }).cmds = (sa5xScanFrom mask r a).cmds := by
  by_cases h : mask.GoesOn r
  -- the attributes decide only whether disciplining is switched on, with the phase they hold
  · have hoff : ∀ a a' val, (sa5xReadStatus mask r a val).2 = (sa5xReadStatus mask r a' val).2 :=
      fun _ _ _ => Bool.eq_iff_iff.mpr (sa5xReadStatus_snd_iff.trans sa5xReadStatus_snd_iff.symm)
    simp only [sa5xScanFrom, sa5xReadPps_of_goesOn h, sa5xReadPhase_snd, sa5xReadTemperature_cmds,
      sa5xReadStatus_fst, sa5xReadCtrl_eq]
    rw [hoff]
  · simp only [sa5xScanFrom, (sa5xReadPps_of_not_goesOn _ _ h).2.2]

/-- A query of the alarms stores what its reply says exactly when there is an answer and the number
read says it. -/
theorem fromReply_storedAlarms_iff {reading own : IntReading} {val : ℤ}
    (hown : own.IsValue → reading.IsValue) :
    (∀ old, FromReply alarmBits own old (storedAlarms reading val old)) ↔
      (reading ≠ .failed ∧ reading ≠ .ended) ∧ Says alarmBits reading own := by
  have hnone : (¬ reading.IsValue ∧ reading ≠ .noMatch) →
      ¬ ∀ old, FromReply alarmBits own old (storedAlarms reading val old) := by
    rintro ⟨hvalue, hmatch⟩ h
    obtain ⟨old, hold⟩ := exists_ne (alarmBits (reading.store val))
    have hstored : storedAlarms reading val old = alarmBits (reading.store val) :=
      if_pos fun herr => hmatch ((err_eq_zero_iff reading).mp herr)
    rcases h old with heq | ⟨w, hw, -⟩
    · exact hold (heq.symm.trans hstored)
    · exact hvalue (hown ⟨w, hw⟩)
  rcases reading with v | _ | _ | _
  · have hiff : (∀ old, FromReply alarmBits own old (stored alarmBits (.value v) old)) ↔
        Says alarmBits (.value v) own := fromReply_stored_iff
    refine Iff.trans ?_ (hiff.trans ⟨fun h => ⟨⟨by simp, by simp⟩, h⟩, And.right⟩)
    rfl
  · exact iff_of_true (fun old => .inl rfl) ⟨⟨by simp, by simp⟩, fun v hv => by cases hv⟩
  · refine iff_of_false (hnone ⟨?_, by simp⟩) fun h => h.1.2 rfl
    rintro ⟨v, hv⟩
    cases hv
  · refine iff_of_false (hnone ⟨?_, by simp⟩) fun h => h.1.1 rfl
    rintro ⟨v, hv⟩
    cases hv

/-- A query of the phase stores what its reply says exactly when there is an answer and the number
read says it. -/
theorem fromPhase_iff {exchange : Sa5xExchange} {memory : List UInt8} {own : PhaseReading} :
    (∀ junk old, (sa5xOscillatorReadPhase junk exchange memory).1.store old = old ∨
        ∃ q, own = .value q ∧ (sa5xOscillatorReadPhase junk exchange memory).1.store old
          = (PhaseReading.value q).store 0) ↔
      ∀ junk, (∀ j, (sa5xOscillatorReadPhase junk exchange memory).1 ≠ .uninitialised j) ∧
        SaysPhase (sa5xOscillatorReadPhase junk exchange memory).1 own := by
  constructor
  · intro h junk
    constructor
    · intro j hj
      -- some content of the variable is neither the old value nor that of the reply
      obtain ⟨junk', hjunk⟩ : ∃ junk' : ℤ, junk' ≠ 0 ∧
          ∀ q, own = .value q → junk' ≠ (PhaseReading.value q).store 0 := by
        rcases own with q | _ | _
        · obtain ⟨junk', hjunk⟩ := Infinite.exists_notMem_finset
            ({0, (PhaseReading.value q).store 0} : Finset ℤ)
          simp only [Finset.mem_insert, Finset.mem_singleton, not_or] at hjunk
          refine ⟨junk', hjunk.1, fun q' hq' => ?_⟩
          cases hq'
          exact hjunk.2
        · exact ⟨1, one_ne_zero, fun q hq => by cases hq⟩
        · exact ⟨1, one_ne_zero, fun q hq => by cases hq⟩
      have hstored := h junk' 0
      rw [readPhase_uninitialised hj junk'] at hstored
      rcases hstored with hzero | ⟨q, hq, heq⟩
      · exact hjunk.1 hzero
      · exact hjunk.2 q hq heq
    · intro q hq
      obtain ⟨old, hold⟩ := exists_ne ((PhaseReading.value q).store 0)
      have hstored := h junk old
      rw [hq] at hstored
      rcases hstored with heq | ⟨q', hq', heq⟩
      · exact absurd heq.symm hold
      · exact ⟨q', hq', heq.symm⟩
  · intro h junk old
    obtain ⟨hanswered, hsays⟩ := h junk
    rcases hreading : (sa5xOscillatorReadPhase junk exchange memory).1 with q | _ | j
    · obtain ⟨q', hq', heq⟩ := hsays q hreading
      exact .inr ⟨q', hq', heq.symm⟩
    · exact .inl rfl
    · exact absurd hreading (hanswered j)

end Outcome

/-! ### When the law holds -/

section Law

variable {mask : Sa5xMask} {x : Sa5xExchanges} {memory : List UInt8}

/-- Only the reading of the temperature depends on the attributes, and not on the temperature. -/
theorem temperature_sa5xReplies {found : Sa5xFound} {a : Sa5xAttributes} (t : ℤ) :
    (sa5xReplies mask x found { a with temperature := t }).temperature
      = (sa5xReplies mask x found a).temperature := by
  simp only [sa5xReplies, cmds_temperature]

/-- The phase is read in some memory, whatever the attributes and the variables hold. -/
theorem phase_sa5xReplies (mask : Sa5xMask) (x : Sa5xExchanges) (memory : List UInt8) :
    ∃ before, ∀ val phase a, (sa5xReplies mask x ⟨memory, val, phase⟩ a).phase
      = (sa5xOscillatorReadPhase phase x.phase before).1 := by
  simp only [sa5xReplies]
  exact ⟨_, fun _ _ _ => rfl⟩

/-- **The law of one scan**, for what the commands meet. -/
def ScanLaw (mask : Sa5xMask) (x : Sa5xExchanges) (memory : List UInt8) : Prop :=
  ∀ val phase a, let scan := sa5xScanFrom mask (sa5xReplies mask x ⟨memory, val, phase⟩ a) a
    ToldBy x.own a scan.attributes ∧ (scan.err = 0 → MandatoryRead ⟨mask, false⟩ x.own)

section Scan

variable (h : ScanLaw mask x memory) (val phase : ℤ) (a : Sa5xAttributes)

include h

theorem ppsKept_of_scanLaw (hasked : mask.statusPps = true ∨ mask.status = true) :
    PpsKept (sa5xReplies mask x ⟨memory, val, phase⟩ a) x.own := by
  have hbool := Bool.or_eq_true_iff.mpr hasked
  constructor
  case disciplineLocked =>
    -- the law is for every previous content, and so for one the number cannot be taken for
    rw [← fromReply_stored_iff]
    intro old
    have htold := (h val phase { a with disciplinelocked := old }).1.disciplinelocked
    by_cases hgo : mask.GoesOn (sa5xReplies mask x ⟨memory, val, phase⟩ a)
    · have hgo' : ∀ a, mask.GoesOn (sa5xReplies mask x ⟨memory, val, phase⟩ a) := fun _ => hgo
      rw [attributes_of_goesOn (hgo' _)] at htold
      exact fromReply_ite.mp htold hbool
    · have hgo' : ∀ a, ¬ mask.GoesOn (sa5xReplies mask x ⟨memory, val, phase⟩ a) := fun _ => hgo
      rw [(scan_of_not_goesOn (hgo' _)).2] at htold
      exact htold
  case answered =>
    intro hmatch
    have hgo : ¬ mask.GoesOn (sa5xReplies mask x ⟨memory, val, phase⟩ a) := by
      intro hgo
      obtain ⟨v, hv⟩ := hgo hasked
      rw [hmatch] at hv
      cases hv
    have herr := (scan_of_not_goesOn (a := a) hgo).1.trans ((err_eq_zero_iff _).mpr hmatch)
    exact (isValue_of_own _ (((h val phase a).2 herr).1 hasked).2).ne_noMatch hmatch
  case gnssPps =>
    rw [← fromReply_stored_iff]
    intro old
    -- without a number nothing is stored, and there is nothing to show
    by_cases hgo : mask.GoesOn (sa5xReplies mask x ⟨memory, val, phase⟩ a)
    · have hgo' : ∀ a, mask.GoesOn (sa5xReplies mask x ⟨memory, val, phase⟩ a) := fun _ => hgo
      have htold := (h val phase { a with ppsindetected := old }).1.ppsindetected
      rw [attributes_of_goesOn (hgo' _)] at htold
      exact fromReply_ite.mp htold hbool
    · have hvalue := (sa5xReadPps_of_not_goesOn a val hgo).2.1
      rcases hpps : (sa5xReplies mask x ⟨memory, val, phase⟩ a).gnssPps with v | _ | _ | _
      · exact absurd ⟨v, hpps⟩ hvalue
      all_goals exact .inl rfl

variable {val phase a} (hgo : mask.GoesOn (sa5xReplies mask x ⟨memory, val, phase⟩ a))

include hgo

theorem ctrlKept_of_scanLaw (hctrl : mask.ctrl = true) :
    CtrlKept (sa5xReplies mask x ⟨memory, val, phase⟩ a) x.own := by
  have hgo' : ∀ a, mask.GoesOn (sa5xReplies mask x ⟨memory, val, phase⟩ a) := fun _ => hgo
  constructor <;> rw [← fromReply_stored_iff] <;> intro old
  case digitalTuning =>
    have htold := (h val phase { a with digitaltuning := old }).1.digitaltuning
    rw [attributes_of_goesOn (hgo' _)] at htold
    exact fromReply_ite.mp htold hctrl
  case locked =>
    have htold := (h val phase { a with locked := old }).1.locked
    rw [attributes_of_goesOn (hgo' _)] at htold
    exact fromReply_ite.mp htold hctrl
  case tau =>
    have htold := (h val phase { a with tau := old }).1.tau
    rw [attributes_of_goesOn (hgo' _)] at htold
    exact fromReply_ite.mp htold hctrl
  case lastcorrection =>
    have htold := (h val phase { a with lastcorrection := old }).1.lastcorrection
    rw [attributes_of_goesOn (hgo' _)] at htold
    exact fromReply_ite.mp htold hctrl

theorem statusKept_of_scanLaw (hstatus : mask.status = true) :
    StatusKept (sa5xReplies mask x ⟨memory, val, phase⟩ a) x.own := by
  have hgo' : ∀ a, mask.GoesOn (sa5xReplies mask x ⟨memory, val, phase⟩ a) := fun _ => hgo
  have hstored : ∀ old, FromReply alarmBits x.own.alarms old
      (storedAlarms (sa5xReplies mask x ⟨memory, val, phase⟩ a).alarms
        (sa5xVal mask (sa5xReplies mask x ⟨memory, val, phase⟩ a)) old) := by
    intro old
    have htold := (h val phase { a with alarms := old }).1.alarms
    rw [attributes_of_goesOn (hgo' _)] at htold
    exact fromReply_ite.mp htold hstatus
  obtain ⟨hanswered, halarms⟩ := (fromReply_storedAlarms_iff (isValue_of_own _)).mp hstored
  refine ⟨hanswered, halarms, ?_⟩
  rw [← fromReply_stored_iff]
  intro old
  have htold := (h val phase { a with disciplining := old }).1.disciplining
  rw [attributes_of_goesOn (hgo' _)] at htold
  exact fromReply_ite.mp htold hstatus

theorem phaseKept_of_scanLaw
    (hasks : mask.AsksPhase (sa5xReplies mask x ⟨memory, val, phase⟩ a)) :
    PhaseKept (sa5xReplies mask x ⟨memory, val, phase⟩ a) x.own := by
  have hgo' : ∀ phase a, mask.GoesOn (sa5xReplies mask x ⟨memory, val, phase⟩ a) :=
    fun _ _ => hgo
  have hasks' : ∀ phase a, mask.AsksPhase (sa5xReplies mask x ⟨memory, val, phase⟩ a) :=
    fun _ _ => hasks
  obtain ⟨before, hbefore⟩ := phase_sa5xReplies mask x memory
  have hstored : ∀ junk old, (sa5xOscillatorReadPhase junk x.phase before).1.store old = old ∨
      ∃ q, x.own.phase = .value q ∧ (sa5xOscillatorReadPhase junk x.phase before).1.store old
        = (PhaseReading.value q).store 0 := by
    intro junk old
    have htold := (h val junk { a with phaseoffset := old }).1.phaseoffset
    rw [attributes_of_goesOn (hgo' _ _)] at htold
    simp only [if_pos (hasks' _ _), hbefore] at htold
    exact htold
  obtain ⟨hanswered, hphase⟩ := fromPhase_iff.mp hstored phase
  rw [← hbefore val phase a] at hanswered hphase
  exact ⟨hanswered, hphase⟩

theorem temperatureKept_of_scanLaw (htemperature : mask.statusTemperature = true) :
    TemperatureKept (sa5xReplies mask x ⟨memory, val, phase⟩ a) x.own := by
  have hgo' : ∀ a, mask.GoesOn (sa5xReplies mask x ⟨memory, val, phase⟩ a) := fun _ => hgo
  constructor
  · intro hmatch
    have herr := err_of_goesOn (a := a) hgo
    rw [if_pos htemperature, hmatch] at herr
    exact (isValue_of_own _ (((h val phase a).2 herr).2 htemperature).2).ne_noMatch hmatch
  · rw [← fromReply_stored_iff]
    intro old
    have htold := (h val phase { a with temperature := old }).1.temperature
    rw [attributes_of_goesOn (hgo' _)] at htold
    simp only [temperature_sa5xReplies] at htold
    exact fromReply_ite.mp htold htemperature

end Scan

theorem scanKept_of_scanLaw (h : ScanLaw mask x memory) (val phase : ℤ) (a : Sa5xAttributes) :
    ScanKept mask (sa5xReplies mask x ⟨memory, val, phase⟩ a) x.own where
  pps := ppsKept_of_scanLaw h val phase a
  ctrl := ctrlKept_of_scanLaw h
  status := statusKept_of_scanLaw h
  phase := phaseKept_of_scanLaw h
  temperature := temperatureKept_of_scanLaw h

/-- What a scan leaves in the attributes is what the replies say, if its readings are so. -/
theorem toldBy_of_scanKept {r own : Sa5xReplies} {a : Sa5xAttributes} (h : ScanKept mask r own) :
    ToldBy own a (sa5xScanFrom mask r a).attributes := by
  have hsays : ∀ {α : Type} [Nontrivial α] {conv : ℤ → α} {reading own : IntReading} {old : α},
      Says conv reading own → FromReply conv own old (stored conv reading old) :=
    fun hsays => fromReply_stored_iff.mpr hsays _
  by_cases hgo : mask.GoesOn r
  · rw [attributes_of_goesOn hgo]
    constructor
    case alarms =>
      refine fromReply_ite.mpr fun hstatus => ?_
      obtain ⟨⟨hfailed, hended⟩, halarms, -⟩ := h.status hgo hstatus
      -- only an answer without a number leaves the alarms as they were
      rcases hreading : r.alarms with v | _ | _ | _
      · obtain ⟨w, hw, heq⟩ := halarms v hreading
        exact .inr ⟨w, hw, heq.symm⟩
      · exact .inl rfl
      · exact absurd hreading hended
      · exact absurd hreading hfailed
    case phaseoffset =>
      dsimp only
      split_ifs with hasks
      · obtain ⟨hanswered, hphase⟩ := h.phase hgo hasks
        rcases hreading : r.phase with q | _ | junk
        · obtain ⟨q', hq', heq⟩ := hphase q hreading
          exact .inr ⟨q', hq', heq.symm⟩
        · exact .inl rfl
        · exact absurd hreading (hanswered junk)
      · exact .inl rfl
    case lastcorrection =>
      exact fromReply_ite.mpr fun hctrl => hsays (h.ctrl hgo hctrl).lastcorrection
    case temperature =>
      exact fromReply_ite.mpr fun hasked => hsays (h.temperature hgo hasked).temperature
    case digitaltuning =>
      exact fromReply_ite.mpr fun hctrl => hsays (h.ctrl hgo hctrl).digitalTuning
    case tau => exact fromReply_ite.mpr fun hctrl => hsays (h.ctrl hgo hctrl).tau
    case ppsindetected =>
      exact fromReply_ite.mpr fun hasked => hsays (h.pps (Bool.or_eq_true_iff.mp hasked)).gnssPps
    case locked => exact fromReply_ite.mpr fun hctrl => hsays (h.ctrl hgo hctrl).locked
    case disciplinelocked =>
      exact fromReply_ite.mpr fun hasked =>
        hsays (h.pps (Bool.or_eq_true_iff.mp hasked)).disciplineLocked
    case disciplining =>
      exact fromReply_ite.mpr fun hstatus => hsays (h.status hgo hstatus).disciplining
  · rw [(scan_of_not_goesOn hgo).2]
    obtain ⟨hasked, -, -⟩ := sa5xReadPps_of_not_goesOn a 0 hgo
    constructor
    case disciplinelocked => exact hsays (h.pps hasked).disciplineLocked
    all_goals exact .inl rfl

theorem mandatoryRead_of_scanKept {r own : Sa5xReplies} {a : Sa5xAttributes}
    (h : ScanKept mask r own) (herr : (sa5xScanFrom mask r a).err = 0) :
    MandatoryRead ⟨mask, false⟩ own := by
  by_cases hgo : mask.GoesOn r
  · rw [err_of_goesOn hgo] at herr
    constructor
    · intro hasked
      obtain ⟨v, hv⟩ := hgo hasked
      obtain ⟨w, hw, -⟩ := (h.pps hasked).gnssPps v hv
      exact ⟨rfl, w, hw⟩
    · intro hasked
      rw [if_pos hasked] at herr
      obtain ⟨hanswered, hsays⟩ := h.temperature hgo hasked
      rcases hreading : r.temperature with v | _ | _ | _
      · obtain ⟨w, hw, -⟩ := hsays v hreading
        exact ⟨rfl, w, hw⟩
      · exact absurd hreading hanswered
      · rw [hreading] at herr
        exact absurd herr (by decide)
      · rw [hreading] at herr
        exact absurd herr (by decide)
  · rw [(scan_of_not_goesOn hgo).1, err_eq_zero_iff] at herr
    obtain ⟨hasked, -, -⟩ := sa5xReadPps_of_not_goesOn a 0 hgo
    exact absurd herr (h.pps hasked).answered

theorem scanLaw_iff :
    ScanLaw mask x memory ↔
      ∀ val phase a, ScanKept mask (sa5xReplies mask x ⟨memory, val, phase⟩ a) x.own :=
  ⟨scanKept_of_scanLaw, fun h val phase a =>
    ⟨toldBy_of_scanKept (h val phase a), mandatoryRead_of_scanKept (h val phase a)⟩⟩

/-! ### What is published -/

/-- What the readings of `sa5x_oscillator_parse_attributes` have to be. -/
structure PublishedKept (replies own : Sa5xReplies) : Prop where
  answered : replies.gnssPps ≠ .noMatch
  temperature : replies.gnssPps.IsValue → replies.temperature ≠ .noMatch
  values : replies.gnssPps.IsValue → ∀ v, replies.temperature = .value v →
    own.gnssPps.IsValue ∧ (∃ w, own.temperature = .value w ∧ degrees w = degrees v) ∧
      lockedOf own = lockedOf replies

theorem stored_bitOf (reading : IntReading) :
    stored bitOf reading false = bitOf (reading.store 0) := by
  cases reading <;> rfl

/-- The readings of the attributes that are published. -/
abbrev publishedReplies (x : Sa5xExchanges) (found : Sa5xFound) : Sa5xReplies :=
  sa5xReplies parseAttributesMask x found sa5xAttributesZero

theorem goesOn_parseAttributes_iff {r : Sa5xReplies} :
    parseAttributesMask.GoesOn r ↔ r.gnssPps.IsValue :=
  ⟨fun h => h (.inl rfl), fun h _ => h⟩

theorem parseAttributes_of_not_isValue {found : Sa5xFound}
    (h : ¬ (publishedReplies x found).gnssPps.IsValue) :
    (sa5xOscillatorGetAttributesInto ⟨parseAttributesMask, false⟩ x found
      sa5xAttributesZero).1 = (publishedReplies x found).gnssPps.err :=
  (scan_of_not_goesOn fun hgo => h (goesOn_parseAttributes_iff.mp hgo)).1

theorem parseAttributes_of_isValue {found : Sa5xFound}
    (h : (publishedReplies x found).gnssPps.IsValue) :
    (sa5xOscillatorGetAttributesInto ⟨parseAttributesMask, false⟩ x found sa5xAttributesZero).1
        = min (publishedReplies x found).temperature.err 0 ∧
      ∀ v, (publishedReplies x found).temperature = .value v →
        sa5xOscillatorParseAttributes x found
          = (degrees v, lockedOf (publishedReplies x found)) := by
  have hgo := goesOn_parseAttributes_iff.mpr h
  have herr := err_of_goesOn (a := sa5xAttributesZero) hgo
  refine ⟨herr, fun v hv => ?_⟩
  have hzero : (sa5xScanFrom parseAttributesMask (publishedReplies x found)
      sa5xAttributesZero).err = 0 := by
    rw [herr, hv]
    rfl
  have hattributes := attributes_of_goesOn (a := sa5xAttributesZero) hgo
  rw [sa5xOscillatorParseAttributes]
  simp only [sa5xOscillatorGetAttributesInto, Bool.false_eq_true, if_false, hzero, if_true,
    hattributes]
  rw [lockedOf, ← stored_bitOf, ← stored_bitOf, degrees]
  simp only [hv]
  rfl

/-- **What `sa5x_oscillator_parse_attributes` publishes**: the values of a call that fails, or those
of the replies. -/
def Published (x : Sa5xExchanges) (found : Sa5xFound) : Prop :=
  (sa5xOscillatorGetAttributesInto ⟨parseAttributesMask, false⟩ x found
        sa5xAttributesZero).1 ≠ 0 ∧
      sa5xOscillatorParseAttributes x found = (-400, false) ∨
    x.own.gnssPps.IsValue ∧ ∃ v, x.own.temperature = .value v ∧
      sa5xOscillatorParseAttributes x found = (degrees v, lockedOf x.own)

theorem Published.kept {found : Sa5xFound} (h : Published x found) :
    PublishedKept (publishedReplies x found) x.own where
  answered hmatch := by
    have hvalue : ¬ (publishedReplies x found).gnssPps.IsValue := fun h => h.ne_noMatch hmatch
    rcases h with ⟨hne, -⟩ | ⟨hpps, -⟩
    · have herr := parseAttributes_of_not_isValue hvalue
      exact hne (herr.trans ((err_eq_zero_iff _).mpr hmatch))
    · exact hvalue (isValue_of_own _ hpps)
  temperature hvalue hmatch := by
    rcases h with ⟨hne, -⟩ | ⟨-, w, hw, -⟩
    -- the call succeeds, though the temperature was not read
    · have herr := (parseAttributes_of_isValue hvalue).1
      rw [hmatch] at herr
      exact hne herr
    · exact (isValue_of_own _ ⟨w, hw⟩).ne_noMatch hmatch
  values hvalue v hv := by
    obtain ⟨herr, hpublished⟩ := parseAttributes_of_isValue hvalue
    rcases h with ⟨hne, -⟩ | ⟨hpps, w, hw, heq⟩
    · rw [hv] at herr
      exact absurd herr hne
    · obtain ⟨hdegrees, hlocked⟩ := Prod.mk.inj ((hpublished v hv).symm.trans heq)
      exact ⟨hpps, ⟨w, hw, hdegrees.symm⟩, hlocked.symm⟩

theorem published_of_err_ne_zero {found : Sa5xFound} {err : ℤ}
    (h : (sa5xOscillatorGetAttributesInto ⟨parseAttributesMask, false⟩ x found
      sa5xAttributesZero).1 = err) (hne : err ≠ 0) : Published x found := by
  refine .inl ⟨h.trans_ne hne, ?_⟩
  rw [sa5xOscillatorParseAttributes]
  exact if_neg (h.trans_ne hne)

theorem PublishedKept.published {found : Sa5xFound}
    (h : PublishedKept (publishedReplies x found) x.own) : Published x found := by
  by_cases hvalue : (publishedReplies x found).gnssPps.IsValue
  · obtain ⟨herr, hpublished⟩ := parseAttributes_of_isValue hvalue
    cases htemperature : (publishedReplies x found).temperature with
    | value v =>
      obtain ⟨hpps, ⟨w, hw, hdegrees⟩, hlocked⟩ := h.values hvalue v htemperature
      refine .inr ⟨hpps, w, hw, ?_⟩
      rw [hpublished v htemperature, hdegrees, hlocked]
    | noMatch => exact absurd htemperature (h.temperature hvalue)
    | failed | ended =>
      rw [htemperature] at herr
      exact published_of_err_ne_zero herr (by decide)
  · have hne : (publishedReplies x found).gnssPps.err ≠ 0 :=
      fun hzero => h.answered ((err_eq_zero_iff _).mp hzero)
    exact published_of_err_ne_zero (parseAttributes_of_not_isValue hvalue) hne

theorem getPhaseError_eq (found : Sa5xFound) (a : Sa5xAttributes) :
    sa5xOscillatorGetPhaseError x found a =
      (0, (sa5xOscillatorReadPhase found.phase x.phase found.memory).1.store a.phaseoffset) := by
  have hgo : ∀ r, phaseErrorMask.GoesOn r := fun r hasked => absurd hasked (by decide)
  simp only [sa5xOscillatorGetPhaseError, sa5xOscillatorGetAttributesInto, Bool.false_eq_true,
    if_false, attributes_of_goesOn (hgo _), err_of_goesOn (hgo _)]
  rfl

/-- The phase that is published when the result is not looked at. -/
theorem phaseError_iff (memory : List UInt8) :
    (∀ val phase a, (sa5xOscillatorGetPhaseError x ⟨memory, val, phase⟩ a).1 = 0 →
      ∃ q, x.own.phase = .value q ∧
        (sa5xOscillatorGetPhaseError x ⟨memory, val, phase⟩ a).2
          = (PhaseReading.value q).store 0) ↔
      ∀ phase, ∃ q, (sa5xOscillatorReadPhase phase x.phase memory).1 = .value q ∧
        ∃ q', x.own.phase = .value q' ∧
          (PhaseReading.value q').store 0 = (PhaseReading.value q).store 0 := by
  simp only [getPhaseError_eq, forall_const]
  constructor
  · intro h phase
    rcases hreading : (sa5xOscillatorReadPhase phase x.phase memory).1 with q | _ | junk
    · obtain ⟨q', hq', heq⟩ := h phase sa5xAttributesZero
      rw [hreading] at heq
      exact ⟨q, rfl, q', hq', heq.symm⟩
    · obtain ⟨q', hq', -⟩ := h phase sa5xAttributesZero
      obtain ⟨old, hold⟩ := exists_ne ((PhaseReading.value q').store 0)
      obtain ⟨q'', hq'', heq⟩ := h phase { sa5xAttributesZero with phaseoffset := old }
      rw [hreading] at heq
      obtain rfl := PhaseReading.value.inj (hq'.symm.trans hq'')
      exact absurd heq hold
    · obtain ⟨q', hq', -⟩ := h phase sa5xAttributesZero
      obtain ⟨junk', hjunk⟩ := exists_ne ((PhaseReading.value q').store 0)
      obtain ⟨q'', hq'', heq⟩ := h junk' sa5xAttributesZero
      rw [readPhase_uninitialised hreading junk'] at heq
      obtain rfl := PhaseReading.value.inj (hq'.symm.trans hq'')
      exact absurd heq hjunk
  · intro h phase a
    obtain ⟨q, hq, q', hq', heq⟩ := h phase
    refine ⟨q', hq', ?_⟩
    rw [hq, heq]
    rfl

end Law

end Oscillatord
