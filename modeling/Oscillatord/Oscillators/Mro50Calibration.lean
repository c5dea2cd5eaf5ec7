import Oscillatord.Library.CText
import Oscillatord.Oscillators.Descriptors

/-!
# The control points of an mRO50 calibration

A calibration writes each control point, reads the control values back, and takes its measures.
What it reads back is compared with the control point, and the difference is only logged: the
measures are stored all the same. The flag `loop` is looked at before each control point and before
each measure, not after the last one.

`CalibrationLaw` is that a calibration with a result has stored every measure, each taken while the
control value last read back was its control point, and that whatever goes wrong, or a request to
stop, leaves no result. It holds exactly when, in a calibration in which everything else goes well,
every control point is read back and no request to stop comes after the last measure
(`calibrationLaw_iff`).
-/

namespace Oscillatord

open CNumber CText

/-! ### The serial line -/

/-- The reading of a control value: `sscanf` of the answer with `%x`. -/
def readHexadecimal (x : Exchange) : Option ℤ :=
  match mRo50OscillatorCmd x with
  | none => none
  | some answer =>
    match scanInt 16 (cString answer) with
    | .number value _ => some (unsignedOf value)
    | .noMatch | .ended => none

/-- The values of `mRo50_oscillator_get_ctrl`: the coarse one is read first. A failure leaves the
fine value as it was. -/
def mRo50CtrlValues (coarse fine : Exchange) (ctrl : OscillatorCtrl) :
    ℤ × OscillatorCtrl :=
  match readHexadecimal coarse with
  | none => (-1, ctrl)
  | some coarseCtrl =>
    match readHexadecimal fine with
    -- the coarse value is stored before the fine one is asked for
    | none => (-1, { ctrl with coarseCtrl })
    | some fineCtrl => (0, { coarseCtrl, fineCtrl })

/-- The result of `mRo50_oscillator_apply_output` for `ADJUST_FINE`: the answer is to be the two
line feeds alone. -/
def adjustFineResult (x : Exchange) : ℤ :=
  match mRo50OscillatorCmd x with
  | none => -1
  | some answer => if answer.length ≠ 2 then -1 else 0

/-! ### What a calibration meets -/

/-- The outcomes of everything a calibration does. `stop` counts the looks at the flag `loop` that
come before a request to stop; `fineBefore` is the fine value read back last before the
calibration, and `ctrl` what the local variable holds before the read-back. -/
structure CalibrationOutcomes where
  allocated : Bool
  stop : Option ℕ
  fineBefore : Option ℤ
  write : ℕ → ℤ → Exchange
  ctrl : ℕ → OscillatorCtrl
  readCoarse : ℕ → Exchange
  readFine : ℕ → Exchange
  phasemeter : ℕ → ℕ → Phasemeter
  qErr : ℕ → ℕ → Option ℤ

namespace CalibrationOutcomes

variable (outcomes : CalibrationOutcomes) (calibParams : CalibrationParameters)

/-- The flag `loop` once it was looked at `looks` times. -/
def loopAfter (looks : ℕ) : Bool :=
  match outcomes.stop with
  | none => true
  | some stop => decide (looks < stop)

/-- How often the flag is looked at before control point `i`. -/
def looksBefore (calibParams : CalibrationParameters) (i : ℕ) : ℕ :=
  i * (calibParams.nbCalibration + 1)

/-- What the loops of the calibration meet. -/
def env : CalibrationEnv where
  allocated := outcomes.allocated
  point i :=
    { loop := outcomes.loopAfter (looksBefore calibParams i)
      applyOutput := fun setpoint => adjustFineResult (outcomes.write i setpoint) }
  reading i j :=
    { loop := outcomes.loopAfter (looksBefore calibParams i + 1 + j)
      phasemeter := outcomes.phasemeter i j
      qErr := outcomes.qErr i j }

/-- The calibration. -/
def calibrate (phaseSign : ℤ) : Option CalibrationResults :=
  mRo50OscillatorCalibrate (outcomes.env calibParams) calibParams phaseSign

/-- The setpoint of control point `i`. -/
def setpoint (calibParams : CalibrationParameters) (i : ℕ) : ℤ :=
  toUnsigned 32 (calibParams.ctrlPoints.getD i 0)

/-- The read-back at control point `i`. -/
def readBack (i : ℕ) : ℤ × OscillatorCtrl :=
  mRo50CtrlValues (outcomes.readCoarse i) (outcomes.readFine i) (outcomes.ctrl i)

/-- The fine value of the last read-back that succeeded, once `i` control points were read
back. -/
def lastFine : ℕ → Option ℤ
  | 0 => outcomes.fineBefore
  | i + 1 =>
    if (outcomes.readBack i).1 = 0 then some (outcomes.readBack i).2.fineCtrl else lastFine i

/-! ### The law -/

/-- The read-back at control point `i` succeeds with the setpoint. -/
def ReadBackSet (i : ℕ) : Prop :=
  (outcomes.readBack i).1 = 0 ∧ (outcomes.readBack i).2.fineCtrl = setpoint calibParams i

/-- What the code looks at goes well: the memory, the writes, the phasemeter, the GNSS, and the flag
each time it is looked at. -/
structure RunsThrough : Prop where
  allocated : outcomes.allocated = true
  point : ∀ i < calibParams.length, outcomes.loopAfter (looksBefore calibParams i) = true
  write : ∀ i < calibParams.length,
    0 ≤ adjustFineResult (outcomes.write i (setpoint calibParams i))
  reading : ∀ i < calibParams.length, ∀ j < calibParams.nbCalibration,
    outcomes.loopAfter (looksBefore calibParams i + 1 + j) = true
  timestamps : ∀ i < calibParams.length, ∀ j < calibParams.nbCalibration,
    (outcomes.phasemeter i j).status = .bothTimestamps
  epochData : ∀ i < calibParams.length, ∀ j < calibParams.nbCalibration,
    (outcomes.qErr i j).isSome = true

/-- No request to stop has come when the calibration returns. -/
def NotStopped : Prop := outcomes.loopAfter (looksBefore calibParams calibParams.length) = true

/-- Nothing at all goes wrong. -/
structure Flawless : Prop extends RunsThrough outcomes calibParams where
  readBack : ∀ i < calibParams.length, outcomes.ReadBackSet calibParams i
  notStopped : outcomes.NotStopped calibParams

/-- The results are complete, and belong to their control points. -/
structure Belongs (results : CalibrationResults) : Prop where
  length : results.length = calibParams.length
  nbCalibration : results.nbCalibration = calibParams.nbCalibration
  measures : results.measures.length = calibParams.length * calibParams.nbCalibration
  measure : ∀ i < calibParams.length, ∀ j < calibParams.nbCalibration, ∃ qErr,
    outcomes.qErr i j = some qErr ∧
      results.measures[i * calibParams.nbCalibration + j]?
        = some (calibrationMeasure (outcomes.phasemeter i j).phaseError qErr) ∧
      (outcomes.phasemeter i j).status = .bothTimestamps ∧
      outcomes.lastFine (i + 1) = some (setpoint calibParams i)

/-- **The law of a calibration.** -/
structure CalibrationLaw (phaseSign : ℤ) : Prop where
  belongs : ∀ results, outcomes.calibrate calibParams phaseSign = some results →
    outcomes.Belongs calibParams results
  flawed : ¬ outcomes.Flawless calibParams → outcomes.calibrate calibParams phaseSign = none

/-- A calibration in which everything the code looks at goes well reads every control point back,
and no request to stop comes after its last measure. -/
def CalibrationKept : Prop :=
  outcomes.RunsThrough calibParams →
    (∀ i < calibParams.length, outcomes.ReadBackSet calibParams i) ∧ outcomes.NotStopped calibParams

/-! ### When a calibration has a result -/

variable {outcomes calibParams}

theorem isSome_takeMeasure_iff {reading : CalibrationReading} :
    (takeMeasure reading).isSome = true ↔
      reading.loop = true ∧ reading.phasemeter.status = .bothTimestamps ∧
        reading.qErr.isSome = true := by
  rw [takeMeasure]
  split_ifs with hloop hstatus
  · simp_all
  · simp_all
  · simp_all

theorem isSome_takeMeasuresAt_iff {env : CalibrationEnv} {i : ℕ} :
    (takeMeasuresAt env calibParams i).isSome = true ↔
      (env.point i).loop = true ∧ 0 ≤ (env.point i).applyOutput (setpoint calibParams i) ∧
        ∀ j < calibParams.nbCalibration, (takeMeasure (env.reading i j)).isSome = true := by
  rw [takeMeasuresAt, setpoint]
  split_ifs with hloop hwrite
  · simp_all
  · simp_all
  · rw [Lists.isSome_mapM_iff]
    simp_all

/-- **When a calibration has a result**: everything the code looks at went well. -/
theorem isSome_calibrate_iff {phaseSign : ℤ} :
    (outcomes.calibrate calibParams phaseSign).isSome = true ↔
      outcomes.RunsThrough calibParams := by
  have hpoints : ((List.range calibParams.length).mapM
      (takeMeasuresAt (outcomes.env calibParams) calibParams)).isSome = true ↔
        ∀ i < calibParams.length,
          (takeMeasuresAt (outcomes.env calibParams) calibParams i).isSome = true := by
    rw [Lists.isSome_mapM_iff]
    simp only [List.mem_range]
  simp only [isSome_takeMeasuresAt_iff, isSome_takeMeasure_iff] at hpoints
  rw [calibrate, mRo50OscillatorCalibrate]
  constructor
  · intro h
    split_ifs at h with hallocated
    · cases h
    · rw [Option.isSome_map, hpoints] at h
      exact
        { allocated := by simpa [env] using hallocated
          point := fun i hi => (h i hi).1
          write := fun i hi => (h i hi).2.1
          reading := fun i hi j hj => ((h i hi).2.2 j hj).1
          timestamps := fun i hi j hj => ((h i hi).2.2 j hj).2.1
          epochData := fun i hi j hj => ((h i hi).2.2 j hj).2.2 }
  · intro h
    have hallocated : (outcomes.env calibParams).allocated = true := h.allocated
    rw [hallocated, if_neg (by decide), Option.isSome_map, hpoints]
    intro i hi
    exact ⟨h.point i hi, h.write i hi, fun j hj =>
      ⟨h.reading i hi j hj, h.timestamps i hi j hj, h.epochData i hi j hj⟩⟩

/-! ### What it stores -/

/-- The measures of a calibration with a result are as many as it was asked for. -/
theorem length_measures {env : CalibrationEnv} {phaseSign : ℤ} {results : CalibrationResults}
    (h : mRo50OscillatorCalibrate env calibParams phaseSign = some results) :
    results.length = calibParams.length ∧ results.nbCalibration = calibParams.nbCalibration ∧
      results.measures.length = calibParams.length * calibParams.nbCalibration := by
  rw [mRo50OscillatorCalibrate] at h
  split_ifs at h
  obtain ⟨rows, hrows, rfl⟩ := Option.map_eq_some_iff.mp h
  refine ⟨rfl, rfl, ?_⟩
  -- every control point has as many measures
  have hcount : (rows.map List.length).sum = rows.length * calibParams.nbCalibration := by
    rw [List.map_congr_left (length_of_mem_rows hrows), List.map_const', List.sum_replicate_nat]
  rw [List.length_flatten, hcount, Lists.length_of_mapM hrows, List.length_range]

/-- A read-back with the setpoint is the last one that succeeded. -/
theorem lastFine_of_readBackSet {i : ℕ} (h : outcomes.ReadBackSet calibParams i) :
    outcomes.lastFine (i + 1) = some (setpoint calibParams i) := by
  rw [lastFine, if_pos h.1, h.2]

/-- **The measures belong to their control points** when these were read back. -/
theorem belongs_of_readBackSet {phaseSign : ℤ} {results : CalibrationResults}
    (h : outcomes.calibrate calibParams phaseSign = some results)
    (hset : ∀ i < calibParams.length, outcomes.ReadBackSet calibParams i) :
    outcomes.Belongs calibParams results := by
  obtain ⟨hlength, hnb, hmeasures⟩ := length_measures h
  refine ⟨hlength, hnb, hmeasures, fun i hi j hj => ?_⟩
  obtain ⟨measure, hget, htake⟩ := mRo50OscillatorCalibrate_measures h hi hj
  obtain ⟨-, hstatus, qErr, hqErr, rfl⟩ := takeMeasure_eq_some_iff.mp htake
  exact ⟨qErr, hqErr, hget, hstatus, lastFine_of_readBackSet (hset i hi)⟩

/-- **The control points of a calibration.** For all parameters, all outcomes and every moment of
a request to stop: the law holds exactly when a calibration in which everything the code looks at
goes well reads every control point back and is not asked to stop after its last measure. -/
theorem calibrationLaw_iff (outcomes : CalibrationOutcomes) (calibParams : CalibrationParameters)
    (phaseSign : ℤ) :
    outcomes.CalibrationLaw calibParams phaseSign ↔ outcomes.CalibrationKept calibParams := by
  constructor
  · intro h hruns
    have hflawless : outcomes.Flawless calibParams := by
      -- the result is there, though the law of a flawed calibration denies it
      by_contra hflawed
      have hnone := h.flawed hflawed
      have hsome : (outcomes.calibrate calibParams phaseSign).isSome = true :=
        isSome_calibrate_iff.mpr hruns
      rw [hnone] at hsome
      cases hsome
    exact ⟨hflawless.readBack, hflawless.notStopped⟩
  · intro h
    refine ⟨fun results hresults => ?_, fun hflawed => ?_⟩
    -- a result says that everything the code looks at went well; the read-backs are assumed
    · have hruns : outcomes.RunsThrough calibParams :=
        isSome_calibrate_iff.mp (Option.isSome_of_eq_some hresults)
      exact belongs_of_readBackSet hresults (h hruns).1
    · by_contra hsome
      have hruns : outcomes.RunsThrough calibParams :=
        isSome_calibrate_iff.mp (Option.isSome_iff_ne_none.mpr hsome)
      exact hflawed ⟨hruns, (h hruns).1, (h hruns).2⟩

/-- One control point, which the device does not take: it reads back `1234` in place of `1000`. -/
def refusedPoint : CalibrationOutcomes where
  allocated := true
  stop := none
  fineBefore := none
  write _ _ := ⟨true, [[10, 10]], .timeout⟩
  ctrl _ := ⟨0, 0⟩
  readCoarse _ := ⟨true, [[48, 10, 10]], .timeout⟩
  readFine _ := ⟨true, [[52, 68, 50, 10, 10]], .timeout⟩
  phasemeter _ _ := { status := .bothTimestamps, phaseError := 5 }
  qErr _ _ := some 0

/-- The device does not take the one control point: the measure is stored. -/
theorem calibrationLaw_fails_refusedPoint :
    ¬ refusedPoint.CalibrationLaw ⟨[1000], 1, 1⟩ 1 := by
  intro h
  have hnone := h.flawed fun hflawless => by
    have hset := (hflawless.readBack 0 (by decide)).2
    exact absurd hset (by decide)
  exact absurd hnone (by decide)

end CalibrationOutcomes

end Oscillatord
