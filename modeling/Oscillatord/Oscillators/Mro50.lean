import Oscillatord.Library.Lists
import Oscillatord.Library.Rounding
import Oscillatord.Phasemeter

/-!
# Calibration of the mRO50

`mRo50_oscillator_calibrate` and the dispatch `oscillator_calibrate` it is reached through. The
calibration applies the control points one after the other and takes a number of measures at
each; a measure is the phase error plus the quantization error of the GNSS pulse, in nanoseconds
and in single precision. Anything that goes wrong ends the calibration without a result.

The sign the dispatch hands over is an argument of `mRo50OscillatorCalibrate`, and the body of
the function does not use it. `mRo50OscillatorCalibrate_measures` says which value stands at each
index of the measures of a calibration that succeeds.
-/

namespace Oscillatord

open Rounding

/-! ### Data -/

/-- `struct calibration_parameters`. -/
structure CalibrationParameters where
  ctrlPoints : List ℤ
  length : ℕ
  nbCalibration : ℕ
  deriving Repr, DecidableEq

/-- `struct calibration_results`: measure `j` at point `i` stands at `i * nbCalibration + j`. -/
structure CalibrationResults where
  measures : List ℚ
  length : ℕ
  nbCalibration : ℕ
  deriving Repr, DecidableEq

/-- What one measure meets: the flag `loop`, what `get_phase_error` delivers, and the
quantization error, `none` when `gnss_get_epoch_data` fails. -/
structure CalibrationReading where
  loop : Bool
  phasemeter : Phasemeter
  qErr : Option ℤ
  deriving Repr, DecidableEq

/-- What one control point meets: the flag `loop`, and the result of the fine adjustment. -/
structure CalibrationPoint where
  loop : Bool
  applyOutput : ℤ → ℤ

/-- What a whole calibration meets. -/
structure CalibrationEnv where
  allocated : Bool
  point : ℕ → CalibrationPoint
  reading : ℕ → ℕ → CalibrationReading

/-! ### The calibration -/

/-- The value of a measure, computed in single precision:
`phase_error + (float) qErr / 1000`. -/
def calibrationMeasure (phaseError qErr : ℤ) : ℚ :=
  binary32.round
    (binary32.round phaseError + binary32.round (binary32.round qErr / binary32.round 1000))

/-- One turn of the inner loop. -/
def takeMeasure (reading : CalibrationReading) : Option ℚ :=
  if !reading.loop then none
  else if reading.phasemeter.status ≠ .bothTimestamps then none
  else reading.qErr.map (calibrationMeasure reading.phasemeter.phaseError)

/-- One turn of the outer loop: the control point, as the unsigned setpoint it is cast to, then
its measures. What `mRo50_oscillator_get_ctrl` reads back is only logged. -/
def takeMeasuresAt (env : CalibrationEnv) (calibParams : CalibrationParameters) (i : ℕ) :
    Option (List ℚ) :=
  if !(env.point i).loop then none
  else if (env.point i).applyOutput (CNumber.toUnsigned 32 (calibParams.ctrlPoints.getD i 0)) < 0
  then none
  else (List.range calibParams.nbCalibration).mapM fun j => takeMeasure (env.reading i j)

/-- `mRo50_oscillator_calibrate`. -/
def mRo50OscillatorCalibrate (env : CalibrationEnv) (calibParams : CalibrationParameters)
    (_phaseSign : ℤ) : Option CalibrationResults :=
  if !env.allocated then none
  else
    ((List.range calibParams.length).mapM (takeMeasuresAt env calibParams)).map fun rows =>
      { measures := rows.flatten
        length := calibParams.length
        nbCalibration := calibParams.nbCalibration }

/-- The member `calibrate` of an oscillator class, called for one calibration; `none` for a class
that has none. -/
abbrev CalibrateCb := Option (CalibrationParameters → ℤ → Option CalibrationResults)

/-- `oscillator_calibrate`, on an oscillator and parameters that are there. -/
def oscillatorCalibrate (calibrate : CalibrateCb) (calibParams : CalibrationParameters)
    (phaseSign : ℤ) : Option CalibrationResults :=
  match calibrate with
  | none => none
  | some calibrate => calibrate calibParams phaseSign

/-! ### Which value stands where -/

/-- A measure that is taken comes from a reading with both timestamps. -/
theorem takeMeasure_eq_some_iff {reading : CalibrationReading} {measure : ℚ} :
    takeMeasure reading = some measure ↔
      reading.loop = true ∧ reading.phasemeter.status = .bothTimestamps ∧
        ∃ qErr, reading.qErr = some qErr ∧
          measure = calibrationMeasure reading.phasemeter.phaseError qErr := by
  rw [takeMeasure]
  split_ifs with hloop hstatus
  · simp_all
  · simp_all
  · rw [Option.map_eq_some_iff]
    constructor
    · rintro ⟨qErr, hqErr, hmeasure⟩
      exact ⟨by simpa using hloop, not_not.mp hstatus, qErr, hqErr, hmeasure.symm⟩
    · rintro ⟨-, -, qErr, hqErr, hmeasure⟩
      exact ⟨qErr, hqErr, hmeasure.symm⟩

/-- The measures at a control point are those of its readings, one after the other. -/
theorem mapM_of_takeMeasuresAt {env : CalibrationEnv} {calibParams : CalibrationParameters}
    {i : ℕ} {row : List ℚ} (h : takeMeasuresAt env calibParams i = some row) :
    (List.range calibParams.nbCalibration).mapM (fun j => takeMeasure (env.reading i j))
      = some row := by
  rw [takeMeasuresAt] at h
  split_ifs at h
  exact h

/-- Each control point stores as many measures as were asked for. -/
theorem length_of_mem_rows {env : CalibrationEnv} {calibParams : CalibrationParameters}
    {rows : List (List ℚ)}
    (h : (List.range calibParams.length).mapM (takeMeasuresAt env calibParams) = some rows) :
    ∀ row ∈ rows, row.length = calibParams.nbCalibration := by
  intro row hrow
  obtain ⟨k, hk⟩ := List.mem_iff_getElem?.mp hrow
  rw [Lists.getElem?_of_mapM h] at hk
  obtain ⟨i, -, hi⟩ := Option.bind_eq_some_iff.mp hk
  rw [Lists.length_of_mapM (mapM_of_takeMeasuresAt hi), List.length_range]

/-- **The measures of a calibration.** A calibration that succeeds has stored, for each control
point and each turn at it, the measure of that very reading, whatever the sign. -/
theorem mRo50OscillatorCalibrate_measures {env : CalibrationEnv}
    {calibParams : CalibrationParameters} {phaseSign : ℤ} {results : CalibrationResults}
    (h : mRo50OscillatorCalibrate env calibParams phaseSign = some results) {i j : ℕ}
    (hi : i < calibParams.length) (hj : j < calibParams.nbCalibration) :
    ∃ measure, results.measures[i * calibParams.nbCalibration + j]? = some measure ∧
      takeMeasure (env.reading i j) = some measure := by
  rw [mRo50OscillatorCalibrate] at h
  split_ifs at h
  obtain ⟨rows, hrows, rfl⟩ := Option.map_eq_some_iff.mp h
  obtain ⟨row, hget, hrow⟩ := Lists.exists_of_mapM_range hrows hi
  obtain ⟨measure, hmeasure, htake⟩ :=
    Lists.exists_of_mapM_range (mapM_of_takeMeasuresAt hrow) hj
  refine ⟨measure, ?_, htake⟩
  rw [Lists.getElem?_flatten_of_length (length_of_mem_rows hrows) hj, hget, Option.bind_some,
    hmeasure]

/-! ### The sign of the phase in a measure -/

/-- The quantization error of a pulse, an `int32_t`, stays small once divided. -/
theorem abs_round_qErr_le {qErr : ℤ} (hlo : -2 ^ 31 ≤ qErr) (hhi : qErr ≤ 2 ^ 31) :
    |binary32.round (binary32.round qErr / binary32.round 1000)| ≤ 2 ^ 22 := by
  have hpow : ∀ m : ℤ, |m| < 2 ^ 24 → binary32.round (m * 2 ^ (31 : ℤ)) = m * 2 ^ (31 : ℤ) :=
    fun m hm => Format.round_eq_self hm (by decide)
  have h1000 : binary32.round 1000 = 1000 := by
    exact_mod_cast Format.round_intCast (f := binary32) (m := 1000) (by decide) (by decide)
  have hupper : binary32.round qErr ≤ 2 ^ 31 := by
    have hexact : binary32.round (2 ^ 31) = 2 ^ 31 := by simpa using hpow 1 (by decide)
    rw [← hexact]
    exact Format.round_mono (by decide) (by exact_mod_cast hhi)
  have hlower : -2 ^ 31 ≤ binary32.round qErr := by
    have hexact : binary32.round (-2 ^ 31) = -2 ^ 31 := by simpa using hpow (-1) (by decide)
    rw [← hexact]
    exact Format.round_mono (by decide) (by exact_mod_cast hlo)
  rw [h1000, abs_le]
  constructor
  · have hle : ((-2 ^ 22 : ℤ) : ℚ) ≤ binary32.round qErr / 1000 := by
      rw [le_div_iff₀ (by norm_num)]
      refine le_trans ?_ hlower
      norm_num
    exact_mod_cast Format.intCast_le_round (f := binary32) (by decide) (by decide) (by decide) hle
  · have hle : binary32.round qErr / 1000 ≤ ((2 ^ 22 : ℤ) : ℚ) := by
      rw [div_le_iff₀ (by norm_num)]
      refine le_trans hupper ?_
      norm_num
    exact_mod_cast Format.round_le_intCast (f := binary32) (by decide) (by decide) (by decide) hle

/-- A positive phase error and its opposite are measured apart, whatever the quantization
error. -/
theorem calibrationMeasure_neg_lt {phaseError qErr : ℤ} (hpos : 0 < phaseError)
    (hlo : -2 ^ 31 ≤ qErr) (hhi : qErr ≤ 2 ^ 31) :
    calibrationMeasure (-phaseError) qErr < calibrationMeasure phaseError qErr := by
  obtain ⟨htlo, hthi⟩ := abs_le.mp (abs_round_qErr_le hlo hhi)
  simp only [calibrationMeasure]
  generalize binary32.round (binary32.round qErr / binary32.round 1000) = t at htlo hthi
  have hp : (1 : ℚ) ≤ binary32.round phaseError := by
    exact_mod_cast Format.intCast_le_round (f := binary32) (n := 1) (q := phaseError) (by decide)
      (by decide) (by decide) (by exact_mod_cast hpos)
  have hn : binary32.round (-phaseError : ℤ) ≤ -1 := by
    exact_mod_cast Format.round_le_intCast (f := binary32) (n := -1) (q := (-phaseError : ℤ))
      (by decide) (by decide) (by decide) (by exact_mod_cast (by omega : -phaseError ≤ -1))
  -- An integer close to the lower sum parts the two; both sums lie on the right side of zero
  -- when they are too large for the integers of the format.
  generalize hlower : binary32.round (-phaseError : ℤ) + t = lower
  generalize hupper : binary32.round phaseError + t = upper
  have hgap : lower + 2 ≤ upper := by linarith
  have hlower4 : lower ≤ 2 ^ 22 - 1 := by linarith
  have hupper4 : 1 - 2 ^ 22 ≤ upper := by linarith
  have hceil : ⌈lower⌉ ≤ 2 ^ 22 - 1 := Int.ceil_le.mpr (by exact_mod_cast hlower4)
  have hceil2 : (⌈lower⌉ : ℚ) < lower + 1 := Int.ceil_lt_add_one lower
  refine Format.round_lt_round (n := max ⌈lower⌉ (-2 ^ 23)) (by decide) (by decide) ?_ ?_ ?_ ?_
  · rw [abs_lt]
    constructor <;> simp only [binary32] <;> omega
  · rw [abs_lt]
    constructor <;> simp only [binary32] <;> omega
  · rw [Int.cast_max]
    exact le_max_of_le_left (Int.le_ceil lower)
  · rw [Int.cast_max, ← max_add_add_right]
    refine max_le (by linarith) ?_
    push_cast
    linarith

/-- **The sign is visible in every measure.** A phase error that is not zero and its opposite
give different measures with the same quantization error. -/
theorem calibrationMeasure_neg_eq_iff {phaseError qErr : ℤ} (hlo : -2 ^ 31 ≤ qErr)
    (hhi : qErr ≤ 2 ^ 31) :
    calibrationMeasure phaseError qErr = calibrationMeasure (-phaseError) qErr ↔
      phaseError = 0 := by
  constructor
  · intro heq
    rcases lt_trichotomy phaseError 0 with hneg | hzero | hpos
    · have hlt := calibrationMeasure_neg_lt (Int.neg_pos.mpr hneg) hlo hhi
      rw [neg_neg] at hlt
      exact absurd heq hlt.ne
    · exact hzero
    · exact absurd heq (calibrationMeasure_neg_lt hpos hlo hhi).ne'
  · rintro rfl
    rw [neg_zero]

end Oscillatord
