import Oscillatord.Config.ConfigNumbers

/-!
# The parameters of the disciplining library

`prepare_minipod_config` fills the configuration of the library that disciplines the oscillator. Ten
of its fields are numbers of the configuration file, and `config_get_unsigned_number` returns the
errors in their place, which nothing looks at: a key that is missing becomes a negated `errno`, in
the type of the field, and the daemon starts.

The types of the fields are not in the repository, and the `errno` of each call is what the calls
before it left; both are arguments here. `minipodConfigLaw_iff` is when each field is the number of
the file.
-/

namespace Oscillatord

open CText CNumber

/-! ### The fields -/

/-- The fields of `struct minipod_config` that are numbers. -/
inductive NumericField
  | debug
  | fineStopTolerance
  | maxAllowedCoarse
  | nbCalibration
  | phaseJumpThresholdNs
  | phaseResolutionNs
  | reactivityMax
  | reactivityMin
  | reactivityPower
  | refFluctuationsNs
  deriving Repr, DecidableEq

/-- The key of a field. -/
def NumericField.key : NumericField → List UInt8
  | debug => ascii "debug"
  | fineStopTolerance => ascii "fine_stop_tolerance"
  | maxAllowedCoarse => ascii "max_allowed_coarse"
  | nbCalibration => ascii "nb_calibration"
  | phaseJumpThresholdNs => ascii "phase_jump_threshold_ns"
  | phaseResolutionNs => ascii "phase_resolution_ns"
  | reactivityMax => ascii "reactivity_max"
  | reactivityMin => ascii "reactivity_min"
  | reactivityPower => ascii "reactivity_power"
  | refFluctuationsNs => ascii "ref_fluctuations_ns"

/-- `struct minipod_config`. -/
structure MinipodConfig where
  calibrateFirst : Bool
  debug : ℤ
  fineStopTolerance : ℤ
  maxAllowedCoarse : ℤ
  nbCalibration : ℤ
  phaseJumpThresholdNs : ℤ
  phaseResolutionNs : ℤ
  reactivityMax : ℤ
  reactivityMin : ℤ
  reactivityPower : ℤ
  refFluctuationsNs : ℤ
  oscillatorFactorySettings : Bool
  learnTemperatureTable : Bool
  useTemperatureTable : Bool
  fineTableOutputPath : List UInt8
  deriving Repr, DecidableEq

/-- The number in a field. -/
def MinipodConfig.number (minipodConfig : MinipodConfig) : NumericField → ℤ
  | .debug => minipodConfig.debug
  | .fineStopTolerance => minipodConfig.fineStopTolerance
  | .maxAllowedCoarse => minipodConfig.maxAllowedCoarse
  | .nbCalibration => minipodConfig.nbCalibration
  | .phaseJumpThresholdNs => minipodConfig.phaseJumpThresholdNs
  | .phaseResolutionNs => minipodConfig.phaseResolutionNs
  | .reactivityMax => minipodConfig.reactivityMax
  | .reactivityMin => minipodConfig.reactivityMin
  | .reactivityPower => minipodConfig.reactivityPower
  | .refFluctuationsNs => minipodConfig.refFluctuationsNs

/-- `prepare_minipod_config`. -/
def prepareMinipodConfig (types : NumericField → IntegerType) (errno : NumericField → ℕ)
    (config : List (List UInt8)) : MinipodConfig :=
  let number (field : NumericField) : ℤ :=
    (types field).convert (configGetUnsignedNumber (errno field) config field.key)
  { calibrateFirst := configGetBoolDefault config (ascii "calibrate_first") false
    debug := number .debug
    fineStopTolerance := number .fineStopTolerance
    maxAllowedCoarse := number .maxAllowedCoarse
    nbCalibration := number .nbCalibration
    phaseJumpThresholdNs := number .phaseJumpThresholdNs
    phaseResolutionNs := number .phaseResolutionNs
    reactivityMax := number .reactivityMax
    reactivityMin := number .reactivityMin
    reactivityPower := number .reactivityPower
    refFluctuationsNs := number .refFluctuationsNs
    oscillatorFactorySettings :=
      configGetBoolDefault config (ascii "oscillator_factory_settings") true
    learnTemperatureTable := configGetBoolDefault config (ascii "learn_temperature_table") false
    useTemperatureTable := configGetBoolDefault config (ascii "use_temperature_table") false
    fineTableOutputPath :=
      configGetDefault config (ascii "fine_table_output_path") (ascii "/tmp/") }

/-! ### The law -/

/-- The number that is written in the file for a key, with its sign. -/
def WrittenNumber (config : List (List UInt8)) (key : List UInt8) (x : ℤ) : Prop :=
  ∃ value negative n, configGet config key = some value ∧ SignedNumeral value negative n ∧
    x = signedValue negative n

/-- **The law of the parameters**: no field is an error in its type, each is the number of the
file. -/
def MinipodConfigLaw (types : NumericField → IntegerType) (errno : NumericField → ℕ)
    (config : List (List UInt8)) : Prop :=
  ∀ field, 0 ≤ configGetUnsignedNumber (errno field) config field.key ∧
    WrittenNumber config field.key ((prepareMinipodConfig types errno config).number field)

/-- The file has a number for the field that a `long` and its type can hold. -/
def HoldsNumber (types : NumericField → IntegerType) (config : List (List UInt8))
    (field : NumericField) : Prop :=
  ∃ x, WrittenNumber config field.key x ∧ 0 ≤ x ∧ x ≤ longMax ∧ (types field).Holds x

/-! ### When it holds -/

variable {types : NumericField → IntegerType} {errno : NumericField → ℕ}
  {config : List (List UInt8)}

theorem number_prepareMinipodConfig (field : NumericField) :
    (prepareMinipodConfig types errno config).number field
      = (types field).convert (configGetUnsignedNumber (errno field) config field.key) := by
  cases field <;> rfl

theorem WrittenNumber.eq {key : List UInt8} {x y : ℤ} (hx : WrittenNumber config key x)
    (hy : WrittenNumber config key y) : x = y := by
  obtain ⟨value, negative, n, hget, hvalue, rfl⟩ := hx
  obtain ⟨value', negative', n', hget', hvalue', rfl⟩ := hy
  have hnumeral : HasNumeral config key negative n := ⟨value, hget, hvalue⟩
  obtain ⟨rfl, rfl⟩ := hnumeral.eq ⟨value', hget', hvalue'⟩
  rfl

/-- A number that is written and is within a `long` is returned. -/
theorem configGetUnsignedNumber_of_written {key : List UInt8} {x : ℤ} (errno : ℕ)
    (h : WrittenNumber config key x) (hlo : 0 ≤ x) (hhi : x ≤ longMax) :
    configGetUnsignedNumber errno config key = x := by
  obtain ⟨value, negative, n, hget, hvalue, rfl⟩ := h
  rw [configGetUnsignedNumber_of_numeral errno ⟨value, hget, hvalue⟩]
  cases negative with
  | false =>
    have hn : n ≤ longMax := Int.ofNat_le.mp hhi
    rw [wordOf_false hn, if_pos hn]
    rfl
  | true =>
    -- only a minus zero is not negative
    obtain rfl : n = 0 := by
      rw [signedValue, if_pos rfl] at hlo
      omega
    rfl

/-- A number that is returned is the one that is written, or a minus came out small. -/
theorem written_of_configGetUnsignedNumber {key : List UInt8} (errno : ℕ)
    (h : 0 ≤ configGetUnsignedNumber errno config key) :
    ∃ x, WrittenNumber config key x ∧ (x < -2 ^ 63 ∨
      (0 ≤ x ∧ x ≤ longMax ∧ configGetUnsignedNumber errno config key = x)) := by
  rcases configGetUnsignedNumber_cases errno config key with
    ⟨⟨value, n, hget, hvalue, hn⟩, -⟩ | ⟨-, n, ⟨value, hget, hvalue, hn⟩, hresult⟩ |
      ⟨-, -, hresult⟩
  · refine ⟨_, ⟨value, true, n, hget, hvalue, rfl⟩, ?_⟩
    rcases hn with rfl | ⟨hlo, hhi⟩
    · refine .inr ⟨le_rfl, by decide, ?_⟩
      exact configGetUnsignedNumber_of_written errno ⟨value, true, 0, hget, hvalue, rfl⟩ le_rfl
        (by decide)
    · refine .inl ?_
      rw [signedValue, if_pos rfl]
      omega
  · exact ⟨n, ⟨value, false, n, hget, hvalue, rfl⟩,
      .inr ⟨Int.natCast_nonneg n, Int.ofNat_le.mpr hn, hresult⟩⟩
  · omega

/-- **The parameters are the numbers of the file** exactly when it has one for each of them that its
type can hold. -/
theorem minipodConfigLaw_iff (types : NumericField → IntegerType) (errno : NumericField → ℕ)
    (config : List (List UInt8)) :
    MinipodConfigLaw types errno config ↔ ∀ field, HoldsNumber types config field := by
  refine forall_congr' fun field => ?_
  rw [number_prepareMinipodConfig]
  constructor
  · rintro ⟨hnonneg, hwritten⟩
    obtain ⟨x, hx, hbeyond | ⟨hlo, hhi, hresult⟩⟩ :=
      written_of_configGetUnsignedNumber (errno field) hnonneg
    · -- the type of the field has no number that far below zero
      have hword : configGetUnsignedNumber (errno field) config field.key < 2 ^ 63 :=
        Int.lt_of_le_of_lt (configGetUnsignedNumber_le (errno field) config field.key) (by decide)
      have hconvert := (types field).neg_le_convert hnonneg hword
      rw [hwritten.eq hx] at hconvert
      omega
    · rw [hresult] at hwritten
      exact ⟨x, hx, hlo, hhi, ((types field).convert_eq_self_iff x).mp (hwritten.eq hx)⟩
  · rintro ⟨x, hx, hlo, hhi, hholds⟩
    rw [configGetUnsignedNumber_of_written (errno field) hx hlo hhi,
      ((types field).convert_eq_self_iff x).mpr hholds]
    exact ⟨hlo, hx⟩

/-- A file without the keys: each field is `-ESRCH`. -/
theorem minipodConfigLaw_fails_missing_keys :
    ¬ MinipodConfigLaw (fun _ => .signed 32) (fun _ => 0) [] := by
  intro hlaw
  exact absurd (hlaw .reactivityMax).1 (by decide)

end Oscillatord
