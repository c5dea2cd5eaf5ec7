import Oscillatord.Eeprom.TemperatureSteps
import Oscillatord.Eeprom.TextFile

/-!
# The text of the temperature table

`art_temperature_table_manager` writes the temperature table as a text, with a line of two numbers
for each entry, and reads such a text into a table. The numbers are read in single precision, and
the entry of a temperature is found in double precision.

The entries are cells of memory here (`ℤ → UInt16`): those of the table are the ones from zero to
`MEAN_TEMPERATURE_ARRAY_MAX`, and a store beyond them is one into some other object.
-/

namespace Oscillatord

open CText CNumber Rounding

/-! ### The constants -/

/-- The constants of the table, of a header that is not in the repository. -/
structure TemperatureScale extends TemperatureSteps where
  maxTemperature : ℚ
  meanTemperatureArrayMax : ℕ
  /-- What `(float) i / STEPS_BY_DEGREE` is computed in: single precision when
  `STEPS_BY_DEGREE` is an integer. -/
  quotient : Format

/-! ### Writing -/

/-- `MIN_TEMPERATURE + (float) i / STEPS_BY_DEGREE`. -/
def TemperatureScale.temperature (scale : TemperatureScale) (i : ℕ) : FloatValue :=
  let temperature :=
    binary64.round (scale.minTemperature + scale.quotient.round (i / scale.stepsByDegree))
  .finite (decide (temperature < 0)) |temperature|

/-- The line of an entry. -/
def TemperatureScale.tableLine (scale : TemperatureScale) (i : ℕ) (entry : UInt16) : List UInt8 :=
  fixedText 2 (scale.temperature i) ++ 44
    :: (fixedText 2 (.finite false (binary64.round (entry.toNat / 10))) ++ [newline])

/-- `write_temperature_table_to_file`: what is in the file. -/
def writeTemperatureTableToFile (scale : TemperatureScale)
    (table : Fin scale.meanTemperatureArrayMax → UInt16) : List UInt8 :=
  (List.ofFn fun i => scale.tableLine i (table i)).flatten

/-! ### Reading -/

/-- `value == HUGE_VAL || (value == 0 && errno == ERANGE)`. -/
def isRefused (value : FloatValue) (range : Bool) : Bool :=
  decide (value = .infinite false) || isZero value && range

/-- The loop of `float_array_parser`, over the parts that are left: `range` is that `errno` is
`ERANGE`, which nothing resets. It is `none` when the function returns an error. -/
def floatArrayParser : List (List UInt8) → Bool → List FloatValue → Option (List FloatValue)
  | [], _, parsed => some parsed
  | ptr :: rest, range, parsed =>
    if 2 ≤ parsed.length then none
    else
      let (value, error) := strtoldExtended ptr
      let range := range || error
      let valueFloat := value.store binary32 128
      if isRefused valueFloat range then none
      else floatArrayParser rest range (parsed ++ [valueFloat])

/-- `value < MIN_TEMPERATURE || value >= MAX_TEMPERATURE`. -/
def TemperatureScale.isOutOfRange (scale : TemperatureScale) : FloatValue → Bool
  | .finite negative magnitude =>
    let value := if negative then -magnitude else magnitude
    decide (value < scale.minTemperature ∨ scale.maxTemperature ≤ value)
  | .infinite _ => true
  | .nan _ => false

/-- `floor(STEPS_BY_DEGREE * (value - MIN_TEMPERATURE))` of a finite number. -/
def TemperatureScale.floorOf (scale : TemperatureScale) (value : ℚ) : ℤ :=
  ⌊binary64.round (scale.stepsByDegree * binary64.round (value - scale.minTemperature))⌋

/-- `temperature_index`. -/
def TemperatureScale.temperatureIndex (scale : TemperatureScale) (value : FloatValue) : ℤ :=
  match value.number? with
  | some number => toInt32OfFloat (scale.floorOf number)
  | none => -2 ^ 31

/-- `value * 10`, in single precision. -/
def tenfold : FloatValue → FloatValue
  | .finite negative magnitude =>
    FloatValue.store binary32 128 (.finite negative (10 * magnitude))
  | value => value

/-- `round(value * 10)`, as it is stored in an entry. -/
def entryOf (value : FloatValue) : UInt16 :=
  UInt16.ofInt (match (tenfold value).number? with
    | some number => toInt32OfFloat (CNumber.round number)
    | none => -2 ^ 31)

/-- What a line of the file is for the reader. -/
inductive LineResult
  | skipped
  | outOfRange
  | stored (index : ℤ) (entry : UInt16)
  deriving Repr, DecidableEq

/-- The body of the loop of `read_temperature_table_from_file`. -/
def temperatureLine (scale : TemperatureScale) (line : List UInt8) : LineResult :=
  match floatArrayParser (strtok 44 (cString line)) false [] with
  | some [temperature, mean] =>
    if scale.isOutOfRange temperature then .outOfRange
    else .stored (scale.temperatureIndex temperature) (entryOf mean)
  | _ => .skipped

/-- The lines that `getline` takes from a text, each with its newline. -/
def getlines : List UInt8 → List (List UInt8)
  | [] => []
  | byte :: text =>
    if byte = newline then [byte] :: getlines text
    else
      match getlines text with
      | [] => [[byte]]
      | line :: lines => (byte :: line) :: lines

/-- The loop of `read_temperature_table_from_file`, over the lines that are left. -/
def readLines (scale : TemperatureScale) :
    List (List UInt8) → (ℤ → UInt16) → ℤ × (ℤ → UInt16)
  | [], cells => (0, cells)
  | line :: lines, cells =>
    match temperatureLine scale line with
    | .skipped => readLines scale lines cells
    | .outOfRange => (-1, cells)
    | .stored index entry => readLines scale lines (Function.update cells index entry)

/-- `read_temperature_table_from_file`, of the file at its path. -/
def readTemperatureTableFromFilePath (scale : TemperatureScale) (file : Option (List UInt8))
    (cells : ℤ → UInt16) : ℤ × (ℤ → UInt16) :=
  match file with
  | none => (-1, cells)
  | some text => readLines scale (getlines text) cells

/-! ### The arithmetic of the index -/

/-- The step and the lowest temperature are numbers of hundredths and constants of double precision,
and the highest temperature is the end of the last step. -/
structure WholeScale (scale : TemperatureScale) (step : ℕ) (origin : ℤ) : Prop where
  whole :
    HundredthSteps scale.toTemperatureSteps scale.meanTemperatureArrayMax step origin
  steps_round : binary64.round scale.stepsByDegree = scale.stepsByDegree
  min_round : binary64.round scale.minTemperature = scale.minTemperature
  max_eq : scale.maxTemperature
    = scale.minTemperature + scale.meanTemperatureArrayMax / scale.stepsByDegree
  quotient_eq : scale.quotient = binary32 ∨ scale.quotient = binary64

namespace WholeScale

variable {scale : TemperatureScale} {step : ℕ} {origin : ℤ}

theorem steps_pos (h : WholeScale scale step origin) : 0 < scale.stepsByDegree := by
  have hstep : (0 : ℚ) < step := by exact_mod_cast h.whole.step_pos
  have hmul : 0 < scale.stepsByDegree * step := by
    rw [h.whole.step_eq]
    norm_num
  exact pos_of_mul_pos_left hmul hstep.le

/-- The temperatures in hundredths. -/
theorem min_eq (h : WholeScale scale step origin) : scale.minTemperature = origin / 100 := by
  rw [eq_div_iff (by norm_num), h.whole.origin_eq]

theorem div_steps (h : WholeScale scale step origin) (q : ℚ) :
    q / scale.stepsByDegree = q * step / 100 := by
  rw [div_eq_iff h.steps_pos.ne', ← h.whole.step_eq]
  have hstep : (step : ℚ) ≠ 0 := by exact_mod_cast h.whole.step_pos.ne'
  have hsteps := h.steps_pos.ne'
  field_simp

/-- The range of temperatures has `2 ^ 18` hundredths at most. -/
theorem width_le (h : WholeScale scale step origin) :
    scale.maxTemperature - scale.minTemperature ≤ 2 ^ 18 / 100 := by
  have hbounded := h.whole.bounded
  have hle : scale.meanTemperatureArrayMax * step ≤ 2 ^ 18 := by
    rw [Nat.succ_mul] at hbounded
    omega
  have hcast : (scale.meanTemperatureArrayMax : ℚ) * step ≤ 2 ^ 18 := by exact_mod_cast hle
  rw [h.max_eq, add_sub_cancel_left, h.div_steps]
  linarith

/-- What is above the smallest temperature is a multiple of the same place. -/
theorem exists_difference (h : WholeScale scale step origin) {value : ℚ}
    (hplace : ∃ k : ℤ, value = k * 2 ^ (-30 : ℤ)) (hlo : scale.minTemperature ≤ value)
    (hhi : value ≤ scale.maxTemperature) :
    ∃ d : ℤ, value - scale.minTemperature = d * 2 ^ (-30 : ℤ) ∧ 0 ≤ d ∧ d < 2 ^ 42 := by
  obtain ⟨k, hk⟩ := hplace
  obtain ⟨quarters, hquarters⟩ := exists_mul_four_eq h.min_round h.whole.origin_eq
  have hdifference : value - scale.minTemperature
      = (k - quarters * 2 ^ 28 : ℤ) * 2 ^ (-30 : ℤ) := by
    have hmin : scale.minTemperature = quarters / 4 := by linarith
    rw [hk, hmin]
    norm_num
    ring
  refine ⟨k - quarters * 2 ^ 28, hdifference, ?_, ?_⟩
  · have hcast : (0 : ℚ) ≤ (k - quarters * 2 ^ 28 : ℤ) := by
      by_contra hneg
      norm_num at hdifference hneg
      linarith
    exact_mod_cast hcast
  · have hwidth := h.width_le
    have hcast : ((k - quarters * 2 ^ 28 : ℤ) : ℚ) < 2 ^ 42 := by
      norm_num at hdifference hwidth ⊢
      linarith
    exact_mod_cast hcast

/-- **The index is exact** for a temperature that is a multiple of a place that is small enough. -/
theorem floorOf_eq (h : WholeScale scale step origin) {value : ℚ}
    (hplace : ∃ k : ℤ, value = k * 2 ^ (-30 : ℤ)) (hlo : scale.minTemperature ≤ value)
    (hhi : value ≤ scale.maxTemperature) :
    scale.floorOf value = ⌊scale.stepsByDegree * (value - scale.minTemperature)⌋ := by
  obtain ⟨d, hdifference, hd0, hdlt⟩ := h.exists_difference hplace hlo hhi
  obtain ⟨n, a, hn, ha, hsteps⟩ := exists_mul_two_pow_le h.steps_round h.whole.step_eq
  have hround : binary64.round (value - scale.minTemperature)
      = value - scale.minTemperature := by
    rw [hdifference]
    refine Format.round_eq_self ?_ (by decide)
    rw [abs_of_nonneg hd0]
    exact hdlt.trans (by decide)
  have hproduct : scale.stepsByDegree * (value - scale.minTemperature)
      = ((n * d : ℤ) : ℚ) * 2 ^ (-30 - a : ℤ) := by
    have hpow : (2 : ℚ) ^ a ≠ 0 := by positivity
    rw [hdifference, zpow_sub₀ two_ne_zero, zpow_natCast]
    push_cast
    rw [← hsteps]
    field_simp
  have halt : a ≤ 18 := by
    have hbounded := h.whole.bounded
    have hstep : step ≤ (scale.meanTemperatureArrayMax + 1) * step :=
      Nat.le_mul_of_pos_left _ (Nat.succ_pos _)
    exact (Nat.pow_le_pow_iff_right (by decide)).mp (by omega : 2 ^ a ≤ 2 ^ 18)
  rw [TemperatureScale.floorOf, hround, hproduct, Format.round_eq_self ?_ ?_]
  · rw [abs_of_nonneg (by positivity)]
    have hmul : (n : ℤ) * d ≤ 100 * 2 ^ 42 :=
      mul_le_mul (by exact_mod_cast hn) hdlt.le hd0 (by norm_num)
    exact hmul.trans_lt (by decide)
  · simp only [binary64]
    omega

theorem floorOf_mono (h : WholeScale scale step origin) {value value' : ℚ} (hle : value ≤ value') :
    scale.floorOf value ≤ scale.floorOf value' := by
  have hsub : value - scale.minTemperature ≤ value' - scale.minTemperature := by linarith
  exact Int.floor_le_floor (Format.round_mono (by decide)
    (mul_le_mul_of_nonneg_left (Format.round_mono (by decide) hsub) h.steps_pos.le))

theorem width_eq (h : WholeScale scale step origin) :
    scale.stepsByDegree * (scale.maxTemperature - scale.minTemperature)
      = scale.meanTemperatureArrayMax := by
  rw [h.max_eq, add_sub_cancel_left, mul_div_cancel₀ _ h.steps_pos.ne']

/-- The highest temperature in hundredths. -/
theorem max_mul_hundred (h : WholeScale scale step origin) :
    scale.maxTemperature * 100 = (origin + scale.meanTemperatureArrayMax * step : ℤ) := by
  rw [h.max_eq, h.div_steps, add_mul, h.whole.origin_eq]
  push_cast
  ring

/-- A value of single precision that is not small, or zero, is a multiple of a place. -/
theorem exists_place {r : ℚ} (hr : 2 ^ (-7 : ℤ) ≤ |binary32.round r|) :
    ∃ k : ℤ, binary32.round r = k * 2 ^ (-30 : ℤ) :=
  Format.exists_round_eq_mul_zpow (by decide) (by decide) (by decide) hr

/-- The index of a value of single precision that is below the highest temperature. The values near
zero are below one that is a multiple of the place and below the highest temperature, too, unless
that is zero. -/
theorem floorOf_lt (h : WholeScale scale step origin) (hmax : scale.maxTemperature ≠ 0) {r : ℚ}
    (hlo : scale.minTemperature ≤ binary32.round r)
    (hhi : binary32.round r < scale.maxTemperature) :
    scale.floorOf (binary32.round r) < scale.meanTemperatureArrayMax := by
  have hexact : ∀ {value : ℚ}, (∃ k : ℤ, value = k * 2 ^ (-30 : ℤ)) →
      scale.minTemperature ≤ value → value < scale.maxTemperature →
      scale.floorOf value < scale.meanTemperatureArrayMax := by
    intro value hplace hmin hlt
    rw [h.floorOf_eq hplace hmin hlt.le, Int.floor_lt, Int.cast_natCast, ← h.width_eq]
    exact mul_lt_mul_of_pos_left (by linarith) h.steps_pos
  by_cases hsmall : 2 ^ (-7 : ℤ) ≤ |binary32.round r|
  · exact hexact (exists_place hsmall) hlo hhi
  · have hnear := abs_lt.mp (not_le.mp hsmall)
    have hbeyond : (2 : ℚ) ^ (-7 : ℤ) < scale.maxTemperature := by
      have hhundred := h.max_mul_hundred
      set hundredths := origin + scale.meanTemperatureArrayMax * step with hdef
      have hgt : (-1 : ℚ) < hundredths := by
        norm_num at hnear
        rw [← hhundred]
        linarith
      have hgt' : -1 < hundredths := by exact_mod_cast hgt
      have hne : hundredths ≠ 0 := by
        intro hzero
        rw [hzero] at hhundred
        norm_num at hhundred
        exact hmax hhundred
      have hone : (1 : ℚ) ≤ hundredths := by exact_mod_cast (by omega : 1 ≤ hundredths)
      norm_num
      linarith
    refine (h.floorOf_mono hnear.2.le).trans_lt (hexact ⟨2 ^ 23, by norm_num⟩ ?_ hbeyond)
    exact hlo.trans hnear.2.le

theorem floorOf_nonneg (h : WholeScale scale step origin) {value : ℚ}
    (hlo : scale.minTemperature ≤ value) : 0 ≤ scale.floorOf value := by
  have hzero : binary64.round 0 = 0 := by
    exact_mod_cast Format.round_intCast (f := binary64) (m := 0) (by decide) (by decide)
  have hmin : scale.floorOf scale.minTemperature = 0 := by
    rw [TemperatureScale.floorOf, sub_self, hzero, mul_zero, hzero, Int.floor_zero]
  exact hmin.symm.le.trans (h.floorOf_mono hlo)

theorem count_le (h : WholeScale scale step origin) :
    scale.meanTemperatureArrayMax ≤ 2 ^ 18 := by
  have hbounded := h.whole.bounded
  have hle : scale.meanTemperatureArrayMax ≤ (scale.meanTemperatureArrayMax + 1) * step :=
    (Nat.le_succ _).trans (Nat.le_mul_of_pos_right _ h.whole.step_pos)
  omega

/-- **The index is one of the table.** -/
theorem temperatureIndex_bounds (h : WholeScale scale step origin)
    (hmax : scale.maxTemperature ≠ 0) {value : FloatValue} {r : ℚ}
    (hvalue : value.number? = some (binary32.round r)) (hrange : scale.isOutOfRange value = false) :
    0 ≤ scale.temperatureIndex value ∧
      scale.temperatureIndex value < scale.meanTemperatureArrayMax := by
  obtain ⟨hlo, hhi⟩ : scale.minTemperature ≤ binary32.round r ∧
      binary32.round r < scale.maxTemperature := by
    rcases value with ⟨negative, magnitude⟩ | negative | negative
    · have hnumber := Option.some.inj hvalue
      simpa only [TemperatureScale.isOutOfRange, hnumber, decide_eq_false_iff_not, not_or,
        not_lt, not_le] using hrange
    · cases hvalue
    · cases hvalue
  have hnonneg := h.floorOf_nonneg hlo
  have hlt := h.floorOf_lt hmax hlo hhi
  have hcount := h.count_le
  rw [TemperatureScale.temperatureIndex, hvalue]
  dsimp only
  rw [toInt32OfFloat, if_pos (by omega)]
  exact ⟨hnonneg, hlt⟩

end WholeScale

end Oscillatord
