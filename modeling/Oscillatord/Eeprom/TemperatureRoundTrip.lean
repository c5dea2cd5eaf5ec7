import Oscillatord.Eeprom.TemperatureInput

/-!
# The temperature table through its text

A table that is written as a text and read again should be the table it was
(`TemperatureTextLaw`). The text has the temperature of each entry exactly, but the reader takes it
in single precision: where that is below the temperature, the floor is the step below, and the value
of the entry is stored in the entry before it (`storedIndex`).

So an entry comes back as the value of the next one when that one's temperature is rounded down, as
zero when only its own is, and else as it was (`cells_readBack`); `temperatureTextLaw_iff` is the
condition on the table.
-/

namespace Oscillatord

open CText CNumber Rounding HundredthSteps

variable {scale : TemperatureScale} {step : ℕ} {origin : ℤ}

/-! ### The law -/

/-- What is read of a table that was written, into a table of zeros. -/
def readBack (scale : TemperatureScale) (table : Fin scale.meanTemperatureArrayMax → UInt16) :
    ℤ × (ℤ → UInt16) :=
  readTemperatureTableFromFilePath scale (some (writeTemperatureTableToFile scale table)) fun _ => 0

/-- **The law of the text**: the table is read, and is the one that was written. -/
def TemperatureTextLaw (scale : TemperatureScale)
    (table : Fin scale.meanTemperatureArrayMax → UInt16) : Prop :=
  (readBack scale table).1 = 0 ∧
    ∀ i : Fin scale.meanTemperatureArrayMax, (readBack scale table).2 (i : ℕ) = table i

/-- The temperature of an entry is above what it is in single precision. -/
def RoundedDown (scale : TemperatureScale) (i : ℕ) : Prop :=
  binary32.round (extended.round (scale.minTemperature + i / scale.stepsByDegree))
    < scale.minTemperature + i / scale.stepsByDegree

instance (i : ℕ) : Decidable (RoundedDown scale i) := inferInstanceAs (Decidable (_ < _))

/-- An entry before one whose temperature is rounded down has the value of that one, and one whose
temperature is rounded down while that of the next is not is zero. -/
structure TableKept (scale : TemperatureScale)
    (table : Fin scale.meanTemperatureArrayMax → UInt16) : Prop where
  same : ∀ i j : Fin scale.meanTemperatureArrayMax, (j : ℕ) = i + 1 → RoundedDown scale j →
    table j = table i
  zero : ∀ i : Fin scale.meanTemperatureArrayMax, RoundedDown scale i →
    (∀ j : Fin scale.meanTemperatureArrayMax, (j : ℕ) = i + 1 → ¬ RoundedDown scale j) →
    table i = 0

/-! ### The text -/

namespace WholeScale

theorem temperature_hundredths (h : WholeScale scale step origin) (i : ℕ) :
    scale.minTemperature + i / scale.stepsByDegree = hundredths step origin i / 100 := by
  rw [h.div_steps, h.min_eq, hundredths]
  push_cast
  ring

/-- The quotient of the writer is small, and near. -/
theorem abs_quotient_sub_le (h : WholeScale scale step origin) {q : ℚ} (hq : |q| < 2 ^ (12 : ℤ)) :
    |scale.quotient.round q - q| ≤ 2 ^ (-13 : ℤ) := by
  rcases h.quotient_eq with heq | heq
  · have hle := Format.abs_round_sub_le_of_abs_lt (f := binary32) hq (by decide)
    rw [heq]
    norm_num [binary32] at hle ⊢
    exact hle
  · have hle := Format.abs_round_sub_le_of_abs_lt (f := binary64) hq (by decide)
    rw [heq]
    norm_num [binary64] at hle ⊢
    linarith

theorem abs_min_le (h : WholeScale scale step origin) : |scale.minTemperature| ≤ 2622 := by
  have hbounded := h.whole.bounded
  have horigin : |(origin : ℚ)| ≤ 2 ^ 18 := by
    have hint : |origin| ≤ 2 ^ 18 := by
      rw [abs_le]
      omega
    exact_mod_cast hint
  rw [h.min_eq, abs_div, abs_of_pos (by norm_num : (0 : ℚ) < 100)]
  norm_num at horigin ⊢
  linarith

/-- The lowest temperature is a number of quarters, and not a large one. -/
theorem exists_quarters (h : WholeScale scale step origin) :
    ∃ quarters : ℤ, |quarters| < 2 ^ 24 ∧ scale.minTemperature = quarters * 2 ^ (-2 : ℤ) := by
  obtain ⟨quarters, hquarters⟩ := exists_mul_four_eq h.min_round h.whole.origin_eq
  have hmin := h.abs_min_le
  have hcast : |(quarters : ℚ)| < 2 ^ 24 := by
    rw [← hquarters, abs_mul, abs_of_pos (by norm_num : (0 : ℚ) < 4)]
    norm_num
    linarith
  refine ⟨quarters, by exact_mod_cast hcast, ?_⟩
  norm_num
  linarith

theorem div_steps_bounds (h : WholeScale scale step origin) {i : ℕ}
    (hi : i < scale.meanTemperatureArrayMax) :
    0 ≤ i / scale.stepsByDegree ∧ (i : ℚ) / scale.stepsByDegree ≤ 2622 := by
  have hbounded := h.whole.bounded
  have hmul : i * step ≤ scale.meanTemperatureArrayMax * step := Nat.mul_le_mul_right step hi.le
  rw [Nat.succ_mul] at hbounded
  have hindex : (i : ℚ) * step ≤ 2 ^ 18 := by exact_mod_cast (by omega : i * step ≤ 2 ^ 18)
  rw [h.div_steps]
  refine ⟨by positivity, ?_⟩
  norm_num at hindex ⊢
  linarith

/-- The temperature that is printed is near that of the entry. -/
theorem abs_temperature_sub_lt (h : WholeScale scale step origin) {i : ℕ}
    (hi : i < scale.meanTemperatureArrayMax) :
    |binary64.round (scale.minTemperature + scale.quotient.round (i / scale.stepsByDegree))
      - hundredths step origin i / 100| < 1 / 200 := by
  obtain ⟨hnonneg, hle⟩ := h.div_steps_bounds hi
  have hmin := h.abs_min_le
  have hquotient := h.abs_quotient_sub_le (q := i / scale.stepsByDegree) (by
    rw [abs_of_nonneg hnonneg]
    norm_num
    linarith)
  norm_num at hquotient
  rw [abs_le] at hquotient hmin
  have hsum := abs_binary64_sub_le
    (q := scale.minTemperature + scale.quotient.round (i / scale.stepsByDegree)) (k := 13)
    (by rw [abs_lt]; norm_num; constructor <;> linarith) (by decide)
  norm_num at hsum
  rw [abs_le] at hsum
  rw [← h.temperature_hundredths, abs_lt]
  constructor <;> linarith

theorem temperature_neg_iff (h : WholeScale scale step origin) {i : ℕ}
    (hi : i < scale.meanTemperatureArrayMax) :
    binary64.round (scale.minTemperature + scale.quotient.round (i / scale.stepsByDegree)) < 0 ↔
      hundredths step origin i < 0 := by
  refine neg_iff_of_abs_sub_lt (h.abs_temperature_sub_lt hi) fun hzero => ?_
  -- the quotient is a number of quarters, which is not rounded
  obtain ⟨quarters, hsmall, hmin⟩ := h.exists_quarters
  have hsum := h.temperature_hundredths i
  rw [hzero, Int.cast_zero, zero_div] at hsum
  have hquotient : (i : ℚ) / scale.stepsByDegree = ((-quarters : ℤ) : ℚ) * 2 ^ (-2 : ℤ) := by
    rw [Int.cast_neg, neg_mul, ← hmin]
    linarith
  rw [← abs_neg] at hsmall
  have hexact : scale.quotient.round (i / scale.stepsByDegree) = i / scale.stepsByDegree := by
    rw [hquotient]
    rcases h.quotient_eq with heq | heq <;> rw [heq]
    · exact Format.round_eq_self hsmall (by decide)
    · exact Format.round_eq_self (hsmall.trans (by decide)) (by decide)
  have hround : binary64.round 0 = 0 := by
    exact_mod_cast binary64_round_intCast (m := 0) (by decide)
  rw [hexact, hsum, hround]

/-- **The line of an entry** has its temperature and its value, in hundredths. -/
theorem tableLine_eq (h : WholeScale scale step origin) {i : ℕ}
    (hi : i < scale.meanTemperatureArrayMax) (entry : UInt16) :
    scale.tableLine i entry = hundredthsText (hundredths step origin i) ++ 44
      :: (hundredthsText (10 * entry.toNat) ++ [newline]) := by
  have hentry : fixedText 2 (.finite false (binary64.round (entry.toNat / 10)))
      = hundredthsText (10 * entry.toNat) := by
    have hlt : (entry.toNat : ℚ) < 65536 := by exact_mod_cast entry.toNat_lt
    have hnonneg : (0 : ℚ) ≤ entry.toNat / 10 := by positivity
    have hround := Format.round_nonneg (f := binary64) (by decide) (by decide) hnonneg
    have hnear := abs_binary64_sub_le (q := entry.toNat / 10) (k := 13)
      (by rw [abs_of_nonneg hnonneg]; norm_num; linarith) (by decide)
    have htext := fixedText_two (k := 10 * entry.toNat) (x := binary64.round (entry.toNat / 10))
      (by
        norm_num at hnear ⊢
        rw [abs_le] at hnear
        rw [abs_lt]
        constructor <;> linarith)
      (iff_of_false (not_lt.mpr hround) (by omega))
    rwa [decide_eq_false (not_lt.mpr hround), abs_of_nonneg hround] at htext
  rw [TemperatureScale.tableLine, TemperatureScale.temperature, hentry,
    fixedText_two (h.abs_temperature_sub_lt hi) (h.temperature_neg_iff hi)]

end WholeScale

/-! ### The numbers of a line -/

/-- A number of hundredths as it is stored in single precision. -/
def singleHundredths (k : ℤ) : FloatValue :=
  .finite (decide (k < 0)) (binary32.round (extended.round (k.natAbs / 100)))

theorem extended_round_le {k : ℤ} (hk : |k| ≤ 2 ^ 20) :
    extended.round (k.natAbs / 100) ≤ 2 ^ 20 := by
  have hnat : k.natAbs ≤ 2 ^ 20 := by
    have hbounds := abs_le.mp hk
    omega
  have hcast : (k.natAbs : ℚ) ≤ 2 ^ 20 := by exact_mod_cast hnat
  have hle := Format.round_le_intCast (f := extended) (q := k.natAbs / 100) (n := 2 ^ 20)
    (by decide) (by decide) (by decide) (by push_cast; linarith)
  exact_mod_cast hle

/-- **What is read of hundredths.** -/
theorem strtoldExtended_hundredthsText {k : ℤ} (hk : |k| ≤ 2 ^ 20) {rest : List UInt8}
    (hrest : EndsNumber rest) :
    strtoldExtended (hundredthsText k ++ rest)
      = (.finite (decide (k < 0)) (extended.round (k.natAbs / 100)), false) := by
  have hexact : ((k.natAbs : ℚ) / 100) < 2 ^ (-16382 : ℤ) →
      extended.round (k.natAbs / 100) = k.natAbs / 100 := by
    intro hsmall
    have htiny : ((k.natAbs : ℚ) / 100) < 2 ^ (-7 : ℤ) :=
      hsmall.trans_le (zpow_le_zpow_right₀ one_le_two (by decide))
    have hone : (k.natAbs : ℚ) < 1 := by
      norm_num at htiny ⊢
      linarith
    have hzero : k.natAbs = 0 := Nat.lt_one_iff.mp (by exact_mod_cast hone)
    have hround : extended.round 0 = 0 := by
      exact_mod_cast Format.round_intCast (f := extended) (m := 0) (by decide) (by decide)
    rw [hzero, Nat.cast_zero, zero_div, hround]
  have htop : ¬ (2 : ℚ) ^ 16384 ≤ extended.round (k.natAbs / 100) :=
    not_le.mpr ((extended_round_le hk).trans_lt (pow_lt_pow_right₀ one_lt_two (by decide)))
  have hrange : ¬ ((k.natAbs : ℚ) / 100 < 2 ^ (-16382 : ℤ) ∧
      extended.round (k.natAbs / 100) ≠ k.natAbs / 100) := fun h => h.2 (hexact h.1)
  rw [strtoldExtended, floatAt_hundredthsText_append k hrest]
  dsimp only
  rw [if_neg htop, decide_eq_false hrange]

theorem store_hundredthsText {k : ℤ} (hk : |k| ≤ 2 ^ 20) {rest : List UInt8}
    (hrest : EndsNumber rest) :
    (strtoldExtended (hundredthsText k ++ rest)).1.store binary32 128 = singleHundredths k := by
  have hle := Format.round_le_intCast (f := binary32) (q := extended.round (k.natAbs / 100))
    (n := 2 ^ 20) (by decide) (by decide) (by decide) (by exact_mod_cast extended_round_le hk)
  have htop : ¬ (2 : ℚ) ^ 128 ≤ binary32.round (extended.round (k.natAbs / 100)) := by
    push_cast at hle
    exact not_le.mpr (hle.trans_lt (by norm_num))
  rw [strtoldExtended_hundredthsText hk hrest, FloatValue.store, if_neg htop, singleHundredths]

theorem number_singleHundredths (k : ℤ) :
    (singleHundredths k).number? = some (binary32.round (extended.round (k / 100))) := by
  rw [singleHundredths, FloatValue.number?, Option.some.injEq]
  rcases lt_or_ge k 0 with hk | hk
  · have hcast : (k : ℚ) / 100 = -(k.natAbs / 100) := by
      rw [Nat.cast_natAbs, abs_of_neg hk]
      push_cast
      ring
    rw [if_pos (decide_eq_true hk), hcast, Format.round_neg, Format.round_neg]
  · have hcast : (k : ℚ) / 100 = k.natAbs / 100 := by
      rw [Nat.cast_natAbs, abs_of_nonneg hk]
    rw [if_neg (by simpa using hk), hcast]

/-- Single precision moves a temperature by little. -/
theorem abs_single_sub_le {q : ℚ} (hq : |q| ≤ 2622) :
    |binary32.round (extended.round q) - q| ≤ 2 ^ (-11 : ℤ) := by
  have hfirst := Format.abs_round_sub_le_of_abs_lt (f := extended) (q := q) (k := 12)
    (hq.trans_lt (by norm_num)) (by decide)
  norm_num [extended] at hfirst
  rw [abs_le] at hfirst hq
  have hsecond := Format.abs_round_sub_le_of_abs_lt (f := binary32) (q := extended.round q)
    (k := 13) (by rw [abs_lt]; norm_num [extended]; constructor <;> linarith) (by decide)
  norm_num [binary32, extended] at hsecond ⊢
  rw [abs_le] at hsecond ⊢
  constructor <;> linarith

/-- **The value of an entry** comes back from its tenths. -/
theorem round_tenths {v : ℕ} (hv : v < 2 ^ 16) :
    10 * extended.round (v / 10) < 2 ^ 16 ∧
      CNumber.round (binary32.round (10 * binary32.round (extended.round (v / 10)))) = v := by
  have hcast : (v : ℚ) ≤ 65535 := by exact_mod_cast Nat.le_of_lt_succ hv
  have hnonneg : (0 : ℚ) ≤ v := Nat.cast_nonneg v
  have hextended := Format.abs_round_sub_le_of_abs_lt (f := extended) (q := v / 10) (k := 13)
    (by rw [abs_of_nonneg (by positivity)]; norm_num; linarith) (by decide)
  have hround0 := Format.round_nonneg (f := extended) (q := v / 10) (by decide) (by decide)
    (by positivity)
  set tenth := extended.round (v / 10) with htenth
  norm_num [extended] at hextended
  rw [abs_le] at hextended
  have hsingle := Format.abs_round_sub_le_of_abs_lt (f := binary32) (q := tenth) (k := 13)
    (by rw [abs_of_nonneg hround0]; norm_num; linarith) (by decide)
  have hsingle0 := Format.round_nonneg (f := binary32) (by decide) (by decide) hround0
  set single := binary32.round tenth with hsingleDef
  norm_num [binary32] at hsingle
  rw [abs_le] at hsingle
  have hproduct := Format.abs_round_sub_le_of_abs_lt (f := binary32) (q := 10 * single) (k := 17)
    (by rw [abs_of_nonneg (by positivity)]; norm_num; linarith) (by decide)
  have hproduct0 := Format.round_nonneg (f := binary32) (by decide) (by decide)
    (by positivity : 0 ≤ 10 * single)
  set product := binary32.round (10 * single) with hproductDef
  norm_num [binary32] at hproduct
  rw [abs_le] at hproduct
  have hlow := CNumber.lt_round_iff hproduct0 (v - 1)
  have hhigh := CNumber.lt_round_iff hproduct0 v
  push_cast at hlow hhigh
  have habove := hlow.mpr (by linarith)
  have hbelow : ¬ (v : ℤ) < CNumber.round product := by
    rw [hhigh]
    linarith
  exact ⟨by norm_num; linarith, by omega⟩

theorem entryOf_hundredthsText (entry : UInt16) {rest : List UInt8} (hrest : EndsNumber rest) :
    entryOf ((strtoldExtended (hundredthsText (10 * entry.toNat) ++ rest)).1.store binary32 128)
      = entry := by
  have hlt := entry.toNat_lt
  obtain ⟨hbound, hround⟩ := round_tenths hlt
  have hsmall : |(10 * entry.toNat : ℤ)| ≤ 2 ^ 20 := by
    rw [abs_le]
    omega
  have htenth : (((10 * entry.toNat : ℤ).natAbs : ℚ)) / 100 = entry.toNat / 10 := by
    have hnat : (10 * entry.toNat : ℤ).natAbs = 10 * entry.toNat := by omega
    rw [hnat]
    push_cast
    ring
  have hnonneg := Format.round_nonneg (f := extended) (q := entry.toNat / 10) (by decide)
    (by decide) (by positivity)
  have hnat : ((entryOf ((FloatValue.finite false _).store binary32 128)).toNat : ℤ) = _ :=
    toNat_entryOf hnonneg hbound
  rw [strtoldExtended_hundredthsText hsmall hrest, htenth,
    decide_eq_false (by omega : ¬ (10 * entry.toNat : ℤ) < 0)]
  rw [if_neg Bool.false_ne_true, hround] at hnat
  refine UInt16.toNat_inj.mp ?_
  dsimp only
  omega

/-- **A line of hundredths** is cut at its comma. -/
theorem strtok_hundredthsText (k l : ℤ) :
    strtok 44 (cString (hundredthsText k ++ 44 :: (hundredthsText l ++ [newline])))
      = [hundredthsText k, hundredthsText l ++ [newline]] := by
  have hzero : ∀ n : ℤ, (0 : UInt8) ∉ hundredthsText n :=
    notMem_hundredthsText (by decide) (by decide) (by decide)
  have hcomma : ∀ n : ℤ, (44 : UInt8) ∉ hundredthsText n :=
    notMem_hundredthsText (by decide) (by decide) (by decide)
  have hne : hundredthsText k ≠ [] := by simp [hundredthsText, fixedDigits]
  have hstring : cString (hundredthsText k ++ 44 :: (hundredthsText l ++ [newline]))
      = hundredthsText k ++ 44 :: (hundredthsText l ++ [newline]) := by
    rw [cString, List.takeWhile_eq_self_iff]
    intro b hb
    rw [bne_iff_ne]
    rintro rfl
    simp [hzero, newline] at hb
  have hparts : ∀ part ∈ [hundredthsText k, hundredthsText l ++ [newline]],
      part ≠ [] ∧ (44 : UInt8) ∉ part := by
    simp [hne, hcomma, newline]
  have hcut := strtok_intercalate (by simp) hparts
  rw [hstring]
  simpa [List.intercalate] using hcut

/-! ### The index of an entry -/

/-- The entry that the temperature of an entry is read as. -/
def storedIndex (scale : TemperatureScale) (i : ℕ) : ℤ := if RoundedDown scale i then i - 1 else i

namespace WholeScale

theorem steps_le (h : WholeScale scale step origin) : scale.stepsByDegree ≤ 100 := by
  have hone : (1 : ℚ) ≤ step := by exact_mod_cast h.whole.step_pos
  have hmul := mul_le_mul_of_nonneg_left hone h.steps_pos.le
  rw [h.whole.step_eq, mul_one] at hmul
  exact hmul

theorem abs_temperature_le (h : WholeScale scale step origin) {i : ℕ}
    (hi : i < scale.meanTemperatureArrayMax) :
    |scale.minTemperature + i / scale.stepsByDegree| ≤ 2622 := by
  have hbounds : |(hundredths step origin i : ℚ)| ≤ 2 ^ 18 := by
    exact_mod_cast h.whole.bounds hi.le
  rw [h.temperature_hundredths, abs_div, abs_of_pos (by norm_num : (0 : ℚ) < 100)]
  norm_num at hbounds ⊢
  linarith

theorem single_min (h : WholeScale scale step origin) :
    binary32.round (extended.round scale.minTemperature) = scale.minTemperature := by
  obtain ⟨quarters, hsmall, hmin⟩ := h.exists_quarters
  rw [hmin, Format.round_eq_self (hsmall.trans (by decide)) (by decide),
    Format.round_eq_self hsmall (by decide)]

/-- The temperature of an entry, in the precision it is read in. -/
theorem single_bounds (h : WholeScale scale step origin) {i : ℕ}
    (hi : i < scale.meanTemperatureArrayMax) :
    scale.minTemperature
        ≤ binary32.round (extended.round (scale.minTemperature + i / scale.stepsByDegree)) ∧
      binary32.round (extended.round (scale.minTemperature + i / scale.stepsByDegree))
        < scale.maxTemperature := by
  obtain ⟨hnonneg, hle⟩ := h.div_steps_bounds hi
  have hsteps := h.steps_pos
  constructor
  · calc scale.minTemperature
        = binary32.round (extended.round scale.minTemperature) := h.single_min.symm
      _ ≤ _ := Format.round_mono (by decide) (Format.round_mono (by decide) (by linarith))
  · have hnext : (i : ℚ) / scale.stepsByDegree + 1 / 100
        ≤ scale.meanTemperatureArrayMax / scale.stepsByDegree := by
      have hcast : (i : ℚ) + 1 ≤ scale.meanTemperatureArrayMax := by exact_mod_cast hi
      rw [le_div_iff₀ hsteps, add_mul, div_mul_cancel₀ _ hsteps.ne']
      have hone : 1 / 100 * scale.stepsByDegree ≤ 1 := by
        have hlt := h.steps_le
        linarith
      linarith
    have hnear := abs_single_sub_le (h.abs_temperature_le hi)
    norm_num at hnear
    rw [abs_le] at hnear
    rw [h.max_eq]
    linarith

/-- The temperature of a step, as it is read back, has that place. -/
theorem single_place (h : WholeScale scale step origin) {i : ℕ}
    (hi : i < scale.meanTemperatureArrayMax) :
    ∃ k : ℤ, binary32.round (extended.round (scale.minTemperature + i / scale.stepsByDegree))
      = k * 2 ^ (-30 : ℤ) := by
  have hnear := abs_single_sub_le (h.abs_temperature_le hi)
  have htemperature := h.temperature_hundredths i
  rcases eq_or_ne (hundredths step origin i) 0 with hzero | hne
  · have hround : ∀ f : Format, 0 < f.precision → f.emin ≤ 0 → f.round 0 = 0 := by
      intro f hp he
      exact_mod_cast Format.round_intCast (f := f) (m := 0) (by positivity) he
    have heq : scale.minTemperature + i / scale.stepsByDegree = 0 := by
      rw [htemperature, hzero, Int.cast_zero, zero_div]
    refine ⟨0, ?_⟩
    rw [heq, hround _ (by decide) (by decide), hround _ (by decide) (by decide), Int.cast_zero,
      zero_mul]
  · refine exists_place ?_
    have hone : (1 : ℚ) ≤ |(hundredths step origin i : ℚ)| := by
      exact_mod_cast Int.one_le_abs hne
    have hlarge : 1 / 100 ≤ |scale.minTemperature + i / scale.stepsByDegree| := by
      rw [htemperature, abs_div, abs_of_pos (by norm_num : (0 : ℚ) < 100)]
      linarith
    have htri := abs_sub_abs_le_abs_sub (scale.minTemperature + i / scale.stepsByDegree)
      (binary32.round (extended.round (scale.minTemperature + i / scale.stepsByDegree)))
    rw [abs_sub_comm] at htri
    norm_num at hnear ⊢
    linarith

/-- **The index of an entry** is its own, or the one before it when its temperature is rounded
down. -/
theorem floorOf_single (h : WholeScale scale step origin) {i : ℕ}
    (hi : i < scale.meanTemperatureArrayMax) :
    scale.floorOf (binary32.round (extended.round (scale.minTemperature + i / scale.stepsByDegree)))
      = storedIndex scale i := by
  obtain ⟨hlo, hhi⟩ := h.single_bounds hi
  have hnear := abs_single_sub_le (h.abs_temperature_le hi)
  set temperature := scale.minTemperature + i / scale.stepsByDegree with htemperature
  set single := binary32.round (extended.round temperature) with hsingle
  have hsteps := h.steps_pos
  have hsplit : scale.stepsByDegree * (single - scale.minTemperature)
      = i + scale.stepsByDegree * (single - temperature) := by
    rw [htemperature]
    field_simp
    ring
  have hsmall : |scale.stepsByDegree * (single - temperature)| < 1 := by
    rw [abs_mul, abs_of_pos hsteps]
    have hmul := mul_le_mul h.steps_le hnear (abs_nonneg _) (by norm_num)
    norm_num at hmul
    linarith
  rw [abs_lt] at hsmall
  rw [h.floorOf_eq (h.single_place hi) hlo hhi.le, hsplit, storedIndex, Int.floor_eq_iff]
  split_ifs with hdown
  · have hneg : scale.stepsByDegree * (single - temperature) < 0 :=
      mul_neg_of_pos_of_neg hsteps (sub_neg.mpr hdown)
    push_cast
    constructor <;> linarith
  · have hpos : 0 ≤ scale.stepsByDegree * (single - temperature) :=
      mul_nonneg hsteps.le (sub_nonneg.mpr (not_lt.mp hdown))
    push_cast
    constructor <;> linarith

theorem not_roundedDown_zero (h : WholeScale scale step origin) : ¬ RoundedDown scale 0 := by
  rw [RoundedDown, Nat.cast_zero, zero_div, add_zero, h.single_min]
  exact lt_irrefl _

/-! ### Reading a line -/

/-- **The line of an entry** stores its value. -/
theorem temperatureLine_tableLine (h : WholeScale scale step origin) {i : ℕ}
    (hi : i < scale.meanTemperatureArrayMax) (entry : UInt16) :
    temperatureLine scale (scale.tableLine i entry) = .stored (storedIndex scale i) entry := by
  have hfirst : |hundredths step origin i| ≤ 2 ^ 20 := (h.whole.bounds hi.le).trans (by decide)
  have hnone : EndsNumber [] := by simp [EndsNumber]
  have hline : EndsNumber [newline] := by
    rintro b hb
    obtain rfl := Option.some.inj hb
    decide
  have hstored := store_hundredthsText hfirst hnone
  have hnumber := strtoldExtended_hundredthsText hfirst hnone
  rw [List.append_nil] at hstored hnumber
  have hsecond : |(10 * entry.toNat : ℤ)| ≤ 2 ^ 20 := by
    have hlt := entry.toNat_lt
    rw [abs_le]
    omega
  obtain ⟨hlo, hhi⟩ := h.single_bounds hi
  have hvalue := number_singleHundredths (hundredths step origin i)
  rw [← h.temperature_hundredths] at hvalue
  rw [temperatureLine_eq_stored_iff]
  refine ⟨hundredthsText (hundredths step origin i), hundredthsText (10 * entry.toNat) ++ [newline],
    ?_, ⟨?_, ?_⟩, ?_, ?_, entryOf_hundredthsText entry hline⟩
  · rw [h.tableLine_eq hi, strtok_hundredthsText]
  · rw [hstored, hnumber, isRefused, singleHundredths]
    simp
  · rw [store_hundredthsText hsecond hline, strtoldExtended_hundredthsText hsecond hline, hnumber,
      isRefused, singleHundredths]
    simp
  · have hsigned := Option.some.inj hvalue
    rw [hstored, singleHundredths, TemperatureScale.isOutOfRange, hsigned]
    exact decide_eq_false (not_or.mpr ⟨not_lt.mpr hlo, not_le.mpr hhi⟩)
  · have hcount := h.count_le
    rw [hstored, TemperatureScale.temperatureIndex, hvalue]
    dsimp only
    rw [h.floorOf_single hi, toInt32OfFloat, if_pos]
    rw [storedIndex]
    split_ifs <;> omega

end WholeScale

/-! ### Reading a text -/

theorem getlines_append {line : List UInt8} (hline : newline ∉ line) (text : List UInt8) :
    getlines (line ++ newline :: text) = (line ++ [newline]) :: getlines text := by
  induction line with
  | nil => rw [List.nil_append, getlines, if_pos rfl, List.nil_append]
  | cons byte line ih =>
    obtain ⟨hbyte, hline⟩ := not_or.mp (mt List.mem_cons.mpr hline)
    rw [List.cons_append, getlines, if_neg (Ne.symm hbyte), ih hline, List.cons_append]

/-- **Lines that are joined** are the lines that are read. -/
theorem getlines_flatten {lines : List (List UInt8)}
    (hlines : ∀ line ∈ lines, ∃ body, newline ∉ body ∧ line = body ++ [newline]) :
    getlines lines.flatten = lines := by
  induction lines with
  | nil => rfl
  | cons line lines ih =>
    obtain ⟨⟨body, hbody, rfl⟩, hrest⟩ := List.forall_mem_cons.mp hlines
    rw [List.flatten_cons, List.append_assoc, List.singleton_append, getlines_append hbody,
      ih hrest]

/-- The loop over lines that all store an entry. -/
theorem readLines_map {ι : Type} (line : ι → List UInt8) (index : ι → ℤ) (entry : ι → UInt16)
    {items : List ι}
    (hstored : ∀ i ∈ items, temperatureLine scale (line i) = .stored (index i) (entry i))
    (cells : ℤ → UInt16) :
    readLines scale (items.map line) cells
      = (0, items.foldl (fun cells i => Function.update cells (index i) (entry i)) cells) := by
  induction items generalizing cells with
  | nil => rfl
  | cons i items ih =>
    obtain ⟨hi, hitems⟩ := List.forall_mem_cons.mp hstored
    rw [List.map_cons, readLines, hi]
    exact ih hitems _

/-- **The cells after the first entries**: an entry is overwritten by the next one when that one's
temperature is rounded down, and is stored in the entry before when its own is. -/
theorem foldl_storedIndex (hzero : ¬ RoundedDown scale 0) (entry : ℕ → UInt16) (n j : ℕ) :
    (List.range n).foldl
        (fun (cells : ℤ → UInt16) i => Function.update cells (storedIndex scale i) (entry i))
        (fun _ => 0) (j : ℤ)
      = if j + 1 < n ∧ RoundedDown scale (j + 1) then entry (j + 1)
        else if j < n ∧ ¬ RoundedDown scale j then entry j else 0 := by
  induction n with
  | zero => simp
  | succ n ih =>
    rw [List.range_succ, List.foldl_append, List.foldl_cons, List.foldl_nil,
      Function.update_apply, storedIndex]
    by_cases hdown : RoundedDown scale n
    · rw [if_pos hdown]
      have hn : n ≠ 0 := fun h => hzero (h ▸ hdown)
      by_cases hj : j + 1 = n
      · subst hj
        rw [if_pos (by push_cast; omega), if_pos ⟨by omega, hdown⟩]
      · have hlt : j + 1 < n + 1 ↔ j + 1 < n := by omega
        have hself : j < n + 1 ∧ ¬ RoundedDown scale j ↔ j < n ∧ ¬ RoundedDown scale j := by
          rcases eq_or_ne j n with rfl | hne
          · simp [hdown]
          · rw [show j < n + 1 ↔ j < n by omega]
        rw [if_neg (by omega), ih]
        simp only [hlt, hself]
    · rw [if_neg hdown]
      by_cases hj : j = n
      · subst hj
        rw [if_pos rfl, if_neg (by omega), if_pos ⟨by omega, hdown⟩]
      · have hlt : j < n + 1 ↔ j < n := by omega
        have hnext : j + 1 < n + 1 ∧ RoundedDown scale (j + 1) ↔
            j + 1 < n ∧ RoundedDown scale (j + 1) := by
          rcases eq_or_ne (j + 1) n with rfl | hne
          · simp [hdown]
          · rw [show j + 1 < n + 1 ↔ j + 1 < n by omega]
        rw [if_neg (by exact_mod_cast hj), ih]
        simp only [hlt, hnext]

/-- The entries of a table, zero beyond it. -/
def entryAt {n : ℕ} (table : Fin n → UInt16) (i : ℕ) : UInt16 :=
  if h : i < n then table ⟨i, h⟩ else 0

/-- **What comes back of a table.** -/
theorem readBack_eq (h : WholeScale scale step origin)
    (table : Fin scale.meanTemperatureArrayMax → UInt16) :
    readBack scale table = (0, (List.range scale.meanTemperatureArrayMax).foldl
      (fun cells i => Function.update cells (storedIndex scale i) (entryAt table i))
      (fun _ => 0)) := by
  have hlines : (List.ofFn fun i : Fin scale.meanTemperatureArrayMax =>
        scale.tableLine i (table i))
      = (List.range scale.meanTemperatureArrayMax).map
          fun i => scale.tableLine i (entryAt table i) := by
    refine List.ext_getElem (by simp) fun i hi _ => ?_
    have hlt : i < scale.meanTemperatureArrayMax := by simpa using hi
    simp [entryAt, hlt]
  have hbodies : ∀ line ∈ (List.range scale.meanTemperatureArrayMax).map
      (fun i => scale.tableLine i (entryAt table i)),
      ∃ body, newline ∉ body ∧ line = body ++ [newline] := by
    intro line hmem
    obtain ⟨i, hi, rfl⟩ := List.mem_map.mp hmem
    have hnewline : ∀ k : ℤ, newline ∉ hundredthsText k :=
      notMem_hundredthsText (by decide) (by decide) (by decide)
    refine ⟨hundredthsText (hundredths step origin i)
      ++ 44 :: hundredthsText (10 * (entryAt table i).toNat), ?_, ?_⟩
    · simp only [List.mem_append, List.mem_cons, not_or]
      exact ⟨hnewline _, by decide, hnewline _⟩
    · rw [h.tableLine_eq (List.mem_range.mp hi)]
      simp
  rw [readBack, readTemperatureTableFromFilePath, writeTemperatureTableToFile, hlines,
    getlines_flatten hbodies]
  exact readLines_map _ _ _
    (fun i hi => h.temperatureLine_tableLine (List.mem_range.mp hi) _) _

/-- **The entry that comes back.** -/
theorem cells_readBack (h : WholeScale scale step origin)
    (table : Fin scale.meanTemperatureArrayMax → UInt16)
    (i : Fin scale.meanTemperatureArrayMax) :
    (readBack scale table).2 (i : ℕ)
      = if i + 1 < scale.meanTemperatureArrayMax ∧ RoundedDown scale (i + 1) then
          entryAt table (i + 1)
        else if RoundedDown scale i then 0 else table i := by
  rw [readBack_eq h]
  dsimp only
  rw [foldl_storedIndex h.not_roundedDown_zero]
  have hentry : entryAt table i = table i := dif_pos i.isLt
  rw [hentry]
  simp only [i.isLt, true_and, ite_not]

/-- **A table comes back through its text** exactly when it is kept. -/
theorem temperatureTextLaw_iff (h : WholeScale scale step origin)
    (table : Fin scale.meanTemperatureArrayMax → UInt16) :
    TemperatureTextLaw scale table ↔ TableKept scale table := by
  have hsuccess : (readBack scale table).1 = 0 := by rw [readBack_eq h]
  rw [TemperatureTextLaw, and_iff_right hsuccess]
  constructor
  · intro hcells
    constructor
    · intro i j hj hdown
      have hcell := hcells i
      have hlt : (i : ℕ) + 1 < scale.meanTemperatureArrayMax := hj ▸ j.isLt
      rw [hj] at hdown
      rw [cells_readBack h, if_pos ⟨hlt, hdown⟩, entryAt, dif_pos hlt] at hcell
      rw [← hcell]
      congr 1
      exact Fin.ext hj
    · intro i hdown hnext
      have hcell := hcells i
      rw [cells_readBack h, if_neg fun hboth => hnext ⟨i + 1, hboth.1⟩ rfl hboth.2,
        if_pos hdown] at hcell
      exact hcell.symm
  · rintro ⟨hsame, hzero⟩ i
    rw [cells_readBack h]
    split_ifs with hnext hdown
    · rw [entryAt, dif_pos hnext.1]
      exact hsame i ⟨i + 1, hnext.1⟩ rfl hnext.2
    · refine (hzero i hdown fun j hj hboth => hnext ⟨hj ▸ j.isLt, hj ▸ hboth⟩).symm
    · rfl

/-- A table of zeros with one value. -/
def oneEntry (i : ℕ) (entry : UInt16) : Fin tenthsScale.meanTemperatureArrayMax → UInt16 :=
  fun j => if (j : ℕ) = i then entry else 0

/-- The entry of 20 degrees comes back: 20.1 degrees are not rounded down. -/
theorem temperatureTextLaw_twenty : TemperatureTextLaw tenthsScale (oneEntry 0 7) := by
  refine (temperatureTextLaw_iff wholeScale_tenthsScale _).mpr ⟨fun i j hj hdown => ?_, ?_⟩
  · have hone : ¬ RoundedDown tenthsScale 1 := by decide +kernel
    have hi : (i : ℕ) ≠ 0 := by
      intro hzero
      rw [hj, hzero] at hdown
      exact hone hdown
    rw [oneEntry, oneEntry, if_neg (by omega), if_neg hi]
  · intro i hdown _
    have hi : (i : ℕ) ≠ 0 := by
      intro hzero
      rw [hzero] at hdown
      exact wholeScale_tenthsScale.not_roundedDown_zero hdown
    rw [oneEntry, if_neg hi]

/-- The entry of 20.3 degrees does not, which are read as less than they are. -/
theorem temperatureTextLaw_fails_rounded_down :
    ¬ TemperatureTextLaw tenthsScale (oneEntry 3 7) := by
  rintro ⟨-, hcells⟩
  have hcell := hcells ⟨3, by decide⟩
  rw [cells_readBack wholeScale_tenthsScale] at hcell
  have hdown : RoundedDown tenthsScale 3 := by decide +kernel
  have hnext : entryAt (oneEntry 3 7) 4 = 0 := by decide
  split_ifs at hcell
  · exact absurd (hnext.symm.trans hcell) (by decide)
  · exact absurd hcell (by decide)

end Oscillatord
