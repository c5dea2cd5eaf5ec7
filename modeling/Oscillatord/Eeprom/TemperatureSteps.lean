import Oscillatord.Config.ConfigFile
import Oscillatord.Library.Hundredths

/-!
# The steps of the temperature table

The temperature table has one entry for each step of the temperature, and the texts that are made of
it name a step by the temperatures at its ends, with two places. The number of steps in a degree and
the lowest temperature are those of a header that is not in the repository. When a step and the
lowest temperature are numbers of hundredths (`HundredthSteps`), the places show them exactly, and
the texts of different steps are different (`range_injective`).
-/

namespace Oscillatord

open CText Rounding

/-- `STEPS_BY_DEGREE` and `MIN_TEMPERATURE`, of a header that is not in the repository. -/
structure TemperatureSteps where
  stepsByDegree : ℚ
  minTemperature : ℚ

/-- `(i + STEPS_BY_DEGREE * MIN_TEMPERATURE) / STEPS_BY_DEGREE`. -/
def TemperatureSteps.bound (steps : TemperatureSteps) (i : ℕ) : FloatValue :=
  let bound := binary64.round
    (binary64.round (i + binary64.round (steps.stepsByDegree * steps.minTemperature))
      / steps.stepsByDegree)
  .finite (decide (bound < 0)) |bound|

/-- The key of a temperature. -/
def TemperatureSteps.range (steps : TemperatureSteps) (i : ℕ) : List UInt8 :=
  ascii "[" ++ fixedText 2 (steps.bound i) ++ ascii ", " ++ fixedText 2 (steps.bound (i + 1))
    ++ ascii "["

/-- A step and the lowest temperature are numbers of hundredths, and the temperatures are below
`2 ^ 18` of them. -/
structure HundredthSteps (steps : TemperatureSteps) (count step : ℕ) (origin : ℤ) : Prop where
  step_pos : 0 < step
  step_eq : steps.stepsByDegree * step = 100
  origin_eq : steps.minTemperature * 100 = origin
  bounded : origin.natAbs + (count + 1) * step ≤ 2 ^ 18

namespace HundredthSteps

variable {steps : TemperatureSteps} {count step i : ℕ} {origin : ℤ}

/-- The hundredths of a step. -/
def hundredths (step : ℕ) (origin : ℤ) (i : ℕ) : ℤ := i * step + origin

theorem bounds (h : HundredthSteps steps count step origin) (hi : i ≤ count) :
    |hundredths step origin i| ≤ 2 ^ 18 := by
  have hmul : i * step ≤ count * step := Nat.mul_le_mul_right step hi
  have hbounded := h.bounded
  rw [Nat.succ_mul] at hbounded
  have hcast : ((i * step : ℕ) : ℤ) = i * step := by push_cast; rfl
  rw [hundredths, abs_le]
  omega

/-- The temperature of a step. -/
theorem temperature_eq (h : HundredthSteps steps count step origin) (i : ℕ) :
    (i + steps.stepsByDegree * steps.minTemperature) / steps.stepsByDegree
      = hundredths step origin i / 100 := by
  have hstep : (step : ℚ) ≠ 0 := Nat.cast_ne_zero.mpr h.step_pos.ne'
  have hsteps : steps.stepsByDegree = 100 / step := by
    rw [eq_div_iff hstep, h.step_eq]
  have horigin : steps.minTemperature = origin / 100 := by
    rw [eq_div_iff (by norm_num), h.origin_eq]
  rw [hsteps, horigin, hundredths]
  push_cast
  field_simp

/-- A value below a power of two is rounded by little. -/
theorem abs_binary64_sub_le {q : ℚ} {k : ℤ} (hq : |q| < 2 ^ k) (hk : -1000 ≤ k) :
    |binary64.round q - q| ≤ 2 ^ (k - 53) / 2 :=
  Format.abs_round_sub_le_of_abs_lt hq (by simp only [binary64]; omega)

/-- The numbers of steps are small. -/
theorem small (h : HundredthSteps steps count step origin) (hi : i ≤ count) :
    (1 : ℚ) ≤ step ∧ (step : ℚ) ≤ 2 ^ 18 ∧ (i : ℚ) ≤ 2 ^ 18 ∧ |(origin : ℚ)| ≤ 2 ^ 18 := by
  have hpos := h.step_pos
  have hbounded := h.bounded
  have hcount : count + 1 ≤ (count + 1) * step := Nat.le_mul_of_pos_right _ hpos
  have hstep : step ≤ (count + 1) * step := Nat.le_mul_of_pos_left _ (Nat.succ_pos count)
  have horigin : |origin| ≤ 2 ^ 18 := by
    rw [abs_le]
    omega
  refine ⟨by exact_mod_cast hpos, ?_, ?_, by exact_mod_cast horigin⟩
  · exact_mod_cast (by omega : step ≤ 2 ^ 18)
  · exact_mod_cast (by omega : i ≤ 2 ^ 18)

/-- The lowest temperature in steps. -/
theorem lowest_eq (h : HundredthSteps steps count step origin) :
    steps.stepsByDegree * steps.minTemperature = origin / step := by
  have hstep : (step : ℚ) ≠ 0 := Nat.cast_ne_zero.mpr h.step_pos.ne'
  have hsteps : steps.stepsByDegree = 100 / step := by rw [eq_div_iff hstep, h.step_eq]
  have horigin : steps.minTemperature = origin / 100 := by
    rw [eq_div_iff (by norm_num), h.origin_eq]
  rw [hsteps, horigin]
  field_simp

/-- The steps that are computed are near to those there are. -/
theorem abs_steps_sub_le (h : HundredthSteps steps count step origin) (hi : i ≤ count) :
    |binary64.round (i + binary64.round (steps.stepsByDegree * steps.minTemperature))
      - (i + steps.stepsByDegree * steps.minTemperature)| ≤ 2 ^ (-33 : ℤ) := by
  obtain ⟨hone, -, hcount, horigin⟩ := h.small hi
  set lowest := steps.stepsByDegree * steps.minTemperature with hlowest
  have hle : |lowest| ≤ 2 ^ 18 := by
    rw [hlowest, h.lowest_eq, abs_div, Nat.abs_cast]
    exact (div_le_self (abs_nonneg _) hone).trans horigin
  have hfirst := abs_binary64_sub_le (q := lowest) (k := 19)
    (hle.trans_lt (by norm_num)) (by decide)
  have hnonneg : (0 : ℚ) ≤ i := Nat.cast_nonneg i
  have hindex : (i : ℚ) ≤ 262144 := hcount.trans_eq (by norm_num)
  norm_num at hfirst hle
  rw [abs_le] at hfirst hle
  have hsecond := abs_binary64_sub_le (q := i + binary64.round lowest) (k := 20)
    (by rw [abs_lt]; norm_num; constructor <;> linarith) (by decide)
  norm_num at hsecond ⊢
  rw [abs_le] at hsecond ⊢
  constructor <;> linarith

/-- **The temperature that is computed** is near that of the step. -/
theorem abs_bound_sub_lt (h : HundredthSteps steps count step origin) (hi : i ≤ count) :
    |binary64.round
        (binary64.round (i + binary64.round (steps.stepsByDegree * steps.minTemperature))
          / steps.stepsByDegree) - hundredths step origin i / 100| < 1 / 200 := by
  obtain ⟨hone, hstep, -, -⟩ := h.small hi
  have hsteps := h.abs_steps_sub_le hi
  set computed := binary64.round
    (i + binary64.round (steps.stepsByDegree * steps.minTemperature)) with hcomputed
  have hdivide : ∀ x : ℚ, x / steps.stepsByDegree = x * step / 100 := by
    intro x
    have hne : (step : ℚ) ≠ 0 := by linarith
    rw [eq_div_of_mul_eq hne h.step_eq]
    field_simp
  have hnear : |computed / steps.stepsByDegree - hundredths step origin i / 100|
      ≤ 2 ^ (-21 : ℤ) := by
    rw [← h.temperature_eq i, ← sub_div, hdivide, abs_div, abs_mul, Nat.abs_cast]
    have hmul := mul_le_mul hsteps hstep (by linarith) (by positivity)
    norm_num at hmul ⊢
    linarith
  have hk : |(hundredths step origin i : ℚ)| ≤ 2 ^ 18 := by exact_mod_cast h.bounds hi
  norm_num at hnear hk
  rw [abs_le] at hnear hk
  have hrounded := abs_binary64_sub_le (q := computed / steps.stepsByDegree) (k := 19)
    (by rw [abs_lt]; norm_num; constructor <;> linarith) (by decide)
  norm_num at hrounded
  rw [abs_le] at hrounded
  rw [abs_lt]
  constructor <;> linarith

theorem binary64_round_intCast {m : ℤ} (hm : |m| ≤ 2 ^ 18) : binary64.round m = m :=
  Format.round_intCast (hm.trans_lt (by decide)) (by decide)

theorem bound_neg_iff (h : HundredthSteps steps count step origin) (hi : i ≤ count) :
    binary64.round (binary64.round (i + binary64.round (steps.stepsByDegree * steps.minTemperature))
        / steps.stepsByDegree) < 0 ↔ hundredths step origin i < 0 := by
  refine neg_iff_of_abs_sub_lt (h.abs_bound_sub_lt hi) fun hzero => ?_
  -- nothing is rounded on the way to zero
  have hsteps : steps.stepsByDegree ≠ 0 := by
    intro heq
    have hstep := h.step_eq
    rw [heq, zero_mul] at hstep
    norm_num at hstep
  have htemperature := h.temperature_eq i
  rw [hzero, Int.cast_zero, zero_div, div_eq_zero_iff, or_iff_left hsteps] at htemperature
  have hlowest : steps.stepsByDegree * steps.minTemperature = ((-(i : ℤ) : ℤ) : ℚ) := by
    push_cast
    linarith
  have hbounds := h.bounded
  have hcount : count + 1 ≤ (count + 1) * step := Nat.le_mul_of_pos_right _ h.step_pos
  have hsmall : |-(i : ℤ)| ≤ 2 ^ 18 := by
    rw [abs_neg, Nat.abs_cast]
    omega
  have hround : binary64.round 0 = 0 := by
    exact_mod_cast binary64_round_intCast (m := 0) (by decide)
  rw [hlowest, binary64_round_intCast hsmall]
  simp [hround]

theorem fixedText_bound (h : HundredthSteps steps count step origin) (hi : i ≤ count) :
    fixedText 2 (steps.bound i) = hundredthsText (hundredths step origin i) :=
  fixedText_two (h.abs_bound_sub_lt hi) (h.bound_neg_iff hi)

/-- The key of a temperature shows its hundredths. -/
theorem range_eq (h : HundredthSteps steps count step origin) (hi : i < count) :
    steps.range i = 91 :: (hundredthsText (hundredths step origin i)
      ++ 44 :: 32 :: (hundredthsText (hundredths step origin (i + 1)) ++ [91])) := by
  rw [TemperatureSteps.range, h.fixedText_bound hi.le, h.fixedText_bound hi]
  simp [ascii]

/-- **The keys of different temperatures are different.** -/
theorem range_injective (h : HundredthSteps steps count step origin) {j : ℕ} (hi : i < count)
    (hj : j < count) (heq : steps.range i = steps.range j) : i = j := by
  rw [h.range_eq hi, h.range_eq hj, List.cons_inj_right] at heq
  have hcomma : ∀ k rest, (hundredthsText k ++ 44 :: rest).takeWhile (· != 44)
      = hundredthsText k := by
    intro k rest
    rw [List.takeWhile_append_of_pos fun c hc => ?_]
    · simp
    · rw [bne_iff_ne]
      rintro rfl
      exact notMem_hundredthsText (by decide) (by decide) (by decide) k hc
  have htext := congrArg (List.takeWhile (· != 44)) heq
  rw [hcomma, hcomma] at htext
  have hk := hundredthsText_injective htext
  rw [hundredths, hundredths, add_left_inj] at hk
  have hstep : (step : ℤ) ≠ 0 := by exact_mod_cast h.step_pos.ne'
  exact_mod_cast mul_right_cancel₀ hstep hk

/-- A key has room. -/
theorem length_range_lt (h : HundredthSteps steps count step origin) (hi : i < count) :
    (steps.range i).length < 64 := by
  have hwidth : ∀ {j : ℕ}, j ≤ count →
      (hundredthsText (hundredths step origin j)).length ≤ 4 + 4 := by
    intro j hj
    have hbounds := h.bounds hj
    refine length_hundredthsText_le (by decide) ?_
    rw [abs_le] at hbounds
    omega
  have hlow := hwidth hi.le
  have hhigh := hwidth (j := i + 1) hi
  rw [h.range_eq hi]
  simp only [List.length_cons, List.length_append, List.length_nil]
  omega

end HundredthSteps

end Oscillatord
