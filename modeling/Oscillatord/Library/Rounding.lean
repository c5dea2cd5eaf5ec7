import Mathlib.Data.Int.Log
import Mathlib.Data.Rat.Floor
import Mathlib.Algebra.Order.Field.Power
import Mathlib.Tactic.Linarith
import Mathlib.Tactic.Ring
import Mathlib.Tactic.NormNum

/-!
# Rounding to a binary floating-point format

A binary format is a precision and a least exponent. The values it holds are the multiples
`m * 2 ^ e` of the powers of two with `|m|` below `2 ^ precision` and `e` not below the least
exponent, and `Format.round` sends a rational to the nearest of them, a tie to the one with the
even mantissa. There is no greatest exponent here: the results are those of the arithmetic as
long as nothing overflows.

Three facts carry every estimate about rounded values: rounding is monotone (`Format.round_mono`),
leaves the values of the format alone (`Format.round_eq_self`), and moves a value by no more than
half of its last place (`Format.abs_round_sub_le`).
-/

namespace Rounding

/-! ### Rounding to an integer -/

/-- The nearest integer, a tie to the even one. -/
def nearestEven (q : ℚ) : ℤ :=
  if 2 * Int.fract q < 1 then ⌊q⌋
  else if 1 < 2 * Int.fract q then ⌊q⌋ + 1
  else if ⌊q⌋ % 2 = 0 then ⌊q⌋ else ⌊q⌋ + 1

theorem floor_le_nearestEven (q : ℚ) : ⌊q⌋ ≤ nearestEven q := by
  simp only [nearestEven]
  split_ifs <;> omega

theorem nearestEven_le_floor_add_one (q : ℚ) : nearestEven q ≤ ⌊q⌋ + 1 := by
  simp only [nearestEven]
  split_ifs <;> omega

@[simp] theorem nearestEven_intCast (n : ℤ) : nearestEven n = n := by
  simp [nearestEven]

theorem nearestEven_mono {q r : ℚ} (h : q ≤ r) : nearestEven q ≤ nearestEven r := by
  rcases (Int.floor_le_floor h).lt_or_eq with hlt | heq
  · have hq := nearestEven_le_floor_add_one q
    have hr := floor_le_nearestEven r
    omega
  · -- Between the same two integers the fractions decide.
    have hfract : Int.fract q ≤ Int.fract r := by
      rw [Int.fract, Int.fract, heq]
      linarith
    simp only [nearestEven, heq]
    split_ifs <;> first | omega | (exfalso; linarith)

/-- The nearest integer is no more than one half away. -/
theorem abs_nearestEven_sub_le (q : ℚ) : |(nearestEven q : ℚ) - q| ≤ 1 / 2 := by
  have hfloor : (⌊q⌋ : ℚ) = q - Int.fract q := (Int.self_sub_fract q).symm
  have hlo := Int.fract_nonneg q
  have hhi := (Int.fract_lt_one q).le
  simp only [nearestEven]
  rw [abs_le]
  split_ifs <;> push_cast <;> rw [hfloor] <;> constructor <;> linarith

/-- The integer a value is less than one half away from is the nearest one. -/
theorem nearestEven_eq_of_abs_lt {q : ℚ} {n : ℤ} (h : |q - n| < 1 / 2) : nearestEven q = n := by
  have hround := abs_le.mp (abs_nearestEven_sub_le q)
  have hq := abs_lt.mp h
  have hlo : ((n - 1 : ℤ) : ℚ) < nearestEven q := by
    push_cast
    linarith
  have hhi : (nearestEven q : ℚ) < ((n + 1 : ℤ) : ℚ) := by
    push_cast
    linarith
  have hlo' := Int.cast_lt.mp hlo
  have hhi' := Int.cast_lt.mp hhi
  omega

theorem nearestEven_neg (q : ℚ) : nearestEven (-q) = -nearestEven q := by
  by_cases hfract : Int.fract q = 0
  · obtain ⟨n, rfl⟩ : ∃ n : ℤ, q = n := ⟨⌊q⌋, by rw [← Int.self_sub_fract q, hfract]; simp⟩
    rw [← Int.cast_neg, nearestEven_intCast, nearestEven_intCast]
  · have hneg := Int.fract_neg hfract
    have hfloor : ⌊-q⌋ = -⌊q⌋ - 1 := by
      have hcast : (⌊-q⌋ : ℚ) = -⌊q⌋ - 1 := by
        rw [← Int.self_sub_fract (-q), ← Int.self_sub_fract q, hneg]
        ring
      exact_mod_cast hcast
    simp only [nearestEven, hneg, hfloor]
    split_ifs <;> first | omega | (exfalso; linarith)

/-! ### Formats -/

/-- A binary floating-point format. -/
structure Format where
  precision : ℕ
  emin : ℤ

/-- Single precision. -/
def binary32 : Format := { precision := 24, emin := -149 }

/-- Double precision. -/
def binary64 : Format := { precision := 53, emin := -1074 }

namespace Format

variable (f : Format)

/-- The exponent of the last place of `q`. -/
def exponent (q : ℚ) : ℤ :=
  if q = 0 then f.emin else max (Int.log 2 |q| + 1 - f.precision) f.emin

/-- The value of the format nearest to `q`. -/
def round (q : ℚ) : ℚ := nearestEven (q / 2 ^ f.exponent q) * 2 ^ f.exponent q

variable {f} {q r : ℚ}

private theorem two_zpow_pos (e : ℤ) : (0 : ℚ) < 2 ^ e := zpow_pos two_pos e

/-- A rounded value stays below every multiple of its last place. -/
theorem round_le_of_le {k : ℤ} (h : q ≤ k * 2 ^ f.exponent q) :
    f.round q ≤ k * 2 ^ f.exponent q := by
  have hpos := two_zpow_pos (f.exponent q)
  have hk : nearestEven (q / 2 ^ f.exponent q) ≤ k := by
    rw [← nearestEven_intCast k]
    exact nearestEven_mono ((div_le_iff₀ hpos).mpr h)
  exact mul_le_mul_of_nonneg_right (by exact_mod_cast hk) hpos.le

/-- A rounded value stays above every multiple of its last place. -/
theorem le_round_of_le {k : ℤ} (h : k * 2 ^ f.exponent q ≤ q) :
    k * 2 ^ f.exponent q ≤ f.round q := by
  have hpos := two_zpow_pos (f.exponent q)
  have hk : k ≤ nearestEven (q / 2 ^ f.exponent q) := by
    rw [← nearestEven_intCast k]
    exact nearestEven_mono ((le_div_iff₀ hpos).mpr h)
  exact mul_le_mul_of_nonneg_right (by exact_mod_cast hk) hpos.le

/-- A multiple of a power of two not below the last place is a multiple of the last place. -/
theorem exists_eq_mul_zpow (m : ℤ) {e e' : ℤ} (he : e' ≤ e) :
    ∃ k : ℤ, (m : ℚ) * 2 ^ e = k * 2 ^ e' := by
  obtain ⟨n, hn⟩ := Int.eq_ofNat_of_zero_le (sub_nonneg.mpr he)
  refine ⟨m * 2 ^ n, ?_⟩
  have hsplit : e = n + e' := by omega
  rw [hsplit, zpow_add₀ two_ne_zero, zpow_natCast]
  push_cast
  ring

theorem emin_le_exponent (q : ℚ) : f.emin ≤ f.exponent q := by
  rw [exponent]
  split_ifs
  · exact le_rfl
  · exact le_max_right _ _

/-- The last place of a value of the format is not above the one it is written with. -/
theorem exponent_le {m e : ℤ} (hm : |m| < 2 ^ f.precision) (he : f.emin ≤ e) :
    f.exponent (m * 2 ^ e) ≤ e := by
  rw [exponent]
  split_ifs with h0
  · exact he
  have hpos : 0 < |(m : ℚ) * 2 ^ e| := abs_pos.mpr h0
  have hlt : |(m : ℚ) * 2 ^ e| < (2 : ℕ) ^ (f.precision + e : ℤ) := by
    rw [abs_mul, abs_of_pos (two_zpow_pos e), Nat.cast_ofNat, zpow_add₀ two_ne_zero, zpow_natCast]
    exact mul_lt_mul_of_pos_right (by exact_mod_cast hm) (two_zpow_pos e)
  have hlog := (Int.lt_zpow_iff_log_lt Nat.one_lt_two hpos).mp hlt
  exact max_le (by omega) he

/-- **Exactness.** The values of the format are their own rounding. -/
theorem round_eq_self {m e : ℤ} (hm : |m| < 2 ^ f.precision) (he : f.emin ≤ e) :
    f.round (m * 2 ^ e) = m * 2 ^ e := by
  obtain ⟨k, hk⟩ := exists_eq_mul_zpow m (exponent_le hm he)
  have hle := round_le_of_le hk.le
  have hge := le_round_of_le hk.ge
  rw [← hk] at hle hge
  exact le_antisymm hle hge

/-- An integer that fits in the mantissa is its own rounding. -/
theorem round_intCast {m : ℤ} (hm : |m| < 2 ^ f.precision) (he : f.emin ≤ 0) :
    f.round m = m := by
  simpa using round_eq_self (e := 0) hm he

/-- Of two values with different last places, a multiple of both last places parts the
magnitudes. -/
private theorem abs_lt_zpow_le_abs (hp : 0 < f.precision) (h : f.exponent q < f.exponent r) :
    ∃ e, f.exponent r ≤ e ∧ |q| < 2 ^ e ∧ 2 ^ e ≤ |r| := by
  have hr : r ≠ 0 ∧ f.exponent r = Int.log 2 |r| + 1 - f.precision := by
    have hmin : f.emin < f.exponent r := (emin_le_exponent q).trans_lt h
    simp only [exponent] at hmin ⊢
    split_ifs at hmin ⊢ with hr0
    · exact absurd hmin (lt_irrefl _)
    · exact ⟨hr0, by omega⟩
  refine ⟨Int.log 2 |r|, by omega, ?_, ?_⟩
  · rcases eq_or_ne q 0 with rfl | hq0
    · rw [abs_zero]
      exact two_zpow_pos _
    · have hq : Int.log 2 |q| + 1 ≤ Int.log 2 |r| := by
        rw [hr.2, exponent, if_neg hq0, max_lt_iff] at h
        omega
      calc |q| < 2 ^ (Int.log 2 |q| + 1) := by
            exact_mod_cast Int.lt_zpow_succ_log_self Nat.one_lt_two |q|
        _ ≤ 2 ^ Int.log 2 |r| := zpow_le_zpow_right₀ one_le_two hq
  · exact_mod_cast Int.zpow_log_le_self Nat.one_lt_two (abs_pos.mpr hr.1)

/-- **Monotonicity.** -/
theorem round_mono (hp : 0 < f.precision) (h : q ≤ r) : f.round q ≤ f.round r := by
  rcases lt_trichotomy (f.exponent q) (f.exponent r) with hlt | heq | hgt
  · -- The upper value is positive, and a power of two lies between the two.
    obtain ⟨e, he, hq, hr⟩ := abs_lt_zpow_le_abs hp hlt
    have hr0 : 2 ^ e ≤ r := by
      rcases le_total 0 r with hr0 | hr0
      · rwa [abs_of_nonneg hr0] at hr
      · rw [abs_of_nonpos hr0] at hr
        have := neg_le_abs q
        linarith
    obtain ⟨k, hk⟩ := exists_eq_mul_zpow 1 (hlt.le.trans he)
    obtain ⟨l, hl⟩ := exists_eq_mul_zpow 1 he
    rw [Int.cast_one, one_mul] at hk hl
    calc f.round q ≤ k * 2 ^ f.exponent q :=
          round_le_of_le (hk ▸ (le_abs_self q).trans hq.le)
      _ = l * 2 ^ f.exponent r := hk.symm.trans hl
      _ ≤ f.round r := le_round_of_le (hl ▸ hr0)
  · have hpos := two_zpow_pos (f.exponent r)
    rw [round, round, heq]
    refine mul_le_mul_of_nonneg_right ?_ hpos.le
    exact_mod_cast nearestEven_mono (div_le_div_of_nonneg_right h hpos.le)
  · -- The lower value is negative, and the opposite of a power of two lies between the two.
    obtain ⟨e, he, hr, hq⟩ := abs_lt_zpow_le_abs hp hgt
    have hq0 : q ≤ -2 ^ e := by
      rcases le_total 0 q with hq0 | hq0
      · rw [abs_of_nonneg hq0] at hq
        have := le_abs_self r
        linarith
      · rw [abs_of_nonpos hq0] at hq
        linarith
    have hr0 : -2 ^ e ≤ r := by
      have := neg_abs_le r
      linarith
    obtain ⟨k, hk⟩ := exists_eq_mul_zpow (-1) he
    obtain ⟨l, hl⟩ := exists_eq_mul_zpow (-1) (hgt.le.trans he)
    rw [Int.cast_neg, Int.cast_one, neg_one_mul] at hk hl
    calc f.round q ≤ k * 2 ^ f.exponent q := round_le_of_le (hk ▸ hq0)
      _ = l * 2 ^ f.exponent r := hk.symm.trans hl
      _ ≤ f.round r := le_round_of_le (hl ▸ hr0)

/-- An integer of the format above a value is above its rounding. -/
theorem round_le_intCast {n : ℤ} (hp : 0 < f.precision) (he : f.emin ≤ 0)
    (hn : |n| < 2 ^ f.precision) (hq : q ≤ n) : f.round q ≤ n := by
  rw [← round_intCast hn he]
  exact round_mono hp hq

/-- An integer of the format below a value is below its rounding. -/
theorem intCast_le_round {n : ℤ} (hp : 0 < f.precision) (he : f.emin ≤ 0)
    (hn : |n| < 2 ^ f.precision) (hq : n ≤ q) : n ≤ f.round q := by
  rw [← round_intCast hn he]
  exact round_mono hp hq

/-- Two values that an integer and its successor part are rounded apart. -/
theorem round_lt_round {n : ℤ} (hp : 0 < f.precision) (he : f.emin ≤ 0)
    (hn : |n| < 2 ^ f.precision) (hn1 : |n + 1| < 2 ^ f.precision) (hq : q ≤ n)
    (hr : n + 1 ≤ r) : f.round q < f.round r := by
  calc f.round q ≤ n := round_le_intCast hp he hn hq
    _ < (n + 1 : ℤ) := by exact_mod_cast n.lt_succ
    _ ≤ f.round r := intCast_le_round hp he hn1 (by exact_mod_cast hr)

/-! ### Errors -/

/-- A rounded value is no more than half of the last place away. -/
theorem abs_round_sub_le (q : ℚ) : |f.round q - q| ≤ 2 ^ f.exponent q / 2 := by
  have hpos := two_zpow_pos (f.exponent q)
  have hscaled := abs_nearestEven_sub_le (q / 2 ^ f.exponent q)
  have heq : f.round q - q
      = (nearestEven (q / 2 ^ f.exponent q) - q / 2 ^ f.exponent q) * 2 ^ f.exponent q := by
    rw [sub_mul, div_mul_cancel₀ _ hpos.ne']
    rfl
  rw [heq, abs_mul, abs_of_pos hpos]
  calc _ ≤ 1 / 2 * (2 : ℚ) ^ f.exponent q := mul_le_mul_of_nonneg_right hscaled hpos.le
    _ = _ := by ring

/-- The last place of a value below a power of two. -/
theorem exponent_le_of_abs_lt {k : ℤ} (h : |q| < 2 ^ k) (he : f.emin ≤ k - f.precision) :
    f.exponent q ≤ k - f.precision := by
  rw [exponent]
  split_ifs with h0
  · exact he
  have hlog := (Int.lt_zpow_iff_log_lt Nat.one_lt_two (abs_pos.mpr h0)).mp (by exact_mod_cast h)
  exact max_le (by omega) he

theorem abs_round_sub_le_of_abs_lt {k : ℤ} (h : |q| < 2 ^ k) (he : f.emin ≤ k - f.precision) :
    |f.round q - q| ≤ 2 ^ (k - f.precision) / 2 := by
  have hexponent := exponent_le_of_abs_lt h he
  have hle : (2 : ℚ) ^ f.exponent q ≤ 2 ^ (k - f.precision) :=
    zpow_le_zpow_right₀ one_le_two hexponent
  have hround := abs_round_sub_le (f := f) q
  linarith

@[simp] theorem exponent_neg (q : ℚ) : f.exponent (-q) = f.exponent q := by
  simp only [exponent, neg_eq_zero, abs_neg]

theorem round_neg (q : ℚ) : f.round (-q) = -f.round q := by
  rw [round, round, exponent_neg, neg_div, nearestEven_neg]
  push_cast
  ring

theorem round_nonneg (hp : 0 < f.precision) (he : f.emin ≤ 0) (hq : 0 ≤ q) : 0 ≤ f.round q := by
  have hle := intCast_le_round (n := 0) hp he (by positivity) (by exact_mod_cast hq)
  exact_mod_cast hle

theorem abs_round_eq (hp : 0 < f.precision) (he : f.emin ≤ 0) (q : ℚ) :
    |f.round q| = f.round |q| := by
  rcases le_total 0 q with hq | hq
  · rw [abs_of_nonneg hq, abs_of_nonneg (round_nonneg hp he hq)]
  · have hneg := round_nonneg hp he (neg_nonneg.mpr hq)
    rw [abs_of_nonpos hq, round_neg, abs_of_nonpos (by rwa [round_neg, neg_nonneg] at hneg)]

/-- A power of two is its own rounding. -/
theorem round_zpow {k : ℤ} (hp : 0 < f.precision) (hk : f.emin ≤ k) :
    f.round (2 ^ k) = 2 ^ k := by
  have hone : |(1 : ℤ)| < 2 ^ f.precision := by
    rw [abs_one]
    exact one_lt_pow₀ one_lt_two hp.ne'
  simpa using round_eq_self (f := f) hone hk

/-- A rounded value that is not below a power of two is a multiple of the last place that the values
above that power have. -/
theorem exists_round_eq_mul_zpow {k : ℤ} (hp : 0 < f.precision) (he : f.emin ≤ 0)
    (hk : f.emin ≤ k) (h : 2 ^ k ≤ |f.round q|) :
    ∃ m : ℤ, f.round q = m * 2 ^ (k + 1 - f.precision : ℤ) := by
  by_cases hq : 2 ^ k ≤ |q|
  · have hpos : 0 < |q| := (two_zpow_pos k).trans_le hq
    have hlog := (Int.zpow_le_iff_le_log Nat.one_lt_two hpos).mp (by exact_mod_cast hq)
    refine exists_eq_mul_zpow _ ?_
    rw [exponent, if_neg (abs_pos.mp hpos)]
    omega
  · -- then it is that power
    have hle := round_mono hp (not_le.mp hq).le
    rw [← abs_round_eq hp he, round_zpow hp hk] at hle
    have heq : |f.round q| = 2 ^ k := le_antisymm hle h
    rcases abs_eq (two_zpow_pos k).le |>.mp heq with hround | hround
    · obtain ⟨m, hm⟩ := exists_eq_mul_zpow 1 (by omega : k + 1 - (f.precision : ℤ) ≤ k)
      exact ⟨m, by rw [hround, ← hm]; push_cast; ring⟩
    · obtain ⟨m, hm⟩ := exists_eq_mul_zpow (-1) (by omega : k + 1 - (f.precision : ℤ) ≤ k)
      exact ⟨m, by rw [hround, ← hm]; push_cast; ring⟩

/-- A value of the format that is no power of two is the rounding of what is less than half of its
last place away. -/
theorem round_eq_of_abs_sub_lt {m e : ℤ} (hlo : 2 ^ (f.precision - 1) < m)
    (hhi : m < 2 ^ f.precision) (hp : 0 < f.precision) (he : f.emin ≤ e)
    (h : |q - m * 2 ^ e| < 2 ^ e / 2) : f.round q = m * 2 ^ e := by
  have hpos := two_zpow_pos e
  obtain ⟨p, hp'⟩ : ∃ p, f.precision = p + 1 := ⟨f.precision - 1, by omega⟩
  have hnear := abs_lt.mp h
  have hm1 : ((2 : ℚ) ^ p + 1) ≤ m := by
    have hint : (2 : ℤ) ^ p + 1 ≤ m := by
      rw [hp'] at hlo
      exact hlo
    exact_mod_cast hint
  have hm2 : (m : ℚ) + 1 ≤ 2 ^ (p + 1) := by
    have hint : m + 1 ≤ (2 : ℤ) ^ (p + 1) := by
      rw [hp'] at hhi
      exact hhi
    exact_mod_cast hint
  have hqlo : (2 : ℚ) ^ (p + e : ℤ) < q := by
    rw [zpow_add₀ two_ne_zero, zpow_natCast]
    nlinarith [hnear.1]
  have hqhi : q < (2 : ℚ) ^ (p + 1 + e : ℤ) := by
    rw [zpow_add₀ two_ne_zero, zpow_add_one₀ two_ne_zero, zpow_natCast]
    rw [pow_succ] at hm2
    nlinarith [hnear.2]
  have hqpos : 0 < q := (two_zpow_pos _).trans hqlo
  have habs : |q| = q := abs_of_pos hqpos
  have hexponent : f.exponent q = e := by
    rw [exponent, if_neg hqpos.ne', habs]
    have hlog1 : Int.log 2 q < p + 1 + e :=
      (Int.lt_zpow_iff_log_lt Nat.one_lt_two hqpos).mp (by exact_mod_cast hqhi)
    have hlog2 : (p + e : ℤ) ≤ Int.log 2 q :=
      (Int.zpow_le_iff_le_log Nat.one_lt_two hqpos).mp (by exact_mod_cast hqlo.le)
    rw [hp']
    push_cast
    omega
  have hround : nearestEven (q / 2 ^ e) = m := by
    refine nearestEven_eq_of_abs_lt ?_
    have hdiv : q / 2 ^ e - m = (q - m * 2 ^ e) / 2 ^ e := by
      rw [sub_div, mul_div_cancel_right₀ _ hpos.ne']
    rw [hdiv, abs_div, abs_of_pos hpos, div_lt_iff₀ hpos]
    linarith
  rw [round, hexponent, hround]

end Format

end Rounding
