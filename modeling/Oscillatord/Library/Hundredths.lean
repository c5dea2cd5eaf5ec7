import Oscillatord.Library.FloatTrip
import Mathlib.Data.Nat.Factorization.Basic
import Mathlib.RingTheory.Coprime.Lemmas

/-!
# Numbers of two places

A number that is near enough to a number of hundredths is printed as that number by `%.2f`
(`fixedText_two`), and the text determines the hundredths (`hundredthsText_injective`). A number of
hundredths that is not too large is near enough once it is rounded
(`Format.abs_round_sub_le_of_abs_lt`).
-/

namespace CText

open Rounding

/-- The text of a number of hundredths. -/
def hundredthsText (k : ℤ) : List UInt8 := signText (decide (k < 0)) ++ fixedDigits 2 k.natAbs

variable {k : ℤ} {x : ℚ}

/-- **What `%.2f` prints** of a number that is near a number of hundredths. -/
theorem fixedText_two (h : |x - k / 100| < 1 / 200) (hsign : x < 0 ↔ k < 0) :
    fixedText 2 (.finite (decide (x < 0)) |x|) = hundredthsText k := by
  have hnear : |(|x| * 10 ^ 2 : ℚ) - (k.natAbs : ℤ)| < 1 / 2 := by
    have hscaled : |x * 100 - k| < 1 / 2 := by
      rw [abs_lt] at h ⊢
      constructor <;> linarith
    have habs : (|x| * 10 ^ 2 : ℚ) - (k.natAbs : ℤ) = |x * 100| - |(k : ℚ)| := by
      rw [abs_mul, Int.natCast_natAbs, Int.cast_abs]
      norm_num
    rw [habs]
    exact (abs_abs_sub_abs_le _ _).trans_lt hscaled
  rw [fixedText, hundredthsText, nearestEven_eq_of_abs_lt hnear, Int.toNat_natCast,
    decide_eq_decide.mpr hsign]

/-- A number close to hundredths has their sign, when it is `0` where they are. -/
theorem neg_iff_of_abs_sub_lt (h : |x - k / 100| < 1 / 200) (hzero : k = 0 → x = 0) :
    x < 0 ↔ k < 0 := by
  have hnear := abs_lt.mp h
  rcases lt_trichotomy k 0 with hneg | hk | hpos
  · refine iff_of_true ?_ hneg
    have hone : (k : ℚ) ≤ -1 := by exact_mod_cast Int.le_sub_one_of_lt hneg
    linarith
  · rw [hzero hk, hk]
    exact iff_of_false (lt_irrefl 0) (lt_irrefl 0)
  · refine iff_of_false ?_ hpos.not_gt
    have hone : (1 : ℚ) ≤ k := by exact_mod_cast hpos
    linarith

/-- Hundredths that are scaled by their places are a whole number. -/
theorem nearestEven_hundredths (n : ℕ) : nearestEven ((n : ℚ) / 100 * 10 ^ 2) = n := by
  have hscaled : ((n : ℚ) / 100 * 10 ^ 2) = ((n : ℤ) : ℚ) := by
    rw [Int.cast_natCast]
    ring
  rw [hscaled, nearestEven_intCast]

theorem hundredthsText_eq (k : ℤ) :
    hundredthsText k = fixedText 2 (.finite (decide (k < 0)) (k.natAbs / 100)) := by
  rw [fixedText, nearestEven_hundredths, Int.toNat_natCast, hundredthsText]

/-- What is read of the text of hundredths. -/
theorem floatAt_hundredthsText_append (k : ℤ) {rest : List UInt8} (hrest : EndsNumber rest) :
    floatAt (hundredthsText k ++ rest) = some (.finite (decide (k < 0)) (k.natAbs / 100)) := by
  rw [hundredthsText_eq, floatAt_fixedText_append 2 _ _ hrest, nearestEven_hundredths,
    Int.toNat_natCast]
  norm_num

theorem floatAt_hundredthsText (k : ℤ) :
    floatAt (hundredthsText k) = some (.finite (decide (k < 0)) (k.natAbs / 100)) := by
  have hnone : EndsNumber [] := by simp [EndsNumber]
  simpa using floatAt_hundredthsText_append k hnone

/-- **The text of hundredths is that of no other number.** -/
theorem hundredthsText_injective : Function.Injective hundredthsText := by
  intro k l h
  have hfloat := congrArg floatAt h
  rw [floatAt_hundredthsText, floatAt_hundredthsText, Option.some.injEq,
    FloatValue.finite.injEq, decide_eq_decide] at hfloat
  obtain ⟨hsign, hvalue⟩ := hfloat
  have habs : k.natAbs = l.natAbs := by
    have hcast : (k.natAbs : ℚ) = l.natAbs := by linarith
    exact_mod_cast hcast
  omega

/-- The text of hundredths has digits, a point and a sign. -/
theorem notMem_hundredthsText {c : UInt8} (hc : ¬ IsDecimal c) (hpoint : c ≠ 46) (hminus : c ≠ 45)
    (k : ℤ) : c ∉ hundredthsText k := by
  rw [hundredthsText, fixedDigits, List.mem_append, List.mem_append, List.mem_cons, not_or, not_or,
    not_or]
  refine ⟨fun h => ?_, fun h => hc (isDecimal_of_mem_decimal h), hpoint,
    fun h => hc (isDecimal_of_mem_lastDigits h)⟩
  rw [signText] at h
  split_ifs at h
  · exact hminus (List.mem_singleton.mp h)
  · cases h

theorem length_hundredthsText_le {digits : ℕ} (hdigits : 0 < digits)
    (hk : k.natAbs < 100 * 10 ^ digits) : (hundredthsText k).length ≤ digits + 4 := by
  have hsign := length_signText_le (decide (k < 0))
  have hwhole : k.natAbs / 10 ^ 2 < 10 ^ digits := by
    rw [Nat.div_lt_iff_lt_mul (by decide)]
    omega
  have hdecimal := length_decimal_le hdigits hwhole
  simp only [hundredthsText, fixedDigits, List.length_append, List.length_cons, length_lastDigits]
  omega

/-! ### Hundredths that a format holds -/

/-- A value of a format is a whole number of some parts of one. -/
theorem exists_mul_two_pow_eq {f : Format} {q : ℚ} (h : f.round q = q) :
    ∃ (j : ℕ) (m : ℤ), q * 2 ^ j = m := by
  refine ⟨(-f.exponent q).toNat, nearestEven (q / 2 ^ f.exponent q) * 2 ^ (f.exponent q).toNat, ?_⟩
  have hpow : (2 : ℚ) ^ f.exponent q * 2 ^ (-f.exponent q).toNat = 2 ^ (f.exponent q).toNat := by
    rw [← zpow_natCast, ← zpow_natCast, ← zpow_add₀ two_ne_zero]
    congr 1
    omega
  push_cast
  rw [← hpow, ← mul_assoc]
  congr 1
  exact h.symm

/-- Hundredths that a format holds are quarters. -/
theorem exists_mul_four_eq {f : Format} {q : ℚ} (h : f.round q = q) (hk : q * 100 = k) :
    ∃ a : ℤ, q * 4 = a := by
  obtain ⟨j, m, hm⟩ := exists_mul_two_pow_eq h
  have heq : m * 100 = k * 2 ^ j := by
    have hcast : (m : ℚ) * 100 = k * 2 ^ j := by
      rw [← hm, ← hk]
      ring
    exact_mod_cast hcast
  have hdvd : (25 : ℤ) ∣ k := by
    have hcoprime : IsCoprime (25 : ℤ) 2 := ⟨1, -12, by norm_num⟩
    have hmul : (25 : ℤ) ∣ k * 2 ^ j := ⟨4 * m, by rw [← heq]; ring⟩
    exact hcoprime.pow_right.dvd_of_dvd_mul_right hmul
  obtain ⟨a, ha⟩ := hdvd
  refine ⟨a, ?_⟩
  have hcast : (k : ℚ) = 25 * a := by exact_mod_cast ha
  linarith

/-- A number of hundredths that goes whole into one hundred, by a number that a format holds. -/
theorem exists_mul_two_pow_le {f : Format} {q : ℚ} {step : ℕ} (h : f.round q = q)
    (hstep : q * step = 100) : ∃ n a : ℕ, n ≤ 100 ∧ 2 ^ a ≤ step ∧ q * 2 ^ a = n := by
  have hpos : 0 < step := by
    rcases Nat.eq_zero_or_pos step with rfl | hpos
    · norm_num at hstep
    · exact hpos
  obtain ⟨a, b, hodd, rfl⟩ := Nat.exists_eq_two_pow_mul_odd hpos.ne'
  obtain ⟨j, m, hm⟩ := exists_mul_two_pow_eq h
  have hb : 0 < b := Nat.pos_of_mul_pos_left hpos
  have heq : (m * 2 ^ a) * b = 100 * 2 ^ j := by
    have hcast : ((m : ℚ) * 2 ^ a) * b = 100 * 2 ^ j := by
      rw [← hm, ← hstep]
      push_cast
      ring
    exact_mod_cast hcast
  have hdvd : b ∣ 100 := by
    have hint : (b : ℤ) ∣ 100 * 2 ^ j := ⟨m * 2 ^ a, by rw [← heq]; ring⟩
    have hnat : b ∣ 100 * 2 ^ j := by exact_mod_cast hint
    exact (Nat.Coprime.pow_right j (Nat.coprime_two_right.mpr hodd)).dvd_of_dvd_mul_right hnat
  obtain ⟨n, hn⟩ := hdvd
  refine ⟨n, a, by nlinarith, Nat.le_mul_of_pos_right _ hb, ?_⟩
  have hcast : (100 : ℚ) = b * n := by exact_mod_cast hn
  have hbq : (b : ℚ) ≠ 0 := by exact_mod_cast hb.ne'
  refine mul_right_cancel₀ hbq ?_
  rw [mul_comm (n : ℚ), ← hcast, ← hstep]
  push_cast
  ring

end CText
