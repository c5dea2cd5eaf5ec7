import Oscillatord.Library.FloatText

/-!
# Single precision through a text

A number in single precision is printed with six places, read as a `long double` and stored again,
by way of a `double`. What comes back has the same six places (`nearestEven_sixPlaces_trip`): a last
place that is above the sixth decimal one is far enough from the next value for the printed one to
lead back to it, and one that is below it moves the printed value by less than half of that place.

`floatAt_fixedText` is that the printed value is the one read, and `ofBinary32_toBinary32` that a
number that fits is stored as its rounding.
-/

namespace Rounding

open Format

/-- The extended format of the x87, which a `long double` has. -/
def extended : Format := { precision := 64, emin := -16445 }

/-- A number that was read as a `long double` and stored as a `float`, by way of a `double`. -/
def throughDouble (q : ℚ) : ℚ := binary32.round (binary64.round (extended.round q))

/-- The value that six places of `x` show. -/
def sixPlaces (x : ℚ) : ℚ := nearestEven (x * 10 ^ 6) / 10 ^ 6

theorem throughDouble_eq_self {m e : ℤ} (hm : |m| < 2 ^ 24) (he : -149 ≤ e) :
    throughDouble (m * 2 ^ e) = m * 2 ^ e := by
  have hlt : ∀ p : ℕ, 24 ≤ p → |m| < 2 ^ p := fun p hp =>
    hm.trans_le (pow_le_pow_right₀ one_le_two hp)
  rw [throughDouble, round_eq_self (hlt _ (by decide)) (le_trans (by decide) he),
    round_eq_self (hlt _ (by decide)) (le_trans (by decide) he), round_eq_self hm he]

theorem abs_sixPlaces_sub_le (x : ℚ) : |sixPlaces x - x| ≤ 1 / (2 * 10 ^ 6) := by
  have hround := abs_nearestEven_sub_le (x * 10 ^ 6)
  have heq : sixPlaces x - x = (nearestEven (x * 10 ^ 6) - x * 10 ^ 6) / 10 ^ 6 := by
    rw [sixPlaces]
    ring
  rw [heq, abs_div, abs_of_pos (by norm_num : (0 : ℚ) < 10 ^ 6), div_le_iff₀ (by norm_num)]
  calc _ ≤ (1 / 2 : ℚ) := hround
    _ = _ := by norm_num

/-- The two wider formats move a value below a power of two by little. -/
theorem abs_binary64_extended_sub_le {q : ℚ} {k : ℤ} (hq : |q| < 2 ^ k) (hk : -1000 ≤ k) :
    |binary64.round (extended.round q) - q| ≤ 2 ^ (k - 52) := by
  have h80 := abs_round_sub_le_of_abs_lt (f := extended) hq (by simp only [extended]; omega)
  have hpow : (2 : ℚ) ^ (k - 64) ≤ 2 ^ k := zpow_le_zpow_right₀ one_le_two (by omega)
  have hpos : (0 : ℚ) < 2 ^ k := zpow_pos two_pos k
  have hdouble : (2 : ℚ) ^ (k + 1) = 2 * 2 ^ k := by
    rw [zpow_add_one₀ two_ne_zero, mul_comm]
  have hbound : |extended.round q| < 2 ^ (k + 1) := by
    have htri := abs_sub_abs_le_abs_sub (extended.round q) q
    simp only [extended, Nat.cast_ofNat] at h80 htri ⊢
    linarith
  have h64 := abs_round_sub_le_of_abs_lt (f := binary64) hbound (by simp only [binary64]; omega)
  have hle : (2 : ℚ) ^ (k - 64) ≤ 2 ^ (k - 52) := zpow_le_zpow_right₀ one_le_two (by omega)
  have hexp : k + 1 - (binary64.precision : ℤ) = k - 52 := by
    simp only [binary64]
    omega
  have htri := abs_sub_le (binary64.round (extended.round q)) (extended.round q) q
  rw [hexp] at h64
  simp only [extended, Nat.cast_ofNat] at h80 h64 htri ⊢
  linarith

/-- A value of single precision with six places that are exact. -/
theorem throughDouble_sixPlaces_of_exact {m e n : ℤ} (hm : |m| < 2 ^ 24) (he : -149 ≤ e)
    (hn : (m : ℚ) * 2 ^ e * 10 ^ 6 = n) :
    throughDouble (sixPlaces (m * 2 ^ e)) = m * 2 ^ e := by
  have hsix : sixPlaces (m * 2 ^ e) = m * 2 ^ e := by
    rw [sixPlaces, hn, nearestEven_intCast, ← hn]
    exact mul_div_cancel_right₀ _ (by norm_num)
  rw [hsix, throughDouble_eq_self hm he]

/-- A value whose last place is above the sixth decimal one comes back. -/
theorem throughDouble_sixPlaces_of_le {m e : ℤ} (hlo : 2 ^ 23 < m) (hhi : m < 2 ^ 24)
    (he : -19 ≤ e) (he' : e < -6) : throughDouble (sixPlaces (m * 2 ^ e)) = m * 2 ^ e := by
  have hsix := abs_sixPlaces_sub_le (m * 2 ^ e)
  have hpos : (0 : ℚ) < 2 ^ e := zpow_pos two_pos e
  have hplace : (2 : ℚ) ^ (-19 : ℤ) ≤ 2 ^ e := zpow_le_zpow_right₀ one_le_two he
  have hplace' : (2 : ℚ) ^ e ≤ 2 ^ (-7 : ℤ) := zpow_le_zpow_right₀ one_le_two (by omega)
  have hm : (m : ℚ) < 2 ^ 24 := by exact_mod_cast hhi
  have hm0 : (0 : ℚ) < m := by exact_mod_cast lt_trans (by norm_num) hlo
  have hvalue : (m : ℚ) * 2 ^ e ≤ 2 ^ 24 * 2 ^ (-7 : ℤ) :=
    mul_le_mul hm.le hplace' hpos.le (by norm_num)
  have hvalue0 : 0 < (m : ℚ) * 2 ^ e := mul_pos hm0 hpos
  have hbound : |sixPlaces (m * 2 ^ e)| < 2 ^ (18 : ℤ) := by
    have hnear := abs_le.mp hsix
    norm_num at hvalue hnear ⊢
    rw [abs_lt]
    constructor <;> linarith
  have hwide := abs_binary64_extended_sub_le hbound (by norm_num)
  refine round_eq_of_abs_sub_lt hlo hhi (by decide) (by simp only [binary32]; omega) ?_
  have htri := abs_sub_le (binary64.round (extended.round (sixPlaces (m * 2 ^ e))))
    (sixPlaces (m * 2 ^ e)) (m * 2 ^ e)
  norm_num at hwide hsix hplace htri ⊢
  linarith

/-- A value whose last place is below the sixth decimal one comes back to six places. -/
theorem nearestEven_throughDouble_sixPlaces {x : ℚ} (hx : |x| ≤ 16 - 2 ^ (-20 : ℤ)) :
    nearestEven (throughDouble (sixPlaces x) * 10 ^ 6) = nearestEven (x * 10 ^ 6) := by
  have hsix := abs_sixPlaces_sub_le x
  -- the wider formats do not reach the next power of two
  have hnear : |sixPlaces x| ≤ 16 - 1 / 10 ^ 6 := by
    have hint : ∀ y : ℚ, y ≤ 16 - 2 ^ (-20 : ℤ) → nearestEven (y * 10 ^ 6) ≤ 15999999 := by
      intro y hy
      have hle : nearestEven (y * 10 ^ 6) ≤ nearestEven ((16 - 2 ^ (-20 : ℤ)) * 10 ^ 6) :=
        nearestEven_mono (mul_le_mul_of_nonneg_right hy (by norm_num))
      have heq : nearestEven ((16 - 2 ^ (-20 : ℤ)) * 10 ^ 6) = 15999999 :=
        nearestEven_eq_of_abs_lt (by rw [abs_lt]; constructor <;> norm_num)
      exact hle.trans_eq heq
    have hx' := abs_le.mp hx
    have hup := hint x hx'.2
    have hdown := hint (-x) (by linarith)
    rw [neg_mul, nearestEven_neg] at hdown
    rw [sixPlaces, abs_div, abs_of_pos (by norm_num : (0 : ℚ) < 10 ^ 6), div_le_iff₀ (by norm_num),
      abs_le]
    have hup' : (nearestEven (x * 10 ^ 6) : ℚ) ≤ 15999999 := by exact_mod_cast hup
    have hdown' : (-15999999 : ℚ) ≤ nearestEven (x * 10 ^ 6) := by
      exact_mod_cast neg_le.mp hdown
    constructor <;> norm_num at * <;> linarith
  have hwide := abs_binary64_extended_sub_le (q := sixPlaces x) (k := 4)
    (hnear.trans_lt (by norm_num)) (by norm_num)
  have hbound : |binary64.round (extended.round (sixPlaces x))| < 2 ^ (4 : ℤ) := by
    have htri := abs_sub_abs_le_abs_sub (binary64.round (extended.round (sixPlaces x)))
      (sixPlaces x)
    norm_num at hwide hnear htri ⊢
    linarith
  have h32 := abs_round_sub_le_of_abs_lt (f := binary32) hbound (by decide)
  have htri := abs_sub_le (throughDouble (sixPlaces x))
    (binary64.round (extended.round (sixPlaces x))) (sixPlaces x)
  refine nearestEven_eq_of_abs_lt ?_
  have hscaled : throughDouble (sixPlaces x) * 10 ^ 6 - nearestEven (x * 10 ^ 6)
      = (throughDouble (sixPlaces x) - sixPlaces x) * 10 ^ 6 := by
    have hback : sixPlaces x * 10 ^ 6 = nearestEven (x * 10 ^ 6) :=
      div_mul_cancel₀ _ (by norm_num)
    rw [sub_mul, hback]
  rw [hscaled, abs_mul, abs_of_pos (by norm_num : (0 : ℚ) < 10 ^ 6)]
  have h32' : |throughDouble (sixPlaces x) - binary64.round (extended.round (sixPlaces x))|
      ≤ 2 ^ (4 - 24 : ℤ) / 2 := h32
  norm_num at hwide h32' ⊢
  linarith

/-- **Six places of single precision.** A value of the format that was printed with six places and
read again has the same six places. -/
theorem nearestEven_sixPlaces_trip {m e : ℤ} (hm0 : 0 ≤ m) (hm : m < 2 ^ 24) (he : -149 ≤ e)
    (hnormal : e = -149 ∨ 2 ^ 23 ≤ m) :
    nearestEven (throughDouble (sixPlaces (m * 2 ^ e)) * 10 ^ 6)
      = nearestEven ((m : ℚ) * 2 ^ e * 10 ^ 6) := by
  have habs : |m| < 2 ^ 24 := by rwa [abs_of_nonneg hm0]
  have hback : throughDouble (sixPlaces (m * 2 ^ e)) = m * 2 ^ e →
      nearestEven (throughDouble (sixPlaces (m * 2 ^ e)) * 10 ^ 6)
        = nearestEven ((m : ℚ) * 2 ^ e * 10 ^ 6) := fun h => by rw [h]
  have hinteger : ∀ k : ℕ, (k : ℤ) = e + 6 →
      (m : ℚ) * 2 ^ e * 10 ^ 6 = (m * 2 ^ k * 5 ^ 6 : ℤ) := by
    intro k hk
    have hsplit : (2 : ℚ) ^ e * 2 ^ 6 = 2 ^ k := by
      rw [← zpow_natCast (2 : ℚ) k, hk, zpow_add₀ two_ne_zero]
      norm_num
    push_cast
    rw [← hsplit]
    ring
  by_cases hhigh : -6 ≤ e
  · obtain ⟨k, hk⟩ := Int.eq_ofNat_of_zero_le (by omega : 0 ≤ e + 6)
    exact hback (throughDouble_sixPlaces_of_exact habs he (hinteger k hk.symm))
  by_cases hlow : e ≤ -20
  · refine nearestEven_throughDouble_sixPlaces ?_
    have hpos : (0 : ℚ) < 2 ^ e := zpow_pos two_pos e
    have hplace : (2 : ℚ) ^ e ≤ 2 ^ (-20 : ℤ) := zpow_le_zpow_right₀ one_le_two hlow
    have hm1 : (m : ℚ) ≤ 2 ^ 24 - 1 := by exact_mod_cast Int.le_sub_one_of_lt hm
    have hm0' : (0 : ℚ) ≤ m := by exact_mod_cast hm0
    rw [abs_of_nonneg (mul_nonneg hm0' hpos.le)]
    calc (m : ℚ) * 2 ^ e ≤ (2 ^ 24 - 1) * 2 ^ (-20 : ℤ) :=
          mul_le_mul hm1 hplace hpos.le (by norm_num)
      _ = 16 - 2 ^ (-20 : ℤ) := by norm_num
  have hm23 : 2 ^ 23 ≤ m := hnormal.resolve_left (by omega)
  rcases hm23.eq_or_lt with rfl | hlt
  · -- a power of two that is an integer
    obtain ⟨k, hk⟩ := Int.eq_ofNat_of_zero_le (by omega : 0 ≤ 23 + e)
    refine hback (throughDouble_sixPlaces_of_exact habs he (n := 2 ^ k * 10 ^ 6) ?_)
    have hsplit : (8388608 : ℚ) * 2 ^ e = 2 ^ k := by
      rw [← zpow_natCast (2 : ℚ) k, ← hk, zpow_add₀ two_ne_zero]
      norm_num
    norm_num
    rw [hsplit]
  · exact hback (throughDouble_sixPlaces_of_le hlt hm (by omega) (by omega))

end Rounding

namespace CText

open Rounding

/-! ### Reading what was printed -/

/-- A number with a point is not one of the words. -/
theorem beginsWith_decimal {digits rest word : List UInt8} {w : UInt8}
    (hdigits : ∀ b ∈ digits, IsDecimal b) (hne : digits ≠ []) (hw : ¬ IsDecimal w) :
    beginsWith (w :: word) (digits ++ rest) = false := by
  obtain ⟨b, digits, rfl⟩ := List.exists_cons_of_ne_nil hne
  have hb := hdigits b List.mem_cons_self
  have hcase : ¬ (65 ≤ b ∧ b ≤ 90) := by
    have hnat := toNat_of_isDecimal hb
    rw [UInt8.le_iff_toNat_le, UInt8.le_iff_toNat_le]
    simp
    omega
  have hbw : b ≠ w := ne_of_isDecimal hb hw
  simp [beginsWith, hcase, hbw]

/-- Nor has it the prefix of base 16. -/
theorem beginsWith_hex {digits rest : List UInt8} (hdigits : ∀ b ∈ digits, IsDecimal b)
    (hne : digits ≠ []) : beginsWith [48, 120] (digits ++ 46 :: rest) = false := by
  obtain ⟨b, digits, rfl⟩ := List.exists_cons_of_ne_nil hne
  rcases digits with _ | ⟨c, digits⟩
  · simp [beginsWith]
  · have hc := hdigits c (by simp)
    have hnat := toNat_of_isDecimal hc
    have hcase : ¬ (65 ≤ c ∧ c ≤ 90) := by
      rw [UInt8.le_iff_toNat_le, UInt8.le_iff_toNat_le]
      simp
      omega
    have hx : c ≠ 120 := ne_of_isDecimal hc (by decide)
    simp [beginsWith, hcase, hx]

/-- What follows a printed number is no more of it. -/
def EndsNumber (rest : List UInt8) : Prop :=
  ∀ b ∈ rest.head?, isDigit 10 b = false ∧ b ≠ 101 ∧ b ≠ 69

theorem magnitudeAt_fixedDigits (k n : ℕ) {rest : List UInt8} (hrest : EndsNumber rest) :
    magnitudeAt 10 10 101 (fixedDigits k n ++ rest) = some ((n : ℚ) / 10 ^ k) := by
  have hwhole : ∀ b ∈ decimal (n / 10 ^ k), IsDecimal b := fun b hb => isDecimal_of_mem_decimal hb
  have hplaces : ∀ b ∈ lastDigits k n, IsDecimal b := fun b hb => isDecimal_of_mem_lastDigits hb
  obtain ⟨htake, hdrop⟩ := takeWhile_decimal (46 :: (lastDigits k n ++ rest)) hwhole
    (by simp; decide)
  obtain ⟨htake', hdrop'⟩ := takeWhile_decimal rest hplaces fun b hb => (hrest b hb).1
  have hne : decimal (n / 10 ^ k) ++ lastDigits k n ≠ [] := by simp [decimal_ne_nil]
  have hvalue : valueOf 10 (decimal (n / 10 ^ k) ++ lastDigits k n) = n := by
    rw [valueOf_append, valueOf_decimal, valueOf_lastDigits, length_lastDigits, mul_comm]
    exact Nat.div_add_mod n (10 ^ k)
  have hexponent : exponentAt 101 rest = 0 := by
    rw [exponentAt, if_neg]
    rintro (hhead | hhead)
    · exact (hrest _ hhead).2.1 rfl
    · exact (hrest _ hhead).2.2 rfl
  simp only [magnitudeAt, mantissaAt, fixedDigits, List.append_assoc, List.cons_append, htake,
    hdrop, List.head?_cons, if_true, List.tail_cons, htake', hdrop', if_neg hne, hvalue,
    length_lastDigits, Option.map_some, hexponent]
  simp

/-- **What is read of a printed number** is the number with the places that were printed. -/
theorem floatAt_fixedText_append (k : ℕ) (negative : Bool) (magnitude : ℚ) {rest : List UInt8}
    (hrest : EndsNumber rest) :
    floatAt (fixedText k (.finite negative magnitude) ++ rest)
      = some (.finite negative ((nearestEven (magnitude * 10 ^ k)).toNat / 10 ^ k)) := by
  set n := (nearestEven (magnitude * 10 ^ k)).toNat with hn
  have hdigits : ∀ b ∈ decimal (n / 10 ^ k), IsDecimal b := fun b hb => isDecimal_of_mem_decimal hb
  have hne := decimal_ne_nil (n / 10 ^ k)
  have hbody : fixedDigits k n ++ rest
      = decimal (n / 10 ^ k) ++ 46 :: (lastDigits k n ++ rest) := by
    rw [fixedDigits, List.append_assoc, List.cons_append]
  obtain ⟨hskip, hsign⟩ := dropWhile_isSpace_decimal hdigits hne (46 :: (lastDigits k n ++ rest))
  rw [← hbody] at hskip hsign
  have hsigned : takeSign ((fixedText k (.finite negative magnitude) ++ rest).dropWhile isSpace)
      = (negative, fixedDigits k n ++ rest) := by
    rw [fixedText, ← hn, List.append_assoc]
    cases negative
    · rw [signText, if_neg Bool.false_ne_true, List.nil_append, hskip, hsign]
    · rw [signText, if_pos rfl, List.singleton_append, List.dropWhile_cons_of_neg (by decide)]
      rfl
  have hinf : beginsWith [105, 110, 102] (fixedDigits k n ++ rest) = false := by
    rw [hbody]
    exact beginsWith_decimal hdigits hne (by decide)
  have hnan : beginsWith [110, 97, 110] (fixedDigits k n ++ rest) = false := by
    rw [hbody]
    exact beginsWith_decimal hdigits hne (by decide)
  have hhex : beginsWith [48, 120] (fixedDigits k n ++ rest) = false := by
    rw [hbody]
    exact beginsWith_hex hdigits hne
  simp only [floatAt, hsigned, hinf, hnan, hhex, Bool.false_eq_true, if_false,
    magnitudeAt_fixedDigits k n hrest]
  rfl

theorem floatAt_fixedText (k : ℕ) (negative : Bool) (magnitude : ℚ) :
    floatAt (fixedText k (.finite negative magnitude))
      = some (.finite negative ((nearestEven (magnitude * 10 ^ k)).toNat / 10 ^ k)) := by
  have hnone : EndsNumber [] := by simp [EndsNumber]
  simpa using floatAt_fixedText_append k negative magnitude hnone

/-! ### Reading a `double` -/

/-- The number as it is stored in a format, whose values are below a power of two. -/
def FloatValue.store (f : Format) (bits : ℕ) : FloatValue → FloatValue
  | .finite negative magnitude =>
    let stored := f.round magnitude
    if 2 ^ bits ≤ stored then .infinite negative else .finite negative stored
  | value => value

/-- `strtold`, before its value is stored: a text without a number is zero. The second part is
whether a range error is reported, which is one beyond the format, or one below the smallest normal
number that lost places. -/
def strtoldExtended (text : List UInt8) : FloatValue × Bool :=
  match floatAt text with
  | some (.finite negative magnitude) =>
    let rounded := extended.round magnitude
    if 2 ^ 16384 ≤ rounded then (.infinite negative, true)
    else (.finite negative rounded,
      decide (magnitude < 2 ^ (-16382 : ℤ) ∧ rounded ≠ magnitude))
  | some value => (value, false)
  | none => (.finite false 0, false)

/-- `strtold`, and its value as a `double`. -/
def strtold (text : List UInt8) : FloatValue × Bool :=
  ((strtoldExtended text).1.store binary64 1024, (strtoldExtended text).2)

/-- A number of six places is far from both ends of the formats. -/
theorem strtold_fixedText {negative : Bool} {magnitude : ℚ} (hnonneg : 0 ≤ magnitude)
    (hbound : magnitude < 2 ^ 128) :
    strtold (fixedText 6 (.finite negative magnitude))
      = (.finite negative (binary64.round (extended.round (sixPlaces magnitude))), false) := by
  have hplaces : 0 ≤ nearestEven (magnitude * 10 ^ 6) := by
    have hmono := nearestEven_mono (mul_nonneg hnonneg (by positivity : (0 : ℚ) ≤ 10 ^ 6))
    rwa [← Int.cast_zero, nearestEven_intCast] at hmono
  obtain ⟨n, hn⟩ := Int.eq_ofNat_of_zero_le hplaces
  have hsix : ((nearestEven (magnitude * 10 ^ 6)).toNat / 10 ^ 6 : ℚ) = sixPlaces magnitude := by
    rw [sixPlaces, hn]
    rfl
  have hlt : |sixPlaces magnitude| < 2 ^ (129 : ℤ) := by
    have hnear := abs_le.mp (abs_sixPlaces_sub_le magnitude)
    norm_num at hbound hnear ⊢
    rw [abs_lt]
    constructor <;> linarith
  have hrounded : extended.round (sixPlaces magnitude) < 2 ^ 130 := by
    have hnear := abs_le.mp (Format.abs_round_sub_le_of_abs_lt (f := extended) hlt (by decide))
    have hle := (abs_lt.mp hlt).2
    norm_num [extended] at hnear hle ⊢
    linarith
  have hdouble : binary64.round (extended.round (sixPlaces magnitude)) < 2 ^ 130 := by
    have hnear := abs_le.mp (abs_binary64_extended_sub_le hlt (by decide))
    have hle := (abs_lt.mp hlt).2
    norm_num at hnear hle ⊢
    linarith
  have hexact : sixPlaces magnitude < 2 ^ (-16382 : ℤ) →
      extended.round (sixPlaces magnitude) = sixPlaces magnitude := by
    intro hsmall
    have htiny : sixPlaces magnitude < 2 ^ (-20 : ℤ) :=
      hsmall.trans_le (zpow_le_zpow_right₀ one_le_two (by decide))
    have hzero : n = 0 := by
      rw [sixPlaces, hn, div_lt_iff₀ (by positivity)] at htiny
      have hone : (n : ℚ) < 1 := lt_trans htiny (by norm_num)
      exact Nat.lt_one_iff.mp (by exact_mod_cast hone)
    have hround : nearestEven 0 = 0 := by exact_mod_cast nearestEven_intCast 0
    rw [sixPlaces, hn, hzero]
    simp [Format.round, hround]
  have hextended : strtoldExtended (fixedText 6 (.finite negative magnitude))
      = (.finite negative (extended.round (sixPlaces magnitude)), false) := by
    rw [strtoldExtended, floatAt_fixedText, hsix]
    dsimp only
    rw [if_neg (not_le.mpr (hrounded.trans_le (pow_le_pow_right₀ one_le_two (by decide)))),
      decide_eq_false fun h => h.2 (hexact h.1)]
  rw [strtold, hextended]
  dsimp only [FloatValue.store]
  rw [if_neg (not_le.mpr (hdouble.trans_le (pow_le_pow_right₀ one_le_two (by decide))))]

/-! ### Storing in single precision -/

/-- The signed value of a finite number. -/
def FloatValue.number? : FloatValue → Option ℚ
  | .finite negative magnitude => some (if negative then -magnitude else magnitude)
  | _ => none

/-- The bits of a number in single precision, if it fits. -/
def toBinary32 (q : ℚ) : ℕ :=
  let place := binary32.exponent q
  (if q < 0 then 2 ^ 31 else 0) + (place + 149).toNat * 2 ^ 23
    + (nearestEven (|q| / 2 ^ place)).toNat

theorem abs_round (q : ℚ) :
    |binary32.round q| = nearestEven (|q| / 2 ^ binary32.exponent q) * 2 ^ binary32.exponent q := by
  have hpos : (0 : ℚ) < 2 ^ binary32.exponent q := zpow_pos two_pos _
  have hnonneg : ∀ r : ℚ, 0 ≤ r → (0 : ℚ) ≤ nearestEven r := by
    intro r hr
    have hmono := nearestEven_mono hr
    rw [← Int.cast_zero, nearestEven_intCast] at hmono
    exact_mod_cast hmono
  rw [Format.round, abs_mul, abs_of_pos hpos]
  congr 1
  rcases le_total 0 q with hq | hq
  · rw [abs_of_nonneg hq, abs_of_nonneg (hnonneg _ (div_nonneg hq hpos.le))]
  · rw [abs_of_nonpos hq, neg_div, nearestEven_neg, Int.cast_neg, ← neg_neg (nearestEven _ : ℚ)]
    rw [← Int.cast_neg, ← nearestEven_neg, ← neg_div, neg_neg, abs_neg,
      abs_of_nonneg (hnonneg _ (div_nonneg (neg_nonneg.mpr hq) hpos.le))]

/-- The mantissa of a number in single precision. -/
theorem mantissa_bounds (q : ℚ) :
    0 ≤ nearestEven (|q| / 2 ^ binary32.exponent q) ∧
      nearestEven (|q| / 2 ^ binary32.exponent q) ≤ 2 ^ 24 ∧
      (binary32.exponent q ≠ -149 → 2 ^ 23 ≤ nearestEven (|q| / 2 ^ binary32.exponent q)) := by
  have hpos : (0 : ℚ) < 2 ^ binary32.exponent q := zpow_pos two_pos _
  have hcast : ∀ n : ℤ, nearestEven n = n := nearestEven_intCast
  refine ⟨?_, ?_, fun hexp => ?_⟩
  · have hmono := nearestEven_mono (div_nonneg (abs_nonneg q) hpos.le)
    rwa [← Int.cast_zero, hcast] at hmono
  · have hle : |q| / 2 ^ binary32.exponent q ≤ ((2 ^ 24 : ℤ) : ℚ) := by
      rw [div_le_iff₀ hpos]
      rcases eq_or_ne q 0 with rfl | hq
      · rw [abs_zero]
        positivity
      · have hplace : Int.log 2 |q| + 1 ≤ 24 + binary32.exponent q := by
          rw [Format.exponent, if_neg hq]
          simp only [binary32]
          omega
        calc |q| ≤ 2 ^ (Int.log 2 |q| + 1) := by
              exact_mod_cast (Int.lt_zpow_succ_log_self Nat.one_lt_two |q|).le
          _ ≤ 2 ^ (24 + binary32.exponent q) := zpow_le_zpow_right₀ one_le_two hplace
          _ = ((2 ^ 24 : ℤ) : ℚ) * 2 ^ binary32.exponent q := by
              rw [zpow_add₀ two_ne_zero]
              norm_num
    exact (nearestEven_mono hle).trans_eq (hcast _)
  · have hq : q ≠ 0 := by
      rintro rfl
      exact hexp (by simp [Format.exponent, binary32])
    have hge : ((2 ^ 23 : ℤ) : ℚ) ≤ |q| / 2 ^ binary32.exponent q := by
      rw [le_div_iff₀ hpos]
      have hplace : 23 + binary32.exponent q ≤ Int.log 2 |q| := by
        rw [Format.exponent, if_neg hq] at hexp ⊢
        simp only [binary32] at hexp ⊢
        omega
      calc ((2 ^ 23 : ℤ) : ℚ) * 2 ^ binary32.exponent q = 2 ^ (23 + binary32.exponent q) := by
            rw [zpow_add₀ two_ne_zero]
            norm_num
        _ ≤ 2 ^ Int.log 2 |q| := zpow_le_zpow_right₀ one_le_two hplace
        _ ≤ |q| := by exact_mod_cast Int.zpow_log_le_self Nat.one_lt_two (abs_pos.mpr hq)
    exact (hcast _).symm.trans_le (nearestEven_mono hge)

/-- The number that a sign, a place and a mantissa stand for: a mantissa that was rounded up to the
next power of two raises the exponent. -/
theorem ofBinary32_parts (negative : Bool) {place m : ℕ} (hm : m ≤ 2 ^ 24)
    (hnormal : place ≠ 0 → 2 ^ 23 ≤ m) (hplace : place * 2 ^ 23 + m < 255 * 2 ^ 23) :
    ofBinary32 ((if negative then 2 ^ 31 else 0) + place * 2 ^ 23 + m)
      = .finite negative (m * 2 ^ (place - 149 : ℤ)) := by
  have hbit : ((if negative then 2 ^ 31 else 0) + place * 2 ^ 23 + m).testBit 31 = negative := by
    rw [Nat.testBit_eq_decide_div_mod_eq]
    cases negative <;> simp <;> omega
  rcases lt_or_ge m (2 ^ 23) with hsub | hnorm
  · -- a subnormal
    obtain rfl : place = 0 := by
      by_contra hne
      exact absurd (hnormal hne) (by omega)
    have hexponent : ((if negative then 2 ^ 31 else 0) + 0 * 2 ^ 23 + m) / 2 ^ 23 % 2 ^ 8 = 0 := by
      cases negative <;> simp <;> omega
    have hfraction : ((if negative then 2 ^ 31 else 0) + 0 * 2 ^ 23 + m) % 2 ^ 23 = m := by
      cases negative <;> simp <;> omega
    simp only [ofBinary32, hbit, hexponent, hfraction]
    norm_num
  rcases hm.lt_or_eq with hlt | rfl
  · have hexponent : ((if negative then 2 ^ 31 else 0) + place * 2 ^ 23 + m) / 2 ^ 23 % 2 ^ 8
        = place + 1 := by
      cases negative <;> simp <;> omega
    have hfraction : ((if negative then 2 ^ 31 else 0) + place * 2 ^ 23 + m) % 2 ^ 23
        = m - 2 ^ 23 := by
      cases negative <;> simp <;> omega
    simp only [ofBinary32, hbit, hexponent, hfraction]
    rw [if_neg (by omega), if_neg (by omega), Nat.add_sub_cancel' hnorm]
    push_cast
    ring_nf
  · have hexponent : ((if negative then 2 ^ 31 else 0) + place * 2 ^ 23 + 2 ^ 24) / 2 ^ 23 % 2 ^ 8
        = place + 2 := by
      cases negative <;> simp <;> omega
    have hfraction : ((if negative then 2 ^ 31 else 0) + place * 2 ^ 23 + 2 ^ 24) % 2 ^ 23 = 0 := by
      cases negative <;> simp
      omega
    simp only [ofBinary32, hbit, hexponent, hfraction]
    rw [if_neg (by omega), if_neg (by omega)]
    have hsplit : (2 : ℚ) ^ ((place + 2 : ℕ) - 150 : ℤ) = 2 * 2 ^ (place - 149 : ℤ) := by
      rw [← zpow_one_add₀ two_ne_zero]
      push_cast
      ring_nf
    rw [hsplit]
    push_cast
    ring_nf

/-- **A number that fits** is stored as its rounding. -/
theorem ofBinary32_toBinary32 {q : ℚ} (h : |binary32.round q| < 2 ^ 128) :
    ofBinary32 (toBinary32 q) = .finite (decide (q < 0)) |binary32.round q| := by
  obtain ⟨hm0, hm24, hnormal⟩ := mantissa_bounds q
  have hemin : -149 ≤ binary32.exponent q := Format.emin_le_exponent (f := binary32) q
  rw [abs_round] at h ⊢
  rw [toBinary32]
  generalize binary32.exponent q = e at *
  obtain ⟨m, hm⟩ := Int.eq_ofNat_of_zero_le hm0
  obtain ⟨place, hplace⟩ := Int.eq_ofNat_of_zero_le (by omega : 0 ≤ e + 149)
  rw [hm] at h hm24 hnormal ⊢
  have he : e = place - 149 := by omega
  have hm24' : m ≤ 2 ^ 24 := by exact_mod_cast hm24
  have hnormal' : place ≠ 0 → 2 ^ 23 ≤ m := fun hne => by exact_mod_cast hnormal (by omega)
  -- what fits leaves room for a mantissa that was rounded up
  have hroom : m * 2 ^ place < 2 ^ 128 * 2 ^ 149 := by
    have hscaled : (m : ℚ) * 2 ^ e * 2 ^ (149 : ℤ) = m * 2 ^ place := by
      rw [mul_assoc, ← zpow_add₀ two_ne_zero, he, sub_add_cancel, zpow_natCast]
    have hlt : (m : ℚ) * 2 ^ place < 2 ^ 128 * 2 ^ 149 := by
      rw [← hscaled, ← zpow_natCast (2 : ℚ) 149]
      exact mul_lt_mul_of_pos_right (by exact_mod_cast h) (by positivity)
    generalize 149 = k at hlt ⊢
    exact_mod_cast hlt
  have hplace' : ∀ k, 2 ^ k ≤ m → place + k < 128 + 149 := by
    intro k hk
    have hle : 2 ^ (place + k) ≤ m * 2 ^ place := by
      rw [pow_add, mul_comm]
      exact Nat.mul_le_mul_right _ hk
    rw [← pow_add] at hroom
    generalize 128 + 149 = room at hroom ⊢
    exact (Nat.pow_lt_pow_iff_right (by decide)).mp (hle.trans_lt hroom)
  have hlow : place * 2 ^ 23 + m < 255 * 2 ^ 23 := by
    have h23 := hplace' 23
    have h24 := hplace' 24
    omega
  have hparts := ofBinary32_parts (decide (q < 0)) hm24' hnormal' hlow
  rw [hplace, he]
  simpa using hparts

/-- A number that fits is stored with its sign. -/
theorem number?_ofBinary32_toBinary32 {q : ℚ} (h : |binary32.round q| < 2 ^ 128) :
    (ofBinary32 (toBinary32 q)).number? = some (binary32.round q) := by
  have hzero : binary32.round 0 = 0 := by
    have hcast := Format.round_intCast (f := binary32) (m := 0) (by decide) (by decide)
    exact_mod_cast hcast
  rw [ofBinary32_toBinary32 h, FloatValue.number?]
  rcases lt_or_ge q 0 with hneg | hnonneg
  · have hround := Format.round_mono (f := binary32) (by decide) hneg.le
    rw [hzero] at hround
    rw [decide_eq_true hneg, if_pos rfl, abs_of_nonpos hround, neg_neg]
  · have hround := Format.round_mono (f := binary32) (by decide) hnonneg
    rw [hzero] at hround
    rw [decide_eq_false (not_lt.mpr hnonneg), if_neg Bool.false_ne_true, abs_of_nonneg hround]

/-- Only the lowest 32 bits tell. -/
theorem ofBinary32_mod (bits : ℕ) : ofBinary32 (bits % 2 ^ 32) = ofBinary32 bits := by
  have hbit : (bits % 2 ^ 32).testBit 31 = bits.testBit 31 := by
    rw [Nat.testBit_mod_two_pow]
    rfl
  have hexponent : bits % 2 ^ 32 / 2 ^ 23 % 2 ^ 8 = bits / 2 ^ 23 % 2 ^ 8 := by omega
  have hfraction : bits % 2 ^ 32 % 2 ^ 23 = bits % 2 ^ 23 := by omega
  simp only [ofBinary32, hbit, hexponent, hfraction]

/-! ### The trip -/

/-- The number a text of six places is read as. -/
def reread (magnitude : ℚ) : ℚ := binary64.round (extended.round (sixPlaces magnitude))

/-- **The trip of a `float`** through its text: what is stored fits, and has the same six places. -/
theorem round_reread {bits : ℕ} {negative : Bool} {magnitude : ℚ}
    (h : ofBinary32 bits = .finite negative magnitude) :
    |binary32.round (reread magnitude)| < 2 ^ 128 ∧
      nearestEven (binary32.round (reread magnitude) * 10 ^ 6)
        = nearestEven (magnitude * 10 ^ 6) := by
  obtain ⟨m, e, rfl, hm0, hm, he, he', hnormal⟩ := exists_mantissa h
  have hsix := nearestEven_sixPlaces_trip hm0 hm he hnormal
  refine ⟨?_, hsix⟩
  change |throughDouble _| < _
  have hvalue : (m : ℚ) * 2 ^ e ≤ (2 ^ 24 - 1) * 2 ^ (104 : ℤ) := by
    have hm1 : (m : ℚ) ≤ 2 ^ 24 - 1 := by exact_mod_cast Int.le_sub_one_of_lt hm
    have hplace : (2 : ℚ) ^ e ≤ 2 ^ (104 : ℤ) := zpow_le_zpow_right₀ one_le_two he'
    exact mul_le_mul hm1 hplace (zpow_pos two_pos e).le (by norm_num)
  have hnonneg : 0 ≤ (m : ℚ) * 2 ^ e :=
    mul_nonneg (by exact_mod_cast hm0) (zpow_pos two_pos e).le
  -- both are within half a place of the same number
  have hnear := abs_le.mp (abs_nearestEven_sub_le (throughDouble (sixPlaces (m * 2 ^ e)) * 10 ^ 6))
  have hnear' := abs_le.mp (abs_nearestEven_sub_le ((m : ℚ) * 2 ^ e * 10 ^ 6))
  rw [hsix] at hnear
  rw [abs_lt]
  norm_num at hnear hnear' hvalue ⊢
  constructor <;> linarith

/-- A value of single precision after its text of six places was read. -/
def FloatValue.reread : FloatValue → FloatValue
  | .finite negative magnitude => .finite negative (CText.reread magnitude)
  | value => value

theorem FloatValue.exists_of_isSome_number? {value : FloatValue} (h : value.number?.isSome = true) :
    ∃ negative magnitude, value = .finite negative magnitude := by
  cases value with
  | finite negative magnitude => exact ⟨_, _, rfl⟩
  | infinite => cases h
  | nan => cases h

theorem strtold_fixedText_ofBinary32 {bits : ℕ} (h : (ofBinary32 bits).number?.isSome = true) :
    strtold (fixedText 6 (ofBinary32 bits)) = ((ofBinary32 bits).reread, false) := by
  obtain ⟨negative, magnitude, hvalue⟩ := FloatValue.exists_of_isSome_number? h
  obtain ⟨hnonneg, hlt⟩ := magnitude_ofBinary32_lt hvalue
  rw [hvalue, strtold_fixedText hnonneg hlt]
  rfl

/-- **The trip of a `float`**, with its sign. -/
theorem exists_number?_reread {bits : ℕ} {q : ℚ} (h : (ofBinary32 bits).number? = some q) :
    ∃ r, (ofBinary32 bits).reread.number? = some r ∧ |binary32.round r| < 2 ^ 128 ∧
      nearestEven (binary32.round r * 10 ^ 6) = nearestEven (q * 10 ^ 6) := by
  obtain ⟨negative, magnitude, hvalue⟩ :=
    FloatValue.exists_of_isSome_number? (Option.isSome_of_eq_some h)
  obtain ⟨hlt, hsix⟩ := round_reread hvalue
  rw [hvalue] at h ⊢
  obtain rfl := Option.some.inj h
  refine ⟨_, rfl, ?_⟩
  cases negative
  · exact ⟨hlt, hsix⟩
  · rw [if_pos rfl, if_pos rfl, Format.round_neg, abs_neg, neg_mul, neg_mul, nearestEven_neg,
      nearestEven_neg, hsix]
    exact ⟨hlt, rfl⟩

end CText
