import Oscillatord.Library.CText
import Oscillatord.Library.Rounding

/-!
# Floating-point numbers in C strings

A floating-point number is finite, with a sign of its own, infinite, or none. `fixedText` is what
`%.kf` prints of it: the decimal number of `k` places nearest to its exact value, a tie to the even
one. `floatAt` is the number `strtod` and its kind find at the beginning of a text, before it is
rounded to the format asked for, and `scanFloat` what a conversion of `sscanf` makes of the text.
-/

namespace CText

open Rounding

/-- A floating-point number. -/
inductive FloatValue
  | finite (negative : Bool) (magnitude : ℚ)
  | infinite (negative : Bool)
  | nan (negative : Bool)
  deriving Repr, DecidableEq

/-- The number 32 bits stand for, in single precision. -/
def ofBinary32 (bits : ℕ) : FloatValue :=
  let negative := bits.testBit 31
  let exponent : ℕ := bits / 2 ^ 23 % 2 ^ 8
  let fraction : ℕ := bits % 2 ^ 23
  if exponent = 255 then if fraction = 0 then .infinite negative else .nan negative
  else if exponent = 0 then .finite negative (fraction * 2 ^ (-149 : ℤ))
  else .finite negative ((2 ^ 23 + fraction : ℕ) * 2 ^ (exponent - 150 : ℤ))

/-- The sign of a text. -/
def signText (negative : Bool) : List UInt8 := if negative then [45] else []

/-- The digits of `%.kf`, of the value scaled by `10 ^ k` and rounded. -/
def fixedDigits (k n : ℕ) : List UInt8 := decimal (n / 10 ^ k) ++ 46 :: lastDigits k n

/-- `%.kf`, for `k` places. -/
def fixedText (k : ℕ) : FloatValue → List UInt8
  | .finite negative magnitude =>
    signText negative ++ fixedDigits k (nearestEven (magnitude * 10 ^ k)).toNat
  | .infinite negative => signText negative ++ [105, 110, 102]
  | .nan negative => signText negative ++ [110, 97, 110]

/-! ### Reading -/

/-- The digits of a number with a point: their value, how many are after the point, and the rest of
the text. -/
def mantissaAt (base : ℕ) (text : List UInt8) : Option (ℕ × ℕ × List UInt8) :=
  let whole := text.takeWhile (isDigit base)
  let rest := text.dropWhile (isDigit base)
  let places := if rest.head? = some 46 then rest.tail.takeWhile (isDigit base) else []
  if whole ++ places = [] then none
  else some (valueOf base (whole ++ places), places.length,
    if rest.head? = some 46 then rest.tail.dropWhile (isDigit base) else rest)

/-- The exponent after a mantissa, where there is one. -/
def exponentAt (marker : UInt8) (text : List UInt8) : ℤ :=
  if text.head? = some marker ∨ text.head? = some (marker - 32) then
    let signed := takeSign text.tail
    let digits := signed.2.takeWhile (isDigit 10)
    if signed.1 then -valueOf 10 digits else valueOf 10 digits
  else 0

/-- A number in some base, with an exponent of some base. -/
def magnitudeAt (base exponentBase : ℕ) (marker : UInt8) (text : List UInt8) : Option ℚ :=
  (mantissaAt base text).map fun (digits, places, rest) =>
    digits * (exponentBase : ℚ) ^ exponentAt marker rest / (base : ℚ) ^ places

/-- The text begins with the word, in any case. -/
def beginsWith (word text : List UInt8) : Bool :=
  ((text.take word.length).map fun b => if 65 ≤ b ∧ b ≤ 90 then b + 32 else b) == word

/-- The number at the beginning of a text. -/
def floatAt (text : List UInt8) : Option FloatValue :=
  let signed := takeSign (text.dropWhile isSpace)
  let body := signed.2
  if beginsWith [105, 110, 102] body then some (.infinite signed.1)
  else if beginsWith [110, 97, 110] body then some (.nan signed.1)
  else
    let hex := if beginsWith [48, 120] body then magnitudeAt 16 2 112 (body.drop 2) else none
    (hex <|> magnitudeAt 10 10 101 body).map (.finite signed.1)

/-- What a conversion makes of its text. -/
inductive FloatConversion
  | number (value : FloatValue)
  | noMatch
  | ended
  deriving Repr, DecidableEq

/-- A conversion of `sscanf`. It takes in the text as long as that may become a number, so that
`infinity` cut short and the prefix of base 16 alone are none. -/
def scanFloat (text : List UInt8) : FloatConversion :=
  let text := text.dropWhile isSpace
  let body := (takeSign text).2
  if text = [] then .ended
  else if beginsWith [105, 110, 102, 105] body &&
      !beginsWith [105, 110, 102, 105, 110, 105, 116, 121] body then .noMatch
  else if beginsWith [48, 120] body && !((body[2]?).any fun b => isDigit 16 b || b == 46) then
    .noMatch
  else (floatAt text).elim .noMatch .number

/-! ### The width of a text -/

/-- What a finite number of single precision is made of. -/
theorem exists_mantissa {bits : ℕ} {negative : Bool} {magnitude : ℚ}
    (h : ofBinary32 bits = .finite negative magnitude) :
    ∃ m e : ℤ, magnitude = m * 2 ^ e ∧ 0 ≤ m ∧ m < 2 ^ 24 ∧ -149 ≤ e ∧ e ≤ 104 ∧
      (e = -149 ∨ 2 ^ 23 ≤ m) := by
  have hfraction : bits % 2 ^ 23 < 2 ^ 23 := Nat.mod_lt _ (by decide)
  have hexponent : bits / 2 ^ 23 % 2 ^ 8 < 2 ^ 8 := Nat.mod_lt _ (by decide)
  simp only [ofBinary32] at h
  split_ifs at h with htop hzero hmin
  · obtain ⟨-, rfl⟩ := FloatValue.finite.inj h
    exact ⟨(bits % 2 ^ 23 : ℕ), -149, by norm_cast, by omega, by omega, by omega, by omega,
      .inl rfl⟩
  · obtain ⟨-, rfl⟩ := FloatValue.finite.inj h
    exact ⟨(2 ^ 23 + bits % 2 ^ 23 : ℕ), (bits / 2 ^ 23 % 2 ^ 8 : ℕ) - 150, by norm_cast,
      by omega, by omega, by omega, by omega, .inr (by omega)⟩

/-- A number in single precision is below `2 ^ 128`. -/
theorem magnitude_ofBinary32_lt {bits : ℕ} {negative : Bool} {magnitude : ℚ}
    (h : ofBinary32 bits = .finite negative magnitude) :
    0 ≤ magnitude ∧ magnitude < 2 ^ 128 := by
  obtain ⟨m, e, rfl, hm0, hm, -, he, -⟩ := exists_mantissa h
  have hcast0 : (0 : ℚ) ≤ m := by exact_mod_cast hm0
  have hcast : (m : ℚ) < 2 ^ 24 := by exact_mod_cast hm
  refine ⟨by positivity, ?_⟩
  calc (m : ℚ) * 2 ^ e
      < 2 ^ 24 * 2 ^ e := by gcongr
    _ ≤ 2 ^ 24 * 2 ^ (104 : ℤ) := by gcongr; norm_num
    _ = 2 ^ 128 := by norm_num

theorem length_signText_le (negative : Bool) : (signText negative).length ≤ 1 := by
  cases negative <;> decide

/-- **The width of a float** printed with `k` places. -/
theorem length_fixedText_le {bits k : ℕ} : (fixedText k (ofBinary32 bits)).length ≤ 41 + k := by
  rcases hvalue : ofBinary32 bits with ⟨negative, magnitude⟩ | negative | negative
  · have hsign := length_signText_le negative
    obtain ⟨hlo, hhi⟩ := magnitude_ofBinary32_lt hvalue
    have hscaled : nearestEven (magnitude * 10 ^ k) ≤ 2 ^ 128 * 10 ^ k := by
      have hle : magnitude * 10 ^ k ≤ ((2 ^ 128 * 10 ^ k : ℤ) : ℚ) := by
        push_cast
        exact mul_le_mul_of_nonneg_right hhi.le (by positivity)
      exact (nearestEven_mono hle).trans_eq (nearestEven_intCast _)
    have hint : (nearestEven (magnitude * 10 ^ k)).toNat / 10 ^ k < 10 ^ 39 := by
      have htoNat : (nearestEven (magnitude * 10 ^ k)).toNat ≤ 2 ^ 128 * 10 ^ k := by
        have hcast : ((2 ^ 128 * 10 ^ k : ℕ) : ℤ) = 2 ^ 128 * 10 ^ k := by push_cast; ring
        omega
      calc (nearestEven (magnitude * 10 ^ k)).toNat / 10 ^ k
          ≤ 2 ^ 128 * 10 ^ k / 10 ^ k := Nat.div_le_div_right htoNat
        _ = 2 ^ 128 := Nat.mul_div_cancel _ (by positivity)
        _ < 10 ^ 39 := by norm_num
    have hdecimal := length_decimal_le (by decide) hint
    simp only [fixedText, fixedDigits, List.length_append, List.length_cons, length_lastDigits]
    omega
  · have hsign := length_signText_le negative
    simp only [fixedText, List.length_append, List.length_cons, List.length_nil]
    omega
  · have hsign := length_signText_le negative
    simp only [fixedText, List.length_append, List.length_cons, List.length_nil]
    omega

end CText
