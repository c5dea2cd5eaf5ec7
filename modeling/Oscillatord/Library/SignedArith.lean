import Oscillatord.Library.CNumbers
import Oscillatord.Library.Rounding

/-!
# Signed arithmetic that may overflow

The operations of a signed integer type of `w` bits with the overflow visible: the result is
`none` where the C language leaves it undefined. With them come the two conversions between an
integer type and `double`, the one rounding and the other partial.
-/

namespace CNumber

open Rounding

/-- The values of a signed type of `w` bits. -/
def InSigned (w : ℕ) (x : ℤ) : Prop := -2 ^ (w - 1) ≤ x ∧ x < 2 ^ (w - 1)

instance (w : ℕ) (x : ℤ) : Decidable (InSigned w x) := inferInstanceAs (Decidable (_ ∧ _))

/-- The result of an operation, where the type has it. -/
def fits (w : ℕ) (x : ℤ) : Option ℤ := if InSigned w x then some x else none

def addS (w : ℕ) (x y : ℤ) : Option ℤ := fits w (x + y)

def subS (w : ℕ) (x y : ℤ) : Option ℤ := fits w (x - y)

def mulS (w : ℕ) (x y : ℤ) : Option ℤ := fits w (x * y)

/-- Division truncates towards zero. -/
def divS (w : ℕ) (x y : ℤ) : Option ℤ := if y = 0 then none else fits w (x.tdiv y)

/-- The remainder is defined where the quotient is. -/
def remS (w : ℕ) (x y : ℤ) : Option ℤ := (divS w x y).map fun _ => x.tmod y

/-- An integer as a `double`. -/
def toDouble (x : ℤ) : ℚ := binary64.round x

/-- A floating value as an integer of `w` bits. -/
def ofDouble (w : ℕ) (q : ℚ) : Option ℤ := fits w (trunc q)

variable {w : ℕ} {x y : ℤ}

@[simp] theorem fits_eq_some (h : InSigned w x) : fits w x = some x := if_pos h

@[simp] theorem trunc_intCast (x : ℤ) : trunc x = x := by
  simp [trunc]

/-- Dividing by a value above one cannot overflow. -/
theorem InSigned.tdiv (hx : InSigned w x) (hy : 1 < y) : InSigned w (x.tdiv y) := by
  obtain ⟨hlo, hhi⟩ := hx
  have hpow : (0 : ℤ) < 2 ^ (w - 1) := by positivity
  rcases le_total 0 x with hnonneg | hneg
  · have hle : x.tdiv y ≤ x := Int.tdiv_le_self y hnonneg
    have hge : 0 ≤ x.tdiv y := Int.tdiv_nonneg hnonneg (by omega)
    exact ⟨by omega, by omega⟩
  · have hle : (-x).tdiv y ≤ -x := Int.tdiv_le_self y (by omega)
    have hge : 0 ≤ (-x).tdiv y := Int.tdiv_nonneg (by omega) (by omega)
    rw [Int.neg_tdiv] at hle hge
    exact ⟨by omega, by omega⟩

theorem divS_eq (hx : InSigned w x) (hy : 1 < y) : divS w x y = some (x.tdiv y) := by
  rw [divS, if_neg (by omega), fits_eq_some (hx.tdiv hy)]

theorem remS_eq (hx : InSigned w x) (hy : 1 < y) : remS w x y = some (x.tmod y) := by
  rw [remS, divS_eq hx hy, Option.map_some]

/-- A value of up to 53 bits is its own `double`. -/
theorem toDouble_eq (h : |x| < 2 ^ 53) : toDouble x = x :=
  Format.round_intCast h (by decide)

/-- Rounding to `double` and cutting back loses nothing up to 53 bits. -/
theorem ofDouble_floor_toDouble (hx : InSigned w x) (h : |x| < 2 ^ 53) :
    ofDouble w (⌊toDouble x⌋ : ℤ) = some x := by
  rw [toDouble_eq h, Int.floor_intCast, ofDouble, trunc_intCast, fits_eq_some hx]

end CNumber
