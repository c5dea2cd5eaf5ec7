import Mathlib.Data.List.OfFn
import Mathlib.Data.Rat.Floor
import Mathlib.Tactic.Linarith
import Mathlib.Tactic.NormNum
import Mathlib.Tactic.Common

/-!
# C numbers

The conversions of the C language between its number types, on the integers and the rationals
they denote: reduction to a signed or unsigned width, little-endian loads from a byte string,
`abs`, `round` and the truncating conversion of a floating value to an integer. Each is a total
function; where C leaves the result undefined the definition says what it returns.
-/

namespace CNumber

/-- Conversion to a signed integer type of `w` bits (two's complement). -/
def toSigned (w : ℕ) (x : ℤ) : ℤ := Int.bmod x (2 ^ w)

/-- Conversion to an unsigned integer type of `w` bits. -/
def toUnsigned (w : ℕ) (x : ℤ) : ℤ := x % 2 ^ w

/-- A value inside the range of a signed type is converted to itself. -/
theorem toSigned_eq_self {w : ℕ} {x : ℤ} (hw : 0 < w) (hlo : -2 ^ (w - 1) ≤ x)
    (hhi : x < 2 ^ (w - 1)) : toSigned w x = x := by
  obtain ⟨k, rfl⟩ : ∃ k, w = k + 1 := ⟨w - 1, by omega⟩
  have hpow : ((2 ^ (k + 1) : ℕ) : ℤ) = 2 * 2 ^ k := by
    push_cast
    ring
  simp only [Nat.add_sub_cancel] at hlo hhi
  refine Int.bmod_eq_of_le_mul_two ?_ ?_ <;> rw [hpow] <;> omega

/-- A converted value lies in the range of the type. -/
theorem toSigned_bounds {w : ℕ} (hw : 0 < w) (x : ℤ) :
    -2 ^ (w - 1) ≤ toSigned w x ∧ toSigned w x < 2 ^ (w - 1) := by
  obtain ⟨k, rfl⟩ : ∃ k, w = k + 1 := ⟨w - 1, by omega⟩
  have hpow : ((2 ^ (k + 1) : ℕ) : ℤ) = 2 * 2 ^ k := by
    push_cast
    ring
  have hpos : 0 < 2 ^ (k + 1) := by positivity
  have hle := Int.le_bmod (x := x) hpos
  have hlt := Int.bmod_lt (x := x) hpos
  simp only [Nat.add_sub_cancel, toSigned]
  omega

/-- The value of a little-endian byte string. -/
def leNat : List UInt8 → ℕ
  | [] => 0
  | b :: bs => b.toNat + 256 * leNat bs

/-- An unsigned little-endian load of `n` bytes at `offs`; bytes past the end read as zero. -/
def loadU (data : List UInt8) (offs n : ℕ) : ℤ := leNat ((data.drop offs).take n)

/-- A signed little-endian load of `n` bytes at `offs`. -/
def loadI (data : List UInt8) (offs n : ℕ) : ℤ := toSigned (8 * n) (loadU data offs n)

theorem leNat_lt (bytes : List UInt8) : leNat bytes < 256 ^ bytes.length := by
  induction bytes with
  | nil => decide
  | cons b bs ih =>
    have hb : b.toNat < 256 := b.toNat_lt
    rw [leNat, List.length_cons, Nat.pow_succ]
    omega

/-- An unsigned load lies in the range of its type. -/
theorem loadU_bounds (data : List UInt8) (offs n : ℕ) :
    0 ≤ loadU data offs n ∧ loadU data offs n < 256 ^ n := by
  have hlt := leNat_lt ((data.drop offs).take n)
  have hle : 256 ^ ((data.drop offs).take n).length ≤ 256 ^ n :=
    Nat.pow_le_pow_right (by decide) (List.length_take_le _ _)
  refine ⟨Int.natCast_nonneg _, ?_⟩
  rw [loadU]
  exact_mod_cast hlt.trans_le hle

/-- A signed load lies in the range of its type. -/
theorem loadI_bounds (data : List UInt8) (offs : ℕ) {n : ℕ} (hn : 0 < n) :
    -2 ^ (8 * n - 1) ≤ loadI data offs n ∧ loadI data offs n < 2 ^ (8 * n - 1) :=
  toSigned_bounds (by omega) _

/-- A little-endian store of `n` bytes. -/
def storeLe (n : ℕ) (x : ℤ) : Fin n → UInt8 := fun i => UInt8.ofInt (x / 256 ^ (i : ℕ))

theorem leNat_storeLe (n : ℕ) (x : ℤ) : (leNat (List.ofFn (storeLe n x)) : ℤ) = x % 256 ^ n := by
  induction n generalizing x with
  | zero => simp [leNat]
  | succ n ih =>
    have hhead : ((storeLe (n + 1) x 0).toNat : ℤ) = x % 256 := by
      rw [storeLe, Fin.val_zero, pow_zero, Int.ediv_one, UInt8.ofInt, UInt8.toNat_ofNat']
      omega
    have htail : List.ofFn (fun i : Fin n => storeLe (n + 1) x i.succ)
        = List.ofFn (storeLe n (x / 256)) := by
      congr 1
      funext i
      rw [storeLe, storeLe, Fin.val_succ, pow_succ', Int.ediv_ediv_of_nonneg (by decide)]
    rw [List.ofFn_succ, leNat, htail]
    push_cast
    rw [ih, hhead, pow_succ', Int.emod_def x 256, Int.emod_def (x / 256), Int.emod_def x,
      Int.ediv_ediv_of_nonneg (by decide)]
    ring

/-- Strings of one length have one value each. -/
theorem eq_of_leNat_eq {first second : List UInt8} (hlength : first.length = second.length)
    (h : leNat first = leNat second) : first = second := by
  induction first generalizing second with
  | nil => exact (List.length_eq_zero_iff.mp hlength.symm).symm
  | cons b first ih =>
    obtain ⟨c, second, rfl⟩ := List.exists_cons_of_length_eq_add_one hlength.symm
    rw [leNat, leNat] at h
    have hb : b.toNat < 256 := b.toNat_lt
    have hc : c.toNat < 256 := c.toNat_lt
    obtain rfl : b = c := UInt8.toNat_inj.mp (by omega)
    rw [ih (Nat.succ.inj hlength) (by omega)]

/-- **What was loaded** is stored as it was. -/
theorem storeLe_loadI {n : ℕ} (bytes : Fin n → UInt8) :
    storeLe n (loadI (List.ofFn bytes) 0 n) = bytes := by
  refine List.ofFn_injective (eq_of_leNat_eq (by simp) ?_)
  have hlt := leNat_lt (List.ofFn bytes)
  have hwidth : ((2 ^ (8 * n) : ℕ) : ℤ) = 256 ^ n := by
    rw [pow_mul]
    norm_num
  have hload : loadI (List.ofFn bytes) 0 n % 256 ^ n = leNat (List.ofFn bytes) := by
    rw [loadI, toSigned, loadU, ← hwidth, Int.bmod_emod, List.drop_zero,
      List.take_of_length_le (by simp)]
    refine Int.emod_eq_of_lt (Int.natCast_nonneg _) ?_
    rw [List.length_ofFn] at hlt
    rw [hwidth]
    exact_mod_cast hlt
  exact_mod_cast (leNat_storeLe n _).trans hload

/-- The byte at `offs`, zero past the end. -/
def loadByte (data : List UInt8) (offs : ℕ) : UInt8 := data.getD offs 0

/-- `abs` on a 32-bit `int`: the least `int` has no opposite and is returned unchanged. -/
def abs32 (x : ℤ) : ℤ := toSigned 32 |x|

/-- Where the opposite exists, `abs` is the absolute value. -/
theorem abs32_eq_abs {x : ℤ} (hlo : -2 ^ 31 < x) (hhi : x < 2 ^ 31) : abs32 x = |x| :=
  toSigned_eq_self (by decide) (by have := abs_nonneg x; omega)
    (abs_lt.mpr ⟨by omega, by omega⟩)

/-- The least `int` is its own `abs`. -/
example : abs32 (-2 ^ 31) = -2 ^ 31 := by decide

/-- `round`: the nearest integer, halves away from zero. -/
def round (q : ℚ) : ℤ := if 0 ≤ q then ⌊q + 1 / 2⌋ else ⌈q - 1 / 2⌉

theorem round_neg (q : ℚ) : round (-q) = -round q := by
  rcases lt_trichotomy q 0 with hq | rfl | hq
  · rw [round, round, if_pos (by linarith), if_neg (by linarith), ← Int.floor_neg]
    congr 1
    ring
  · norm_num [round]
  · rw [round, round, if_neg (by linarith), if_pos hq.le, ← Int.ceil_neg]
    congr 1
    ring

theorem round_signed (negative : Bool) (q : ℚ) :
    round (if negative then -q else q) = if negative then -round q else round q := by
  split_ifs
  · exact round_neg q
  · rfl

/-- A number is rounded above an integer from the half on. -/
theorem lt_round_iff {q : ℚ} (hq : 0 ≤ q) (n : ℤ) : n < round q ↔ n + 1 / 2 ≤ q := by
  rw [round, if_pos hq, ← Int.add_one_le_iff, Int.le_floor]
  push_cast
  constructor <;> intro h <;> linarith

theorem round_nonneg {q : ℚ} (hq : 0 ≤ q) : 0 ≤ round q := by
  rw [round, if_pos hq]
  exact Int.floor_nonneg.mpr (by linarith)

/-- Numbers are rounded alike when no half is between them. -/
theorem round_eq_round_iff {q r : ℚ} (hq : 0 ≤ q) (hr : 0 ≤ r) :
    round q = round r ↔ ∀ n : ℕ, (n + 1 / 2 : ℚ) ≤ q ↔ (n + 1 / 2 : ℚ) ≤ r := by
  have hcut : ∀ {x : ℚ}, 0 ≤ x → ∀ n : ℕ, (n : ℤ) < round x ↔ (n + 1 / 2 : ℚ) ≤ x := by
    intro x hx n
    simpa using lt_round_iff hx n
  constructor
  · intro h n
    rw [← hcut hq, ← hcut hr, h]
  · intro h
    have hlt : ∀ n : ℕ, (n : ℤ) < round q ↔ (n : ℤ) < round r := fun n => by
      rw [hcut hq, hcut hr, h]
    have hq0 := round_nonneg hq
    have hr0 := round_nonneg hr
    have hfirst := hlt (round q).toNat
    have hsecond := hlt (round r).toNat
    omega

/-- Numbers that are near are rounded to neighbours. -/
theorem abs_round_sub_round_le {q r : ℚ} (hq : 0 ≤ q) (hr : 0 ≤ r) (h : |q - r| < 1) :
    |round q - round r| ≤ 1 := by
  rw [round, round, if_pos hq, if_pos hr]
  have hnear := abs_lt.mp h
  have hqlo := Int.floor_le (q + 1 / 2)
  have hqhi := Int.lt_floor_add_one (q + 1 / 2)
  have hrlo := Int.floor_le (r + 1 / 2)
  have hrhi := Int.lt_floor_add_one (r + 1 / 2)
  have hlo : ((⌊r + 1 / 2⌋ - 2 : ℤ) : ℚ) < ⌊q + 1 / 2⌋ := by
    push_cast
    linarith
  have hhi : (⌊q + 1 / 2⌋ : ℚ) < ((⌊r + 1 / 2⌋ + 2 : ℤ) : ℚ) := by
    push_cast
    linarith
  have hlo' := Int.cast_lt.mp hlo
  have hhi' := Int.cast_lt.mp hhi
  rw [abs_le]
  omega

/-- Conversion of a floating value to an integer type: the fraction is discarded. -/
def trunc (q : ℚ) : ℤ := if 0 ≤ q then ⌊q⌋ else ⌈q⌉

/-- Conversion of an integral floating value to a 32-bit `int`; out of range (undefined in C)
it gives the least `int`, as the conversion instruction of the target does. -/
def toInt32OfFloat (x : ℤ) : ℤ := if -2 ^ 31 ≤ x ∧ x < 2 ^ 31 then x else -2 ^ 31

/-! ### Integer types -/

/-- An integer type of C. -/
inductive IntegerType
  | bool
  | signed (bits : ℕ)
  | unsigned (bits : ℕ)
  deriving Repr, DecidableEq

namespace IntegerType

/-- The conversion of a number to the type. -/
def convert : IntegerType → ℤ → ℤ
  | bool, x => if x = 0 then 0 else 1
  | signed bits, x => toSigned bits x
  | unsigned bits, x => toUnsigned bits x

/-- The number is one of the type. -/
def Holds : IntegerType → ℤ → Prop
  | bool, x => x = 0 ∨ x = 1
  | signed bits, x => -2 ^ bits ≤ 2 * x ∧ 2 * x < 2 ^ bits
  | unsigned bits, x => 0 ≤ x ∧ x < 2 ^ bits

/-- The numbers of the type are those that the conversion leaves alone. -/
theorem convert_eq_self_iff (type : IntegerType) (x : ℤ) : type.convert x = x ↔ type.Holds x := by
  cases type with
  | bool =>
    rw [convert, Holds]
    split_ifs with hzero
    · omega
    · omega
  | signed bits =>
    rw [convert, Holds, toSigned]
    have hpos : 0 < (2 ^ bits : ℕ) := Nat.two_pow_pos bits
    have hcast : ((2 ^ bits : ℕ) : ℤ) = 2 ^ bits := by push_cast; rfl
    constructor
    · intro h
      have hlo := Int.le_bmod (x := x) hpos
      have hhi := Int.bmod_lt (x := x) hpos
      rw [h] at hlo hhi
      omega
    · rintro ⟨hlo, hhi⟩
      exact Int.bmod_eq_of_le_mul_two (by omega) (by omega)
  | unsigned bits =>
    rw [convert, Holds, toUnsigned]
    have hpos : (0 : ℤ) < 2 ^ bits := by positivity
    constructor
    · intro h
      rw [← h]
      exact ⟨Int.emod_nonneg _ hpos.ne', Int.emod_lt_of_pos _ hpos⟩
    · rintro ⟨hlo, hhi⟩
      exact Int.emod_eq_of_lt hlo hhi

/-- A number that is not negative is not converted to one that is beyond all of the words. -/
theorem neg_le_convert (type : IntegerType) {x : ℤ} (hlo : 0 ≤ x) (hhi : x < 2 ^ 63) :
    -2 ^ 63 ≤ type.convert x := by
  cases type with
  | bool =>
    rw [convert]
    split_ifs
    · decide
    · decide
  | signed bits =>
    rw [convert, toSigned]
    have hcast : ((2 ^ bits : ℕ) : ℤ) = 2 ^ bits := by push_cast; rfl
    rcases le_or_gt bits 64 with hbits | hbits
    · have hpow : (2 : ℤ) ^ bits ≤ 2 ^ 64 := pow_le_pow_right₀ (by decide) hbits
      have hbound := Int.le_bmod (x := x) (Nat.two_pow_pos bits)
      omega
    · have hpow : (2 : ℤ) ^ 64 ≤ 2 ^ bits := pow_le_pow_right₀ (by decide) hbits.le
      rw [Int.bmod_eq_of_le_mul_two (by omega) (by omega)]
      omega
  | unsigned bits =>
    rw [convert, toUnsigned]
    have hnonneg := Int.emod_nonneg x (show (2 ^ bits : ℤ) ≠ 0 by positivity)
    omega

end IntegerType

end CNumber
