import Mathlib.Data.List.TakeWhile
import Oscillatord.Library.CText

/-!
# Hexadecimal texts

What `%0nX` writes of an unsigned number, and that `%x` reads the number back from it. The digits
are upper case, and zeros stand before them up to the width.
-/

namespace CText

/-- The character of a hexadecimal digit. -/
def hexChar (d : ℕ) : UInt8 := UInt8.ofNat (if d < 10 then 48 + d else 55 + d)

/-- The digits of a number, the most significant one first. -/
def hexDigits (n : ℕ) : List UInt8 := (Nat.digits 16 n).reverse.map hexChar

/-- `%0widthX`, for a width of at least one. -/
def hexadecimal (width n : ℕ) : List UInt8 :=
  List.replicate (width - (hexDigits n).length) 48 ++ hexDigits n

/-- A digit in upper case. -/
def IsUpperHex (b : UInt8) : Prop := ∃ d < 16, b = hexChar d

theorem digitOf_hexChar {d : ℕ} (h : d < 16) : digitOf (hexChar d) = d := by
  interval_cases d <;> decide

theorem isUpperHex_zero : IsUpperHex 48 := ⟨0, by decide, rfl⟩

/-- A digit is neither white space nor a sign nor the letter of the prefix. -/
theorem IsUpperHex.plain {b : UInt8} (h : IsUpperHex b) :
    isSpace b = false ∧ isDigit 16 b = true ∧ b ≠ 45 ∧ b ≠ 43 ∧ b ≠ 120 ∧ b ≠ 88 := by
  obtain ⟨d, hd, rfl⟩ := h
  interval_cases d <;> decide

theorem isUpperHex_of_mem {width n : ℕ} {b : UInt8} (h : b ∈ hexadecimal width n) :
    IsUpperHex b := by
  rcases List.mem_append.mp h with h | h
  · rw [List.eq_of_mem_replicate h]
    exact isUpperHex_zero
  · obtain ⟨d, hd, rfl⟩ := List.mem_map.mp h
    exact ⟨d, Nat.digits_lt_base (by decide) (List.mem_reverse.mp hd), rfl⟩

theorem length_hexadecimal {width n : ℕ} (h : n < 16 ^ width) :
    (hexadecimal width n).length = width := by
  have hle : (hexDigits n).length ≤ width := by
    rw [hexDigits, List.length_map, List.length_reverse]
    exact (Nat.digits_length_le_iff (by decide) n).mpr h
  rw [hexadecimal, List.length_append, List.length_replicate]
  omega

theorem valueOf_replicate_zero (base k : ℕ) : valueOf base (List.replicate k 48) = 0 := by
  induction k with
  | zero => rfl
  | succ k ih =>
    rw [List.replicate_succ', valueOf_append, ih, valueOf_singleton, zero_mul, zero_add]
    decide

theorem valueOf_hexDigits (n : ℕ) : valueOf 16 (hexDigits n) = n := by
  have hdigits : ∀ digits : List ℕ, (∀ d ∈ digits, d < 16) →
      valueOf 16 (digits.reverse.map hexChar) = Nat.ofDigits 16 digits := by
    intro digits
    induction digits with
    | nil => exact fun _ => rfl
    | cons d digits ih =>
      intro h
      have hd := digitOf_hexChar (h d List.mem_cons_self)
      have hrest := ih fun d hd => h d (List.mem_cons_of_mem _ hd)
      rw [List.reverse_cons, List.map_append, valueOf_append, hrest, List.map_singleton,
        valueOf_singleton, hd, List.length_singleton, Nat.ofDigits_cons]
      ring
  rw [hexDigits, hdigits _ fun d hd => Nat.digits_lt_base (by decide) hd, Nat.ofDigits_digits]

theorem valueOf_hexadecimal (width n : ℕ) : valueOf 16 (hexadecimal width n) = n := by
  rw [hexadecimal, valueOf_append, valueOf_replicate_zero, valueOf_hexDigits, zero_mul, zero_add]

/-- Two digits are not the prefix of base 16. -/
theorem dropHexPrefix_of_isUpperHex {text : List UInt8} (h : ∀ b ∈ text, IsUpperHex b) :
    dropHexPrefix text = text := by
  rcases text with _ | ⟨a, _ | ⟨x, _ | ⟨d, text⟩⟩⟩
  · rfl
  · rw [dropHexPrefix]
    simp
  · rw [dropHexPrefix]
    simp
  · have hx := (h x (by simp)).plain
    rw [dropHexPrefix.eq_def]
    split
    next heq =>
      obtain ⟨rfl, rfl, rfl, rfl⟩ := by simpa using heq
      rw [if_neg (by tauto)]
    next => rfl

/-- **The round trip of `%0nX`** through `%x`. -/
theorem scanInt_hexadecimal {width n : ℕ} (hwidth : 0 < width) :
    scanInt 16 (hexadecimal width n) = .number n [] := by
  have hmem : ∀ b ∈ hexadecimal width n, IsUpperHex b := fun b hb => isUpperHex_of_mem hb
  have hne : hexadecimal width n ≠ [] := by
    intro hnil
    obtain ⟨hzeros, hdigits⟩ := List.append_eq_nil_iff.mp hnil
    rw [hdigits, List.length_nil, Nat.sub_zero, List.replicate_eq_nil_iff] at hzeros
    omega
  have hprefix := dropHexPrefix_of_isUpperHex hmem
  have hvalue := valueOf_hexadecimal width n
  have hall : ∀ b ∈ hexadecimal width n, isDigit 16 b = true := fun b hb => (hmem b hb).plain.2.1
  obtain ⟨b, text, hcons⟩ := List.exists_cons_of_ne_nil hne
  obtain ⟨hspace, -, hminus, hplus, -, -⟩ := (hmem b (by rw [hcons]; simp)).plain
  have htake := List.takeWhile_eq_self_iff.mpr hall
  have hdrop := List.dropWhile_eq_nil_iff.mpr hall
  rw [hcons] at hprefix hvalue htake hdrop ⊢
  have hskip : (b :: text).dropWhile isSpace = b :: text :=
    List.dropWhile_cons_of_neg (by simp [hspace])
  simp [scanInt, hskip, takeSign, hminus, hplus, hprefix, htake, hdrop, hvalue]

end CText
