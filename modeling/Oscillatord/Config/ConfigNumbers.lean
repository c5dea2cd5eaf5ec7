import Oscillatord.Config.ConfigFile
import Oscillatord.Library.Numerals

/-!
# The numbers of the configuration

`config_get_unsigned_number` should return the number of a key whose value is a numeral without a
minus, decimal, octal or hexadecimal, up to the largest `long`, and an error in all other cases, and
`config_get_uint8_t` the same up to 255 (`UnsignedNumberLaw`). It leaves the numeral to `strtoul`,
which takes a minus too and returns the negative modulo the word. So the law holds exactly unless
the value is a minus and a number that comes out small (`unsignedNumberLaw_iff`).
-/

namespace Oscillatord

open CText

/-! ### The getters -/

/-- `ESRCH`. -/
def esrch : ℤ := 3

/-- `ERANGE`. -/
def erange : ℤ := 34

/-- `config_get_default`. -/
def configGetDefault (argz : List (List UInt8)) (key defaultValue : List UInt8) : List UInt8 :=
  (configGet argz key).getD defaultValue

/-- `config_get_bool_default`. -/
def configGetBoolDefault (argz : List (List UInt8)) (key : List UInt8) (defaultValue : Bool) :
    Bool :=
  match configGet argz key with
  | none => defaultValue
  | some value =>
    if value = ascii "true" then true
    else if value = ascii "false" then false
    else defaultValue

/-- `config_get_unsigned_number`, with the `errno` it finds. -/
def configGetUnsignedNumber (errno : ℕ) (argz : List (List UInt8)) (key : List UInt8) : ℤ :=
  match configGet argz key with
  | none => if errno ≠ 0 then -errno else -esrch
  | some strValue =>
    let (value, rest) := strtoul strValue
    if strValue = [] ∨ rest ≠ [] then -einval
    else if 2 ^ 63 - 1 < value then -erange
    else value

/-- `config_get_uint8_t`. -/
def configGetUint8T (errno : ℕ) (argz : List (List UInt8)) (key : List UInt8) : ℤ :=
  let value := configGetUnsignedNumber errno argz key
  if 255 < value then -erange else value

/-! ### The law -/

/-- `LONG_MAX`. -/
def longMax : ℕ := 2 ^ 63 - 1

/-- The key has the number for its value: a numeral without a minus, within a bound. -/
def HasNumber (argz : List (List UInt8)) (key : List UInt8) (bound n : ℕ) : Prop :=
  ∃ value, configGet argz key = some value ∧ SignedNumeral value false n ∧ n ≤ bound

/-- **The law of the unsigned numbers**, with the `errno` that is found. -/
structure UnsignedNumberLaw (errno : ℕ) (argz : List (List UInt8)) (key : List UInt8) : Prop where
  number : ∀ n : ℕ, configGetUnsignedNumber errno argz key = n ↔ HasNumber argz key longMax n
  error : (¬ ∃ n, HasNumber argz key longMax n) → configGetUnsignedNumber errno argz key < 0
  byte : ∀ n : ℕ, configGetUint8T errno argz key = n ↔ HasNumber argz key 255 n
  byteError : (¬ ∃ n, HasNumber argz key 255 n) → configGetUint8T errno argz key < 0

/-- The value is a minus and a number whose negative is small modulo the word. -/
def WrapsMinus (argz : List (List UInt8)) (key : List UInt8) : Prop :=
  ∃ value n, configGet argz key = some value ∧ SignedNumeral value true n ∧
    (n = 0 ∨ 2 ^ 63 < n ∧ n < 2 ^ 64)

/-! ### What is returned -/

variable {argz : List (List UInt8)} {key value : List UInt8} {n : ℕ} {negative : Bool}

/-- The value of the key is a numeral. -/
def HasNumeral (argz : List (List UInt8)) (key : List UInt8) (negative : Bool) (n : ℕ) : Prop :=
  ∃ value, configGet argz key = some value ∧ SignedNumeral value negative n

theorem HasNumeral.eq {other : Bool} {m : ℕ} (h : HasNumeral argz key negative n)
    (hother : HasNumeral argz key other m) : negative = other ∧ n = m := by
  obtain ⟨value, hget, hvalue⟩ := h
  obtain ⟨value', hget', hvalue'⟩ := hother
  obtain rfl := Option.some.inj (hget.symm.trans hget')
  exact hvalue.eq hvalue'

theorem hasNumber_iff {bound : ℕ} :
    HasNumber argz key bound n ↔ HasNumeral argz key false n ∧ n ≤ bound := by
  rw [HasNumber, HasNumeral, ← exists_and_right]
  simp only [and_assoc]

theorem configGetUnsignedNumber_of_not_numeral (errno : ℕ)
    (h : ¬ ∃ negative n, HasNumeral argz key negative n) :
    configGetUnsignedNumber errno argz key < 0 := by
  rw [configGetUnsignedNumber]
  rcases hget : configGet argz key with _ | value
  · dsimp only
    split_ifs with herrno
    · omega
    · decide
  · have hrest : value = [] ∨ (strtoul value).2 ≠ [] := by
      by_cases hvalue : value = []
      · exact .inl hvalue
      · refine .inr fun hrest => h ?_
        obtain ⟨negative, n, hnumeral⟩ := (strtoul_eq_nil_iff hvalue).mp hrest
        exact ⟨negative, n, value, hget, hnumeral⟩
    dsimp only
    rw [if_pos hrest]
    decide

theorem configGetUnsignedNumber_of_numeral (errno : ℕ) (h : HasNumeral argz key negative n) :
    configGetUnsignedNumber errno argz key
      = if wordOf negative n ≤ longMax then (wordOf negative n : ℤ) else -erange := by
  obtain ⟨value, hget, hvalue⟩ := h
  rw [configGetUnsignedNumber, hget, longMax]
  simp only [strtoul_of_signedNumeral hvalue, hvalue.ne_nil, ne_eq, not_true_eq_false, or_self,
    if_false]
  split_ifs with hlong hword hword
  · omega
  · rfl
  · rfl
  · omega

theorem configGetUnsignedNumber_le (errno : ℕ) (argz : List (List UInt8)) (key : List UInt8) :
    configGetUnsignedNumber errno argz key ≤ longMax := by
  rw [configGetUnsignedNumber, longMax]
  split
  · split_ifs
    · omega
    · decide
  · simp only
    split_ifs
    · decide
    · decide
    · omega

/-! ### Words and numbers -/

theorem wordOf_false (h : n ≤ longMax) : wordOf false n = n := by
  rw [longMax] at h
  rw [wordOf, if_neg (by omega), if_neg Bool.false_ne_true]

theorem wordOf_false_le_iff : wordOf false n ≤ longMax ↔ n ≤ longMax := by
  rw [wordOf, longMax, if_neg Bool.false_ne_true]
  split_ifs
  · omega
  · exact Iff.rfl

/-- A minus comes out small. -/
theorem wordOf_true_le_iff : wordOf true n ≤ longMax ↔ n = 0 ∨ 2 ^ 63 < n ∧ n < 2 ^ 64 := by
  rw [wordOf, longMax, if_pos rfl]
  split_ifs with hword
  · omega
  · rcases Nat.eq_zero_or_pos n with rfl | hpos
    · simp
    · rw [Nat.mod_eq_of_lt (by omega)]
      omega

theorem wrapsMinus_iff :
    WrapsMinus argz key ↔ ∃ n, HasNumeral argz key true n ∧ wordOf true n ≤ longMax := by
  simp only [wordOf_true_le_iff]
  constructor
  · rintro ⟨value, n, hget, hvalue, hn⟩
    exact ⟨n, ⟨value, hget, hvalue⟩, hn⟩
  · rintro ⟨n, ⟨value, hget, hvalue⟩, hn⟩
    exact ⟨value, n, hget, hvalue, hn⟩

theorem HasNumber.eq {bound m : ℕ} (h : HasNumber argz key bound n)
    (hother : HasNumber argz key bound m) : n = m :=
  ((hasNumber_iff.mp h).1.eq (hasNumber_iff.mp hother).1).2

theorem hasNumber_byte_iff :
    HasNumber argz key 255 n ↔ HasNumber argz key longMax n ∧ n ≤ 255 := by
  rw [hasNumber_iff, hasNumber_iff, longMax]
  constructor
  · rintro ⟨hnumeral, hn⟩
    exact ⟨⟨hnumeral, by omega⟩, hn⟩
  · rintro ⟨⟨hnumeral, -⟩, hn⟩
    exact ⟨hnumeral, hn⟩

/-- A value is not both a number and a minus. -/
theorem WrapsMinus.not_hasNumber {bound : ℕ} (h : WrapsMinus argz key) :
    ¬ HasNumber argz key bound n := by
  obtain ⟨m, hminus, -⟩ := wrapsMinus_iff.mp h
  exact fun hnumber => Bool.false_ne_true ((hasNumber_iff.mp hnumber).1.eq hminus).1

/-- **What is returned**: the number of the key, an error, or what a minus came out as. -/
theorem configGetUnsignedNumber_cases (errno : ℕ) (argz : List (List UInt8)) (key : List UInt8) :
    (WrapsMinus argz key ∧ 0 ≤ configGetUnsignedNumber errno argz key) ∨
    (¬ WrapsMinus argz key ∧ ∃ n, HasNumber argz key longMax n ∧
      configGetUnsignedNumber errno argz key = n) ∨
    (¬ WrapsMinus argz key ∧ (¬ ∃ n, HasNumber argz key longMax n) ∧
      configGetUnsignedNumber errno argz key < 0) := by
  by_cases hnumeral : ∃ negative n, HasNumeral argz key negative n
  · obtain ⟨negative, n, hnumeral⟩ := hnumeral
    have hresult := configGetUnsignedNumber_of_numeral errno hnumeral
    by_cases hword : wordOf negative n ≤ longMax
    · rw [if_pos hword] at hresult
      cases negative with
      | true =>
        refine .inl ⟨wrapsMinus_iff.mpr ⟨n, hnumeral, hword⟩, ?_⟩
        rw [hresult]
        exact Int.natCast_nonneg _
      | false =>
        have hn := wordOf_false_le_iff.mp hword
        have hnumber := hasNumber_iff.mpr ⟨hnumeral, hn⟩
        rw [wordOf_false hn] at hresult
        exact .inr (.inl ⟨fun h => h.not_hasNumber hnumber, n, hnumber, hresult⟩)
    · rw [if_neg hword] at hresult
      refine .inr (.inr ⟨fun h => ?_, ?_, by rw [hresult]; decide⟩)
      · obtain ⟨m, hminus, hm⟩ := wrapsMinus_iff.mp h
        obtain ⟨rfl, rfl⟩ := hnumeral.eq hminus
        exact hword hm
      · rintro ⟨m, hnumber⟩
        obtain ⟨hplain, hm⟩ := hasNumber_iff.mp hnumber
        obtain ⟨rfl, rfl⟩ := hnumeral.eq hplain
        exact hword (wordOf_false_le_iff.mpr hm)
  · refine .inr (.inr ⟨fun h => ?_, ?_, configGetUnsignedNumber_of_not_numeral errno hnumeral⟩)
    · obtain ⟨n, hminus, -⟩ := wrapsMinus_iff.mp h
      exact hnumeral ⟨true, n, hminus⟩
    · rintro ⟨n, hnumber⟩
      exact hnumeral ⟨false, n, (hasNumber_iff.mp hnumber).1⟩

/-! ### When the law holds -/

/-- **The numbers of the configuration** are exact, unless a minus comes out small. -/
theorem unsignedNumberLaw_iff (errno : ℕ) (argz : List (List UInt8)) (key : List UInt8) :
    UnsignedNumberLaw errno argz key ↔ ¬ WrapsMinus argz key := by
  rcases configGetUnsignedNumber_cases errno argz key with
    ⟨hwraps, hresult⟩ | ⟨hwraps, n, hnumber, hresult⟩ | ⟨hwraps, hnone, hresult⟩
  · refine ⟨fun hlaw => ?_, fun h => absurd hwraps h⟩
    obtain ⟨n, hn⟩ := Int.eq_ofNat_of_zero_le hresult
    exact absurd ((hlaw.number n).mp hn) hwraps.not_hasNumber
  · refine iff_of_true
      ⟨fun m => ?_, fun h => absurd ⟨n, hnumber⟩ h, fun m => ?_, fun h => ?_⟩ hwraps
    · rw [hresult, Nat.cast_inj]
      exact ⟨fun hm => hm ▸ hnumber, fun hm => hnumber.eq hm⟩
    · rw [configGetUint8T, hresult, hasNumber_byte_iff]
      split_ifs with hbyte
      · refine iff_of_false (fun h => ?_) fun hm => ?_
        · exact absurd h (by rw [erange]; omega)
        · obtain rfl := hnumber.eq hm.1
          omega
      · rw [Nat.cast_inj]
        refine ⟨?_, fun hm => hnumber.eq hm.1⟩
        rintro rfl
        exact ⟨hnumber, by omega⟩
    · rw [configGetUint8T, hresult]
      by_cases hbyte : (255 : ℤ) < n
      · simp [hbyte, erange]
      · exact absurd ⟨n, hasNumber_byte_iff.mpr ⟨hnumber, by omega⟩⟩ h
  · have hbyte : configGetUint8T errno argz key < 0 := by
      rw [configGetUint8T]
      simp only [if_neg (show ¬ (255 : ℤ) < configGetUnsignedNumber errno argz key by omega)]
      exact hresult
    refine iff_of_true ⟨fun n => ?_, fun _ => hresult, fun n => ?_, fun _ => hbyte⟩ hwraps
    · exact iff_of_false (by omega) fun hn => hnone ⟨n, hn⟩
    · exact iff_of_false (by omega) fun hn => hnone ⟨n, (hasNumber_byte_iff.mp hn).1⟩

/-- A large number with a minus comes out as one. -/
theorem unsignedNumberLaw_fails_minus :
    ¬ UnsignedNumberLaw 0 [ascii "reactivity_min=-18446744073709551615"]
        (ascii "reactivity_min") := by
  intro hlaw
  have hone := (hlaw.number 1).mp (by decide)
  have hwraps : WrapsMinus [ascii "reactivity_min=-18446744073709551615"]
      (ascii "reactivity_min") :=
    ⟨_, _, rfl, signedNumeral_iff.mpr
      ⟨rfl, .decimal (by decide) (by decide) (List.all_eq_true.mp rfl)⟩,
      .inr (by decide)⟩
  exact hwraps.not_hasNumber hone

end Oscillatord
