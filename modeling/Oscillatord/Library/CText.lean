import Mathlib.Data.Nat.Digits.Lemmas
import Oscillatord.Library.CNumbers

/-!
# Numbers in C strings

The conversions of `sscanf`, `strtoul` and `atoi`, on byte strings: white space is skipped, a sign
and the prefix of the base may stand before the digits, and the longest run of digits is taken.
-/

namespace CText

open CNumber

/-- `isspace` in the C locale. -/
def isSpace (b : UInt8) : Bool := b == 32 || (9 ≤ b && b ≤ 13)

/-- The digit a character stands for, in the bases up to 36. -/
def digitOf (b : UInt8) : ℕ :=
  if 48 ≤ b ∧ b ≤ 57 then b.toNat - 48
  else if 65 ≤ b ∧ b ≤ 90 then b.toNat - 55
  else if 97 ≤ b ∧ b ≤ 122 then b.toNat - 87
  else 36

/-- A digit of the base. -/
def isDigit (base : ℕ) (b : UInt8) : Bool := decide (digitOf b < base)

/-- The value of a run of digits. -/
def valueOf (base : ℕ) (digits : List UInt8) : ℕ :=
  digits.foldl (fun value b => value * base + digitOf b) 0

/-- The C string at the start of a buffer. -/
def cString (buffer : List UInt8) : List UInt8 := buffer.takeWhile fun b => b != 0

/-- An optional sign, and whether it is a minus. -/
def takeSign : List UInt8 → Bool × List UInt8
  | [] => (false, [])
  | b :: text =>
    if b = 45 then (true, text) else if b = 43 then (false, text) else (false, b :: text)

/-- The prefix `0x` of base 16, where a digit follows it. -/
def dropHexPrefix : List UInt8 → List UInt8
  | 48 :: x :: d :: text =>
    if (x = 120 ∨ x = 88) ∧ isDigit 16 d then d :: text else 48 :: x :: d :: text
  | text => text

/-- What a conversion makes of its text. -/
inductive Conversion
  | number (value : ℤ) (rest : List UInt8)
  | noMatch
  | ended
  deriving Repr, DecidableEq

/-- An integer conversion of `sscanf` in base 10 or 16: `ended` is an input failure, before any
character that is not white space. -/
def scanInt (base : ℕ) (text : List UInt8) : Conversion :=
  match text.dropWhile isSpace with
  | [] => .ended
  | b :: rest =>
    let signed := takeSign (b :: rest)
    let body := if base = 16 then dropHexPrefix signed.2 else signed.2
    match body.takeWhile (isDigit base) with
    | [] => .noMatch
    | digits =>
      .number (if signed.1 then -valueOf base digits else valueOf base digits)
        (body.dropWhile (isDigit base))

/-- `strtol` clamps to the range of `long`. -/
def clampLong (x : ℤ) : ℤ := max (-2 ^ 63) (min x (2 ^ 63 - 1))

/-- `%d`: the value of `strtol`, cut to an `int`. -/
def intOf (x : ℤ) : ℤ := toSigned 32 (clampLong x)

/-- `%x`: the value of `strtoul`, cut to an `unsigned int`. -/
def unsignedOf (x : ℤ) : ℤ := toUnsigned 32 (if 2 ^ 64 ≤ |x| then 2 ^ 64 - 1 else x)

/-- `strtoul` with a base that the text tells: the value, and the rest of the text. -/
def strtoul (text : List UInt8) : ℕ × List UInt8 :=
  let signed := takeSign (text.dropWhile isSpace)
  let body := dropHexPrefix signed.2
  let base := if body ≠ signed.2 then 16 else if body.head? = some 48 then 8 else 10
  let digits := body.takeWhile (isDigit base)
  if digits = [] then (0, text)
  else
    let value := valueOf base digits
    (if 2 ^ 64 ≤ value then 2 ^ 64 - 1 else if signed.1 then (2 ^ 64 - value) % 2 ^ 64 else value,
      body.dropWhile (isDigit base))

/-- `atoi`. -/
def atoi (text : List UInt8) : ℤ :=
  match scanInt 10 text with
  | .number value _ => intOf value
  | _ => 0

/-- `strtok` with one delimiter: the parts of the text that are not empty. -/
def strtok (delim : UInt8) (text : List UInt8) : List (List UInt8) :=
  (text.splitOn delim).filter fun part => decide (part ≠ [])

/-- `strtok` with several delimiters. -/
def strtokAny (delims text : List UInt8) : List (List UInt8) :=
  (text.splitOnP fun b => decide (b ∈ delims)).filter fun part => decide (part ≠ [])

/-- Parts that are joined are cut again. -/
theorem strtok_intercalate {delim : UInt8} {parts : List (List UInt8)} (hne : parts ≠ [])
    (hparts : ∀ part ∈ parts, part ≠ [] ∧ delim ∉ part) :
    strtok delim ([delim].intercalate parts) = parts := by
  rw [strtok, List.splitOn_intercalate delim (fun part hmem => (hparts part hmem).2) hne]
  exact List.filter_eq_self.mpr fun part hmem => decide_eq_true (hparts part hmem).1

theorem takeSign_append {text : List UInt8} (h : text ≠ []) (more : List UInt8) :
    takeSign (text ++ more) = ((takeSign text).1, (takeSign text).2 ++ more) := by
  obtain ⟨b, rest, rfl⟩ := List.exists_cons_of_ne_nil h
  simp only [List.cons_append, takeSign]
  split_ifs <;> rfl

/-- More text after a number does not take the number away. -/
theorem exists_scanInt_append {text : List UInt8} {value : ℤ} {rest : List UInt8}
    (h : scanInt 10 text = .number value rest) (more : List UInt8) :
    ∃ value' rest', scanInt 10 (text ++ more) = .number value' rest' := by
  rw [scanInt] at h
  rcases hskip : text.dropWhile isSpace with _ | ⟨b, after⟩
  · simp [hskip] at h
  have happend : (text ++ more).dropWhile isSpace = b :: after ++ more := by
    rw [List.dropWhile_append, hskip]
    rfl
  have hsign := takeSign_append (List.cons_ne_nil b after) more
  simp only [hskip, show (10 : ℕ) ≠ 16 by decide, if_false] at h
  rcases hdigits : (takeSign (b :: after)).2.takeWhile (isDigit 10) with _ | ⟨d, digits⟩
  · simp [hdigits] at h
  rcases hbody : (takeSign (b :: after)).2 with _ | ⟨c, body⟩
  · simp [hbody] at hdigits
  rw [hbody, List.takeWhile_cons] at hdigits
  split_ifs at hdigits with hc
  rw [scanInt, happend]
  rw [List.cons_append] at hsign ⊢
  simp only [hsign, hbody, show (10 : ℕ) ≠ 16 by decide, if_false, List.cons_append,
    List.takeWhile_cons, hc, if_true]
  exact ⟨_, _, rfl⟩

/-- The string at the beginning of a memory goes on where a text without a terminator ends. -/
theorem exists_cString_append (text memory : List UInt8) :
    ∃ more, cString (text ++ memory) = cString text ++ more := by
  rw [cString, cString, List.takeWhile_append]
  split_ifs with hfull
  · exact ⟨_, by rw [(List.takeWhile_prefix _).eq_of_length hfull]⟩
  · exact ⟨[], (List.append_nil _).symm⟩

/-! ### Decimal texts -/

/-- The character of a decimal digit. -/
def digitChar (d : ℕ) : UInt8 := UInt8.ofNat (48 + d)

/-- `%u`. -/
def decimal (n : ℕ) : List UInt8 :=
  if n = 0 then [digitChar 0] else (Nat.digits 10 n).reverse.map digitChar

/-- `%d` and `%ld`. -/
def signedDecimal (x : ℤ) : List UInt8 :=
  if x < 0 then 45 :: decimal x.natAbs else decimal x.natAbs

/-- The last digits of a number, as many as asked for. -/
def lastDigits : ℕ → ℕ → List UInt8
  | 0, _ => []
  | k + 1, n => lastDigits k (n / 10) ++ [digitChar (n % 10)]

@[simp] theorem length_lastDigits (k n : ℕ) : (lastDigits k n).length = k := by
  induction k generalizing n with
  | zero => rfl
  | succ k ih => rw [lastDigits, List.length_append, ih, List.length_singleton]

theorem length_decimal_le {n k : ℕ} (hk : 0 < k) (h : n < 10 ^ k) : (decimal n).length ≤ k := by
  rw [decimal]
  split_ifs with hn
  · exact hk
  · rw [List.length_map, List.length_reverse]
    exact (Nat.digits_length_le_iff (by decide) n).mpr h

/-! ### Reading decimal texts -/

/-- A decimal digit. -/
def IsDecimal (b : UInt8) : Prop := 48 ≤ b ∧ b ≤ 57

instance (b : UInt8) : Decidable (IsDecimal b) := inferInstanceAs (Decidable (_ ∧ _))

theorem isDecimal_digitChar {d : ℕ} (h : d < 10) :
    IsDecimal (digitChar d) ∧ digitOf (digitChar d) = d := by
  interval_cases d <;> decide

theorem isDecimal_of_mem_decimal {n : ℕ} {b : UInt8} (h : b ∈ decimal n) : IsDecimal b := by
  rw [decimal] at h
  split_ifs at h
  · rw [List.mem_singleton.mp h]
    decide
  · obtain ⟨d, hd, rfl⟩ := List.mem_map.mp h
    exact (isDecimal_digitChar (Nat.digits_lt_base (by decide) (List.mem_reverse.mp hd))).1

theorem isDecimal_of_mem_lastDigits {k n : ℕ} {b : UInt8} (h : b ∈ lastDigits k n) :
    IsDecimal b := by
  induction k generalizing n with
  | zero => cases h
  | succ k ih =>
    rw [lastDigits] at h
    rcases List.mem_append.mp h with h | h
    · exact ih h
    · rw [List.mem_singleton.mp h]
      exact (isDecimal_digitChar (Nat.mod_lt _ (by decide))).1

theorem toNat_of_isDecimal {b : UInt8} (h : IsDecimal b) : 48 ≤ b.toNat ∧ b.toNat ≤ 57 := by
  obtain ⟨hlo, hhi⟩ := h
  rw [UInt8.le_iff_toNat_le] at hlo hhi
  exact ⟨hlo, hhi⟩

theorem isDigit_of_isDecimal {b : UInt8} (h : IsDecimal b) : isDigit 10 b = true := by
  have hnat := toNat_of_isDecimal h
  rw [isDigit, digitOf, if_pos (show 48 ≤ b ∧ b ≤ 57 from h), decide_eq_true_eq]
  omega

/-- A digit is no other character. -/
theorem ne_of_isDecimal {b c : UInt8} (h : IsDecimal b) (hc : ¬ IsDecimal c) : b ≠ c := by
  rintro rfl
  exact hc h

theorem isSpace_of_isDecimal {b : UInt8} (h : IsDecimal b) : isSpace b = false := by
  have hnat := toNat_of_isDecimal h
  have hspace : b ≠ 32 := ne_of_isDecimal h (by decide)
  have hhi : ¬ b ≤ 13 := by
    rw [UInt8.le_iff_toNat_le]
    simp
    omega
  simp [isSpace, hspace, hhi]

theorem decimal_ne_nil (n : ℕ) : decimal n ≠ [] := by
  rw [decimal]
  split_ifs with hn
  · exact List.cons_ne_nil _ _
  · simp [Nat.digits_ne_nil_iff_ne_zero.mpr hn]

theorem valueOf_foldl (base value : ℕ) (digits : List UInt8) :
    digits.foldl (fun value b => value * base + digitOf b) value
      = value * base ^ digits.length + valueOf base digits := by
  induction digits generalizing value with
  | nil => simp [valueOf]
  | cons b digits ih =>
    rw [valueOf, List.foldl_cons, List.foldl_cons, ih, ih (0 * base + digitOf b),
      List.length_cons, pow_succ]
    ring

theorem valueOf_append (base : ℕ) (digits more : List UInt8) :
    valueOf base (digits ++ more)
      = valueOf base digits * base ^ more.length + valueOf base more := by
  rw [valueOf, List.foldl_append, valueOf_foldl]
  rfl

theorem valueOf_singleton (base : ℕ) (b : UInt8) : valueOf base [b] = digitOf b := by
  simp [valueOf]

theorem valueOf_reverse_map {digits : List ℕ} (h : ∀ d ∈ digits, d < 10) :
    valueOf 10 (digits.reverse.map digitChar) = Nat.ofDigits 10 digits := by
  induction digits with
  | nil => rfl
  | cons d digits ih =>
    have hd := (isDecimal_digitChar (h d List.mem_cons_self)).2
    rw [List.reverse_cons, List.map_append, valueOf_append,
      ih fun d hd => h d (List.mem_cons_of_mem _ hd), List.map_singleton, valueOf_singleton, hd,
      List.length_singleton, Nat.ofDigits_cons]
    ring

/-- **The round trip of a decimal text.** -/
theorem valueOf_decimal (n : ℕ) : valueOf 10 (decimal n) = n := by
  rw [decimal]
  split_ifs with hn
  · rw [hn]
    decide
  · rw [valueOf_reverse_map fun d hd => Nat.digits_lt_base (by decide) hd, Nat.ofDigits_digits]

theorem valueOf_lastDigits (k n : ℕ) : valueOf 10 (lastDigits k n) = n % 10 ^ k := by
  induction k generalizing n with
  | zero => simp [lastDigits, valueOf, Nat.mod_one]
  | succ k ih =>
    have hd := (isDecimal_digitChar (Nat.mod_lt n (by decide : 0 < 10))).2
    rw [lastDigits, valueOf_append, ih, valueOf_singleton, hd, List.length_singleton, pow_one,
      pow_succ', Nat.mod_mul]
    ring

/-- The digits of a number end where something else follows. -/
theorem takeWhile_decimal {digits : List UInt8} (rest : List UInt8)
    (hdigits : ∀ b ∈ digits, IsDecimal b) (hrest : ∀ b ∈ rest.head?, isDigit 10 b = false) :
    (digits ++ rest).takeWhile (isDigit 10) = digits ∧
      (digits ++ rest).dropWhile (isDigit 10) = rest := by
  have hall : ∀ b ∈ digits, isDigit 10 b = true := fun b hb => isDigit_of_isDecimal (hdigits b hb)
  rw [List.takeWhile_append_of_pos hall, List.dropWhile_append_of_pos hall]
  rcases rest with _ | ⟨b, rest⟩
  · simp
  · simp [hrest b rfl]

/-- A text that begins with a digit begins with neither white space nor a sign. -/
theorem dropWhile_isSpace_decimal {digits : List UInt8} (hdigits : ∀ b ∈ digits, IsDecimal b)
    (hne : digits ≠ []) (rest : List UInt8) :
    (digits ++ rest).dropWhile isSpace = digits ++ rest ∧
      takeSign (digits ++ rest) = (false, digits ++ rest) := by
  obtain ⟨b, digits, rfl⟩ := List.exists_cons_of_ne_nil hne
  have hb := hdigits b List.mem_cons_self
  have hminus : b ≠ 45 := ne_of_isDecimal hb (by decide)
  have hplus : b ≠ 43 := ne_of_isDecimal hb (by decide)
  simp [isSpace_of_isDecimal hb, takeSign, hminus, hplus]

/-- **The round trip of `%d`.** -/
theorem scanInt_signedDecimal (x : ℤ) : scanInt 10 (signedDecimal x) = .number x [] := by
  have hdigits : ∀ b ∈ decimal x.natAbs, IsDecimal b := fun b hb => isDecimal_of_mem_decimal hb
  have hne := decimal_ne_nil x.natAbs
  obtain ⟨hskip, hsign⟩ := dropWhile_isSpace_decimal hdigits hne []
  obtain ⟨htake, hdrop⟩ := takeWhile_decimal [] hdigits (by simp)
  rw [List.append_nil] at hskip hsign htake hdrop
  obtain ⟨b, digits, hcons⟩ := List.exists_cons_of_ne_nil hne
  have hvalue := valueOf_decimal x.natAbs
  rw [hcons] at hskip hsign htake hdrop hvalue
  rw [signedDecimal, hcons]
  split_ifs with hx
  · have hminus : (45 :: b :: digits).dropWhile isSpace = 45 :: b :: digits := by
      rw [List.dropWhile_cons_of_neg (by decide)]
    simp only [scanInt, hminus, takeSign, if_true, show (10 : ℕ) ≠ 16 by decide, if_false, htake,
      hdrop, hvalue]
    congr 1
    omega
  · simp only [scanInt, hskip, hsign, show (10 : ℕ) ≠ 16 by decide, if_false, htake, hdrop, hvalue,
      Bool.false_eq_true]
    congr 1
    omega

theorem atoi_signedDecimal {x : ℤ} (hlo : -2 ^ 31 ≤ x) (hhi : x < 2 ^ 31) :
    atoi (signedDecimal x) = x := by
  have hclamp : clampLong x = x := by
    rw [clampLong]
    omega
  rw [atoi, scanInt_signedDecimal]
  dsimp only
  rw [intOf, hclamp]
  exact toSigned_eq_self (by decide) hlo hhi

/-- The first digit of a positive number is not zero. -/
theorem head?_decimal_ne {n : ℕ} (hn : n ≠ 0) : (decimal n).head? ≠ some 48 := by
  rw [decimal, if_neg hn, List.head?_map, List.head?_reverse,
    List.getLast?_eq_getLast_of_ne_nil (Nat.digits_ne_nil_iff_ne_zero.mpr hn)]
  have hlast := Nat.getLast_digit_ne_zero 10 hn
  have hlt := Nat.digits_lt_base (by decide : 1 < 10)
    (List.getLast_mem (Nat.digits_ne_nil_iff_ne_zero.mpr hn))
  generalize (Nat.digits 10 n).getLast _ = d at hlast hlt ⊢
  rw [Option.map_some]
  interval_cases d <;> first | exact absurd rfl hlast | decide

/-- **The round trip of `%u`** through `strtoul`. -/
theorem strtoul_decimal {n : ℕ} (hn : n < 2 ^ 64) : strtoul (decimal n) = (n, []) := by
  rcases Nat.eq_zero_or_pos n with rfl | hpos
  · decide
  have hdigits : ∀ b ∈ decimal n, IsDecimal b := fun b hb => isDecimal_of_mem_decimal hb
  have hne := decimal_ne_nil n
  obtain ⟨hskip, hsign⟩ := dropWhile_isSpace_decimal hdigits hne []
  obtain ⟨htake, hdrop⟩ := takeWhile_decimal [] hdigits (by simp)
  rw [List.append_nil] at hskip hsign htake hdrop
  have hhead := head?_decimal_ne hpos.ne'
  have hprefix : dropHexPrefix (decimal n) = decimal n := by
    obtain ⟨b, digits, hcons⟩ := List.exists_cons_of_ne_nil hne
    rw [hcons] at hhead ⊢
    rw [List.head?_cons] at hhead
    rw [dropHexPrefix]
    rintro x d text heq
    exact absurd (congrArg some (List.cons.inj heq).1) hhead
  have hvalue := valueOf_decimal n
  simp only [strtoul, hskip, hsign, hprefix, ne_eq, not_true_eq_false, if_false, hhead, htake, hne,
    hdrop, hvalue, Bool.false_eq_true, if_neg (not_le.mpr hn)]

end CText
