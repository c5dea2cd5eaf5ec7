import Oscillatord.Library.CText
import Oscillatord.Library.Lists

/-!
# Where a number ends

A number that is converted at the beginning of a text goes on as long as its digits do. When a
character of the text ends it, nothing that follows the text changes it (`scanInt_append`). When
none does, the next digit becomes its last (`scanInt_append_digit`), and so does every one after it
(`scanInt_append_of_digits`).
-/

namespace CText

/-! ### The digits of a text -/

/-- The text without its white space and sign. -/
def unsignedBody (text : List UInt8) : List UInt8 := (takeSign (text.dropWhile isSpace)).2

/-- The text from its digits on. -/
def intBody (base : ℕ) (text : List UInt8) : List UInt8 :=
  if base = 16 then dropHexPrefix (unsignedBody text) else unsignedBody text

/-- The text has a minus sign. -/
def isNegative (text : List UInt8) : Bool := (takeSign (text.dropWhile isSpace)).1

/-- The digits at the beginning of a text. -/
def intDigits (base : ℕ) (text : List UInt8) : List UInt8 :=
  (intBody base text).takeWhile (isDigit base)

/-- A number with its sign. -/
def signedValue (negative : Bool) (value : ℕ) : ℤ := if negative then -value else value

/-- A prefix of base 16 with no digit after it. -/
def BarePrefix (base : ℕ) (text : List UInt8) : Prop :=
  base = 16 ∧ (unsignedBody text = [48, 120] ∨ unsignedBody text = [48, 88])

instance (base : ℕ) (text : List UInt8) : Decidable (BarePrefix base text) :=
  inferInstanceAs (Decidable (_ ∧ _))

/-- A character of the text ends its number, or shows that there is none. -/
def NumberEnds (base : ℕ) (text : List UInt8) : Prop :=
  (intBody base text).dropWhile (isDigit base) ≠ [] ∧ ¬ BarePrefix base text

instance (base : ℕ) (text : List UInt8) : Decidable (NumberEnds base text) :=
  inferInstanceAs (Decidable (_ ∧ _))

/-- A conversion of a text with more after it. -/
def Conversion.append : Conversion → List UInt8 → Conversion
  | .number value rest, more => .number value (rest ++ more)
  | .noMatch, _ => .noMatch
  | .ended, _ => .ended

variable {base : ℕ} {text : List UInt8}

/-- The conversion in terms of the digits. -/
theorem scanInt_eq (base : ℕ) (text : List UInt8) :
    scanInt base text =
      if text.dropWhile isSpace = [] then .ended
      else if intDigits base text = [] then .noMatch
      else .number (signedValue (isNegative text) (valueOf base (intDigits base text)))
        ((intBody base text).dropWhile (isDigit base)) := by
  rw [scanInt, intDigits, intBody, unsignedBody, isNegative]
  cases hskip : text.dropWhile isSpace with
  | nil => rfl
  | cons b rest =>
    simp only [reduceCtorEq, if_false]
    split
    · next hdigits => rw [if_pos hdigits]
    · next digits hne =>
      rw [if_neg hne]
      rfl

/-! ### Texts that end their number -/

/-- A text that ends its number is not all white space. -/
theorem NumberEnds.skipped_ne (h : NumberEnds base text) : text.dropWhile isSpace ≠ [] := by
  intro hskip
  refine h.1 ?_
  simp only [intBody, unsignedBody, hskip, takeSign]
  split_ifs <;> rfl

/-- White space is the same with more after a text that is not all white space. -/
theorem dropWhile_isSpace_append (hne : text.dropWhile isSpace ≠ []) (more : List UInt8) :
    (text ++ more).dropWhile isSpace = text.dropWhile isSpace ++ more := by
  rw [List.dropWhile_append, if_neg (by simpa using hne)]

theorem unsignedBody_append (hne : text.dropWhile isSpace ≠ []) (more : List UInt8) :
    unsignedBody (text ++ more) = unsignedBody text ++ more := by
  rw [unsignedBody, dropWhile_isSpace_append hne, takeSign_append hne]
  rfl

theorem isNegative_append (hne : text.dropWhile isSpace ≠ []) (more : List UInt8) :
    isNegative (text ++ more) = isNegative text := by
  rw [isNegative, dropWhile_isSpace_append hne, takeSign_append hne]
  rfl

/-- A prefix is the same with more after it, unless the text ends within it. -/
theorem dropHexPrefix_append {body : List UInt8}
    (hends : (dropHexPrefix body).dropWhile (isDigit 16) ≠ [])
    (hbare : ¬ (body = [48, 120] ∨ body = [48, 88])) (more : List UInt8) :
    dropHexPrefix (body ++ more) = dropHexPrefix body ++ more := by
  match body with
  | [] => exact absurd rfl hends
  | [b] =>
    by_cases hb : b = 48
    · subst hb
      exact absurd (by decide) hends
    · simp [dropHexPrefix, hb]
  | [b, x] =>
    by_cases hb : b = 48
    · subst hb
      have hx : ¬ (x = 120 ∨ x = 88) := by simpa using hbare
      cases more <;> simp [dropHexPrefix, hx]
    · simp [dropHexPrefix, hb]
  | b :: x :: d :: rest =>
    by_cases hb : b = 48
    · subst hb
      simp only [List.cons_append, dropHexPrefix]
      split_ifs <;> rfl
    · simp [dropHexPrefix, hb]

theorem NumberEnds.intBody_append (h : NumberEnds base text) (more : List UInt8) :
    intBody base (text ++ more) = intBody base text ++ more := by
  have hunsigned := unsignedBody_append h.skipped_ne more
  obtain ⟨hends, hbare⟩ := h
  rw [intBody] at hends
  rw [intBody, intBody, hunsigned]
  split_ifs with hbase
  · rw [if_pos hbase, hbase] at hends
    exact dropHexPrefix_append hends (fun hshort => hbare ⟨hbase, hshort⟩) more
  · rfl

/-- **Nothing after the end of a number changes it.** -/
theorem scanInt_append (h : NumberEnds base text) (more : List UInt8) :
    scanInt base (text ++ more) = (scanInt base text).append more := by
  have hskip : (text ++ more).dropWhile isSpace ≠ [] := by
    rw [dropWhile_isSpace_append h.skipped_ne]
    exact List.append_ne_nil_of_left_ne_nil h.skipped_ne more
  have hbody := h.intBody_append more
  have hdrop : (intBody base text ++ more).dropWhile (isDigit base)
      = (intBody base text).dropWhile (isDigit base) ++ more := by
    rw [List.dropWhile_append, if_neg (by simpa using h.1)]
  have hdigits : intDigits base (text ++ more) = intDigits base text := by
    obtain ⟨c, hc, hdigit⟩ : ∃ c ∈ intBody base text, isDigit base c = false := by
      simpa [List.dropWhile_eq_nil_iff] using h.1
    rw [intDigits, hbody, Lists.takeWhile_append_of_mem hc hdigit]
    rfl
  rw [scanInt_eq, scanInt_eq, if_neg hskip, if_neg h.skipped_ne, hdigits, hbody,
    isNegative_append h.skipped_ne, hdrop]
  split_ifs <;> rfl

theorem mem_unsignedBody {c : UInt8} (hmem : c ∈ text.dropWhile isSpace)
    (hsign : c ≠ 45 ∧ c ≠ 43) : c ∈ unsignedBody text := by
  rw [unsignedBody]
  cases hskip : text.dropWhile isSpace with
  | nil => simp [hskip] at hmem
  | cons b rest =>
    rw [hskip] at hmem
    rcases List.mem_cons.mp hmem with rfl | hrest
    · simp [takeSign, hsign]
    · simp only [takeSign]
      split_ifs
      · exact hrest
      · exact hrest
      · exact List.mem_cons_of_mem b hrest

theorem mem_dropHexPrefix {body : List UInt8} {c : UInt8} (hmem : c ∈ body)
    (hplain : c ≠ 48 ∧ c ≠ 120 ∧ c ≠ 88) : c ∈ dropHexPrefix body := by
  match body, hmem with
  | [b], hone => simpa [dropHexPrefix] using hone
  | [b, x], htwo => simpa [dropHexPrefix] using htwo
  | b :: x :: d :: rest, hmore =>
    by_cases hb : b = 48
    · subst hb
      simp only [dropHexPrefix]
      split_ifs with hx
      · simpa [hplain.1, hx.1.elim (fun h => h ▸ hplain.2.1) fun h => h ▸ hplain.2.2]
          using hmore
      · exact hmore
    · simpa [dropHexPrefix, hb] using hmore

theorem mem_dropWhile_isSpace {c : UInt8} (hmem : c ∈ text) (hspace : isSpace c = false) :
    c ∈ text.dropWhile isSpace := by
  rw [← List.takeWhile_append_dropWhile (p := isSpace) (l := text)] at hmem
  refine (List.mem_append.mp hmem).resolve_left fun htake => ?_
  rw [List.mem_takeWhile_imp htake] at hspace
  cases hspace

/-- A text ends its number if it holds, after its white space, a character that is no part of
one. -/
theorem numberEnds_of_mem {c : UInt8} (hmem : c ∈ text.dropWhile isSpace)
    (hsign : c ≠ 45 ∧ c ≠ 43) (hplain : c ≠ 48 ∧ c ≠ 120 ∧ c ≠ 88)
    (hdigit : isDigit base c = false) : NumberEnds base text := by
  have hunsigned := mem_unsignedBody hmem hsign
  have hbody : c ∈ intBody base text := by
    rw [intBody]
    split_ifs
    · exact mem_dropHexPrefix hunsigned hplain
    · exact hunsigned
  constructor
  · intro hall
    have hc := List.dropWhile_eq_nil_iff.mp hall c hbody
    rw [hdigit] at hc
    cases hc
  · rintro ⟨-, hbare | hbare⟩
    · rw [hbare] at hunsigned
      simp [hplain] at hunsigned
    · rw [hbare] at hunsigned
      simp [hplain] at hunsigned

/-! ### Texts that do not -/

theorem dropWhile_isSpace_concat (text : List UInt8) {c : UInt8} (hc : IsDecimal c) :
    (text ++ [c]).dropWhile isSpace = text.dropWhile isSpace ++ [c] := by
  rw [List.dropWhile_append]
  split_ifs with hwhite
  · rw [List.isEmpty_iff.mp hwhite]
    simp [isSpace_of_isDecimal hc]
  · rfl

theorem takeSign_concat (text : List UInt8) {c : UInt8} (hc : IsDecimal c) :
    takeSign (text ++ [c]) = ((takeSign text).1, (takeSign text).2 ++ [c]) := by
  rcases eq_or_ne text [] with rfl | hne
  · simp [takeSign, ne_of_isDecimal hc (by decide : ¬ IsDecimal 45),
      ne_of_isDecimal hc (by decide : ¬ IsDecimal 43)]
  · exact takeSign_append hne [c]

theorem unsignedBody_concat (text : List UInt8) {c : UInt8} (hc : IsDecimal c) :
    unsignedBody (text ++ [c]) = unsignedBody text ++ [c] := by
  rw [unsignedBody, dropWhile_isSpace_concat text hc, takeSign_concat _ hc]
  rfl

theorem isNegative_concat (text : List UInt8) {c : UInt8} (hc : IsDecimal c) :
    isNegative (text ++ [c]) = isNegative text := by
  rw [isNegative, dropWhile_isSpace_concat text hc, takeSign_concat _ hc]
  rfl

/-- A decimal digit is one of every base from ten on. -/
theorem isDigit_of_isDecimal_of_le (hbase : 10 ≤ base) {c : UInt8} (hc : IsDecimal c) :
    isDigit base c = true := by
  have hten := isDigit_of_isDecimal hc
  simp only [isDigit, decide_eq_true_eq] at hten ⊢
  omega

/-- A digit that follows completes a bare prefix, and else comes after it. -/
theorem dropHexPrefix_concat (body : List UInt8) {c : UInt8} (hc : IsDecimal c) :
    dropHexPrefix (body ++ [c]) =
      if body = [48, 120] ∨ body = [48, 88] then [c] else dropHexPrefix body ++ [c] := by
  have hdigit := isDigit_of_isDecimal_of_le (by decide : 10 ≤ 16) hc
  match body with
  | [] => simp [dropHexPrefix]
  | [b] => simp [dropHexPrefix]
  | [b, x] =>
    by_cases hb : b = 48
    · subst hb
      by_cases hx : x = 120 ∨ x = 88
      · simp [dropHexPrefix, hx, hdigit]
      · simp [dropHexPrefix, hx]
    · simp [dropHexPrefix, hb]
  | b :: x :: d :: rest =>
    by_cases hb : b = 48
    · subst hb
      simp only [List.cons_append, dropHexPrefix]
      split_ifs <;> simp_all
    · simp [dropHexPrefix, hb]

/-- Where no character ends the number, the text is all digits from its digits on, or is a bare
prefix. -/
theorem intDigits_of_not_ends (h : ¬ NumberEnds base text) (hbare : ¬ BarePrefix base text) :
    intDigits base text = intBody base text := by
  have hall : (intBody base text).dropWhile (isDigit base) = [] := by
    by_contra hne
    exact h ⟨hne, hbare⟩
  exact List.takeWhile_eq_self_iff.mpr (List.dropWhile_eq_nil_iff.mp hall)

/-- A digit after a bare prefix is the only one of its number. -/
theorem intBody_concat_of_barePrefix (h : BarePrefix base text) {c : UInt8} (hc : IsDecimal c) :
    intBody base (text ++ [c]) = [c] := by
  rw [intBody, if_pos h.1, unsignedBody_concat text hc, dropHexPrefix_concat _ hc, if_pos h.2]

theorem intBody_concat (h : ¬ BarePrefix base text) {c : UInt8} (hc : IsDecimal c) :
    intBody base (text ++ [c]) = intBody base text ++ [c] := by
  rw [intBody, intBody, unsignedBody_concat text hc]
  split_ifs with hsixteen
  · rw [dropHexPrefix_concat _ hc, if_neg fun hshort => h ⟨hsixteen, hshort⟩]
  · rfl

/-- The zero of a bare prefix is all there is of its number. -/
theorem valueOf_intDigits_of_barePrefix (h : BarePrefix base text) :
    valueOf base (intDigits base text) = 0 := by
  obtain ⟨rfl, hbody⟩ := h
  rw [intDigits, intBody, if_pos rfl]
  rcases hbody with hbody | hbody <;> rw [hbody] <;> decide

/-- Where no character ends the number, the text with a digit after it is that digit from its
prefix on, or is all digits from its digits on. -/
theorem intBody_concat_of_not_ends (hbase : 10 ≤ base) (h : ¬ NumberEnds base text) {c : UInt8}
    (hc : IsDecimal c) :
    (∀ b ∈ intBody base (text ++ [c]), isDigit base b = true) ∧
      valueOf base (intBody base (text ++ [c])) =
        valueOf base (intDigits base text) * base + digitOf c := by
  have hdigit := isDigit_of_isDecimal_of_le hbase hc
  by_cases hbare : BarePrefix base text
  · rw [intBody_concat_of_barePrefix hbare hc, valueOf_intDigits_of_barePrefix hbare, zero_mul,
      zero_add, valueOf_singleton]
    simpa using hdigit
  · have hall := intDigits_of_not_ends h hbare
    rw [intBody_concat hbare hc]
    constructor
    · intro b hb
      rcases List.mem_append.mp hb with hb | hb
      · exact List.takeWhile_eq_self_iff.mp hall b hb
      · rwa [List.mem_singleton.mp hb]
    · rw [hall, valueOf_append, valueOf_singleton, List.length_singleton, pow_one]

theorem intBody_concat_ne_nil {c : UInt8} (hc : IsDecimal c) :
    intBody base (text ++ [c]) ≠ [] := by
  by_cases hbare : BarePrefix base text
  · rw [intBody_concat_of_barePrefix hbare hc]
    exact List.cons_ne_nil c []
  · rw [intBody_concat hbare hc]
    exact List.append_ne_nil_of_right_ne_nil _ (List.cons_ne_nil c [])

/-- **The next digit becomes the last one of the number.** -/
theorem scanInt_append_digit (hbase : 10 ≤ base) (h : ¬ NumberEnds base text) {c : UInt8}
    (hc : IsDecimal c) :
    scanInt base (text ++ [c]) =
      .number (signedValue (isNegative text)
        (valueOf base (intDigits base text) * base + digitOf c)) [] := by
  have hskip : (text ++ [c]).dropWhile isSpace ≠ [] := by
    rw [dropWhile_isSpace_concat text hc]
    exact List.append_ne_nil_of_right_ne_nil _ (List.cons_ne_nil c [])
  obtain ⟨hall, hvalue⟩ := intBody_concat_of_not_ends hbase h hc
  have hdigits : intDigits base (text ++ [c]) = intBody base (text ++ [c]) :=
    List.takeWhile_eq_self_iff.mpr hall
  rw [scanInt_eq, if_neg hskip, hdigits, if_neg (intBody_concat_ne_nil hc), hvalue,
    isNegative_concat text hc, List.dropWhile_eq_nil_iff.mpr hall]

/-- A decimal number takes in all digits that follow it. -/
theorem scanInt_append_of_digits (h : ¬ NumberEnds 10 text) (hdigits : intDigits 10 text ≠ [])
    (more : List UInt8) :
    scanInt 10 (text ++ more) =
      .number (signedValue (isNegative text)
          (valueOf 10 (intDigits 10 text ++ more.takeWhile (isDigit 10))))
        (more.dropWhile (isDigit 10)) := by
  have hbare : ¬ BarePrefix 10 text := fun hbare => absurd hbare.1 (by decide)
  have hbody : intBody 10 text = unsignedBody text := if_neg (by decide)
  have hall := intDigits_of_not_ends h hbare
  have hne : text.dropWhile isSpace ≠ [] := by
    intro hskip
    refine hdigits ?_
    rw [hall, hbody, unsignedBody, hskip]
    rfl
  have hbody' : intBody 10 (text ++ more) = intDigits 10 text ++ more := by
    rw [hall, hbody, intBody, if_neg (by decide), unsignedBody_append hne]
  have htake : intDigits 10 (text ++ more)
      = intDigits 10 text ++ more.takeWhile (isDigit 10) := by
    rw [intDigits, hbody', List.takeWhile_append_of_pos (fun b hb => List.mem_takeWhile_imp hb)]
  have hdrop : (intBody 10 (text ++ more)).dropWhile (isDigit 10)
      = more.dropWhile (isDigit 10) := by
    rw [hbody', List.dropWhile_append_of_pos (fun b hb => List.mem_takeWhile_imp hb)]
  have hne' : (text ++ more).dropWhile isSpace ≠ [] := by
    rw [dropWhile_isSpace_append hne]
    exact List.append_ne_nil_of_left_ne_nil hne more
  rw [scanInt_eq, if_neg hne', htake, if_neg (List.append_ne_nil_of_left_ne_nil hdigits _),
    isNegative_append hne, hdrop]

/-! ### Digits and terminators -/

/-- The value of so many digits. -/
theorem valueOf_lt {digits : List UInt8} (h : ∀ b ∈ digits, isDigit base b = true) :
    valueOf base digits < base ^ digits.length := by
  induction digits using List.reverseRecOn with
  | nil => exact Nat.one_pos
  | append_singleton digits b ih =>
    have hb : digitOf b < base := by
      simpa [isDigit] using h b (by simp)
    have hlt := ih fun c hc => h c (List.mem_append_left _ hc)
    rw [valueOf_append, valueOf_singleton, List.length_append, List.length_singleton, pow_one,
      pow_succ]
    calc valueOf base digits * base + digitOf b
        < valueOf base digits * base + base := by omega
      _ = (valueOf base digits + 1) * base := by ring
      _ ≤ base ^ digits.length * base := Nat.mul_le_mul_right base hlt

theorem unsignedOf_signedValue {value : ℕ} (h : value < 2 ^ 64) (negative : Bool) :
    unsignedOf (signedValue negative value) = signedValue negative value % 2 ^ 32 := by
  have habs : |signedValue negative value| = value := by
    cases negative <;> simp [signedValue]
  have hsmall : ¬ (2 : ℤ) ^ 64 ≤ |signedValue negative value| := by
    rw [habs]
    exact_mod_cast h.not_ge
  rw [unsignedOf, if_neg hsmall]
  rfl

theorem length_intDigits_le (base : ℕ) (text : List UInt8) :
    (intDigits base text).length ≤ text.length := by
  have hskip : (text.dropWhile isSpace).length ≤ text.length :=
    (List.dropWhile_suffix isSpace).length_le
  have hsign : ∀ body : List UInt8, (takeSign body).2.length ≤ body.length := by
    intro body
    cases body with
    | nil => exact le_rfl
    | cons b body =>
      simp only [takeSign]
      split_ifs <;> simp
  have hplain : ∀ body : List UInt8, (dropHexPrefix body).length ≤ body.length := by
    intro body
    rw [dropHexPrefix.eq_def]
    split
    · split_ifs <;> simp
    · exact le_rfl
  have hbody : (intBody base text).length ≤ (unsignedBody text).length := by
    rw [intBody]
    split_ifs
    · exact hplain _
    · exact le_rfl
  exact (List.takeWhile_prefix _).length_le.trans (hbody.trans ((hsign _).trans hskip))

/-- A text with a terminator ends its string. -/
theorem cString_append_of_mem (h : 0 ∈ text) (more : List UInt8) :
    cString (text ++ more) = cString text :=
  Lists.takeWhile_append_of_mem h rfl more

/-- A text without one does not. -/
theorem cString_append_of_notMem (h : 0 ∉ text) (more : List UInt8) :
    cString (text ++ more) = text ++ cString more :=
  List.takeWhile_append_of_pos fun b hb => by
    have hne : b ≠ 0 := fun hzero => h (hzero ▸ hb)
    simpa using hne

/-! ### Numbers too large to store -/

/-- What `%ld` or `%d` stores. -/
def storedOf (wide : Bool) : ℤ → ℤ := if wide then clampLong else intOf

/-- No further digit changes what is stored of the number. -/
def Steady (wide : Bool) (text : List UInt8) : Prop :=
  intDigits 10 text ≠ [] ∧ ∀ d < 10,
    storedOf wide (signedValue (isNegative text) (valueOf 10 (intDigits 10 text) * 10 + d))
      = storedOf wide (signedValue (isNegative text) (valueOf 10 (intDigits 10 text)))

theorem clampLong_eq_self {x : ℤ} (hlo : -9223372036854775808 ≤ x)
    (hhi : x ≤ 9223372036854775807) : clampLong x = x := by
  rw [clampLong]
  norm_num
  omega

theorem emod_eq_of_toSigned_eq {x y : ℤ} (h : CNumber.toSigned 32 x = CNumber.toSigned 32 y) :
    x % 4294967296 = y % 4294967296 := by
  have hmod : ∀ z, CNumber.toSigned 32 z % 4294967296 = z % 4294967296 := fun z => by
    rw [CNumber.toSigned]
    exact Int.bmod_emod
  rw [← hmod x, h, hmod]

/-- Two numbers in a row are stored alike only where both are clamped. -/
theorem not_between_of_storedOf_eq {wide : Bool} {x : ℤ}
    (h : storedOf wide x = storedOf wide (x + 1)) :
    x < -9223372036854775808 ∨ 9223372036854775807 ≤ x := by
  by_contra hin
  have hclamp : clampLong x = x := clampLong_eq_self (by omega) (by omega)
  have hclamp' : clampLong (x + 1) = x + 1 := clampLong_eq_self (by omega) (by omega)
  cases wide with
  | true =>
    rw [storedOf, if_pos rfl, hclamp, hclamp'] at h
    omega
  | false =>
    have hmod := emod_eq_of_toSigned_eq (x := x) (y := x + 1)
      (by simpa [storedOf, intOf, hclamp, hclamp'] using h)
    omega

theorem storedOf_congr {x y : ℤ} (h : clampLong x = clampLong y) (wide : Bool) :
    storedOf wide x = storedOf wide y := by
  cases wide <;> simp [storedOf, intOf, h]

/-- The numbers from a clamped one on are stored alike. -/
theorem storedOf_signedValue_eq {value larger : ℕ} (negative : Bool)
    (hvalue : 9223372036854775808 ≤ value) (hle : value ≤ larger) (wide : Bool) :
    storedOf wide (signedValue negative larger) = storedOf wide (signedValue negative value) := by
  refine storedOf_congr ?_ wide
  cases negative <;> simp only [signedValue, clampLong] <;> norm_num <;> omega

/-- A number that no digit changes is so large that no further digits do. -/
theorem Steady.storedOf_eq {wide : Bool} (h : Steady wide text) {digits : List UInt8}
    (hdigits : ∀ b ∈ digits, isDigit 10 b = true) :
    storedOf wide (signedValue (isNegative text) (valueOf 10 (intDigits 10 text ++ digits)))
      = storedOf wide (signedValue (isNegative text) (valueOf 10 (intDigits 10 text))) := by
  rcases eq_or_ne digits [] with rfl | hne
  · rw [List.append_nil]
  obtain ⟨-, hsteady⟩ := h
  rw [valueOf_append]
  generalize valueOf 10 (intDigits 10 text) = value at hsteady ⊢
  -- Of two numbers in a row, at least one is clamped, and the multiple of ten below them too.
  have hlarge : 9223372036854775808 ≤ value * 10 := by
    have hrow := (hsteady 1 (by decide)).trans (hsteady 2 (by decide)).symm
    cases hnegative : isNegative text with
    | false =>
      rw [hnegative] at hrow
      have hclamped := not_between_of_storedOf_eq (x := (value * 10 + 1 : ℕ))
        (by simpa [signedValue, add_assoc] using hrow)
      omega
    | true =>
      rw [hnegative] at hrow
      have hclamped := not_between_of_storedOf_eq (x := -(value * 10 + 2 : ℕ))
        (by
          refine Eq.trans hrow.symm (congrArg _ ?_)
          simp only [signedValue]
          push_cast
          ring)
      omega
  have hpow : 10 ≤ 10 ^ digits.length :=
    Nat.le_self_pow (List.length_pos_iff.mpr hne).ne' 10
  have hle : value * 10 ≤ value * 10 ^ digits.length + valueOf 10 digits :=
    (Nat.mul_le_mul_left value hpow).trans (Nat.le_add_right _ _)
  rw [storedOf_signedValue_eq _ hlarge hle, ← hsteady 0 (by decide), add_zero]

end CText
