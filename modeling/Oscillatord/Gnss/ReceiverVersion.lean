import Mathlib.Data.Prod.Lex
import Oscillatord.Config.ConfigFile
import Oscillatord.Library.FormatScan

/-!
# The version of the receiver

`parse_receiver_version` takes the version out of the text that the receiver sends, a word and two
numbers with a dot between them, and `get_default_value_from_config` chooses the configuration by
it. The numbers are decimal, and the tests of the repository have some that begin with `0`; but the
conversion is `%i`, for which such a number is octal.

`receiverVersionLaw_iff` is when the version is the decimal one: neither number begins with `0`,
unless it is below eight.
-/

namespace Oscillatord

open CText FormatScan

/-! ### The version -/

/-- `receiver_version_major` and `receiver_version_minor`. -/
structure ReceiverVersion where
  major : ℤ
  minor : ℤ
  deriving Repr, DecidableEq

def setMajor (n : ℤ) (version : ReceiverVersion) : ReceiverVersion := { version with major := n }

def setMinor (n : ℤ) (version : ReceiverVersion) : ReceiverVersion := { version with minor := n }

/-- `parse_receiver_version`: the return value, and the version that `version` becomes. The format
is `%*s %i.%i`. -/
def parseReceiverVersion (textToCheck : Option (List UInt8)) (version : ReceiverVersion) :
    Bool × ReceiverVersion :=
  match textToCheck with
  | none => (false, version)
  | some text =>
    match text.dropWhile isSpace with
    | [] => (false, version)
    | b :: word =>
      let stores := scan 46 [anyInt setMajor, anyInt setMinor]
        ((b :: word).dropWhile fun c => !isSpace c)
      (decide (stores.length = 2), storeAll stores version)

/-- The version that `gnss_init` has for the text of `rxGetVerStr`, when it gets one. -/
def gnssVersion (verStr : Option (List UInt8)) : ReceiverVersion :=
  (parseReceiverVersion verStr { major := -1, minor := -1 }).2

/-- The test of `get_default_value_from_config` for the configuration of the version 2.20. -/
def isV220 (version : ReceiverVersion) : Bool :=
  decide (version.major = 2 ∧ version.minor ≥ 20) || decide (version.major ≥ 3)

/-! ### The law -/

/-- The text of a version: a word, white space and the digits of two numbers with a dot between
them. -/
structure VersionText (text major minor : List UInt8) : Prop where
  parts : ∃ blanks word spaces rest,
    text = blanks ++ word ++ spaces ++ major ++ 46 :: minor ++ rest ∧
    (∀ b ∈ blanks, isSpace b = true) ∧ (word ≠ [] ∧ ∀ b ∈ word, isSpace b = false) ∧
    (spaces ≠ [] ∧ ∀ b ∈ spaces, isSpace b = true) ∧ EndsDigits rest
  major : major ≠ [] ∧ ∀ b ∈ major, IsDecimal b
  minor : minor ≠ [] ∧ ∀ b ∈ minor, IsDecimal b

/-- **The law of the version**: it is the one of the text, in decimal, and the configuration of the
version 2.20 is the one from there on. -/
structure ReceiverVersionLaw (text : List UInt8) (major minor : ℕ) : Prop where
  parsed : ∀ version,
    parseReceiverVersion (some text) version = (true, { major := major, minor := minor })
  selected : isV220 (gnssVersion (some text)) = true ↔ toLex (2, 20) ≤ toLex (major, minor)

/-! ### What is parsed -/

variable {text major minor : List UInt8}

/-- What `scan` finds before the first number. -/
theorem VersionText.skip (h : VersionText text major minor) :
    ∃ b word spaces rest, text.dropWhile isSpace = b :: word ∧
      (b :: word).dropWhile (fun c => !isSpace c) = spaces ++ (major ++ 46 :: (minor ++ rest)) ∧
      (∀ c ∈ spaces, isSpace c = true) ∧ EndsDigits rest := by
  obtain ⟨blanks, word, spaces, rest, rfl, hblanks, ⟨hword, hwords⟩, ⟨hspace, hspaces⟩, hrest⟩ :=
    h.parts
  obtain ⟨b, word, rfl⟩ := List.exists_cons_of_ne_nil hword
  obtain ⟨s, spaces, rfl⟩ := List.exists_cons_of_ne_nil hspace
  refine ⟨b, word ++ (s :: spaces ++ (major ++ 46 :: (minor ++ rest))), s :: spaces, rest, ?_, ?_,
    hspaces, hrest⟩
  · have htext : blanks ++ b :: word ++ s :: spaces ++ major ++ 46 :: minor ++ rest
        = blanks ++ b :: (word ++ (s :: spaces ++ (major ++ 46 :: (minor ++ rest)))) := by simp
    rw [htext, List.dropWhile_append_of_pos hblanks, List.dropWhile_cons_of_neg]
    rw [hwords b List.mem_cons_self]
    exact Bool.false_ne_true
  · have hskip : ∀ c ∈ b :: word, (!isSpace c) = true := fun c hc => by rw [hwords c hc]; rfl
    rw [← List.cons_append, List.dropWhile_append_of_pos hskip, List.cons_append,
      List.dropWhile_cons_of_neg]
    rw [hspaces s List.mem_cons_self]
    exact Bool.false_ne_true

/-- A number below the bound of `int` is stored as it is. -/
theorem intOf_natCast {n : ℕ} (hn : n < 2 ^ 31) : intOf n = n := by
  rw [intOf, clampLong]
  have hclamp : max (-2 ^ 63) (min (n : ℤ) (2 ^ 63 - 1)) = n := by omega
  rw [hclamp]
  exact CNumber.toSigned_eq_self (by decide) (by omega) (by omega)

/-- A number that `%i` stores. -/
theorem anyInt_of_decimal {digits rest : List UInt8}
    (hdigits : digits ≠ [] ∧ ∀ b ∈ digits, IsDecimal b) (hbound : valueOf 10 digits < 2 ^ 31)
    (hrest : EndsDigits rest) (set : ℤ → ReceiverVersion → ReceiverVersion) :
    anyInt set (digits ++ rest)
      = some ({ fits := true, set := set (anyIntOf digits) }, anyIntRest digits ++ rest) := by
  rw [anyInt, scanAnyInt_of_decimal hdigits.1 hdigits.2 hrest]
  simp only [intOf_natCast ((anyIntOf_le digits).trans_lt hbound)]

theorem anyInt_append {blanks : List UInt8} (hblanks : ∀ b ∈ blanks, isSpace b = true)
    (set : ℤ → ReceiverVersion → ReceiverVersion) (text : List UInt8) :
    anyInt set (blanks ++ text) = anyInt set text := by
  rw [anyInt, anyInt, scanAnyInt_append hblanks]

/-- **What is parsed**: both numbers, as `%i` reads them, or only a part of the first one. -/
theorem parseReceiverVersion_of_text (h : VersionText text major minor)
    (hmajor : valueOf 10 major < 2 ^ 31) (hminor : valueOf 10 minor < 2 ^ 31)
    (version : ReceiverVersion) :
    parseReceiverVersion (some text) version =
      if anyIntRest major = [] then
        (true, { major := anyIntOf major, minor := anyIntOf minor })
      else (false, { version with major := anyIntOf major }) := by
  obtain ⟨b, word, spaces, rest, htext, hword, hspaces, hrest⟩ := h.skip
  have hdot : EndsDigits (46 :: (minor ++ rest)) := by
    rintro c ⟨⟩
    decide
  have hfirst := anyInt_of_decimal h.major hmajor hdot setMajor
  have hsecond := anyInt_of_decimal h.minor hminor hrest setMinor
  rw [parseReceiverVersion, htext]
  simp only [hword]
  rw [scan, anyInt_append hspaces, hfirst]
  split_ifs with hleft
  · rw [hleft, List.nil_append]
    simp only [afterSeparator, if_true]
    rw [scan_singleton hsecond]
    rfl
  · -- a digit that is not octal stands where the dot should be
    obtain ⟨d, left, hcons⟩ := List.exists_cons_of_ne_nil hleft
    have hmem : d ∈ anyIntRest major := by
      rw [hcons]
      exact List.mem_cons_self
    have hd : IsDecimal d := h.major.2 d (mem_of_mem_anyIntRest hmem)
    rw [hcons, List.cons_append]
    simp only [afterSeparator, if_neg (ne_of_isDecimal hd (by decide : ¬ IsDecimal 46))]
    rfl

/-! ### When the law holds -/

/-- **The version is the decimal one** exactly when neither number is taken for an octal one. -/
theorem receiverVersionLaw_iff (h : VersionText text major minor)
    (hmajor : valueOf 10 major < 2 ^ 31) (hminor : valueOf 10 minor < 2 ^ 31) :
    ReceiverVersionLaw text (valueOf 10 major) (valueOf 10 minor) ↔
      ReadAsDecimal major ∧ ReadAsDecimal minor := by
  have hparse := parseReceiverVersion_of_text h hmajor hminor
  constructor
  · intro hlaw
    have hparsed := hlaw.parsed { major := -1, minor := -1 }
    rw [hparse] at hparsed
    split_ifs at hparsed
    · have hversion := (Prod.mk.inj hparsed).2
      rw [ReceiverVersion.mk.injEq, Nat.cast_inj, Nat.cast_inj] at hversion
      exact ⟨(anyIntOf_eq_iff major).mp hversion.1, (anyIntOf_eq_iff minor).mp hversion.2⟩
    · exact absurd (Prod.mk.inj hparsed).1 Bool.false_ne_true
  · rintro ⟨hx, hy⟩
    have hparsed : ∀ version, parseReceiverVersion (some text) version
        = (true, { major := valueOf 10 major, minor := valueOf 10 minor }) := by
      intro version
      rw [hparse, if_pos (anyIntRest_eq_nil hx), (anyIntOf_eq_iff major).mpr hx,
        (anyIntOf_eq_iff minor).mpr hy]
    refine ⟨hparsed, ?_⟩
    rw [gnssVersion, hparsed, isV220, Prod.Lex.toLex_le_toLex]
    simp
    omega

/-- A version of the tests, with a `0` that does no harm. -/
theorem receiverVersionLaw_of_test : ReceiverVersionLaw (ascii "f9d 2.01 (smth)") 2 1 := by
  have hword : ∀ b ∈ ascii "f9d", isSpace b = false := fun b hb =>
    Bool.not_eq_true' _ ▸ List.all_eq_true.mp (rfl : (ascii "f9d").all (!isSpace ·) = true) b hb
  have hmajor : ∀ b ∈ ascii "2", IsDecimal b := by
    have hall : (ascii "2").all (decide <| IsDecimal ·) = true := rfl
    exact fun b hb => of_decide_eq_true (List.all_eq_true.mp hall b hb)
  have hminor : ∀ b ∈ ascii "01", IsDecimal b := by
    have hall : (ascii "01").all (decide <| IsDecimal ·) = true := rfl
    exact fun b hb => of_decide_eq_true (List.all_eq_true.mp hall b hb)
  have hrest : EndsDigits (ascii " (smth)") := by
    rintro b ⟨⟩
    decide
  have htext : VersionText (ascii "f9d 2.01 (smth)") (ascii "2") (ascii "01") :=
    { parts := ⟨[], ascii "f9d", ascii " ", ascii " (smth)", rfl,
        fun b hb => absurd hb List.not_mem_nil, ⟨by decide, hword⟩,
        ⟨by decide, List.all_eq_true.mp rfl⟩, hrest⟩
      major := ⟨by decide, hmajor⟩
      minor := ⟨by decide, hminor⟩ }
  exact (receiverVersionLaw_iff htext (by decide) (by decide)).mpr ⟨by decide, by decide⟩

/-- The version 2.20 with a `0` before its second number, which is 16 in octal. -/
theorem receiverVersionLaw_fails_leading_zero :
    ¬ ReceiverVersionLaw (ascii "HPG 2.020 (x)") 2 20 := by
  intro hlaw
  exact absurd hlaw.selected (by decide)

end Oscillatord
