import Oscillatord.Library.NumberEnds

/-!
# Numerals

The numerals of C, as a grammar: decimal, octal after a `0`, hexadecimal after `0x` (`Numeral`), and
with white space and a sign before them (`SignedNumeral`). `strtoul` with base 0 takes all of a text
exactly when the text is one (`strtoul_eq_nil_iff`), and makes of it the number, its negative modulo
the word, or the largest word (`strtoul_of_signedNumeral`).
-/

namespace CText

/-! ### The grammar -/

/-- A numeral of C without a sign. -/
inductive Numeral : List UInt8 → ℕ → Prop
  | decimal {digits : List UInt8} (hne : digits ≠ []) (hhead : digits.head? ≠ some 48)
      (hdigits : ∀ b ∈ digits, isDigit 10 b = true) : Numeral digits (valueOf 10 digits)
  | octal {digits : List UInt8} (hdigits : ∀ b ∈ digits, isDigit 8 b = true) :
      Numeral (48 :: digits) (valueOf 8 digits)
  | hexadecimal {x : UInt8} {digits : List UInt8} (hx : x = 120 ∨ x = 88) (hne : digits ≠ [])
      (hdigits : ∀ b ∈ digits, isDigit 16 b = true) :
      Numeral (48 :: x :: digits) (valueOf 16 digits)

/-- What may stand for a sign. -/
def IsSign : Bool → List UInt8 → Prop
  | false, sign => sign = [] ∨ sign = [43]
  | true, sign => sign = [45]

/-- A numeral with white space and a sign before it: `negative` is that the sign is a minus. -/
def SignedNumeral (text : List UInt8) (negative : Bool) (n : ℕ) : Prop :=
  ∃ blanks sign body, text = blanks ++ sign ++ body ∧ (∀ b ∈ blanks, isSpace b = true) ∧
    IsSign negative sign ∧ Numeral body n

/-- What `strtoul` makes of a number. -/
def wordOf (negative : Bool) (n : ℕ) : ℕ :=
  if 2 ^ 64 ≤ n then 2 ^ 64 - 1 else if negative then (2 ^ 64 - n) % 2 ^ 64 else n

/-! ### The base -/

/-- The base that the text tells. -/
def baseOf (body : List UInt8) : ℕ :=
  if dropHexPrefix body ≠ body then 16
  else if (dropHexPrefix body).head? = some 48 then 8
  else 10

variable {body digits text : List UInt8} {n : ℕ} {negative : Bool}

/-- The prefix is left where it is, or it stands before a digit. -/
theorem dropHexPrefix_cases (body : List UInt8) :
    dropHexPrefix body = body ∨ ∃ x d rest, body = 48 :: x :: d :: rest ∧ (x = 120 ∨ x = 88) ∧
      isDigit 16 d = true ∧ dropHexPrefix body = d :: rest := by
  fun_cases dropHexPrefix body with
  | case1 x d rest h => exact .inr ⟨x, d, rest, rfl, h.1, h.2, rfl⟩
  | case2 => exact .inl rfl
  | case3 => exact .inl rfl

theorem dropHexPrefix_of_head?_ne (h : body.head? ≠ some 48) : dropHexPrefix body = body := by
  rcases dropHexPrefix_cases body with hsame | ⟨x, d, rest, rfl, -⟩
  · exact hsame
  · exact absurd rfl h

theorem dropHexPrefix_of_isDigit (hdigits : ∀ b ∈ digits, isDigit 8 b = true) :
    dropHexPrefix (48 :: digits) = 48 :: digits := by
  rcases dropHexPrefix_cases (48 :: digits) with hsame | ⟨x, d, rest, hbody, hx, -⟩
  · exact hsame
  · have hdigit := hdigits x (by rw [(List.cons.inj hbody).2]; exact List.mem_cons_self)
    rcases hx with rfl | rfl
    · exact absurd hdigit (by decide)
    · exact absurd hdigit (by decide)

theorem dropHexPrefix_hexadecimal {x : UInt8} (hx : x = 120 ∨ x = 88) (hne : digits ≠ [])
    (hdigits : ∀ b ∈ digits, isDigit 16 b = true) :
    dropHexPrefix (48 :: x :: digits) = digits := by
  obtain ⟨d, rest, rfl⟩ := List.exists_cons_of_ne_nil hne
  exact if_pos ⟨hx, hdigits d List.mem_cons_self⟩

theorem baseOf_of_same (h : dropHexPrefix body = body) :
    baseOf body = if body.head? = some 48 then 8 else 10 := by
  rw [baseOf, h, if_neg (not_not.mpr rfl)]

theorem baseOf_of_length_lt (h : (dropHexPrefix body).length < body.length) :
    baseOf body = 16 := by
  refine if_pos fun hsame => ?_
  rw [hsame] at h
  exact absurd h (Nat.lt_irrefl _)

/-- **A numeral is a run of digits of the base that it tells.** -/
theorem numeral_iff :
    Numeral body n ↔ dropHexPrefix body ≠ [] ∧
      (∀ b ∈ dropHexPrefix body, isDigit (baseOf body) b = true) ∧
      valueOf (baseOf body) (dropHexPrefix body) = n := by
  constructor
  · rintro (⟨hne, hhead, hdigits⟩ | ⟨hdigits⟩ | ⟨hx, hne, hdigits⟩)
    · have hdrop := dropHexPrefix_of_head?_ne hhead
      rw [baseOf_of_same hdrop, hdrop, if_neg hhead]
      exact ⟨hne, hdigits, rfl⟩
    · have hdrop := dropHexPrefix_of_isDigit hdigits
      rw [baseOf_of_same hdrop, hdrop, if_pos List.head?_cons]
      refine ⟨List.cons_ne_nil _ _, fun b hb => ?_, rfl⟩
      rcases List.mem_cons.mp hb with rfl | hb
      · rfl
      · exact hdigits b hb
    · have hdrop := dropHexPrefix_hexadecimal hx hne hdigits
      rw [baseOf_of_length_lt (by simp [hdrop]), hdrop]
      exact ⟨hne, hdigits, rfl⟩
  · rintro ⟨hne, hdigits, rfl⟩
    rcases dropHexPrefix_cases body with hsame | ⟨x, d, rest, rfl, hx, hd, hdrop⟩
    · rw [hsame] at hne hdigits ⊢
      rw [baseOf_of_same hsame] at hdigits ⊢
      split_ifs at hdigits ⊢ with hhead
      · obtain ⟨digits, rfl⟩ := List.head?_eq_some_iff.mp hhead
        exact .octal fun b hb => hdigits b (List.mem_cons_of_mem _ hb)
      · exact .decimal hne hhead hdigits
    · rw [baseOf_of_length_lt (by simp [hdrop]), hdrop] at hdigits ⊢
      exact .hexadecimal hx (List.cons_ne_nil _ _) hdigits

/-! ### White space and signs -/

theorem isDecimal_of_isDigit {b : UInt8} (h : isDigit 10 b = true) : IsDecimal b := by
  rw [isDigit, decide_eq_true_eq, digitOf] at h
  simp only [IsDecimal, UInt8.le_iff_toNat_le] at h ⊢
  split_ifs at h with hdecimal hupper hlower
  · exact hdecimal
  · simp at hupper
    omega
  · simp at hlower
    omega
  · omega

/-- A numeral begins with a decimal digit. -/
theorem Numeral.head (h : Numeral body n) : ∃ b rest, body = b :: rest ∧ IsDecimal b := by
  cases h with
  | decimal hne hhead hdigits =>
    obtain ⟨b, rest, rfl⟩ := List.exists_cons_of_ne_nil hne
    exact ⟨b, rest, rfl, isDecimal_of_isDigit (hdigits b List.mem_cons_self)⟩
  | octal hdigits => exact ⟨_, _, rfl, by decide⟩
  | hexadecimal hx hne hdigits => exact ⟨_, _, rfl, by decide⟩

theorem takeSign_of_isSign {sign rest : List UInt8} {b : UInt8} (hsign : IsSign negative sign)
    (hb : IsDecimal b) : takeSign (sign ++ b :: rest) = (negative, b :: rest) := by
  cases negative with
  | true =>
    rw [show sign = [45] from hsign]
    rfl
  | false =>
    rcases hsign with rfl | rfl
    · rw [List.nil_append, takeSign, if_neg (ne_of_isDecimal hb (by decide)),
        if_neg (ne_of_isDecimal hb (by decide))]
    · rfl

/-- What `takeSign` takes is a sign. -/
theorem exists_isSign (text : List UInt8) :
    ∃ sign, text = sign ++ (takeSign text).2 ∧ IsSign (takeSign text).1 sign := by
  fun_cases takeSign text with
  | case1 => exact ⟨[], rfl, .inl rfl⟩
  | case2 => exact ⟨[45], rfl, rfl⟩
  | case3 => exact ⟨[43], rfl, .inr rfl⟩
  | case4 => exact ⟨[], rfl, .inl rfl⟩

/-- **The parts of a numeral** are those that the conversions take apart. -/
theorem signedNumeral_iff :
    SignedNumeral text negative n ↔
      isNegative text = negative ∧ Numeral (unsignedBody text) n := by
  rw [isNegative, unsignedBody]
  constructor
  · rintro ⟨blanks, sign, body, rfl, hblanks, hsign, hbody⟩
    obtain ⟨b, rest, rfl, hb⟩ := hbody.head
    have hspace : ∀ c ∈ (sign ++ b :: rest).head?, isSpace c = false := by
      cases negative with
      | true =>
        rw [show sign = [45] from hsign]
        rintro c ⟨⟩
        rfl
      | false =>
        rcases hsign with rfl | rfl
        · rintro c ⟨⟩
          exact isSpace_of_isDecimal hb
        · rintro c ⟨⟩
          rfl
    have hskip : (blanks ++ sign ++ b :: rest).dropWhile isSpace = sign ++ b :: rest := by
      rw [List.append_assoc, List.dropWhile_append_of_pos hblanks]
      obtain ⟨c, tail, hcons⟩ := List.exists_cons_of_ne_nil
        (List.append_ne_nil_of_right_ne_nil sign (List.cons_ne_nil b rest))
      rw [hcons] at hspace ⊢
      exact List.dropWhile_cons_of_neg (by simp [hspace c rfl])
    rw [hskip, takeSign_of_isSign hsign hb]
    exact ⟨rfl, hbody⟩
  · rintro ⟨rfl, hbody⟩
    obtain ⟨sign, hsplit, hsign⟩ := exists_isSign (text.dropWhile isSpace)
    refine ⟨text.takeWhile isSpace, sign, _, ?_, fun b hb => List.mem_takeWhile_imp hb, hsign,
      hbody⟩
    rw [List.append_assoc, ← hsplit, List.takeWhile_append_dropWhile]

/-! ### The conversion -/

theorem strtoul_eq (text : List UInt8) :
    strtoul text =
      let body := dropHexPrefix (unsignedBody text)
      let base := baseOf (unsignedBody text)
      if body.takeWhile (isDigit base) = [] then (0, text)
      else (wordOf (isNegative text) (valueOf base (body.takeWhile (isDigit base))),
        body.dropWhile (isDigit base)) := rfl

/-- **A numeral is converted** to its word, and nothing is left. -/
theorem strtoul_of_signedNumeral (h : SignedNumeral text negative n) :
    strtoul text = (wordOf negative n, []) := by
  obtain ⟨rfl, hbody⟩ := signedNumeral_iff.mp h
  obtain ⟨hne, hdigits, rfl⟩ := numeral_iff.mp hbody
  have htake := List.takeWhile_eq_self_iff.mpr hdigits
  have hdrop := List.dropWhile_eq_nil_iff.mpr hdigits
  rw [strtoul_eq]
  simp only [htake, hdrop, if_neg hne]

/-- **A text that nothing is left of is a numeral.** -/
theorem strtoul_eq_nil_iff (h : text ≠ []) :
    (strtoul text).2 = [] ↔ ∃ negative n, SignedNumeral text negative n := by
  constructor
  · intro hrest
    rw [strtoul_eq] at hrest
    simp only at hrest
    split_ifs at hrest with hdigits
    · exact absurd hrest h
    · refine ⟨_, _, signedNumeral_iff.mpr ⟨rfl, numeral_iff.mpr ⟨?_, ?_, rfl⟩⟩⟩
      · intro hnil
        rw [hnil] at hdigits
        exact hdigits rfl
      · exact List.dropWhile_eq_nil_iff.mp hrest
  · rintro ⟨negative, n, hnumeral⟩
    rw [strtoul_of_signedNumeral hnumeral]

/-- A text is one numeral at most. -/
theorem SignedNumeral.eq {other : Bool} {m : ℕ} (h : SignedNumeral text negative n)
    (hother : SignedNumeral text other m) : negative = other ∧ n = m := by
  obtain ⟨rfl, hbody⟩ := signedNumeral_iff.mp h
  obtain ⟨rfl, hbody'⟩ := signedNumeral_iff.mp hother
  obtain ⟨-, -, rfl⟩ := numeral_iff.mp hbody
  obtain ⟨-, -, rfl⟩ := numeral_iff.mp hbody'
  exact ⟨rfl, rfl⟩

theorem SignedNumeral.ne_nil (h : SignedNumeral text negative n) : text ≠ [] := by
  obtain ⟨blanks, sign, body, rfl, -, -, hbody⟩ := h
  obtain ⟨b, rest, rfl, -⟩ := hbody.head
  exact List.append_ne_nil_of_right_ne_nil _ (List.cons_ne_nil b rest)

/-! ### The longest numeral -/

/-- The longest numeral at the beginning of a text. -/
def LeadingNumeral (text : List UInt8) (negative : Bool) (n : ℕ) : Prop :=
  ∃ numeral rest, text = numeral ++ rest ∧ SignedNumeral numeral negative n ∧
    ∀ longer more other m, text = longer ++ more → SignedNumeral longer other m →
      longer.length ≤ numeral.length

/-- `strtol` with a base that the text tells: the value, whether it was out of range, and the rest
of the text. -/
def strtol (text : List UInt8) : ℤ × Bool × List UInt8 :=
  let body := dropHexPrefix (unsignedBody text)
  let base := baseOf (unsignedBody text)
  let digits := body.takeWhile (isDigit base)
  if digits = [] then (0, false, text)
  else
    let value := signedValue (isNegative text) (valueOf base digits)
    (clampLong value, decide (clampLong value ≠ value), body.dropWhile (isDigit base))

/-- What is converted of a text is a numeral. -/
theorem exists_numeral_append
    (hdigits : (dropHexPrefix body).takeWhile (isDigit (baseOf body)) ≠ []) :
    ∃ numeral, body = numeral ++ (dropHexPrefix body).dropWhile (isDigit (baseOf body)) ∧
      Numeral numeral
        (valueOf (baseOf body) ((dropHexPrefix body).takeWhile (isDigit (baseOf body)))) := by
  have htaken : ∀ b ∈ (dropHexPrefix body).takeWhile (isDigit (baseOf body)),
      isDigit (baseOf body) b = true := fun b hb => List.mem_takeWhile_imp hb
  rcases dropHexPrefix_cases body with hsame | ⟨x, d, rest, rfl, hx, hd, hdrop⟩
  · rw [hsame] at hdigits htaken ⊢
    rw [baseOf_of_same hsame] at hdigits htaken ⊢
    refine ⟨_, List.takeWhile_append_dropWhile.symm, ?_⟩
    split_ifs at hdigits htaken ⊢ with hhead
    · obtain ⟨digits, rfl⟩ := List.head?_eq_some_iff.mp hhead
      rw [List.takeWhile_cons_of_pos (by decide)] at htaken ⊢
      exact .octal fun b hb => htaken b (List.mem_cons_of_mem _ hb)
    · refine .decimal hdigits (fun h => hhead ?_) htaken
      obtain ⟨digits, hcons⟩ := List.head?_eq_some_iff.mp h
      obtain ⟨more, hmore⟩ := List.takeWhile_prefix (l := body) (isDigit 10)
      rw [← hmore, hcons]
      rfl
  · rw [hdrop, baseOf_of_length_lt (by simp [hdrop])] at hdigits htaken ⊢
    refine ⟨48 :: x :: (d :: rest).takeWhile (isDigit 16), ?_, .hexadecimal hx hdigits htaken⟩
    rw [List.cons_append, List.cons_append, List.takeWhile_append_dropWhile]

/-- A numeral is converted whole, whatever comes after it. -/
theorem Numeral.length_rest_le (h : Numeral body n) (more : List UInt8) :
    ((dropHexPrefix (body ++ more)).dropWhile (isDigit (baseOf (body ++ more)))).length
      ≤ more.length := by
  cases h with
  | @decimal digits hne hhead hdigits =>
    obtain ⟨b, rest, rfl⟩ := List.exists_cons_of_ne_nil hne
    have hb : (b :: rest ++ more).head? ≠ some 48 := hhead
    have hdrop := dropHexPrefix_of_head?_ne hb
    rw [baseOf_of_same hdrop, hdrop, if_neg hb, List.dropWhile_append_of_pos hdigits]
    exact (List.dropWhile_suffix _).length_le
  | @octal digits hdigits =>
    rcases dropHexPrefix_cases (48 :: digits ++ more) with hdrop | ⟨x, d, rest, hbody, hx, -, hdrop⟩
    · have hall : ∀ b ∈ 48 :: digits, isDigit 8 b = true :=
        List.forall_mem_cons.mpr ⟨by decide, hdigits⟩
      rw [baseOf_of_same hdrop, hdrop, if_pos (by rfl), List.dropWhile_append_of_pos hall]
      exact (List.dropWhile_suffix _).length_le
    -- The numeral is the zero of a prefix.
    · rcases digits with _ | ⟨c, digits⟩
      · obtain rfl := (List.cons.inj hbody).2
        rw [hdrop]
        exact (List.dropWhile_suffix _).length_le.trans (Nat.le_succ _)
      · obtain rfl := (List.cons.inj (List.cons.inj hbody).2).1
        have hdigit := hdigits c List.mem_cons_self
        rcases hx with rfl | rfl
        · exact absurd hdigit (by decide)
        · exact absurd hdigit (by decide)
  | @hexadecimal x digits hx hne hdigits =>
    obtain ⟨d, rest, rfl⟩ := List.exists_cons_of_ne_nil hne
    have hdrop : dropHexPrefix (48 :: x :: (d :: rest) ++ more) = d :: rest ++ more :=
      if_pos ⟨hx, hdigits d List.mem_cons_self⟩
    rw [baseOf_of_length_lt (by rw [hdrop]; simp), hdrop, List.dropWhile_append_of_pos hdigits]
    exact (List.dropWhile_suffix _).length_le

/-- **A positive number is that of the longest numeral.** -/
theorem leadingNumeral_of_strtol {value : ℤ} {rest : List UInt8} (hpos : 0 < value)
    (h : strtol text = (value, false, rest)) :
    ∃ n : ℕ, value = n ∧ LeadingNumeral text false n := by
  rw [strtol] at h
  dsimp only at h
  split_ifs at h with hdigits
  · obtain rfl := (Prod.mk.inj h).1
    exact absurd hpos (lt_irrefl 0)
  · obtain ⟨hvalue, hflags⟩ := Prod.mk.inj h
    obtain ⟨hrange, hrest⟩ := Prod.mk.inj hflags
    rw [decide_eq_false_iff_not, not_not] at hrange
    rw [hrange] at hvalue
    have hnegative : isNegative text = false := by
      rcases hsign : isNegative text with _ | _
      · rfl
      · rw [hsign, signedValue, if_pos rfl] at hvalue
        omega
    rw [hnegative, signedValue, if_neg Bool.false_ne_true] at hvalue
    obtain ⟨numeral, hbody, hnumeral⟩ := exists_numeral_append hdigits
    obtain ⟨sign, hsplit, hsign⟩ := exists_isSign (text.dropWhile isSpace)
    rw [← isNegative, hnegative] at hsign
    rw [← unsignedBody, hbody, hrest] at hsplit
    have htext : text = (text.takeWhile isSpace ++ sign ++ numeral) ++ rest := by
      rw [List.append_assoc, List.append_assoc, ← hsplit, List.takeWhile_append_dropWhile]
    refine ⟨_, hvalue.symm, _, rest, htext, ⟨_, sign, numeral, rfl,
      fun b hb => List.mem_takeWhile_imp hb, hsign, hnumeral⟩, ?_⟩
    intro longer more other m hlonger hsigned
    have hblank : longer.dropWhile isSpace ≠ [] := fun hnil => by
      obtain ⟨b, tail, hhead, -⟩ := (signedNumeral_iff.mp hsigned).2.head
      rw [unsignedBody, hnil] at hhead
      cases hhead
    have hle := (signedNumeral_iff.mp hsigned).2.length_rest_le more
    rw [← unsignedBody_append hblank, ← hlonger, hrest] at hle
    have hlength := congrArg List.length (htext.symm.trans hlonger)
    simp only [List.length_append] at hlength ⊢
    omega

/-! ### `%i` -/

/-- What the beginning of a number tells of its base, and the text of its digits. -/
def takeBase : List UInt8 → ℕ × List UInt8
  | 48 :: x :: text => if x = 120 ∨ x = 88 then (16, text) else (8, 48 :: x :: text)
  | [48] => (8, [48])
  | text => (10, text)

/-- The conversion `%i` of `sscanf`. -/
def scanAnyInt (text : List UInt8) : Conversion :=
  match text.dropWhile isSpace with
  | [] => .ended
  | b :: rest =>
    let signed := takeSign (b :: rest)
    let (base, body) := takeBase signed.2
    match body.takeWhile (isDigit base) with
    | [] => .noMatch
    | digits => .number (signedValue signed.1 (valueOf base digits)) (body.dropWhile (isDigit base))

/-- Nothing at the beginning of the text goes on with a number before it. -/
def EndsDigits (rest : List UInt8) : Prop :=
  ∀ b ∈ rest.head?, ¬ IsDecimal b ∧ b ≠ 120 ∧ b ≠ 88

/-- What `%i` makes of decimal digits. -/
def anyIntOf (digits : List UInt8) : ℕ :=
  if digits.head? = some 48 then valueOf 8 (digits.takeWhile (isDigit 8)) else valueOf 10 digits

/-- The digits that `%i` leaves. -/
def anyIntRest (digits : List UInt8) : List UInt8 :=
  if digits.head? = some 48 then digits.dropWhile (isDigit 8) else []

theorem EndsDigits.isDigit {rest : List UInt8} (h : EndsDigits rest) {base : ℕ}
    (hbase : base ≤ 10) : ∀ b ∈ rest.head?, isDigit base b = false := by
  intro b hb
  refine Bool.eq_false_iff.mpr fun hdigit => (h b hb).1 (isDecimal_of_isDigit ?_)
  simp only [CText.isDigit, decide_eq_true_eq] at hdigit ⊢
  omega

theorem takeBase_of_decimal (hne : digits ≠ []) (hdigits : ∀ b ∈ digits, IsDecimal b)
    {rest : List UInt8} (hrest : EndsDigits rest) :
    takeBase (digits ++ rest) = (if digits.head? = some 48 then 8 else 10, digits ++ rest) := by
  obtain ⟨b, digits, rfl⟩ := List.exists_cons_of_ne_nil hne
  rw [List.head?_cons]
  by_cases hzero : b = 48
  · rw [hzero, if_pos rfl, List.cons_append]
    rcases hafter : digits ++ rest with _ | ⟨x, more⟩
    · rfl
    have hx : ¬ (x = 120 ∨ x = 88) := by
      cases digits with
      | nil =>
        rw [List.nil_append] at hafter
        have hstop := hrest x (by rw [hafter]; rfl)
        exact not_or.mpr hstop.2
      | cons c digits =>
        obtain ⟨rfl, -⟩ := List.cons.inj hafter
        have hc := hdigits c (List.mem_cons_of_mem _ List.mem_cons_self)
        exact not_or.mpr ⟨ne_of_isDecimal hc (by decide), ne_of_isDecimal hc (by decide)⟩
    exact if_neg hx
  · rw [if_neg fun h => hzero (Option.some.inj h), List.cons_append]
    rw [takeBase]
    · intro x text heq
      exact hzero (List.cons.inj heq).1
    · intro heq
      exact hzero (List.cons.inj heq).1

/-- **The digits of a number that begins with `0` are read as octal.** -/
theorem scanAnyInt_of_decimal (hne : digits ≠ []) (hdigits : ∀ b ∈ digits, IsDecimal b)
    {rest : List UInt8} (hrest : EndsDigits rest) :
    scanAnyInt (digits ++ rest) = .number (anyIntOf digits) (anyIntRest digits ++ rest) := by
  obtain ⟨hskip, hsign⟩ := dropWhile_isSpace_decimal hdigits hne rest
  have hbase := takeBase_of_decimal hne hdigits hrest
  obtain ⟨b, digits, rfl⟩ := List.exists_cons_of_ne_nil hne
  rw [List.cons_append] at hskip hsign hbase ⊢
  rw [scanAnyInt, hskip, anyIntOf, anyIntRest]
  simp only [hsign, hbase]
  rw [← List.cons_append]
  split_ifs with hzero
  · obtain ⟨htake, hdrop⟩ := Lists.takeWhile_append_of_head? (hrest.isDigit (by decide : 8 ≤ 10))
      (b :: digits)
    have hb : isDigit 8 b = true := by
      rw [Option.some.inj hzero]
      rfl
    rw [htake, hdrop, List.takeWhile_cons_of_pos hb]
    rfl
  · obtain ⟨htake, hdrop⟩ := takeWhile_decimal rest hdigits (hrest.isDigit (by decide : 10 ≤ 10))
    rw [htake, hdrop]
    rfl

/-- White space before a number is skipped. -/
theorem scanAnyInt_append {blanks : List UInt8} (hblanks : ∀ b ∈ blanks, isSpace b = true)
    (text : List UInt8) : scanAnyInt (blanks ++ text) = scanAnyInt text := by
  rw [scanAnyInt, scanAnyInt, List.dropWhile_append_of_pos hblanks]

/-! ### Octal and decimal -/

theorem valueOf_concat (base : ℕ) (digits : List UInt8) (b : UInt8) :
    valueOf base (digits ++ [b]) = valueOf base digits * base + digitOf b := by
  rw [valueOf_append, valueOf_singleton, List.length_singleton, pow_one]

theorem valueOf_eight_le (digits : List UInt8) : valueOf 8 digits ≤ valueOf 10 digits := by
  induction digits using List.reverseRecOn with
  | nil => exact le_rfl
  | append_singleton digits b ih =>
    rw [valueOf_concat, valueOf_concat]
    omega

/-- From eight on, octal digits are less than the decimal ones. -/
theorem valueOf_eight_lt (hdigits : ∀ b ∈ digits, isDigit 8 b = true)
    (h : 8 ≤ valueOf 10 digits) : valueOf 8 digits < valueOf 10 digits := by
  induction digits using List.reverseRecOn with
  | nil => exact absurd h (by decide)
  | append_singleton digits b ih =>
    have hb := hdigits b (List.mem_append_right _ (List.mem_singleton.mpr rfl))
    rw [isDigit, decide_eq_true_eq] at hb
    have hle := valueOf_eight_le digits
    rw [valueOf_concat, valueOf_concat] at *
    omega

/-- Below eight they are the same. -/
theorem octal_of_lt (h : valueOf 10 digits < 8) :
    (∀ b ∈ digits, isDigit 8 b = true) ∧ valueOf 8 digits = valueOf 10 digits := by
  induction digits using List.reverseRecOn with
  | nil => exact ⟨fun b hb => absurd hb List.not_mem_nil, rfl⟩
  | append_singleton digits b ih =>
    rw [valueOf_concat] at h
    obtain ⟨hdigits, hvalue⟩ := ih (by omega)
    refine ⟨fun c hc => ?_, ?_⟩
    · rcases List.mem_append.mp hc with hc | hc
      · exact hdigits c hc
      · rw [List.mem_singleton.mp hc, isDigit, decide_eq_true_eq]
        omega
    · rw [valueOf_concat, valueOf_concat, hvalue]
      omega

/-- The octal digits at the beginning are no more than all of them in decimal. -/
theorem valueOf_takeWhile_eight_le (digits : List UInt8) :
    valueOf 10 (digits.takeWhile (isDigit 8)) ≤ valueOf 10 digits := by
  conv_rhs => rw [← List.takeWhile_append_dropWhile (p := isDigit 8) (l := digits)]
  rw [valueOf_append]
  have hpow := Nat.one_le_pow (digits.dropWhile (isDigit 8)).length 10 (by decide)
  exact (Nat.le_mul_of_pos_right _ hpow).trans (Nat.le_add_right _ _)

/-- Decimal digits that `%i` does not take for octal ones of another number. -/
def ReadAsDecimal (digits : List UInt8) : Prop := digits.head? = some 48 → valueOf 10 digits < 8

instance (digits : List UInt8) : Decidable (ReadAsDecimal digits) :=
  inferInstanceAs (Decidable (_ → _))

theorem anyIntOf_le (digits : List UInt8) : anyIntOf digits ≤ valueOf 10 digits := by
  rw [anyIntOf]
  split_ifs
  · exact (valueOf_eight_le _).trans (valueOf_takeWhile_eight_le digits)
  · exact le_rfl

/-- **Decimal digits are read as the number they are** exactly when they do not begin with `0`, or
are below eight. -/
theorem anyIntOf_eq_iff (digits : List UInt8) :
    anyIntOf digits = valueOf 10 digits ↔ ReadAsDecimal digits := by
  rw [anyIntOf, ReadAsDecimal]
  split_ifs with hzero
  · refine ⟨fun heq _ => ?_, fun h => ?_⟩
    · by_contra hlt
      have hprefix := valueOf_takeWhile_eight_le digits
      have hle := valueOf_eight_le (digits.takeWhile (isDigit 8))
      have heights : ∀ b ∈ digits.takeWhile (isDigit 8), isDigit 8 b = true :=
        fun b hb => List.mem_takeWhile_imp hb
      have hstrict := valueOf_eight_lt heights
      omega
    · obtain ⟨hdigits, hvalue⟩ := octal_of_lt (h hzero)
      rw [List.takeWhile_eq_self_iff.mpr hdigits, hvalue]
  · exact iff_of_true rfl fun h => absurd h hzero

theorem mem_of_mem_anyIntRest {b : UInt8} (h : b ∈ anyIntRest digits) : b ∈ digits := by
  rw [anyIntRest] at h
  split_ifs at h
  · exact (List.dropWhile_sublist _).subset h
  · cases h

theorem anyIntRest_eq_nil (h : ReadAsDecimal digits) : anyIntRest digits = [] := by
  rw [anyIntRest]
  split_ifs with hzero
  · exact List.dropWhile_eq_nil_iff.mpr (octal_of_lt (h hzero)).1
  · rfl

end CText
