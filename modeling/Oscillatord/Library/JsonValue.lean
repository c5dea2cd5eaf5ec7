import Oscillatord.Library.FloatText
import Oscillatord.Library.JsonObject

/-!
# JSON values and their text

A value as a program builds it, and the text that a printer with spaces makes of it: a space before
each key, one after each colon, and one before the brace that closes. A double is kept as it was
printed, so that its text may be no number at all; `WellFormed` is that it is one everywhere.

`isObject_text` is that the text of a well-formed object is one for the machine of
`Library/JsonObject`. What follows a value there is a comma or a space, which a number needs to
end.
-/

namespace JsonObject

open CText (signedDecimal decimal IsDecimal signText)

/-! ### Values -/

/-- A value. -/
inductive Value
  | string (text : List UInt8)
  | int (n : ℤ)
  | boolean (b : Bool)
  | double (printed : List UInt8)
  | object (members : List (List UInt8 × Value))

/-- A member is given a value: it keeps its place, or comes last. -/
def setMember (members : List (List UInt8 × Value)) (key : List UInt8) (value : Value) :
    List (List UInt8 × Value) :=
  if members.any fun member => member.1 == key then
    members.map fun member => if member.1 = key then (key, value) else member
  else members ++ [(key, value)]

/-- The text is a number: a sign, digits, and digits after a point. -/
def IsNumber (text : List UInt8) : Prop :=
  ∃ negative n places, text = signText negative ++ decimal n ++
      (if places = [] then [] else 0x2E :: places) ∧ ∀ b ∈ places, IsDecimal b

mutual

/-- The doubles of the value are numbers. -/
def Value.WellFormed : Value → Prop
  | .double printed => IsNumber printed
  | .object members => MembersWellFormed members
  | _ => True

/-- Those of the members are. -/
def MembersWellFormed : List (List UInt8 × Value) → Prop
  | [] => True
  | (_, value) :: members => value.WellFormed ∧ MembersWellFormed members

end

theorem membersWellFormed_iff {members : List (List UInt8 × Value)} :
    MembersWellFormed members ↔ ∀ member ∈ members, member.2.WellFormed := by
  induction members with
  | nil => simp [MembersWellFormed]
  | cons member members ih => rw [MembersWellFormed, ih, List.forall_mem_cons]

/-- A well-formed member keeps the others well-formed. -/
theorem membersWellFormed_setMember {members : List (List UInt8 × Value)} {key : List UInt8}
    {value : Value} (h : MembersWellFormed members) (hvalue : value.WellFormed) :
    MembersWellFormed (setMember members key value) := by
  rw [membersWellFormed_iff] at h ⊢
  rw [setMember]
  split_ifs
  · intro member hmem
    obtain ⟨old, hold, rfl⟩ := List.mem_map.mp hmem
    split_ifs
    · exact hvalue
    · exact h old hold
  · intro member hmem
    rcases List.mem_append.mp hmem with hmem | hmem
    · exact h member hmem
    · rw [List.mem_singleton.mp hmem]
      exact hvalue

/-! ### Their text -/

/-- A hexadecimal digit. -/
def hexChar (n : ℕ) : UInt8 := UInt8.ofNat (if n < 10 then 48 + n else 87 + n)

/-- A character of a string. -/
def escapeByte (b : UInt8) : List UInt8 :=
  if b = 0x08 then [0x5C, 0x62]
  else if b = 0x0A then [0x5C, 0x6E]
  else if b = 0x0D then [0x5C, 0x72]
  else if b = 0x09 then [0x5C, 0x74]
  else if b = 0x0C then [0x5C, 0x66]
  else if b = 0x22 ∨ b = 0x5C ∨ b = 0x2F then [0x5C, b]
  else if b < 0x20 then [0x5C, 0x75, 0x30, 0x30, hexChar (b.toNat / 16), hexChar (b.toNat % 16)]
  else [b]

/-- A string in its quotes. -/
def quote (text : List UInt8) : List UInt8 := 0x22 :: text.flatMap escapeByte ++ [0x22]

mutual

/-- The text of a value. -/
def Value.text : Value → List UInt8
  | .string text => quote text
  | .int n => signedDecimal n
  | .boolean b => if b then [0x74, 0x72, 0x75, 0x65] else [0x66, 0x61, 0x6C, 0x73, 0x65]
  | .double printed => printed
  | .object members => 0x7B :: membersText members ++ [0x20, 0x7D]

/-- The text of the members of an object. -/
def membersText : List (List UInt8 × Value) → List UInt8
  | [] => []
  | (key, value) :: members =>
    0x20 :: quote key ++ [0x3A, 0x20] ++ value.text ++
      match members with
      | [] => []
      | _ :: _ => 0x2C :: membersText members

end

/-! ### Scanning numbers -/

variable {container : Container} {outer : List Container} {b : UInt8} {rest : List UInt8}

/-- The byte after a value: a comma, or a space. -/
def EndsValue (b : UInt8) : Prop := b = 0x2C ∨ b = 0x20

theorem foldlM_cons_of_step {s t : Scan} (h : step s b = some t) (rest : List UInt8) :
    (b :: rest).foldlM step s = rest.foldlM step t := by
  rw [List.foldlM_cons, h]
  rfl

theorem isDigit_of_isDecimal (h : IsDecimal b) : isDigit b = true := by
  simpa [isDigit, IsDecimal] using h

/-- A digit is not a control character. -/
theorem not_control_of_isDecimal (h : IsDecimal b) : ¬ b < 0x20 := by
  intro hlt
  exact absurd (UInt8.lt_of_le_of_lt h.1 hlt) (by decide)

/-- The digits after the first one, before the point or after it. -/
theorem foldlM_digits {digits : List UInt8} (hdigits : ∀ b ∈ digits, IsDecimal b) {point : Point}
    (hpoint : point = .digits ∨ point = .fraction) (rest : List UInt8) :
    (digits ++ rest).foldlM step ⟨container :: outer, point⟩
      = rest.foldlM step ⟨container :: outer, point⟩ := by
  induction digits with
  | nil => rfl
  | cons d digits ih =>
    have hd := hdigits d List.mem_cons_self
    have hstep : step ⟨container :: outer, point⟩ d = some ⟨container :: outer, point⟩ := by
      rcases hpoint with rfl | rfl <;>
        simp [step, stepIn, stepNumber, isDigit_of_isDecimal hd, not_control_of_isDecimal hd]
    rw [List.cons_append, foldlM_cons_of_step hstep]
    exact ih fun b hb => hdigits b (List.mem_cons_of_mem _ hb)

/-- A number ends before the byte that follows it. -/
theorem step_number_end {point : Point} (hb : EndsValue b)
    (hpoint : point = .zero ∨ point = .digits ∨ point = .fraction) :
    step ⟨container :: outer, point⟩ b = step ⟨container :: outer, .afterValue⟩ b := by
  rcases hb with rfl | rfl <;> rcases hpoint with rfl | rfl | rfl <;> rfl

/-- What is after the point. -/
theorem foldlM_places {places : List UInt8} (hplaces : ∀ b ∈ places, IsDecimal b) {point : Point}
    (hpoint : point = .zero ∨ point = .digits) (hb : EndsValue b) :
    ((if places = [] then [] else 0x2E :: places) ++ b :: rest).foldlM step
        ⟨container :: outer, point⟩
      = (b :: rest).foldlM step ⟨container :: outer, .afterValue⟩ := by
  have hend : ∀ {point : Point}, point = .zero ∨ point = .digits ∨ point = .fraction →
      (b :: rest).foldlM step ⟨container :: outer, point⟩
        = (b :: rest).foldlM step ⟨container :: outer, .afterValue⟩ := by
    intro point hpoint
    rw [List.foldlM_cons, List.foldlM_cons, step_number_end hb hpoint]
  rcases places with _ | ⟨d, places⟩
  · exact hend (hpoint.imp_right .inl)
  · have hpointStep : step ⟨container :: outer, point⟩ 0x2E
        = some ⟨container :: outer, .decimalPoint⟩ := by
      rcases hpoint with rfl | rfl <;> rfl
    have hd := hplaces d List.mem_cons_self
    have hdigit : step ⟨container :: outer, .decimalPoint⟩ d
        = some ⟨container :: outer, .fraction⟩ := by
      simp [step, stepIn, isDigit_of_isDecimal hd, not_control_of_isDecimal hd]
    rw [if_neg (List.cons_ne_nil d places), List.cons_append, List.cons_append,
      foldlM_cons_of_step hpointStep, foldlM_cons_of_step hdigit,
      foldlM_digits (fun b hb => hplaces b (List.mem_cons_of_mem _ hb)) (.inr rfl)]
    exact hend (.inr (.inr rfl))

/-- What is before the point. -/
theorem exists_foldlM_decimal (container : Container) (outer : List Container) (n : ℕ)
    {point : Point} (hpoint : point = .value ∨ point = .minus)
    (rest : List UInt8) :
    ∃ point', (point' = .zero ∨ point' = .digits) ∧
      (decimal n ++ rest).foldlM step ⟨container :: outer, point⟩
        = rest.foldlM step ⟨container :: outer, point'⟩ := by
  rcases Nat.eq_zero_or_pos n with rfl | hpos
  · have hstep : step ⟨container :: outer, point⟩ 0x30 = some ⟨container :: outer, .zero⟩ := by
      rcases hpoint with rfl | rfl <;> rfl
    exact ⟨.zero, .inl rfl, foldlM_cons_of_step hstep rest⟩
  · obtain ⟨d, digits, hcons⟩ := List.exists_cons_of_ne_nil (CText.decimal_ne_nil n)
    have hdigits : ∀ b ∈ d :: digits, IsDecimal b := fun b hb =>
      CText.isDecimal_of_mem_decimal (hcons ▸ hb)
    have hd := hdigits d List.mem_cons_self
    have hzero : d ≠ 0x30 := by
      have hhead := CText.head?_decimal_ne hpos.ne'
      rw [hcons, List.head?_cons] at hhead
      exact fun heq => hhead (congrArg some heq)
    have hstep : step ⟨container :: outer, point⟩ d = some ⟨container :: outer, .digits⟩ := by
      have hne : ∀ c : UInt8, ¬ IsDecimal c → d ≠ c := fun c hc =>
        CText.ne_of_isDecimal hd hc
      have hspace : isSpace d = false := by
        simp [isSpace, hne 0x20 (by decide), hne 0x09 (by decide), hne 0x0A (by decide),
          hne 0x0D (by decide)]
      rcases hpoint with rfl | rfl
      · simp [step, stepIn, stepValue, isDigit_of_isDecimal hd, not_control_of_isDecimal hd, hzero,
          hspace, hne 0x22 (by decide), hne 0x7B (by decide), hne 0x5B (by decide),
          hne 0x2D (by decide)]
      · simp [step, stepIn, isDigit_of_isDecimal hd, not_control_of_isDecimal hd, hzero]
    rw [hcons, List.cons_append, foldlM_cons_of_step hstep]
    exact ⟨.digits, .inr rfl,
      foldlM_digits (fun b hb => hdigits b (List.mem_cons_of_mem _ hb)) (.inl rfl) rest⟩

/-- **A number** is read as a value. -/
theorem foldlM_number {text : List UInt8} (h : IsNumber text) (hb : EndsValue b) :
    (text ++ b :: rest).foldlM step ⟨container :: outer, .value⟩
      = (b :: rest).foldlM step ⟨container :: outer, .afterValue⟩ := by
  obtain ⟨negative, n, places, rfl, hplaces⟩ := h
  cases negative
  · obtain ⟨point', hpoint', hdecimal⟩ := exists_foldlM_decimal container outer n
      (.inl rfl) ((if places = [] then [] else 0x2E :: places) ++ b :: rest)
    rw [signText, if_neg Bool.false_ne_true, List.nil_append, List.append_assoc, hdecimal]
    exact foldlM_places hplaces hpoint' hb
  · obtain ⟨point', hpoint', hdecimal⟩ := exists_foldlM_decimal container outer n
      (.inr rfl) ((if places = [] then [] else 0x2E :: places) ++ b :: rest)
    have hminus : step ⟨container :: outer, .value⟩ 0x2D = some ⟨container :: outer, .minus⟩ := rfl
    rw [signText, if_pos rfl, List.append_assoc, List.append_assoc, List.singleton_append,
      foldlM_cons_of_step hminus, hdecimal]
    exact foldlM_places hplaces hpoint' hb

theorem isNumber_signedDecimal (x : ℤ) : IsNumber (signedDecimal x) := by
  refine ⟨decide (x < 0), x.natAbs, [], ?_, by simp⟩
  rw [signedDecimal, signText]
  by_cases hx : x < 0 <;> simp [hx]

/-! ### Scanning strings -/

theorem isHexDigit_hexChar {n : ℕ} (h : n < 16) :
    isHexDigit (hexChar n) = true ∧ ¬ hexChar n < 0x20 := by
  interval_cases n <;> decide

/-- A character after a backslash. -/
theorem foldlM_escape (isKey : Bool) {c : UInt8} (hescape : isEscape c = true)
    (hcontrol : ¬ c < 0x20) (rest : List UInt8) :
    ([0x5C, c] ++ rest).foldlM step ⟨container :: outer, .string isKey⟩
      = rest.foldlM step ⟨container :: outer, .string isKey⟩ := by
  have hslash : step ⟨container :: outer, .string isKey⟩ 0x5C
      = some ⟨container :: outer, .escape isKey⟩ := rfl
  have hstep : step ⟨container :: outer, .escape isKey⟩ c
      = some ⟨container :: outer, .string isKey⟩ := by
    simp [step, stepIn, hescape, hcontrol]
  rw [List.cons_append, foldlM_cons_of_step hslash, List.singleton_append,
    foldlM_cons_of_step hstep]

/-- A character as four hexadecimal digits, of which the machine counts down those that are left. -/
theorem foldlM_hexDigits (isKey : Bool) {high low : ℕ} (hhigh : high < 16) (hlow : low < 16)
    (rest : List UInt8) :
    ([0x5C, 0x75, 0x30, 0x30, hexChar high, hexChar low] ++ rest).foldlM step
        ⟨container :: outer, .string isKey⟩
      = rest.foldlM step ⟨container :: outer, .string isKey⟩ := by
  have hslash : step ⟨container :: outer, .string isKey⟩ 0x5C
      = some ⟨container :: outer, .escape isKey⟩ := rfl
  have hu : step ⟨container :: outer, .escape isKey⟩ 0x75
      = some ⟨container :: outer, .hexDigits isKey 3⟩ := rfl
  have hdigit : ∀ {c : UInt8} (left : ℕ), isHexDigit c = true → ¬ c < 0x20 →
      step ⟨container :: outer, .hexDigits isKey (left + 1)⟩ c
        = some ⟨container :: outer, .hexDigits isKey left⟩ := by
    intro c left hc hcontrol
    simp [step, stepIn, hc, hcontrol]
  have hlast : ∀ {c : UInt8}, isHexDigit c = true → ¬ c < 0x20 →
      step ⟨container :: outer, .hexDigits isKey 0⟩ c
        = some ⟨container :: outer, .string isKey⟩ := by
    intro c hc hcontrol
    simp [step, stepIn, hc, hcontrol]
  obtain ⟨hhigh, hhigh'⟩ := isHexDigit_hexChar hhigh
  obtain ⟨hlow, hlow'⟩ := isHexDigit_hexChar hlow
  simp only [List.cons_append, List.nil_append]
  rw [foldlM_cons_of_step hslash, foldlM_cons_of_step hu,
    foldlM_cons_of_step (hdigit 2 (by decide) (by decide)),
    foldlM_cons_of_step (hdigit 1 (by decide) (by decide)),
    foldlM_cons_of_step (hdigit 0 hhigh hhigh'), foldlM_cons_of_step (hlast hlow hlow')]

/-- A character of a string leaves the scan in it. -/
theorem foldlM_escapeByte (isKey : Bool) (b : UInt8) (rest : List UInt8) :
    (escapeByte b ++ rest).foldlM step ⟨container :: outer, .string isKey⟩
      = rest.foldlM step ⟨container :: outer, .string isKey⟩ := by
  rw [escapeByte]
  split_ifs with h8 h10 h13 h9 h12 hquote hcontrol
  · exact foldlM_escape isKey (by decide) (by decide) rest
  · exact foldlM_escape isKey (by decide) (by decide) rest
  · exact foldlM_escape isKey (by decide) (by decide) rest
  · exact foldlM_escape isKey (by decide) (by decide) rest
  · exact foldlM_escape isKey (by decide) (by decide) rest
  · have hescape : isEscape b = true ∧ ¬ b < 0x20 := by
      rcases hquote with rfl | rfl | rfl <;> decide
    exact foldlM_escape isKey hescape.1 hescape.2 rest
  · have hlt : b.toNat < 32 := UInt8.lt_iff_toNat_lt.mp hcontrol
    exact foldlM_hexDigits isKey (by omega) (by omega) rest
  · have hstep : step ⟨container :: outer, .string isKey⟩ b
        = some ⟨container :: outer, .string isKey⟩ := by
      rw [not_or, not_or] at hquote
      simp [step, stepIn, hcontrol, hquote.1, hquote.2.1]
    exact foldlM_cons_of_step hstep rest

/-- A string in its quotes, from where its first quote opens it. -/
theorem foldlM_quote {point : Point} (isKey : Bool)
    (hopen : step ⟨container :: outer, point⟩ 0x22 = some ⟨container :: outer, .string isKey⟩)
    (text rest : List UInt8) :
    (quote text ++ rest).foldlM step ⟨container :: outer, point⟩
      = rest.foldlM step ⟨container :: outer, if isKey then .colon else .afterValue⟩ := by
  have hclose : step ⟨container :: outer, .string isKey⟩ 0x22
      = some ⟨container :: outer, if isKey then .colon else .afterValue⟩ := by
    simp [step, stepIn]
  have hbody : ∀ rest, (text.flatMap escapeByte ++ rest).foldlM step
      ⟨container :: outer, .string isKey⟩
        = rest.foldlM step ⟨container :: outer, .string isKey⟩ := by
    intro rest
    induction text with
    | nil => rfl
    | cons b text ih => rw [List.flatMap_cons, List.append_assoc, foldlM_escapeByte, ih]
  rw [quote, List.cons_append, List.cons_append, foldlM_cons_of_step hopen, List.append_assoc,
    hbody, List.singleton_append, foldlM_cons_of_step hclose]

/-! ### Scanning values -/

mutual

/-- **A value** is read to its end. -/
theorem foldlM_text : (value : Value) → value.WellFormed → (outer : List Container) →
    {b : UInt8} → EndsValue b → (rest : List UInt8) →
    (value.text ++ b :: rest).foldlM step ⟨.object :: outer, .value⟩
      = (b :: rest).foldlM step ⟨.object :: outer, .afterValue⟩
  | .string text, _, outer, b, _, rest => foldlM_quote false rfl text (b :: rest)
  | .int n, _, outer, b, hb, rest => foldlM_number (isNumber_signedDecimal n) hb
  | .boolean value, _, outer, b, _, rest => by
    cases value <;> rfl
  | .double printed, h, outer, b, hb, rest => foldlM_number h hb
  | .object members, h, outer, b, _, rest => by
    have hopen : step ⟨.object :: outer, .value⟩ 0x7B
        = some ⟨.object :: .object :: outer, .firstKey⟩ := rfl
    rw [Value.text, List.cons_append, List.cons_append, foldlM_cons_of_step hopen,
      List.append_assoc]
    exact foldlM_membersText members h (.object :: outer) (.inl rfl) (b :: rest)

/-- The members of an object, and the end of the object. -/
theorem foldlM_membersText : (members : List (List UInt8 × Value)) → MembersWellFormed members →
    (outer : List Container) → {point : Point} →
    (point = .firstKey ∨ point = .key ∧ members ≠ []) → (rest : List UInt8) →
    (membersText members ++ ([0x20, 0x7D] ++ rest)).foldlM step ⟨.object :: outer, point⟩
      = rest.foldlM step ⟨outer, .afterValue⟩
  | [], _, outer, point, hpoint, rest => by
    obtain rfl := hpoint.resolve_right fun h => h.2 rfl
    rfl
  | (key, value) :: members, h, outer, point, hpoint, rest => by
    have hspace : step ⟨.object :: outer, point⟩ 0x20 = some ⟨.object :: outer, point⟩ := by
      rcases hpoint with rfl | ⟨rfl, -⟩ <;> rfl
    have hquote : step ⟨.object :: outer, point⟩ 0x22
        = some ⟨.object :: outer, .string true⟩ := by
      rcases hpoint with rfl | ⟨rfl, -⟩ <;> rfl
    have hcolon : step ⟨.object :: outer, .colon⟩ 0x3A = some ⟨.object :: outer, .value⟩ := rfl
    have hblank : step ⟨.object :: outer, .value⟩ 0x20 = some ⟨.object :: outer, .value⟩ := rfl
    rcases members with _ | ⟨next, members⟩
    · have hvalue := foldlM_text value h.1 outer (b := 0x20) (.inr rfl) (0x7D :: rest)
      simp only [membersText, List.append_nil, List.cons_append, List.nil_append,
        List.append_assoc]
      rw [foldlM_cons_of_step hspace, foldlM_quote true hquote, if_pos rfl,
        foldlM_cons_of_step hcolon, foldlM_cons_of_step hblank, hvalue]
      rfl
    · have hrest := foldlM_membersText (next :: members) h.2 outer
        (.inr ⟨rfl, List.cons_ne_nil _ _⟩) rest
      have hvalue := foldlM_text value h.1 outer (b := 0x2C) (.inl rfl)
        (membersText (next :: members) ++ ([0x20, 0x7D] ++ rest))
      have hcomma : step ⟨.object :: outer, .afterValue⟩ 0x2C = some ⟨.object :: outer, .key⟩ := rfl
      rw [membersText]
      simp only [List.cons_append, List.nil_append, List.append_assoc] at hvalue hrest ⊢
      rw [foldlM_cons_of_step hspace, foldlM_quote true hquote, if_pos rfl,
        foldlM_cons_of_step hcolon, foldlM_cons_of_step hblank, hvalue,
        foldlM_cons_of_step hcomma, hrest]

end

/-- **The text of an object** is one for the machine. -/
theorem isObject_text {members : List (List UInt8 × Value)}
    (h : (Value.object members).WellFormed) :
    IsObject (Value.object members).text := by
  have hmembers := foldlM_membersText members h [] (.inl rfl) []
  rw [List.append_nil] at hmembers
  refine ⟨⟨[], .afterValue⟩, ?_, rfl⟩
  rw [Value.text, List.cons_append, scan, if_pos rfl, hmembers]
  rfl

end JsonObject
