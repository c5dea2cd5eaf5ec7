import Mathlib.Data.List.TakeWhile
import Oscillatord.Library.FloatText

/-!
# Where a floating-point number ends

No part of a floating-point number is punctuation other than a sign and a point. So what follows
such a character is not read: `scanFloat` makes the same of two texts that are the same up to it
(`SameTo.scanFloat_eq`).
-/

namespace CText

/-- Two texts are the same up to a character. -/
def SameTo (stop : UInt8) (a b : List UInt8) : Prop :=
  ∃ front back back', a = front ++ stop :: back ∧ b = front ++ stop :: back'

/-- A character that is no part of a number. -/
structure IsStop (stop : UInt8) : Prop where
  space : isSpace stop = false
  sign : stop ≠ 45 ∧ stop ≠ 43
  point : stop ≠ 46
  alphanumeric : digitOf stop = 36

theorem IsStop.isDigit {stop : UInt8} (h : IsStop stop) {base : ℕ} (hbase : base ≤ 36) :
    isDigit base stop = false := by
  rw [CText.isDigit, h.alphanumeric]
  exact decide_eq_false hbase.not_gt

theorem IsStop.notMem {stop : UInt8} (h : IsStop stop) {word : List UInt8}
    (hword : (word.all fun c => digitOf c < 36) = true) : stop ∉ word := by
  intro hmem
  have hstop := List.all_eq_true.mp hword stop hmem
  exact (of_decide_eq_true hstop).ne h.alphanumeric

theorem IsStop.ne {stop : UInt8} (h : IsStop stop) {c : UInt8} (hc : digitOf c < 36) : stop ≠ c :=
  fun heq => hc.ne (heq ▸ h.alphanumeric)

/-- The small letter of a character. -/
def lower (b : UInt8) : UInt8 := if 65 ≤ b ∧ b ≤ 90 then b + 32 else b

theorem IsStop.lower {stop : UInt8} (h : IsStop stop) : lower stop = stop := by
  have hletter : ¬ (65 ≤ stop ∧ stop ≤ 90) := by
    rintro ⟨hlo, hhi⟩
    have halpha := h.alphanumeric
    have hlo' : 65 ≤ stop.toNat := hlo
    have hhi' : stop.toNat ≤ 90 := hhi
    have hdigit : ¬ (48 ≤ stop ∧ stop ≤ 57) := by
      rintro ⟨-, hle⟩
      have hle' : stop.toNat ≤ 57 := hle
      omega
    rw [digitOf, if_neg hdigit, if_pos ⟨hlo, hhi⟩] at halpha
    omega
  exact if_neg hletter

variable {stop : UInt8} {a b : List UInt8}

namespace SameTo

theorem ne_nil (h : SameTo stop a b) : a ≠ [] ∧ b ≠ [] := by
  obtain ⟨front, back, back', rfl, rfl⟩ := h
  simp

/-- A text with the stop in it is the same up to it, whatever follows the text. -/
theorem of_mem {text : List UInt8} (h : stop ∈ text) (more more' : List UInt8) :
    SameTo stop (text ++ more) (text ++ more') := by
  obtain ⟨front, back, rfl⟩ := List.append_of_mem h
  exact ⟨front, back ++ more, back ++ more', by rw [List.append_assoc, List.cons_append],
    by rw [List.append_assoc, List.cons_append]⟩

theorem head? (h : SameTo stop a b) : a.head? = b.head? := by
  obtain ⟨front, back, back', rfl, rfl⟩ := h
  cases front <;> rfl

/-- Past a character that is not the stop. -/
theorem tail (h : SameTo stop a b) (hhead : a.head? ≠ some stop) : SameTo stop a.tail b.tail := by
  obtain ⟨front, back, back', rfl, rfl⟩ := h
  cases front with
  | nil => exact absurd rfl hhead
  | cons c front => exact ⟨front, back, back', rfl, rfl⟩

theorem takeWhile_eq (h : SameTo stop a b) {p : UInt8 → Bool} (hp : p stop = false) :
    a.takeWhile p = b.takeWhile p := by
  obtain ⟨front, back, back', rfl, rfl⟩ := h
  simp [List.takeWhile_append, hp]

theorem dropWhile (h : SameTo stop a b) {p : UInt8 → Bool} (hp : p stop = false) :
    SameTo stop (a.dropWhile p) (b.dropWhile p) := by
  obtain ⟨front, back, back', rfl, rfl⟩ := h
  rw [List.dropWhile_append, List.dropWhile_append]
  split_ifs
  · exact ⟨[], back, back', by simp [hp], by simp [hp]⟩
  · exact ⟨_, back, back', rfl, rfl⟩

theorem takeSign (h : SameTo stop a b) (hstop : IsStop stop) :
    (takeSign a).1 = (takeSign b).1 ∧ SameTo stop (takeSign a).2 (takeSign b).2 := by
  obtain ⟨front, back, back', rfl, rfl⟩ := h
  cases front with
  | nil =>
    simp only [List.nil_append, CText.takeSign, if_neg hstop.sign.1, if_neg hstop.sign.2]
    exact ⟨trivial, [], back, back', rfl, rfl⟩
  | cons c front =>
    simp only [List.cons_append, CText.takeSign]
    split_ifs
    · exact ⟨rfl, front, back, back', rfl, rfl⟩
    · exact ⟨rfl, front, back, back', rfl, rfl⟩
    · exact ⟨rfl, c :: front, back, back', rfl, rfl⟩

/-- A word without the stop is at the beginning of both texts, within what is the same. -/
theorem beginsWith_cases (h : SameTo stop a b) (hstop : IsStop stop) (word : List UInt8)
    (hword : stop ∉ word) :
    beginsWith word a = false ∧ beginsWith word b = false ∨
      SameTo stop (a.drop word.length) (b.drop word.length) ∧
        beginsWith word a = beginsWith word b := by
  obtain ⟨front, back, back', rfl, rfl⟩ := h
  by_cases hshort : front.length < word.length
  · have hfalse : ∀ back : List UInt8, beginsWith word (front ++ stop :: back) = false := by
      intro back
      rw [beginsWith, beq_eq_false_iff_ne]
      intro heq
      refine hword (heq ▸ List.mem_map.mpr ⟨stop, ?_, hstop.lower⟩)
      rw [List.mem_take_iff_getElem]
      exact ⟨front.length, by simp; omega, by simp⟩
    exact .inl ⟨hfalse back, hfalse back'⟩
  · have hle : word.length ≤ front.length := not_lt.mp hshort
    refine .inr ⟨⟨front.drop word.length, back, back', ?_, ?_⟩, ?_⟩
    · rw [List.drop_append_of_le_length hle]
    · rw [List.drop_append_of_le_length hle]
    · rw [beginsWith, beginsWith, List.take_append_of_le_length hle,
        List.take_append_of_le_length hle]

theorem beginsWith_eq (h : SameTo stop a b) (hstop : IsStop stop) (word : List UInt8)
    (hword : stop ∉ word) : beginsWith word a = beginsWith word b := by
  rcases h.beginsWith_cases hstop word hword with ⟨ha, hb⟩ | ⟨-, heq⟩
  · rw [ha, hb]
  · exact heq

theorem exponentAt_eq (h : SameTo stop a b) (hstop : IsStop stop) {marker : UInt8}
    (hmarker : stop ≠ marker ∧ stop ≠ marker - 32) : exponentAt marker a = exponentAt marker b := by
  rw [exponentAt, exponentAt, ← h.head?]
  split_ifs with hhead
  · have htail := h.tail (by
      rcases hhead with hhead | hhead <;> rw [hhead] <;> simp [hmarker, Ne.symm])
    obtain ⟨hsign, hrest⟩ := htail.takeSign hstop
    simp only [hsign, hrest.takeWhile_eq (hstop.isDigit (by decide : 10 ≤ 36))]
  · rfl

/-- The mantissas are the same, and so is what follows them, up to the stop. -/
theorem mantissaAt_cases (h : SameTo stop a b) (hstop : IsStop stop) {base : ℕ}
    (hbase : base ≤ 36) :
    mantissaAt base a = none ∧ mantissaAt base b = none ∨
      ∃ value places rest rest', mantissaAt base a = some (value, places, rest) ∧
        mantissaAt base b = some (value, places, rest') ∧ SameTo stop rest rest' := by
  have hdigit := hstop.isDigit hbase
  have hrest := h.dropWhile hdigit
  simp only [mantissaAt, h.takeWhile_eq hdigit, hrest.head?]
  by_cases hpoint : (b.dropWhile (isDigit base)).head? = some 46
  · have htail := hrest.tail (by
      rw [hrest.head?, hpoint]
      simpa using hstop.point.symm)
    simp only [hpoint, if_true, htail.takeWhile_eq hdigit]
    split_ifs
    · exact .inl ⟨rfl, rfl⟩
    · exact .inr ⟨_, _, _, _, rfl, rfl, htail.dropWhile hdigit⟩
  · simp only [hpoint, if_false]
    split_ifs
    · exact .inl ⟨rfl, rfl⟩
    · exact .inr ⟨_, _, _, _, rfl, rfl, hrest⟩

theorem magnitudeAt_eq (h : SameTo stop a b) (hstop : IsStop stop) (base exponentBase : ℕ)
    (hbase : base ≤ 36) (marker : UInt8) (hmarker : stop ≠ marker ∧ stop ≠ marker - 32) :
    magnitudeAt base exponentBase marker a = magnitudeAt base exponentBase marker b := by
  rcases h.mantissaAt_cases hstop hbase with ⟨ha, hb⟩ | ⟨value, places, rest, rest', ha, hb, hrest⟩
  · rw [magnitudeAt, magnitudeAt, ha, hb]
  · simp only [magnitudeAt, ha, hb, Option.map_some, hrest.exponentAt_eq hstop hmarker]

/-- The number of base 16 after its prefix. -/
theorem hexadecimal_eq (h : SameTo stop a b) (hstop : IsStop stop) :
    (if beginsWith [48, 120] a then magnitudeAt 16 2 112 (a.drop 2) else none)
      = if beginsWith [48, 120] b then magnitudeAt 16 2 112 (b.drop 2) else none := by
  rcases h.beginsWith_cases hstop [48, 120] (hstop.notMem rfl) with
    ⟨ha, hb⟩ | ⟨hrest, heq⟩
  · simp only [ha, hb, if_neg Bool.false_ne_true]
  · have hmagnitude := hrest.magnitudeAt_eq hstop 16 2 (by decide) 112
      ⟨hstop.ne (by decide), hstop.ne (by decide)⟩
    simp only [List.length_cons, List.length_nil, zero_add, Nat.reduceAdd] at hmagnitude
    rw [heq, hmagnitude]

theorem floatAt_eq (h : SameTo stop a b) (hstop : IsStop stop) : floatAt a = floatAt b := by
  obtain ⟨hsign, hbody⟩ := (h.dropWhile hstop.space).takeSign hstop
  have hinf := hbody.beginsWith_eq hstop [105, 110, 102] (hstop.notMem rfl)
  have hnan := hbody.beginsWith_eq hstop [110, 97, 110] (hstop.notMem rfl)
  have hdecimal := hbody.magnitudeAt_eq hstop 10 10 (by decide) 101
    ⟨hstop.ne (by decide), hstop.ne (by decide)⟩
  simp only [floatAt, hsign, hinf, hnan, hbody.hexadecimal_eq hstop, hdecimal]

/-- **What follows a stop is not read.** -/
theorem scanFloat_eq (h : SameTo stop a b) (hstop : IsStop stop) : scanFloat a = scanFloat b := by
  have hskip := h.dropWhile hstop.space
  obtain ⟨-, hbody⟩ := hskip.takeSign hstop
  have hinfi := hbody.beginsWith_eq hstop [105, 110, 102, 105]
    (hstop.notMem rfl)
  have hinfinity := hbody.beginsWith_eq hstop
    [105, 110, 102, 105, 110, 105, 116, 121] (hstop.notMem rfl)
  have hfloat := hskip.floatAt_eq hstop
  have hbare : (beginsWith [48, 120] (CText.takeSign (a.dropWhile isSpace)).2 &&
        !(((CText.takeSign (a.dropWhile isSpace)).2[2]?).any fun b =>
          CText.isDigit 16 b || b == 46))
      = (beginsWith [48, 120] (CText.takeSign (b.dropWhile isSpace)).2 &&
        !(((CText.takeSign (b.dropWhile isSpace)).2[2]?).any fun b =>
          CText.isDigit 16 b || b == 46)) := by
    rcases hbody.beginsWith_cases hstop [48, 120] (hstop.notMem rfl) with
      ⟨ha, hb⟩ | ⟨hrest, heq⟩
    · rw [ha, hb, Bool.false_and, Bool.false_and]
    · have hthird := hrest.head?
      rw [List.head?_drop, List.head?_drop] at hthird
      simp only [List.length_cons, List.length_nil, zero_add, Nat.reduceAdd] at hthird
      rw [heq, hthird]
  simp only [scanFloat, hskip.ne_nil.1, hskip.ne_nil.2, if_false, hinfi, hinfinity, hfloat, hbare]

end SameTo

end CText
