import Oscillatord.Library.FloatEnds
import Oscillatord.Library.NumberEnds
import Oscillatord.Oscillators.Sa5xAnswers

/-!
# When the SA5x attributes are what the device said

The readings of the attributes come down to the bytes of the replies and of the buffer. A reply to a
query is an answer with a text, or none; the conversion sees that text and the string that goes on
behind it in the buffer, up to a NUL (`Sa5xExchange.seen`). What a command leaves in the buffer
depends on its reply alone (`Sa5xExchange.leaves`), so the buffer of each command is that of the
commands before it (`sa5xBuffers`).

What the attributes tell is then a matter of three things in these bytes: that a number ends within
its answer, or that the digits behind it do not change what is stored (`SettledNumber`); that the
reply to a mandatory query is not a text without a number; and that the alarms and the phase have an
answer (`answersLaw_iff`). The bracket of an answer ends its numbers (`settles_of_bracket`).
-/

namespace Oscillatord

open CNumber CText Rounding

/-! ### The bytes of a reply -/

/-- The text of an answer: what follows `[=`, up to a NUL. -/
def Sa5xExchange.text : Sa5xExchange → Option (List UInt8)
  | .unsent => none
  | .broken _ _ => none
  | .answered bytes _ => if isAnswer bytes then some ((cString bytes).drop 2) else none

/-- The string that goes on behind a reply in the buffer. -/
def Sa5xExchange.following (exchange : Sa5xExchange) (buffer : List UInt8) : List UInt8 :=
  match exchange with
  | .unsent => []
  | .broken _ _ => []
  | .answered bytes _ => if 0 ∈ bytes then [] else cString (buffer.drop bytes.length)

/-- The text that a conversion sees. -/
def Sa5xExchange.seen (exchange : Sa5xExchange) (buffer : List UInt8) : Option (List UInt8) :=
  exchange.text.map fun text => text ++ exchange.following buffer

/-- The buffer after a query: the bytes of its reply are cleared, unless it broke off. -/
def Sa5xExchange.leaves (exchange : Sa5xExchange) (buffer : List UInt8) : List UInt8 :=
  match exchange with
  | .unsent => buffer
  | .broken bytes _ => overwriteAnswer bytes buffer
  | .answered bytes _ => clearAnswer bytes.length buffer

/-- A text is white space. -/
def Blank (text : List UInt8) : Prop := text.dropWhile isSpace = []

instance (text : List UInt8) : Decidable (Blank text) := inferInstanceAs (Decidable (_ = _))

/-- A text begins with a number: there are digits after white space and a sign. -/
def HasDigits (text : List UInt8) : Prop := intDigits 10 text ≠ []

instance (text : List UInt8) : Decidable (HasDigits text) := inferInstanceAs (Decidable (_ ≠ _))

/-- The number of a text, with more digits behind its own. -/
def numberWith (text digits : List UInt8) : ℤ :=
  signedValue (isNegative text) (valueOf 10 (intDigits 10 text ++ digits))

/-- The number of a text. -/
def numberIn (text : List UInt8) : ℤ := numberWith text []

/-- What is stored of the number of a text is its own: the number ends within the text, or there is
none in what the conversion sees, or the digits that follow the number change nothing. -/
def SettledNumber {α : Type} (conv : ℤ → α) (text following : List UInt8) : Prop :=
  NumberEnds 10 text ∨ ¬ HasDigits (text ++ following) ∨
    HasDigits text ∧
      conv (numberWith text (following.takeWhile (isDigit 10))) = conv (numberIn text)

/-- The number of an answer is its own in the buffer. -/
def Sa5xExchange.Settles {α : Type} (exchange : Sa5xExchange) (conv : ℤ → α)
    (buffer : List UInt8) : Prop :=
  ∀ text ∈ exchange.text, SettledNumber conv text (exchange.following buffer)

/-- The phase of a text is its own. -/
def SettledPhase (text following : List UInt8) : Prop :=
  ∀ value, scanFloat (text ++ following) = .number value →
    ∃ value', scanFloat text = .number value' ∧
      phaseOffsetOf (doubleOf value') = phaseOffsetOf (doubleOf value)

/-- The phase of an answer is its own in the buffer. -/
def Sa5xExchange.SettlesPhase (exchange : Sa5xExchange) (buffer : List UInt8) : Prop :=
  ∀ text ∈ exchange.text, SettledPhase text (exchange.following buffer)

/-- A text is there, and begins with a number. -/
def GivesNumber (text : Option (List UInt8)) : Prop := ∃ t ∈ text, HasDigits t

/-- A text is there, and begins with something else than a number. -/
def GivesOther (text : Option (List UInt8)) : Prop := ∃ t ∈ text, ¬ Blank t ∧ ¬ HasDigits t

/-- A text is there, with more than white space. -/
def GivesSome (text : Option (List UInt8)) : Prop := ∃ t ∈ text, ¬ Blank t

/-- A text is there, with a number that sets a one-bit field. -/
def GivesOdd (text : Option (List UInt8)) : Prop :=
  ∃ t ∈ text, HasDigits t ∧ bitOf (intOf (numberIn t)) = true

section Decidable

variable (text : Option (List UInt8))

instance : Decidable (GivesNumber text) := inferInstanceAs (Decidable (∃ t ∈ text, _))

instance : Decidable (GivesOther text) := inferInstanceAs (Decidable (∃ t ∈ text, _ ∧ _))

instance : Decidable (GivesSome text) := inferInstanceAs (Decidable (∃ t ∈ text, _))

instance : Decidable (GivesOdd text) := inferInstanceAs (Decidable (∃ t ∈ text, _ ∧ _))

end Decidable

/-! ### The numbers of a text -/

section Text

variable {α : Type} {text more : List UInt8} (c : ℤ → ℤ)

theorem not_hasDigits_of_blank (h : Blank text) : ¬ HasDigits text := by
  intro hdigits
  refine hdigits ?_
  rw [intDigits, intBody, if_neg (by decide), unsignedBody, h]
  rfl

/-- The three outcomes of a conversion. -/
theorem intReadingOf_eq (text : List UInt8) :
    intReadingOf c (scanInt 10 text) =
      if Blank text then .ended
      else if HasDigits text then .value (c (numberIn text)) else .noMatch := by
  rw [scanInt_eq, numberIn, numberWith, List.append_nil]
  by_cases hblank : Blank text
  · rw [if_pos hblank, if_pos (show text.dropWhile isSpace = [] from hblank)]
    rfl
  · rw [if_neg hblank, if_neg (show ¬ text.dropWhile isSpace = [] from hblank)]
    by_cases hdigits : HasDigits text
    · rw [if_pos hdigits, if_neg hdigits]
      rfl
    · rw [if_neg hdigits, if_pos (not_not.mp hdigits)]
      rfl

theorem intReadingOf_of_hasDigits (h : HasDigits text) :
    intReadingOf c (scanInt 10 text) = .value (c (numberIn text)) := by
  rw [intReadingOf_eq, if_neg fun hblank => not_hasDigits_of_blank hblank h, if_pos h]

theorem intReadingOf_isValue_iff : (intReadingOf c (scanInt 10 text)).IsValue ↔ HasDigits text := by
  constructor
  · rintro ⟨v, hv⟩
    by_contra hdigits
    rw [intReadingOf_eq, if_neg hdigits] at hv
    split_ifs at hv
  · exact fun h => ⟨_, intReadingOf_of_hasDigits c h⟩

/-- A number that ends within its text is the same with what follows. -/
theorem intReadingOf_append (h : NumberEnds 10 text) :
    intReadingOf c (scanInt 10 (text ++ more)) = intReadingOf c (scanInt 10 text) := by
  rw [scanInt_append h]
  cases scanInt 10 text <;> rfl

/-- **What is stored of a number is its own** exactly when the bytes say so. -/
theorem says_iff {conv : ℤ → α} :
    Says conv (intReadingOf c (scanInt 10 (text ++ more))) (intReadingOf c (scanInt 10 text)) ↔
      SettledNumber (fun n => conv (c n)) text more := by
  by_cases hends : NumberEnds 10 text
  · refine iff_of_true ?_ (.inl hends)
    rw [intReadingOf_append c hends]
    exact fun v hv => ⟨v, hv, rfl⟩
  by_cases hdigits : HasDigits text
  · have hseen : intReadingOf c (scanInt 10 (text ++ more))
        = .value (c (numberWith text (more.takeWhile (isDigit 10)))) := by
      rw [scanInt_append_of_digits hends hdigits]
      rfl
    have hboth : HasDigits (text ++ more) :=
      (intReadingOf_isValue_iff c).mp ⟨_, hseen⟩
    rw [hseen, intReadingOf_of_hasDigits c hdigits]
    constructor
    · intro hsays
      obtain ⟨w, hw, heq⟩ := hsays _ rfl
      rw [IntReading.value.inj hw.symm] at heq
      exact .inr (.inr ⟨hdigits, heq.symm⟩)
    · rintro (hends' | hnone | ⟨-, heq⟩)
      · exact absurd hends' hends
      · exact absurd hboth hnone
      · rintro v hv
        rw [← IntReading.value.inj hv]
        exact ⟨_, rfl, heq.symm⟩
  -- a text without digits says nothing of a number that begins behind it
  · constructor
    · intro hsays
      refine .inr (.inl fun hboth => hdigits ?_)
      obtain ⟨w, hw, -⟩ := hsays _ (intReadingOf_of_hasDigits c hboth)
      exact (intReadingOf_isValue_iff c).mp ⟨w, hw⟩
    · rintro (hends' | hnone | ⟨hdigits', -⟩)
      · exact absurd hends' hends
      · exact fun v hv => absurd ((intReadingOf_isValue_iff c).mp ⟨v, hv⟩) hnone
      · exact absurd hdigits' hdigits

end Text

/-! ### The readings of a reply -/

section Exchange

variable {α : Type} (c : ℤ → ℤ) {conv : ℤ → α} (exchange : Sa5xExchange) (buffer : List UInt8)

theorem length_of_isAnswer {bytes : List UInt8} (h : isAnswer bytes = true) :
    5 ≤ bytes.length ∧ bytes.take 2 = [0x5b, 0x3d] := by
  simp only [isAnswer, Bool.and_eq_true, decide_eq_true_eq, beq_iff_eq] at h
  exact h

/-- The string in the buffer with an answer in it. -/
theorem drop_cString_overwriteAnswer {bytes : List UInt8} (h : isAnswer bytes = true) :
    (cString (overwriteAnswer bytes buffer)).drop 2 =
      (cString bytes).drop 2 ++ if 0 ∈ bytes then [] else cString (buffer.drop bytes.length) := by
  rw [overwriteAnswer]
  split_ifs with hnul
  · rw [cString_append_of_mem hnul, List.append_nil]
  · have hbytes : cString bytes = bytes :=
      List.takeWhile_eq_self_iff.mpr fun b hb => bne_iff_ne.mpr fun hzero => hnul (hzero ▸ hb)
    have hlength := (length_of_isAnswer h).1
    rw [cString_append_of_notMem hnul, hbytes, List.drop_append_of_le_length (by omega)]

/-- What a reading makes of a reply is what the conversion makes of the text it sees. -/
theorem fst_sa5xOscillatorRead :
    (sa5xOscillatorRead c exchange buffer).1 =
      (exchange.seen buffer).elim .failed fun text => intReadingOf c (scanInt 10 text) := by
  rcases exchange with _ | ⟨bytes, hbytes⟩ | ⟨bytes, hbytes⟩
  · rfl
  · rfl
  by_cases hanswer : isAnswer bytes = true
  · have hpos : (0 : ℤ) < bytes.length := by
      have hlength := (length_of_isAnswer hanswer).1
      omega
    simp only [sa5xOscillatorRead, sa5xOscillatorCmd, hanswer, if_true, hpos, scanAnswer_eq,
      drop_cString_overwriteAnswer buffer hanswer, Sa5xExchange.seen, Sa5xExchange.text,
      Sa5xExchange.following, Option.map_some, Option.elim_some]
  · simp [sa5xOscillatorRead, sa5xOscillatorCmd, hanswer, Sa5xExchange.seen, Sa5xExchange.text]

theorem fst_sa5xOscillatorReadPhase (junk : ℤ) :
    (sa5xOscillatorReadPhase junk exchange buffer).1 =
      (exchange.seen buffer).elim (.uninitialised junk) fun text =>
        phaseReadingOf junk (scanFloat text) := by
  rcases exchange with _ | ⟨bytes, hbytes⟩ | ⟨bytes, hbytes⟩
  · rfl
  · rfl
  by_cases hanswer : isAnswer bytes = true
  · have hpos : (0 : ℤ) < bytes.length := by
      have hlength := (length_of_isAnswer hanswer).1
      omega
    simp only [sa5xOscillatorReadPhase, sa5xOscillatorCmd, hanswer, if_true, hpos,
      scanPhaseAnswer_eq, drop_cString_overwriteAnswer buffer hanswer, Sa5xExchange.seen,
      Sa5xExchange.text, Sa5xExchange.following, Option.map_some, Option.elim_some]
  · simp [sa5xOscillatorReadPhase, sa5xOscillatorCmd, hanswer, Sa5xExchange.seen, Sa5xExchange.text]

/-- With an empty buffer a conversion sees the answer alone. -/
theorem following_nil : exchange.following [] = [] := by
  rcases exchange with _ | ⟨bytes, hbytes⟩ | ⟨bytes, hbytes⟩
  · rfl
  · rfl
  · rw [Sa5xExchange.following, List.drop_nil]
    exact ite_self _

theorem seen_nil : exchange.seen [] = exchange.text := by
  rw [Sa5xExchange.seen, following_nil]
  simp

theorem clearAnswer_overwriteAnswer (bytes : List UInt8) :
    clearAnswer bytes.length (overwriteAnswer bytes buffer) = clearAnswer bytes.length buffer := by
  simp [clearAnswer, overwriteAnswer]

/-- What a reading leaves in the buffer depends on the reply alone. -/
theorem snd_sa5xOscillatorRead :
    (sa5xOscillatorRead c exchange buffer).2 = exchange.leaves buffer := by
  rcases exchange with _ | ⟨bytes, hbytes⟩ | ⟨bytes, hbytes⟩
  · rfl
  · rfl
  by_cases hanswer : isAnswer bytes = true
  · have hpos : (0 : ℤ) < bytes.length := by
      have hlength := (length_of_isAnswer hanswer).1
      omega
    simp only [sa5xOscillatorRead, sa5xOscillatorCmd, hanswer, if_true, hpos, Int.toNat_natCast,
      clearAnswer_overwriteAnswer, Sa5xExchange.leaves]
  · simp [sa5xOscillatorRead, sa5xOscillatorCmd, hanswer, clearAnswer_overwriteAnswer,
      Sa5xExchange.leaves]

theorem snd_sa5xOscillatorReadPhase (junk : ℤ) :
    (sa5xOscillatorReadPhase junk exchange buffer).2 = exchange.leaves buffer := by
  rw [← snd_sa5xOscillatorRead id, sa5xOscillatorReadPhase, sa5xOscillatorRead]
  dsimp only
  split_ifs <;> rfl

variable {exchange buffer}

theorem isValue_read_iff :
    (sa5xOscillatorRead c exchange buffer).1.IsValue ↔ GivesNumber (exchange.seen buffer) := by
  rw [fst_sa5xOscillatorRead, GivesNumber]
  cases exchange.seen buffer with
  | none => simp [IntReading.IsValue]
  | some text => simpa using intReadingOf_isValue_iff c

theorem read_ne_noMatch_iff :
    (sa5xOscillatorRead c exchange buffer).1 ≠ .noMatch ↔ ¬ GivesOther (exchange.seen buffer) := by
  rw [fst_sa5xOscillatorRead, GivesOther]
  cases exchange.seen buffer with
  | none => simp
  | some text =>
    simp only [Option.elim_some, Option.mem_some_iff, exists_eq_left', intReadingOf_eq]
    by_cases hblank : Blank text <;> by_cases hdigits : HasDigits text <;> simp [hblank, hdigits]

theorem read_answered_iff :
    (sa5xOscillatorRead c exchange buffer).1 ≠ .failed ∧
        (sa5xOscillatorRead c exchange buffer).1 ≠ .ended ↔ GivesSome (exchange.seen buffer) := by
  rw [fst_sa5xOscillatorRead, GivesSome]
  cases exchange.seen buffer with
  | none => simp
  | some text =>
    simp only [Option.elim_some, Option.mem_some_iff, exists_eq_left', intReadingOf_eq]
    by_cases hblank : Blank text <;> by_cases hdigits : HasDigits text <;> simp [hblank, hdigits]

/-- The number that is read is that of the text. -/
theorem read_eq_value_iff {v : ℤ} :
    (sa5xOscillatorRead c exchange buffer).1 = .value v ↔
      ∃ text ∈ exchange.seen buffer, HasDigits text ∧ c (numberIn text) = v := by
  rw [fst_sa5xOscillatorRead]
  cases exchange.seen buffer with
  | none => simp
  | some text =>
    simp only [Option.elim_some, Option.mem_some_iff, exists_eq_left', intReadingOf_eq]
    by_cases hdigits : HasDigits text
    · have hblank : ¬ Blank text := fun hblank => not_hasDigits_of_blank hblank hdigits
      simp [hblank, hdigits]
    · by_cases hblank : Blank text <;> simp [hblank, hdigits]

theorem says_read_iff :
    Says conv (sa5xOscillatorRead c exchange buffer).1 (sa5xOscillatorRead c exchange []).1 ↔
      exchange.Settles (fun n => conv (c n)) buffer := by
  rw [fst_sa5xOscillatorRead, fst_sa5xOscillatorRead, seen_nil, Sa5xExchange.seen,
    Sa5xExchange.Settles]
  cases exchange.text with
  | none => simp [Says]
  | some text => simpa using says_iff c

variable (exchange buffer) in
/-- The content of the uninitialised variable shows only where a phase has no answer. -/
theorem readPhase_answered_iff (junk : ℤ) :
    (∀ j, (sa5xOscillatorReadPhase junk exchange buffer).1 ≠ .uninitialised j) ↔
      GivesSome (exchange.seen buffer) := by
  rw [fst_sa5xOscillatorReadPhase, GivesSome]
  cases exchange.seen buffer with
  | none => simp
  | some text =>
    simp only [Option.elim_some, Option.mem_some_iff, exists_eq_left']
    by_cases hblank : Blank text
    · simp [scanFloat, show text.dropWhile isSpace = [] from hblank, phaseReadingOf, hblank]
    · refine iff_of_true (fun j hj => ?_) hblank
      rcases hscan : scanFloat text with value | _ | _
      · simp [hscan, phaseReadingOf] at hj
      · simp [hscan, phaseReadingOf] at hj
      · simp only [scanFloat, show ¬ text.dropWhile isSpace = [] from hblank, if_false] at hscan
        split_ifs at hscan
        cases hfloat : floatAt (text.dropWhile isSpace) <;> simp [hfloat] at hscan

/-- The phase that is read is the one that a conversion makes of the text. -/
theorem readPhase_eq_value_iff {junk : ℤ} {q : ℚ} :
    (sa5xOscillatorReadPhase junk exchange buffer).1 = .value q ↔
      ∃ text ∈ exchange.seen buffer, ∃ value, scanFloat text = .number value ∧
        doubleOf value = q := by
  rw [fst_sa5xOscillatorReadPhase]
  cases exchange.seen buffer with
  | none => simp
  | some text =>
    simp only [Option.elim_some, Option.mem_some_iff, exists_eq_left']
    cases scanFloat text <;> simp [phaseReadingOf]

theorem saysPhase_read_iff (junk : ℤ) :
    SaysPhase (sa5xOscillatorReadPhase junk exchange buffer).1
        (sa5xOscillatorReadPhase 0 exchange []).1 ↔ exchange.SettlesPhase buffer := by
  simp only [SaysPhase, readPhase_eq_value_iff, Sa5xExchange.seen, following_nil,
    Sa5xExchange.SettlesPhase, SettledPhase, PhaseReading.store]
  cases exchange.text with
  | none => simp
  | some text => simp

end Exchange

/-- **The bracket of an answer ends its numbers**, whatever the buffer holds behind it. -/
theorem settles_of_bracket {exchange : Sa5xExchange} {text : List UInt8}
    (h : exchange.text = some text) (hbracket : 0x5d ∈ text) (buffer : List UInt8) :
    (∀ {α : Type} (conv : ℤ → α), exchange.Settles conv buffer) ∧
      exchange.SettlesPhase buffer := by
  constructor
  · rintro α conv t ht
    obtain rfl := Option.some.inj (h.symm.trans ht)
    exact .inl (numberEnds_of_mem (mem_dropWhile_isSpace hbracket (by decide)) (by decide)
      (by decide) (by decide))
  · intro t ht value hvalue
    obtain rfl := Option.some.inj (h.symm.trans ht)
    have hsame := SameTo.of_mem hbracket (exchange.following buffer) []
    rw [hsame.scanFloat_eq ⟨by decide, by decide, by decide, by decide⟩, List.append_nil] at hvalue
    exact ⟨value, hvalue, rfl⟩

/-! ### The buffer of each command -/

/-- The buffer each query finds, except that of the temperature. -/
structure Sa5xBuffers where
  disciplineLocked : List UInt8
  gnssPps : List UInt8
  digitalTuning : List UInt8
  locked : List UInt8
  tau : List UInt8
  lastcorrection : List UInt8
  alarms : List UInt8
  disciplining : List UInt8
  phase : List UInt8

/-- The buffers of a call: each command finds what the commands before it have left. -/
def sa5xBuffers (mask : Sa5xMask) (x : Sa5xExchanges) (memory : List UInt8) : Sa5xBuffers :=
  let gnssPps := x.disciplineLocked.leaves memory
  let digitalTuning :=
    if mask.statusPps || mask.status then x.gnssPps.leaves gnssPps else memory
  let locked := x.digitalTuning.leaves digitalTuning
  let tau := x.locked.leaves locked
  let lastcorrection := x.tau.leaves tau
  let alarms := if mask.ctrl then x.lastcorrection.leaves lastcorrection else digitalTuning
  let disciplining := x.alarms.leaves alarms
  { disciplineLocked := memory
    gnssPps := gnssPps
    digitalTuning := digitalTuning
    locked := locked
    tau := tau
    lastcorrection := lastcorrection
    alarms := alarms
    disciplining := disciplining
    phase := if mask.status then x.disciplining.leaves disciplining else alarms }

/-- The call goes on after the queries of the PPS. -/
def PpsAnswered (mask : Sa5xMask) (x : Sa5xExchanges) (memory : List UInt8) : Prop :=
  mask.statusPps = true ∨ mask.status = true →
    GivesNumber (x.gnssPps.seen (sa5xBuffers mask x memory).gnssPps)

/-- The phase is queried: under `ATTR_PHASE`, and where disciplining is found off. -/
def PhaseQueried (mask : Sa5xMask) (x : Sa5xExchanges) (memory : List UInt8) : Prop :=
  mask.phase = true ∨ mask.status = true ∧
    ∃ t ∈ x.disciplining.seen (sa5xBuffers mask x memory).disciplining,
      HasDigits t ∧ intOf (numberIn t) = 0

/-- The field of disciplining holds no, with what it held before. -/
def FoundOff (mask : Sa5xMask) (x : Sa5xExchanges) (memory : List UInt8) (before : Bool) : Prop :=
  let seen := x.disciplining.seen (sa5xBuffers mask x memory).disciplining
  GivesNumber seen ∧ ¬ GivesOdd seen ∨ ¬ GivesNumber seen ∧ before = false

/-- The phase that is found, with what the field and the variable held before. -/
def phaseFound (seen : Option (List UInt8)) (before junk : ℤ) : ℤ :=
  seen.elim junk fun t => (phaseReadingOf junk (scanFloat t)).store before

theorem stored_bitOf_read_iff {exchange : Sa5xExchange} {buffer : List UInt8} {before : Bool} :
    stored bitOf (sa5xOscillatorRead intOf exchange buffer).1 before = false ↔
      GivesNumber (exchange.seen buffer) ∧ ¬ GivesOdd (exchange.seen buffer) ∨
        ¬ GivesNumber (exchange.seen buffer) ∧ before = false := by
  by_cases hvalue : (sa5xOscillatorRead intOf exchange buffer).1.IsValue
  · have hnumber := (isValue_read_iff intOf).mp hvalue
    obtain ⟨v, hv⟩ := hvalue
    obtain ⟨t, ht, hdigits, rfl⟩ := (read_eq_value_iff intOf).mp hv
    have hodd : GivesOdd (exchange.seen buffer) ↔ bitOf (intOf (numberIn t)) = true := by
      rw [GivesOdd, Option.mem_def.mp ht]
      simp [hdigits]
    rw [hv, hodd]
    simp [hnumber, stored]
  · have hstored : stored bitOf (sa5xOscillatorRead intOf exchange buffer).1 before = before := by
      rcases hreading : (sa5xOscillatorRead intOf exchange buffer).1 with v | _ | _ | _
      · exact absurd ⟨v, hreading⟩ hvalue
      all_goals rfl
    rw [hstored]
    simp [(isValue_read_iff intOf).not.mp hvalue]

theorem bitOf_store_read_iff {exchange : Sa5xExchange} {buffer : List UInt8} :
    bitOf ((sa5xOscillatorRead intOf exchange buffer).1.store 0) = true ↔
      GivesOdd (exchange.seen buffer) := by
  have hstored : bitOf ((sa5xOscillatorRead intOf exchange buffer).1.store 0) =
      stored bitOf (sa5xOscillatorRead intOf exchange buffer).1 false := (stored_bitOf _).symm
  rw [hstored, ← Bool.not_eq_false, stored_bitOf_read_iff]
  have hnumber : GivesOdd (exchange.seen buffer) → GivesNumber (exchange.seen buffer) :=
    fun ⟨t, ht, hdigits, _⟩ => ⟨t, ht, hdigits⟩
  tauto

theorem store_readPhase {exchange : Sa5xExchange} {buffer : List UInt8} {before junk : ℤ} :
    (sa5xOscillatorReadPhase junk exchange buffer).1.store before =
      phaseFound (exchange.seen buffer) before junk := by
  rw [fst_sa5xOscillatorReadPhase, phaseFound]
  cases exchange.seen buffer <;> rfl

/-- Disciplining is switched on. -/
def SwitchesOn (mask : Sa5xMask) (x : Sa5xExchanges) (memory : List UInt8) (a : Sa5xAttributes)
    (junk : ℤ) : Prop :=
  mask.status = true ∧ FoundOff mask x memory a.disciplining ∧
    phaseFound (x.phase.seen (sa5xBuffers mask x memory).phase) a.phaseoffset junk = 0

section Decidable

variable (mask : Sa5xMask) (x : Sa5xExchanges) (memory : List UInt8)

instance : Decidable (PhaseQueried mask x memory) :=
  inferInstanceAs (Decidable (_ ∨ _ ∧ ∃ t ∈ x.disciplining.seen _, _ ∧ _))

instance (before : Bool) : Decidable (FoundOff mask x memory before) :=
  inferInstanceAs (Decidable (_ ∧ _ ∨ _ ∧ _))

instance (a : Sa5xAttributes) (junk : ℤ) : Decidable (SwitchesOn mask x memory a junk) :=
  inferInstanceAs (Decidable (_ ∧ _ ∧ _))

end Decidable

/-- The buffer the query of the temperature finds, with what the attributes and the variable of the
phase held before. -/
def temperatureBuffer (mask : Sa5xMask) (x : Sa5xExchanges) (memory : List UInt8)
    (a : Sa5xAttributes) (junk : ℤ) : List UInt8 :=
  let phase := (sa5xBuffers mask x memory).phase
  if PhaseQueried mask x memory then
    if SwitchesOn mask x memory a junk then
      (sa5xOscillatorCmd x.setDisciplining (overwriteAnswer
        (ascii "\x7bset,Disciplining,1\x7d" ++ [0]) (x.phase.leaves phase))).2
    else x.phase.leaves phase
  else phase

/-! ### The readings of a call -/

/-- The readings of a call, each reply in its buffer. -/
def Sa5xExchanges.readings (x : Sa5xExchanges) (b : Sa5xBuffers) (phase val : ℤ)
    (temperature : IntReading) : Sa5xReplies where
  disciplineLocked := (sa5xOscillatorRead intOf x.disciplineLocked b.disciplineLocked).1
  gnssPps := (sa5xOscillatorRead intOf x.gnssPps b.gnssPps).1
  digitalTuning := (sa5xOscillatorRead clampLong x.digitalTuning b.digitalTuning).1
  locked := (sa5xOscillatorRead intOf x.locked b.locked).1
  tau := (sa5xOscillatorRead intOf x.tau b.tau).1
  lastcorrection := (sa5xOscillatorRead intOf x.lastcorrection b.lastcorrection).1
  alarms := (sa5xOscillatorRead intOf x.alarms b.alarms).1
  disciplining := (sa5xOscillatorRead intOf x.disciplining b.disciplining).1
  phase := (sa5xOscillatorReadPhase phase x.phase b.phase).1
  temperature := temperature
  junk := val

/-- The commands of a call that goes on after the queries of the PPS. -/
theorem mem_cmds_of_goesOn {mask : Sa5xMask} {r : Sa5xReplies} {a : Sa5xAttributes}
    (h : mask.GoesOn r) :
    (.getPhase ∈ (sa5xScanFrom mask r a).cmds ↔ mask.AsksPhase r) ∧
      (.setDisciplining true ∈ (sa5xScanFrom mask r a).cmds ↔
        mask.AsksPhase r ∧ mask.status = true ∧ stored bitOf r.disciplining a.disciplining = false ∧
          r.phase.store a.phaseoffset = 0) := by
  have hasks : ∀ val a, (mask.phase || (sa5xReadStatus mask r a val).2) = true ↔
      mask.AsksPhase r := fun val a => by
    rw [Bool.or_eq_true, sa5xReadStatus_snd_iff]
    rfl
  simp only [sa5xScanFrom, sa5xReadPps_of_goesOn h, sa5xReadPhase_snd, sa5xReadTemperature_cmds,
    sa5xReadStatus_fst, sa5xReadCtrl_eq, List.mem_append, hasks]
  have hqueries : ∀ pps ctrl status, .getPhase ∉ sa5xQueries pps ctrl status ∧
      .setDisciplining true ∉ sa5xQueries pps ctrl status := by decide
  by_cases hphase : mask.AsksPhase r <;>
    by_cases hzero : stored bitOf r.disciplining a.disciplining = false ∧
      r.phase.store a.phaseoffset = 0 <;>
    cases hstatus : mask.status <;> cases htemperature : mask.statusTemperature <;>
    simp [hphase, hzero, hqueries]

/-- The buffer after the commands that follow the query of the status. -/
def bufferAfter (x : Sa5xExchanges) (cmds : List Sa5xCmd) (buffer : List UInt8) : List UInt8 :=
  let buffer := if .getPhase ∈ cmds then x.phase.leaves buffer else buffer
  if .setDisciplining true ∈ cmds then
    (sa5xOscillatorCmd x.setDisciplining
      (overwriteAnswer (ascii "\x7bset,Disciplining,1\x7d" ++ [0]) buffer)).2
  else buffer

section Readings

variable {mask : Sa5xMask} {x : Sa5xExchanges} {memory : List UInt8} {val phase : ℤ}
  {a : Sa5xAttributes} {temperature : IntReading}

variable (mask x memory val phase a) in
/-- The readings of a call are those of its buffers. -/
theorem sa5xReplies_eq :
    sa5xReplies mask x ⟨memory, val, phase⟩ a =
      x.readings (sa5xBuffers mask x memory) phase val
        (sa5xOscillatorRead intOf x.temperature
          (bufferAfter x (sa5xScanFrom mask
              (x.readings (sa5xBuffers mask x memory) phase val .failed) a).cmds
            (sa5xBuffers mask x memory).phase)).1 := by
  simp only [sa5xReplies, snd_sa5xOscillatorRead, snd_sa5xOscillatorReadPhase]
  rfl

/-- The call goes on where the PPS is answered. -/
theorem goesOn_readings_iff :
    mask.GoesOn (x.readings (sa5xBuffers mask x memory) phase val temperature) ↔
      PpsAnswered mask x memory := by
  rw [Sa5xMask.GoesOn, PpsAnswered, ← isValue_read_iff intOf]
  rfl

theorem asksPhase_readings_iff :
    mask.AsksPhase (x.readings (sa5xBuffers mask x memory) phase val temperature) ↔
      PhaseQueried mask x memory := by
  rw [Sa5xMask.AsksPhase, PhaseQueried, ← read_eq_value_iff]
  rfl

/-- The temperature is read in its buffer. -/
theorem bufferAfter_of_ppsAnswered (h : PpsAnswered mask x memory) :
    bufferAfter x (sa5xScanFrom mask
        (x.readings (sa5xBuffers mask x memory) phase val .failed) a).cmds
      (sa5xBuffers mask x memory).phase = temperatureBuffer mask x memory a phase := by
  have hgo : mask.GoesOn (x.readings (sa5xBuffers mask x memory) phase val .failed) :=
    goesOn_readings_iff.mpr h
  obtain ⟨hphase, hswitch⟩ := mem_cmds_of_goesOn (a := a) hgo
  have hoff : stored bitOf (x.readings (sa5xBuffers mask x memory) phase val .failed).disciplining
      a.disciplining = false ↔ FoundOff mask x memory a.disciplining := stored_bitOf_read_iff
  have hzero : (x.readings (sa5xBuffers mask x memory) phase val .failed).phase.store
      a.phaseoffset =
        phaseFound (x.phase.seen (sa5xBuffers mask x memory).phase) a.phaseoffset phase :=
    store_readPhase
  rw [asksPhase_readings_iff] at hphase
  rw [asksPhase_readings_iff, hoff, hzero] at hswitch
  simp only [bufferAfter, temperatureBuffer, hphase, hswitch]
  by_cases hqueried : PhaseQueried mask x memory
  · simp only [hqueried, if_true, true_and]
    exact if_congr Iff.rfl rfl rfl
  · simp only [hqueried, if_false, false_and]

end Readings

/-! ### What the replies have to be -/

/-- The replies to the queries of the PPS: the numbers are their own, and that of the signal is not
a text without a number. -/
structure PpsTold (x : Sa5xExchanges) (b : Sa5xBuffers) : Prop where
  disciplineLocked : x.disciplineLocked.Settles (fun n => bitOf (intOf n)) b.disciplineLocked
  number : ¬ GivesOther (x.gnssPps.seen b.gnssPps)
  gnssPps : x.gnssPps.Settles (fun n => bitOf (intOf n)) b.gnssPps

/-- The replies to the queries of the control. -/
structure CtrlTold (x : Sa5xExchanges) (b : Sa5xBuffers) : Prop where
  digitalTuning : x.digitalTuning.Settles clampLong b.digitalTuning
  locked : x.locked.Settles (fun n => bitOf (intOf n)) b.locked
  tau : x.tau.Settles (fun n => toUnsigned 32 (intOf n)) b.tau
  lastcorrection : x.lastcorrection.Settles intOf b.lastcorrection

/-- The replies to the queries of the status: the alarms have an answer, with more than white
space. -/
structure StatusTold (x : Sa5xExchanges) (b : Sa5xBuffers) : Prop where
  answer : GivesSome (x.alarms.seen b.alarms)
  alarms : x.alarms.Settles (fun n => alarmBits (intOf n)) b.alarms
  disciplining : x.disciplining.Settles (fun n => bitOf (intOf n)) b.disciplining

/-- The reply to the query of the phase: an answer, with more than white space. -/
structure PhaseTold (x : Sa5xExchanges) (b : Sa5xBuffers) : Prop where
  answer : GivesSome (x.phase.seen b.phase)
  phase : x.phase.SettlesPhase b.phase

/-- The reply to the query of the temperature, in its buffer. -/
structure TemperatureTold (x : Sa5xExchanges) (buffer : List UInt8) : Prop where
  number : ¬ GivesOther (x.temperature.seen buffer)
  temperature : x.temperature.Settles intOf buffer

/-- The replies to a call: to those of its commands that are sent. -/
structure ScanTold (mask : Sa5xMask) (x : Sa5xExchanges) (memory : List UInt8) : Prop where
  pps : mask.statusPps = true ∨ mask.status = true → PpsTold x (sa5xBuffers mask x memory)
  ctrl : PpsAnswered mask x memory → mask.ctrl = true → CtrlTold x (sa5xBuffers mask x memory)
  status : PpsAnswered mask x memory → mask.status = true →
    StatusTold x (sa5xBuffers mask x memory)
  phase : PpsAnswered mask x memory → PhaseQueried mask x memory →
    PhaseTold x (sa5xBuffers mask x memory)
  temperature : PpsAnswered mask x memory → mask.statusTemperature = true →
    ∀ a junk, TemperatureTold x (temperatureBuffer mask x memory a junk)

/-- What the attributes need: no mandatory field under `ATTR_FW_SERIAL`, and else the replies. -/
structure AttributesTold (mask : Sa5xFullMask) (x : Sa5xExchanges) (memory : List UInt8) :
    Prop where
  serial : mask.fwSerial = true →
    (mask.statusPps = false ∧ mask.status = false) ∧ mask.statusTemperature = false
  scan : mask.fwSerial = false → ScanTold mask.toSa5xMask x memory

/-- The buffer the query of the temperature finds where the attributes are published. -/
def publishedBuffer (x : Sa5xExchanges) (memory : List UInt8) : List UInt8 :=
  x.gnssPps.leaves (x.disciplineLocked.leaves memory)

/-- What is published of the attributes needs of the replies about the PPS and the temperature: they
are not texts without a number; where both have one, it is the temperature's own, and the answers
say of the lock what the conversions see. -/
structure PublishedTold (x : Sa5xExchanges) (memory : List UInt8) : Prop where
  pps : ¬ GivesOther (x.gnssPps.seen (x.disciplineLocked.leaves memory))
  temperature : GivesNumber (x.gnssPps.seen (x.disciplineLocked.leaves memory)) →
    ¬ GivesOther (x.temperature.seen (publishedBuffer x memory))
  values : GivesNumber (x.gnssPps.seen (x.disciplineLocked.leaves memory)) →
    GivesNumber (x.temperature.seen (publishedBuffer x memory)) →
      GivesNumber x.gnssPps.text ∧
        x.temperature.Settles (fun n => degrees (intOf n)) (publishedBuffer x memory) ∧
          (GivesOdd x.gnssPps.text ∧ GivesOdd x.disciplineLocked.text ↔
            GivesOdd (x.gnssPps.seen (x.disciplineLocked.leaves memory)) ∧
              GivesOdd (x.disciplineLocked.seen memory))

/-- What is published as the phase needs of its reply: it holds a number, and the phase of what the
conversion sees is its own. -/
def PhaseErrorTold (exchange : Sa5xExchange) (buffer : List UInt8) : Prop :=
  ∃ text ∈ exchange.text, ∃ value value',
    scanFloat (text ++ exchange.following buffer) = .number value ∧
      scanFloat text = .number value' ∧
        phaseOffsetOf (doubleOf value') = phaseOffsetOf (doubleOf value)

/-! ### The laws -/

/-- **The law of `sa5x_oscillator_get_attributes`.** -/
structure AttributesLaw (mask : Sa5xFullMask) (x : Sa5xExchanges) (memory : List UInt8) : Prop where
  fields : ∀ val phase a,
    ToldBy x.own a (sa5xOscillatorGetAttributesInto mask x ⟨memory, val, phase⟩ a).2
  mandatory : ∀ val phase a,
    (sa5xOscillatorGetAttributesInto mask x ⟨memory, val, phase⟩ a).1 = 0 → MandatoryRead mask x.own

/-- **The law of `sa5x_oscillator_parse_attributes`.** -/
def PublishedLaw (x : Sa5xExchanges) (memory : List UInt8) : Prop :=
  ∀ val phase, Published x ⟨memory, val, phase⟩

/-- **The law of `sa5x_oscillator_get_phase_error`**: what a call that succeeds publishes is the
phase of its reply. -/
def PhaseErrorLaw (x : Sa5xExchanges) (memory : List UInt8) : Prop :=
  ∀ val phase a, (sa5xOscillatorGetPhaseError x ⟨memory, val, phase⟩ a).1 = 0 →
    ∃ q, x.own.phase = .value q ∧
      (sa5xOscillatorGetPhaseError x ⟨memory, val, phase⟩ a).2 = (PhaseReading.value q).store 0

section Laws

variable {mask : Sa5xMask} {x : Sa5xExchanges} {memory : List UInt8}

/-! #### One query after the other -/

section Queries

variable {phase val : ℤ} {a : Sa5xAttributes}

theorem ppsKept_replies_iff :
    PpsKept (sa5xReplies mask x ⟨memory, val, phase⟩ a) x.own ↔
      PpsTold x (sa5xBuffers mask x memory) := by
  rw [sa5xReplies_eq]
  constructor
  · rintro ⟨hlocked, hanswered, hpps⟩
    exact ⟨(says_read_iff intOf).mp hlocked, (read_ne_noMatch_iff intOf).mp hanswered,
      (says_read_iff intOf).mp hpps⟩
  · rintro ⟨hlocked, hnumber, hpps⟩
    exact ⟨(says_read_iff intOf).mpr hlocked, (read_ne_noMatch_iff intOf).mpr hnumber,
      (says_read_iff intOf).mpr hpps⟩

theorem ctrlKept_replies_iff :
    CtrlKept (sa5xReplies mask x ⟨memory, val, phase⟩ a) x.own ↔
      CtrlTold x (sa5xBuffers mask x memory) := by
  rw [sa5xReplies_eq]
  constructor
  · rintro ⟨htuning, hlocked, htau, hlast⟩
    exact ⟨(says_read_iff clampLong).mp htuning, (says_read_iff intOf).mp hlocked,
      (says_read_iff intOf).mp htau, (says_read_iff intOf).mp hlast⟩
  · rintro ⟨htuning, hlocked, htau, hlast⟩
    exact ⟨(says_read_iff clampLong).mpr htuning, (says_read_iff intOf).mpr hlocked,
      (says_read_iff intOf).mpr htau, (says_read_iff intOf).mpr hlast⟩

theorem statusKept_replies_iff :
    StatusKept (sa5xReplies mask x ⟨memory, val, phase⟩ a) x.own ↔
      StatusTold x (sa5xBuffers mask x memory) := by
  rw [sa5xReplies_eq]
  constructor
  · rintro ⟨hanswered, halarms, hdisciplining⟩
    exact ⟨(read_answered_iff intOf).mp hanswered, (says_read_iff intOf).mp halarms,
      (says_read_iff intOf).mp hdisciplining⟩
  · rintro ⟨hanswer, halarms, hdisciplining⟩
    exact ⟨(read_answered_iff intOf).mpr hanswer, (says_read_iff intOf).mpr halarms,
      (says_read_iff intOf).mpr hdisciplining⟩

theorem phaseKept_replies_iff :
    PhaseKept (sa5xReplies mask x ⟨memory, val, phase⟩ a) x.own ↔
      PhaseTold x (sa5xBuffers mask x memory) := by
  rw [sa5xReplies_eq]
  constructor
  · rintro ⟨hanswered, hphase⟩
    exact ⟨(readPhase_answered_iff _ _ phase).mp hanswered, (saysPhase_read_iff phase).mp hphase⟩
  · rintro ⟨hanswer, hphase⟩
    exact ⟨(readPhase_answered_iff _ _ phase).mpr hanswer, (saysPhase_read_iff phase).mpr hphase⟩

/-- The temperature is read in the buffer that the phase leaves. -/
theorem temperatureKept_replies_iff (h : PpsAnswered mask x memory) :
    TemperatureKept (sa5xReplies mask x ⟨memory, val, phase⟩ a) x.own ↔
      TemperatureTold x (temperatureBuffer mask x memory a phase) := by
  rw [sa5xReplies_eq, bufferAfter_of_ppsAnswered h]
  constructor
  · rintro ⟨hanswered, hsays⟩
    exact ⟨(read_ne_noMatch_iff intOf).mp hanswered, (says_read_iff intOf).mp hsays⟩
  · rintro ⟨hnumber, hsettles⟩
    exact ⟨(read_ne_noMatch_iff intOf).mpr hnumber, (says_read_iff intOf).mpr hsettles⟩

end Queries

/-- The replies of a call are what its readings have to be. -/
theorem scanTold_iff :
    (∀ val phase a, ScanKept mask (sa5xReplies mask x ⟨memory, val, phase⟩ a) x.own) ↔
      ScanTold mask x memory := by
  have hgo : ∀ val phase a, mask.GoesOn (sa5xReplies mask x ⟨memory, val, phase⟩ a) ↔
      PpsAnswered mask x memory := fun val phase a => by
    rw [sa5xReplies_eq, goesOn_readings_iff]
  have hasks : ∀ val phase a, mask.AsksPhase (sa5xReplies mask x ⟨memory, val, phase⟩ a) ↔
      PhaseQueried mask x memory := fun val phase a => by
    rw [sa5xReplies_eq, asksPhase_readings_iff]
  constructor
  · intro h
    have h0 := h 0 0 sa5xAttributesZero
    refine ⟨fun hasked => ?_, fun hanswered hctrl => ?_, fun hanswered hstatus => ?_,
      fun hanswered hqueried => ?_, fun hanswered htemperature a junk => ?_⟩
    · exact ppsKept_replies_iff.mp (h0.pps hasked)
    · exact ctrlKept_replies_iff.mp (h0.ctrl ((hgo _ _ _).mpr hanswered) hctrl)
    · exact statusKept_replies_iff.mp (h0.status ((hgo _ _ _).mpr hanswered) hstatus)
    · exact phaseKept_replies_iff.mp
        (h0.phase ((hgo _ _ _).mpr hanswered) ((hasks _ _ _).mpr hqueried))
    · exact (temperatureKept_replies_iff hanswered).mp
        ((h 0 junk a).temperature ((hgo _ _ _).mpr hanswered) htemperature)
  · intro h val phase a
    refine ⟨fun hasked => ?_, fun hon hctrl => ?_, fun hon hstatus => ?_, fun hon hphase => ?_,
      fun hon htemperature => ?_⟩
    · exact ppsKept_replies_iff.mpr (h.pps hasked)
    · exact ctrlKept_replies_iff.mpr (h.ctrl ((hgo _ _ _).mp hon) hctrl)
    · exact statusKept_replies_iff.mpr (h.status ((hgo _ _ _).mp hon) hstatus)
    · exact phaseKept_replies_iff.mpr
        (h.phase ((hgo _ _ _).mp hon) ((hasks _ _ _).mp hphase))
    · have hanswered := (hgo _ _ _).mp hon
      exact (temperatureKept_replies_iff hanswered).mpr
        (h.temperature hanswered htemperature a phase)

theorem attributesLaw_iff (mask : Sa5xFullMask) :
    AttributesLaw mask x memory ↔ AttributesTold mask x memory := by
  have hmandatory : mask.fwSerial = true → (MandatoryRead mask x.own ↔
      (mask.statusPps = false ∧ mask.status = false) ∧ mask.statusTemperature = false) := by
    intro hserial
    simp [MandatoryRead, hserial]
  constructor
  · rintro ⟨hfields, hread⟩
    refine ⟨fun hserial => ?_, fun hserial => ?_⟩
    · refine (hmandatory hserial).mp (hread 0 0 sa5xAttributesZero ?_)
      rw [sa5xOscillatorGetAttributesInto, if_pos hserial]
    · obtain ⟨mask, fwSerial⟩ := mask
      obtain rfl : fwSerial = false := hserial
      exact scanTold_iff.mp (scanLaw_iff.mp fun val phase a =>
        ⟨hfields val phase a, hread val phase a⟩)
  · rintro ⟨hserial, hscan⟩
    obtain ⟨mask, _ | _⟩ := mask
    · have hlaw := scanLaw_iff.mpr (scanTold_iff.mpr (hscan rfl))
      exact ⟨fun val phase a => (hlaw val phase a).1, fun val phase a => (hlaw val phase a).2⟩
    · refine ⟨fun val phase a => ?_, fun val phase a _ => (hmandatory rfl).mpr (hserial rfl)⟩
      constructor <;> exact .inl rfl

theorem publishedReplies_eq (val phase : ℤ) :
    publishedReplies x ⟨memory, val, phase⟩ =
      x.readings (sa5xBuffers parseAttributesMask x memory) phase val
        (sa5xOscillatorRead intOf x.temperature
          (bufferAfter x (sa5xScanFrom parseAttributesMask
              (x.readings (sa5xBuffers parseAttributesMask x memory) phase val .failed)
                sa5xAttributesZero).cmds
            (publishedBuffer x memory))).1 :=
  sa5xReplies_eq parseAttributesMask x memory val phase sa5xAttributesZero

/-- Where the attributes are published, the phase is not queried. -/
theorem temperature_publishedReplies (val phase : ℤ)
    (h : GivesNumber (x.gnssPps.seen (x.disciplineLocked.leaves memory))) :
    (publishedReplies x ⟨memory, val, phase⟩).temperature =
      (sa5xOscillatorRead intOf x.temperature (publishedBuffer x memory)).1 := by
  have hgo : PpsAnswered parseAttributesMask x memory := fun _ => h
  have hasks : ¬ PhaseQueried parseAttributesMask x memory := by
    rintro (hphase | ⟨hstatus, -⟩)
    · cases hphase
    · cases hstatus
  have hbuffer : temperatureBuffer parseAttributesMask x memory sa5xAttributesZero phase
      = publishedBuffer x memory := by
    rw [temperatureBuffer, if_neg hasks]
    rfl
  rw [publishedReplies, sa5xReplies_eq, bufferAfter_of_ppsAnswered hgo, hbuffer]
  rfl

theorem gnssPps_publishedReplies (val phase : ℤ) :
    (publishedReplies x ⟨memory, val, phase⟩).gnssPps =
      (sa5xOscillatorRead intOf x.gnssPps (x.disciplineLocked.leaves memory)).1 := by
  rw [publishedReplies_eq]
  rfl

theorem lockedOf_iff {r : Sa5xReplies} {pps lock : Sa5xExchange} {buffer buffer' : List UInt8}
    (hpps : r.gnssPps = (sa5xOscillatorRead intOf pps buffer).1)
    (hlock : r.disciplineLocked = (sa5xOscillatorRead intOf lock buffer').1) :
    lockedOf r = true ↔ GivesOdd (pps.seen buffer) ∧ GivesOdd (lock.seen buffer') := by
  rw [lockedOf, Bool.and_eq_true, hpps, hlock, bitOf_store_read_iff, bitOf_store_read_iff]

theorem publishedLaw_iff : PublishedLaw x memory ↔ PublishedTold x memory := by
  have hown : lockedOf x.own = true ↔
      GivesOdd x.gnssPps.text ∧ GivesOdd x.disciplineLocked.text := by
    rw [lockedOf_iff (r := x.own) rfl rfl, seen_nil, seen_nil]
  have hseen : ∀ val phase, lockedOf (publishedReplies x ⟨memory, val, phase⟩) = true ↔
      GivesOdd (x.gnssPps.seen (x.disciplineLocked.leaves memory)) ∧
        GivesOdd (x.disciplineLocked.seen memory) := fun val phase => by
    rw [publishedReplies_eq]
    exact lockedOf_iff rfl rfl
  have hvalue : ∀ val phase, (publishedReplies x ⟨memory, val, phase⟩).gnssPps.IsValue ↔
      GivesNumber (x.gnssPps.seen (x.disciplineLocked.leaves memory)) := fun val phase => by
    rw [gnssPps_publishedReplies, isValue_read_iff]
  have hownPps : x.own.gnssPps.IsValue ↔ GivesNumber x.gnssPps.text := by
    rw [← seen_nil]
    exact isValue_read_iff intOf
  constructor
  · intro h
    have hkept := (h 0 0).kept
    refine ⟨?_, fun hpps => ?_, fun hpps htemperature => ?_⟩
    · have hanswered := hkept.answered
      rwa [gnssPps_publishedReplies, read_ne_noMatch_iff] at hanswered
    · have hanswered := hkept.temperature ((hvalue 0 0).mpr hpps)
      rwa [temperature_publishedReplies 0 0 hpps, read_ne_noMatch_iff] at hanswered
    · obtain ⟨v, hv⟩ := (isValue_read_iff intOf).mpr htemperature
      obtain ⟨hnumber, ⟨w, hw, heq⟩, hlocked⟩ := hkept.values ((hvalue 0 0).mpr hpps) v
        (by rw [temperature_publishedReplies 0 0 hpps, hv])
      refine ⟨hownPps.mp hnumber, (says_read_iff intOf).mp fun v' hv' => ⟨w, hw, ?_⟩, ?_⟩
      · rw [heq, IntReading.value.inj (hv.symm.trans hv')]
      · rw [← hown, ← hseen 0 0, hlocked]
  · rintro ⟨hpps, htemperature, hvalues⟩ val phase
    refine PublishedKept.published ⟨?_, fun hnumber => ?_, fun hnumber v hv => ?_⟩
    · rwa [gnssPps_publishedReplies, read_ne_noMatch_iff]
    · rw [hvalue] at hnumber
      rw [temperature_publishedReplies _ _ hnumber, read_ne_noMatch_iff]
      exact htemperature hnumber
    · rw [hvalue] at hnumber
      rw [temperature_publishedReplies _ _ hnumber] at hv
      obtain ⟨hnumber', hsettles, hlocked⟩ :=
        hvalues hnumber ((isValue_read_iff intOf).mp ⟨v, hv⟩)
      refine ⟨hownPps.mpr hnumber', (says_read_iff intOf).mpr hsettles v hv, ?_⟩
      rw [Bool.eq_iff_iff, hown, hseen, hlocked]

theorem phaseErrorLaw_iff : PhaseErrorLaw x memory ↔ PhaseErrorTold x.phase memory := by
  rw [PhaseErrorLaw, phaseError_iff memory]
  constructor
  · intro h
    obtain ⟨q, hq, q', hq', heq⟩ := h 0
    obtain ⟨seen, hseen, value, hvalue, rfl⟩ := readPhase_eq_value_iff.mp hq
    obtain ⟨text, htext, rfl⟩ := Option.map_eq_some_iff.mp hseen
    obtain ⟨own, hown, value', hvalue', rfl⟩ := readPhase_eq_value_iff.mp hq'
    rw [seen_nil] at hown
    obtain rfl := Option.some.inj (htext.symm.trans hown)
    exact ⟨text, htext, value, value', hvalue, hvalue', heq⟩
  · rintro ⟨text, htext, value, value', hvalue, hvalue', heq⟩ phase
    refine ⟨doubleOf value, readPhase_eq_value_iff.mpr ⟨_, ?_, value, hvalue, rfl⟩, doubleOf value',
      readPhase_eq_value_iff.mpr ⟨text, ?_, value', hvalue', rfl⟩, heq⟩
    · exact Option.map_eq_some_iff.mpr ⟨text, htext, rfl⟩
    · rwa [seen_nil]

end Laws

/-- **When the SA5x attributes are what the device said.** For every mask, everything the commands
can meet and every content of the memory, each of the three functions keeps its law exactly when the
bytes of the replies and of the buffer are so. -/
theorem answersLaw_iff (mask : Sa5xFullMask) (x : Sa5xExchanges) (memory : List UInt8) :
    (AttributesLaw mask x memory ↔ AttributesTold mask x memory) ∧
      (PublishedLaw x memory ↔ PublishedTold x memory) ∧
        (PhaseErrorLaw x memory ↔ PhaseErrorTold x.phase memory) :=
  ⟨attributesLaw_iff mask, publishedLaw_iff, phaseErrorLaw_iff⟩

/-- The queries of a call. -/
def Sa5xExchanges.queries (x : Sa5xExchanges) : List Sa5xExchange :=
  [x.disciplineLocked, x.gnssPps, x.digitalTuning, x.locked, x.tau, x.lastcorrection, x.alarms,
    x.disciplining, x.phase, x.temperature]

/-- An answer with a number and a bracket behind it. -/
def Sa5xExchange.Numeric (exchange : Sa5xExchange) : Prop :=
  ∃ text ∈ exchange.text, HasDigits text ∧ 0x5d ∈ text

theorem Sa5xExchange.Numeric.seen {exchange : Sa5xExchange} (h : exchange.Numeric)
    (buffer : List UInt8) :
    GivesSome (exchange.seen buffer) ∧ ¬ GivesOther (exchange.seen buffer) := by
  obtain ⟨text, htext, hdigits, hbracket⟩ := h
  have hends : NumberEnds 10 text :=
    numberEnds_of_mem (mem_dropWhile_isSpace hbracket (by decide)) (by decide) (by decide)
      (by decide)
  have hseen : HasDigits (text ++ exchange.following buffer) := by
    rw [← intReadingOf_isValue_iff id] at hdigits ⊢
    rwa [intReadingOf_append id hends]
  rw [Sa5xExchange.seen, Option.mem_def.mp htext, Option.map_some]
  refine ⟨⟨_, rfl, fun hblank => not_hasDigits_of_blank hblank hseen⟩, ?_⟩
  rintro ⟨t, ht, -, hnone⟩
  exact hnone (Option.mem_some_iff.mp ht ▸ hseen)

/-- A device that answers each query with a number in brackets is told by its attributes, whatever
was in the buffer. -/
theorem attributesLaw_of_numeric {mask : Sa5xMask} {x : Sa5xExchanges} {memory : List UInt8}
    (h : ∀ exchange ∈ x.queries, exchange.Numeric) : AttributesLaw ⟨mask, false⟩ x memory := by
  have hsettles : ∀ exchange ∈ x.queries, ∀ {α : Type} (conv : ℤ → α) buffer,
      exchange.Settles conv buffer := by
    intro exchange hmem α conv buffer
    obtain ⟨text, htext, -, hbracket⟩ := h exchange hmem
    exact (settles_of_bracket htext hbracket buffer).1 conv
  have hphase : ∀ buffer, x.phase.SettlesPhase buffer := by
    intro buffer
    obtain ⟨text, htext, -, hbracket⟩ := h x.phase (by simp [Sa5xExchanges.queries])
    exact (settles_of_bracket htext hbracket buffer).2
  simp only [Sa5xExchanges.queries, List.forall_mem_cons] at h hsettles
  obtain ⟨h1, h2, h3, h4, h5, h6, h7, h8, h9, h10, -⟩ := h
  obtain ⟨hdisciplineLocked, hpps, htuning, hlocked, htau, hlast, halarms, hdisciplining, -,
    htemperature, -⟩ := hsettles
  refine (attributesLaw_iff _).mpr ⟨fun hserial => absurd hserial Bool.false_ne_true, fun _ => ?_⟩
  exact
    { pps := fun _ => ⟨hdisciplineLocked _ _, (h2.seen _).2, hpps _ _⟩
      ctrl := fun _ _ => ⟨htuning _ _, hlocked _ _, htau _ _, hlast _ _⟩
      status := fun _ _ => ⟨(h7.seen _).1, halarms _ _, hdisciplining _ _⟩
      phase := fun _ _ => ⟨(h9.seen _).1, hphase _⟩
      temperature := fun _ _ _ _ => ⟨(h10.seen _).2, htemperature _ _⟩ }

/-- The answer `1`. -/
def answerOne : Sa5xExchange := .answered [91, 61, 49, 93, 13, 10] (by decide)

/-- A device that answers `1` to everything, but the query of the alarms cannot be written. -/
def alarmsUnsent : Sa5xExchanges where
  disciplineLocked := answerOne
  gnssPps := answerOne
  digitalTuning := answerOne
  locked := answerOne
  tau := answerOne
  lastcorrection := answerOne
  alarms := .unsent
  disciplining := answerOne
  phase := answerOne
  setDisciplining := answerOne
  temperature := answerOne

/-- The alarms are then those of the last number read: here the PPS is there, and the alarm of a
hardware fault with it. -/
theorem answersLaw_fails_alarms_unsent :
    ¬ AttributesLaw ⟨⟨false, true, false, false, false⟩, false⟩ alarmsUnsent
      (List.replicate answerLen 0) := by
  rw [attributesLaw_iff]
  intro h
  have hanswered : PpsAnswered ⟨false, true, false, false, false⟩ alarmsUnsent
      (List.replicate answerLen 0) :=
    fun _ => (isValue_read_iff intOf).mp (isValue_of_own _ ⟨1, by decide⟩)
  obtain ⟨t, ht, -⟩ := ((h.scan rfl).status hanswered rfl).answer
  cases ht

end Oscillatord
