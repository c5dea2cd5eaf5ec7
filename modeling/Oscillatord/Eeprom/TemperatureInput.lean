import Oscillatord.Eeprom.TemperatureText

/-!
# What is read into the temperature table

A text of the temperature table should be safe to read, whatever is in it
(`TemperatureInputLaw`): each line fits the buffer it is copied to, and each store is into an entry
of the table and has ten times the second number of its line, rounded.

The copy has no bound. A temperature that is not a number passes both comparisons with the range,
and the number that is stored is neither compared with the range of an entry nor kept in the
precision it was read in. `temperatureInputLaw_iff` is the exact condition on the lines that are
reached.
-/

namespace Oscillatord

open CText CNumber Rounding

variable {scale : TemperatureScale}

/-! ### The law -/

/-- The size of the buffer that a line is copied to. -/
def lineBufferSize : ℕ := 256

/-- A line is reached when none before it ends the reading. -/
def LineReached (scale : TemperatureScale) (lines : List (List UInt8)) (line : List UInt8) : Prop :=
  ∃ before after, lines = before ++ line :: after ∧
    ∀ other ∈ before, temperatureLine scale other ≠ .outOfRange

/-- What is done with a line is safe, and faithful to it. -/
structure LineLaw (scale : TemperatureScale) (line : List UInt8) : Prop where
  fits : (cString line).length < lineBufferSize
  stored : ∀ index entry, temperatureLine scale line = .stored index entry →
    (0 ≤ index ∧ index < scale.meanTemperatureArrayMax) ∧
      ∃ first second number, strtok 44 (cString line) = [first, second] ∧
        (strtoldExtended second).1.number? = some number ∧
        (entry.toNat : ℤ) = CNumber.round (10 * number)

/-- **The law of the input**: every line that is reached is safe. -/
def TemperatureInputLaw (scale : TemperatureScale) (text : List UInt8) : Prop :=
  ∀ line, LineReached scale (getlines text) line → LineLaw scale line

/-- The parser takes both numbers. -/
def TakesPair (first second : List UInt8) : Prop :=
  isRefused ((strtoldExtended first).1.store binary32 128) (strtoldExtended first).2 = false ∧
    isRefused ((strtoldExtended second).1.store binary32 128)
      ((strtoldExtended first).2 || (strtoldExtended second).2) = false

/-- Ten times the number is one that an entry holds, and single precision moves it over no half. -/
def TenthsKept : FloatValue → Prop
  | .finite negative magnitude =>
    10 * magnitude < (if negative then 1 / 2 else 2 ^ 16 - 1 / 2) ∧
      ∀ n : ℕ, (n + 1 / 2 : ℚ) ≤ 10 * magnitude ↔
        (n + 1 / 2 : ℚ) ≤ binary32.round (10 * binary32.round magnitude)
  | _ => False

/-- The line has room, and its numbers, when they are taken and the first is not out of range, are a
number and one whose tenths are kept. -/
structure LineTaken (scale : TemperatureScale) (line : List UInt8) : Prop where
  fits : (cString line).length < lineBufferSize
  fields : ∀ first second, strtok 44 (cString line) = [first, second] → TakesPair first second →
    scale.isOutOfRange ((strtoldExtended first).1.store binary32 128) = false →
    (∀ negative, (strtoldExtended first).1 ≠ .nan negative) ∧
      TenthsKept (strtoldExtended second).1

/-! ### The parser -/

theorem floatArrayParser_pair (first second : List UInt8) :
    floatArrayParser [first, second] false []
      = if isRefused ((strtoldExtended first).1.store binary32 128) (strtoldExtended first).2 then
          none
        else if isRefused ((strtoldExtended second).1.store binary32 128)
            ((strtoldExtended first).2 || (strtoldExtended second).2) then none
        else some [(strtoldExtended first).1.store binary32 128,
          (strtoldExtended second).1.store binary32 128] := by
  simp [floatArrayParser]

theorem length_of_floatArrayParser (parts : List (List UInt8)) {range : Bool}
    {parsed result : List FloatValue} (h : floatArrayParser parts range parsed = some result) :
    result.length = parsed.length + parts.length := by
  induction parts generalizing range parsed with
  | nil =>
    obtain rfl := Option.some.inj h
    rfl
  | cons ptr rest ih =>
    rw [floatArrayParser] at h
    split_ifs at h
    dsimp only at h
    split_ifs at h
    rw [ih h, List.length_append, List.length_singleton, List.length_cons]
    omega

/-- **What a store is made of.** -/
theorem temperatureLine_eq_stored_iff {line : List UInt8} {index : ℤ} {entry : UInt16} :
    temperatureLine scale line = .stored index entry ↔
      ∃ first second, strtok 44 (cString line) = [first, second] ∧ TakesPair first second ∧
        scale.isOutOfRange ((strtoldExtended first).1.store binary32 128) = false ∧
        scale.temperatureIndex ((strtoldExtended first).1.store binary32 128) = index ∧
        entryOf ((strtoldExtended second).1.store binary32 128) = entry := by
  constructor
  · intro h
    rw [temperatureLine] at h
    split at h
    · rename_i temperature mean hparsed
      split_ifs at h with hrange
      obtain ⟨hindex, hentry⟩ := LineResult.stored.inj h
      have hlength := length_of_floatArrayParser _ hparsed
      obtain ⟨first, second, hparts⟩ := List.length_eq_two.mp (by simpa using hlength.symm)
      rw [hparts, floatArrayParser_pair] at hparsed
      split_ifs at hparsed with hfirst hsecond
      obtain ⟨rfl, rfl⟩ : _ = temperature ∧ _ = mean := by simpa using hparsed
      exact ⟨first, second, hparts, ⟨by simpa using hfirst, by simpa using hsecond⟩,
        by simpa using hrange, hindex, hentry⟩
    · cases h
  · rintro ⟨first, second, hparts, ⟨hfirst, hsecond⟩, hrange, rfl, rfl⟩
    rw [temperatureLine, hparts, floatArrayParser_pair, hfirst, hsecond]
    simp [hrange]

/-! ### The numbers -/

theorem nonneg_of_floatAt {text : List UInt8} {negative : Bool} {magnitude : ℚ}
    (h : floatAt text = some (.finite negative magnitude)) : 0 ≤ magnitude := by
  have hread : ∀ {base exponentBase : ℕ} {marker : UInt8} {body : List UInt8} {value : ℚ},
      magnitudeAt base exponentBase marker body = some value → 0 ≤ value := by
    intro base exponentBase marker body value hvalue
    obtain ⟨⟨digits, places, rest⟩, -, rfl⟩ := Option.map_eq_some_iff.mp hvalue
    positivity
  rw [floatAt] at h
  dsimp only at h
  split_ifs at h
  · cases h
  · cases h
  · obtain ⟨value, hvalue, heq⟩ := Option.map_eq_some_iff.mp h
    obtain ⟨-, rfl⟩ := FloatValue.finite.inj heq
    rw [Option.orElse_apply, Option.orElse_eq_or, Option.or_eq_some_iff] at hvalue
    rcases hvalue with hleft | ⟨-, hright⟩
    · exact hread hleft
    · exact hread hright
  · obtain ⟨value, hvalue, heq⟩ := Option.map_eq_some_iff.mp h
    obtain ⟨-, rfl⟩ := FloatValue.finite.inj heq
    exact hread (by simpa using hvalue)

theorem nonneg_of_strtoldExtended {text : List UInt8} {negative : Bool} {magnitude : ℚ}
    (h : (strtoldExtended text).1 = .finite negative magnitude) : 0 ≤ magnitude := by
  rw [strtoldExtended] at h
  split at h
  · rename_i sign value hvalue
    dsimp only at h
    split_ifs at h
    obtain ⟨-, rfl⟩ := FloatValue.finite.inj h
    exact Format.round_nonneg (by decide) (by decide) (nonneg_of_floatAt hvalue)
  · rename_i value hfinite hvalue
    exact absurd h (hfinite negative magnitude)
  · obtain ⟨-, rfl⟩ := FloatValue.finite.inj h
    exact le_rfl

/-- What is stored in a format is a value of it. -/
theorem exists_number_store {f : Format} {bits : ℕ} {value : FloatValue} {number : ℚ}
    (h : (value.store f bits).number? = some number) : ∃ r, number = f.round r := by
  rcases value with ⟨negative, magnitude⟩ | negative | negative
  · rw [FloatValue.store] at h
    split_ifs at h
    · cases h
    · obtain rfl := Option.some.inj h
      cases negative
      · exact ⟨magnitude, rfl⟩
      · exact ⟨-magnitude, by rw [Format.round_neg]; rfl⟩
  · cases h
  · cases h

/-! ### The entry -/

theorem toNat_ofInt (x : ℤ) : ((UInt16.ofInt x).toNat : ℤ) = x % 2 ^ 16 := by
  rw [UInt16.ofInt, UInt16.toNat_ofNat']
  omega

/-- Ten times a number that an entry holds, as single precision has it. -/
theorem abs_tenfold_sub_lt {magnitude : ℚ} (hnonneg : 0 ≤ magnitude)
    (hlt : 10 * magnitude < 2 ^ 16) :
    binary32.round magnitude ≤ 2 ^ 13 ∧
      |binary32.round (10 * binary32.round magnitude) - 10 * magnitude| < 1 := by
  have hm : |magnitude| < 2 ^ (13 : ℤ) := by
    rw [abs_of_nonneg hnonneg]
    norm_num at hlt ⊢
    linarith
  have hfirst := Format.abs_round_sub_le_of_abs_lt (f := binary32) hm (by decide)
  norm_num [binary32] at hfirst hm hlt
  rw [abs_le] at hfirst
  rw [abs_of_nonneg hnonneg] at hm
  have hten : |10 * binary32.round magnitude| < 2 ^ (17 : ℤ) := by
    rw [abs_lt]
    norm_num [binary32]
    constructor <;> linarith
  have hsecond := Format.abs_round_sub_le_of_abs_lt (f := binary32) hten (by decide)
  norm_num [binary32] at hsecond
  rw [abs_le] at hsecond
  norm_num [binary32]
  rw [abs_lt]
  exact ⟨by linarith, by linarith, by linarith⟩

/-- The entry that is made of a number whose tenths are below `2 ^ 16`. -/
theorem toNat_entryOf {negative : Bool} {magnitude : ℚ} (hnonneg : 0 ≤ magnitude)
    (hlt : 10 * magnitude < 2 ^ 16) :
    ((entryOf ((FloatValue.finite negative magnitude).store binary32 128)).toNat : ℤ)
      = (if negative then -CNumber.round (binary32.round (10 * binary32.round magnitude))
          else CNumber.round (binary32.round (10 * binary32.round magnitude))) % 2 ^ 16 := by
  obtain ⟨hsingle, hnear⟩ := abs_tenfold_sub_lt hnonneg hlt
  have hsingle0 := Format.round_nonneg (f := binary32) (by decide) (by decide) hnonneg
  have htenfold0 := Format.round_nonneg (f := binary32) (by decide) (by decide)
    (mul_nonneg (by norm_num : (0 : ℚ) ≤ 10) hsingle0)
  set single := binary32.round magnitude with hsingleDef
  set product := binary32.round (10 * single) with hproductDef
  have hproduct : product < 2 ^ 17 := by
    have hle := (abs_lt.mp hnear).2
    norm_num at hlt ⊢
    linarith
  have hround0 := CNumber.round_nonneg htenfold0
  have hround : CNumber.round product ≤ 2 ^ 17 := by
    by_contra hgt
    have hhalf := (CNumber.lt_round_iff htenfold0 (2 ^ 17)).mp (not_le.mp hgt)
    push_cast at hhalf
    linarith
  have hnumber : (tenfold ((FloatValue.finite negative magnitude).store binary32 128)).number?
      = some (if negative then -product else product) := by
    rw [FloatValue.store, ← hsingleDef,
      if_neg (not_le.mpr (hsingle.trans_lt (by norm_num))), tenfold, FloatValue.store,
      ← hproductDef, if_neg (not_le.mpr (hproduct.trans (by norm_num))), FloatValue.number?]
  rw [entryOf, hnumber, toNat_ofInt]
  dsimp only
  rw [CNumber.round_signed, toInt32OfFloat, if_pos (by split_ifs <;> omega)]

/-- The tenths that an entry holds, before and after they are rounded. -/
theorem tenths_lt_iff {x : ℚ} (hx : 0 ≤ x) (negative : Bool) :
    x < (if negative then 1 / 2 else 2 ^ 16 - 1 / 2) ↔
      CNumber.round x ≤ if negative then 0 else 65535 := by
  have hzero := not_congr (CNumber.lt_round_iff hx 0)
  have htop := not_congr (CNumber.lt_round_iff hx 65535)
  rw [not_lt, not_le] at hzero htop
  cases negative with
  | true => simpa using hzero.symm
  | false =>
    rw [if_neg Bool.false_ne_true, if_neg Bool.false_ne_true, htop]
    norm_num

theorem tenths_lt_two_pow {x : ℚ} {negative : Bool}
    (h : x < if negative then 1 / 2 else 2 ^ 16 - 1 / 2) : x < 2 ^ 16 := by
  split_ifs at h
  · linarith
  · linarith

/-- **An entry is ten times its number** exactly when the tenths are kept. -/
theorem entryOf_store_iff {value : FloatValue}
    (hnonneg : ∀ negative magnitude, value = .finite negative magnitude → 0 ≤ magnitude) :
    (∃ number, value.number? = some number ∧
      ((entryOf (value.store binary32 128)).toNat : ℤ) = CNumber.round (10 * number)) ↔
      TenthsKept value := by
  rcases value with ⟨negative, magnitude⟩ | negative | negative
  · have hm := hnonneg negative magnitude rfl
    have hten : 0 ≤ 10 * magnitude := by linarith
    have hrounded : CNumber.round (10 * if negative then -magnitude else magnitude)
        = if negative then -CNumber.round (10 * magnitude)
          else CNumber.round (10 * magnitude) := by
      rw [← CNumber.round_signed, mul_ite, mul_neg]
    have hproduct := Format.round_nonneg (f := binary32) (by decide) (by decide)
      (mul_nonneg (by norm_num : (0 : ℚ) ≤ 10)
        (Format.round_nonneg (f := binary32) (by decide) (by decide) hm))
    have hround0 := CNumber.round_nonneg hten
    have hproduct0 := CNumber.round_nonneg hproduct
    rw [TenthsKept, ← CNumber.round_eq_round_iff hten hproduct, tenths_lt_iff hten]
    constructor
    · rintro ⟨number, hnumber, hentry⟩
      obtain rfl := Option.some.inj hnumber
      have hbyte := (entryOf ((FloatValue.finite negative magnitude).store binary32 128)).toNat_lt
      have hrange : CNumber.round (10 * magnitude) ≤ if negative then 0 else 65535 := by
        rw [hrounded] at hentry
        split_ifs at hentry ⊢ <;> omega
      have hlt := tenths_lt_two_pow ((tenths_lt_iff hten negative).mpr hrange)
      have hnear := CNumber.abs_round_sub_round_le hproduct hten (abs_tenfold_sub_lt hm hlt).2
      rw [toNat_entryOf hm hlt, hrounded] at hentry
      rw [abs_le] at hnear
      refine ⟨hrange, ?_⟩
      split_ifs at hentry <;> omega
    · rintro ⟨hrange, heq⟩
      have hlt := tenths_lt_two_pow ((tenths_lt_iff hten negative).mpr hrange)
      refine ⟨_, rfl, ?_⟩
      rw [toNat_entryOf hm hlt, hrounded, ← heq]
      split_ifs at hrange ⊢ <;> omega
  · refine iff_of_false ?_ id
    rintro ⟨number, hnumber, -⟩
    cases hnumber
  · refine iff_of_false ?_ id
    rintro ⟨number, hnumber, -⟩
    cases hnumber

/-! ### The exact condition -/

/-- **A line is safe** exactly when it is taken. -/
theorem lineLaw_iff {step : ℕ} {origin : ℤ} (h : WholeScale scale step origin)
    (hmax : scale.maxTemperature ≠ 0) (line : List UInt8) :
    LineLaw scale line ↔ LineTaken scale line := by
  constructor
  · rintro ⟨hfits, hstored⟩
    refine ⟨hfits, fun first second hparts htakes hrange => ?_⟩
    obtain ⟨⟨hlo, -⟩, first', second', number, hparts', hnumber, hentry⟩ :=
      hstored _ _ (temperatureLine_eq_stored_iff.mpr
        ⟨first, second, hparts, htakes, hrange, rfl, rfl⟩)
    obtain ⟨rfl, rfl⟩ : first = first' ∧ second = second' := by
      simpa using hparts.symm.trans hparts'
    refine ⟨fun negative hnan => ?_, ?_⟩
    · have hindex : scale.temperatureIndex ((strtoldExtended first).1.store binary32 128)
          = -2 ^ 31 := by
        rw [hnan]
        rfl
      omega
    · exact (entryOf_store_iff fun _ _ => nonneg_of_strtoldExtended).mp ⟨number, hnumber, hentry⟩
  · rintro ⟨hfits, hfields⟩
    refine ⟨hfits, fun index entry hstored => ?_⟩
    obtain ⟨first, second, hparts, htakes, hrange, rfl, rfl⟩ :=
      temperatureLine_eq_stored_iff.mp hstored
    obtain ⟨hnan, hkept⟩ := hfields first second hparts htakes hrange
    obtain ⟨number, hnumber, hentry⟩ :=
      (entryOf_store_iff fun _ _ => nonneg_of_strtoldExtended).mpr hkept
    refine ⟨?_, first, second, number, hparts, hnumber, hentry⟩
    -- a first number that is in range and no NaN is finite
    obtain ⟨value, hvalue⟩ : ∃ value,
        ((strtoldExtended first).1.store binary32 128).number? = some value := by
      rcases hfirst : (strtoldExtended first).1 with ⟨negative, magnitude⟩ | negative | negative
      · rw [hfirst, FloatValue.store] at hrange
        rw [FloatValue.store]
        split_ifs at hrange ⊢
        · cases hrange
        · exact ⟨_, rfl⟩
      · rw [hfirst] at hrange
        cases hrange
      · exact absurd hfirst (hnan negative)
    obtain ⟨r, rfl⟩ := exists_number_store hvalue
    exact h.temperatureIndex_bounds hmax hvalue hrange

/-- **The input is safe** exactly when every line that is reached is taken. -/
theorem temperatureInputLaw_iff {step : ℕ} {origin : ℤ} (h : WholeScale scale step origin)
    (hmax : scale.maxTemperature ≠ 0) (text : List UInt8) :
    TemperatureInputLaw scale text ↔
      ∀ line, LineReached scale (getlines text) line → LineTaken scale line :=
  forall₂_congr fun line _ => lineLaw_iff h hmax line

/-- The constants of a table of 350 tenths of a degree. -/
def tenthsScale : TemperatureScale where
  stepsByDegree := 10
  minTemperature := 20
  maxTemperature := 55
  meanTemperatureArrayMax := 350
  quotient := binary32

theorem wholeScale_tenthsScale : WholeScale tenthsScale 10 2000 where
  whole :=
    { step_pos := by decide
      step_eq := by norm_num [tenthsScale]
      origin_eq := by norm_num [tenthsScale]
      bounded := by decide }
  steps_round := Format.round_intCast (m := 10) (by decide) (by decide)
  min_round := Format.round_intCast (m := 20) (by decide) (by decide)
  max_eq := by norm_num [tenthsScale]
  quotient_eq := .inl rfl

/-- A line that is taken. -/
theorem temperatureInputLaw_entry : TemperatureInputLaw tenthsScale (ascii "20.5,7\n") := by
  refine (temperatureInputLaw_iff wholeScale_tenthsScale (by norm_num [tenthsScale]) _).mpr ?_
  rintro line ⟨before, after, hlines, -⟩
  have hone : getlines (ascii "20.5,7\n") = [ascii "20.5,7\n"] := by decide
  obtain rfl : line = ascii "20.5,7\n" := by
    have hmem : line ∈ getlines (ascii "20.5,7\n") := by simp [hlines]
    simpa [hone] using hmem
  refine ⟨by decide, fun first second hparts _ _ => ?_⟩
  have hfields : strtok 44 (cString (ascii "20.5,7\n")) = [ascii "20.5", ascii "7\n"] := by decide
  obtain ⟨rfl, rfl⟩ : ascii "20.5" = first ∧ ascii "7\n" = second := by
    simpa using hfields.symm.trans hparts
  have hfirst : (strtoldExtended (ascii "20.5")).1 = .finite false (41 / 2) := by decide +kernel
  have hsecond : (strtoldExtended (ascii "7\n")).1 = .finite false 7 := by decide +kernel
  rw [hfirst, hsecond]
  have hproduct : binary32.round (10 * binary32.round 7) = 10 * 7 := by decide +kernel
  exact ⟨fun _ => FloatValue.noConfusion, by norm_num, fun n => by rw [hproduct]⟩

/-- A temperature that is no number is stored before the table. -/
theorem temperatureInputLaw_fails_nan :
    ¬ TemperatureInputLaw tenthsScale (ascii "nan,5\n") := by
  intro hlaw
  have hline := hlaw (ascii "nan,5\n") ⟨[], [], by decide, by simp⟩
  have hstored : temperatureLine tenthsScale (ascii "nan,5\n") = .stored (-2 ^ 31) 50 := by
    decide +kernel
  exact absurd (hline.stored _ _ hstored).1.1 (by decide)

/-! ### The run -/

/-- The lines after one that does not end the reading are reached as they are alone. -/
theorem LineReached.cons {line other : List UInt8} {lines : List (List UInt8)}
    (h : LineReached scale lines line) (hother : temperatureLine scale other ≠ .outOfRange) :
    LineReached scale (other :: lines) line := by
  obtain ⟨before, after, rfl, hbefore⟩ := h
  exact ⟨other :: before, after, rfl, List.forall_mem_cons.mpr ⟨hother, hbefore⟩⟩

theorem lineReached_head (line : List UInt8) (lines : List (List UInt8)) :
    LineReached scale (line :: lines) line :=
  ⟨[], lines, rfl, fun _ hmem => absurd hmem List.not_mem_nil⟩

/-- **No other object is written** when every line that is reached is safe. -/
theorem readLines_outside {lines : List (List UInt8)}
    (hlaw : ∀ line, LineReached scale lines line → LineLaw scale line) (cells : ℤ → UInt16) {i : ℤ}
    (hi : i < 0 ∨ scale.meanTemperatureArrayMax ≤ i) :
    (readLines scale lines cells).2 i = cells i := by
  induction lines generalizing cells with
  | nil => rfl
  | cons line lines ih =>
    have hrest : temperatureLine scale line ≠ .outOfRange →
        ∀ other, LineReached scale lines other → LineLaw scale other :=
      fun hline other hother => hlaw other (hother.cons hline)
    rw [readLines]
    rcases hresult : temperatureLine scale line with _ | _ | ⟨index, entry⟩
    · exact ih (hrest (by simp [hresult])) cells
    · rfl
    · have hindex := ((hlaw line (lineReached_head line lines)).stored index entry hresult).1
      have hne : i ≠ index := by omega
      exact (ih (hrest (by simp [hresult])) _).trans (Function.update_of_ne hne entry cells)

/-! ### The table of the tool -/

variable {M : Minipod}

/-- A line as the tool has parsed it. -/
def tableLineOf (mean : UInt16 → M.MeanFine) : LineResult → TableLine M.toMinipodTypes
  | .stored index entry =>
    if h : 0 ≤ index ∧ index < M.meanTemperatureArrayMax then
      .entry ⟨index.toNat, by omega⟩ (mean entry)
    else .other
  | .skipped => .other
  | .outOfRange => .outOfRange

/-- **The text is read as its parsed lines are** when every line that is reached is safe. -/
theorem readLines_refines (hcount : scale.meanTemperatureArrayMax = M.meanTemperatureArrayMax)
    (mean : UInt16 → M.MeanFine) {lines : List (List UInt8)}
    (hlaw : ∀ line, LineReached scale lines line → LineLaw scale line) (cells : ℤ → UInt16)
    (tempTable : TemperatureTableV1 M.toMinipodTypes)
    (htable : ∀ i, tempTable.meanFineOverTemperature i = mean (cells (i : ℕ))) :
    (readTemperatureTableFromFile M tempTable
        (lines.map fun line => tableLineOf mean (temperatureLine scale line))).map
        (·.meanFineOverTemperature)
      = if (readLines scale lines cells).1 = 0 then
          some fun i : Fin M.meanTemperatureArrayMax =>
            mean ((readLines scale lines cells).2 (i : ℕ))
        else none := by
  induction lines generalizing cells tempTable with
  | nil =>
    rw [List.map_nil, readTemperatureTableFromFile, readLines, if_pos rfl, Option.map_some]
    exact congrArg some (funext htable)
  | cons line lines ih =>
    have hrest : temperatureLine scale line ≠ .outOfRange →
        ∀ other, LineReached scale lines other → LineLaw scale other :=
      fun hline other hother => hlaw other (hother.cons hline)
    rw [List.map_cons, readLines]
    rcases hresult : temperatureLine scale line with _ | _ | ⟨index, entry⟩
    · exact ih (hrest (by simp [hresult])) cells tempTable htable
    · rfl
    · have hindex := ((hlaw line (lineReached_head line lines)).stored index entry hresult).1
      rw [hcount] at hindex
      rw [tableLineOf, dif_pos hindex, readTemperatureTableFromFile]
      refine ih (hrest (by simp [hresult])) _ _ fun i => ?_
      dsimp only
      rw [Function.update_apply, Function.update_apply]
      have hiff : i = ⟨index.toNat, by omega⟩ ↔ ((i : ℕ) : ℤ) = index := by
        rw [Fin.ext_iff]
        dsimp only
        omega
      simp only [hiff, htable]
      split_ifs <;> rfl

end Oscillatord
