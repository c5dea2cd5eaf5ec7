import Oscillatord.Config.ConfigNumbers
import Oscillatord.Eeprom.Consumers
import Oscillatord.Eeprom.Tools
import Oscillatord.Library.FloatTrip

/-!
# The text of the disciplining parameters

`art_disciplining_manager` writes the parameters it reads from the EEPROM as a text, and reads such
a text to write them back. The writer makes an environment vector and dumps it; the reader makes
one of the lines of its file and takes each value in its own way.

The types of the fields are not in the repository: `TextTypes` says what they are and how a value
is stored in them. `discipliningText_round_trip` is what comes back of a text that was written. An
equilibrium of the factory that is not positive is missing for the reader, which then has `-1`, and
a date of zero is the time of the reading; all else is what it was, the nodes to six places.
-/

namespace Oscillatord

open ObjectRep CText CNumber Rounding

/-! ### The types -/

/-- The types of the fields that the text shows, and how the tool stores a value in them. -/
structure TextTypes (M : Minipod) (values : FieldValues M.toMinipodTypes) extends
    FieldNumbers M.toMinipodTypes where
  /-- A `double` is rounded to the `float` it is stored in. -/
  number_node : ∀ q : ℚ, |binary32.round q| < 2 ^ 128 →
    (nodes.value (values.node q)).number? = some (binary32.round q)
  /-- Every length within the arrays can be stored. -/
  nodesLength_toNat : ∀ length, 0 ≤ M.nodesLengthToInt length →
    M.nodesLengthToInt length ≤ M.calibrationPointsMax →
    values.nodesLength (M.nodesLengthToInt length).toNat = length
  /-- `int32_t`. -/
  equilibrium_bounds : ∀ c, -2 ^ 31 ≤ equilibriumToInt c ∧ equilibriumToInt c < 2 ^ 31
  equilibrium_toInt : ∀ c, values.equilibrium (equilibriumToInt c) = c
  /-- `time_t`. -/
  date_bounds : ∀ d, -2 ^ 63 ≤ dateToInt d ∧ dateToInt d < 2 ^ 63
  date_toInt : ∀ d, values.date (dateToInt d) = d
  toBool_valid : ∀ b, validToBool (values.valid b) = b
  /-- No wider than `int`, as which it is printed. -/
  equilibriumES_bounds : ∀ e, -2 ^ 31 ≤ equilibriumESToInt e ∧ equilibriumESToInt e < 2 ^ 31
  equilibriumES_toInt : ∀ e, values.equilibriumES (equilibriumESToInt e) = e

variable {M : Minipod} {values : FieldValues M.toMinipodTypes}

/-! ### Writing -/

/-- The values that `write_disciplining_parameters_to_file` sets, in its order. -/
def discipliningPairs (types : TextTypes M values) (arrays : List UInt8 × List UInt8)
    (config : DiscipliningConfigV1 M.toMinipodTypes) : List (List UInt8 × List UInt8) :=
  [(ascii "coarse_equilibrium", signedDecimal (types.equilibriumToInt config.coarseEquilibrium)),
    (ascii "ctrl_nodes_length",
      decimal (toUnsigned 32 (M.nodesLengthToInt config.ctrlNodesLength)).toNat),
    (ascii "ctrl_load_nodes", arrays.1),
    (ascii "ctrl_drift_coeffs", arrays.2),
    (ascii "coarse_equilibrium_factory",
      signedDecimal (types.equilibriumToInt config.coarseEquilibriumFactory)),
    (ascii "calibration_valid",
      if types.validToBool config.calibrationValid then ascii "true" else ascii "false"),
    (ascii "calibration_date", signedDecimal (types.dateToInt config.calibrationDate)),
    (ascii "estimated_equilibrium_ES",
      signedDecimal (types.equilibriumESToInt config.estimatedEquilibriumES) ++ [newline])]

/-- The size of the buffer of the tool. -/
def textBufferSize : ℕ := 2048

/-- `write_disciplining_parameters_to_file`: the return value, and what is in the file when all of
it is written. `stack` is what follows its buffer, and `returnVal` what `fputs` returns, which the
C library of the system makes `1` when the text was written. -/
def writeDiscipliningParametersToFile (types : TextTypes M values) (stack : List UInt8)
    (returnVal : ℤ) (config : DiscipliningConfigV1 M.toMinipodTypes) : Option (ℤ × List UInt8) := do
  let arrays ← fileNodes types.nodes config
  let argz := (discipliningPairs types arrays config).foldl
    (fun argz pair => configSet argz pair.1 pair.2) []
  let buffer := stringAt (configDump argz textBufferSize ++ stack)
  return (if returnVal = 1 then 0 else -1, buffer)

/-! ### Reading -/

/-- The number is zero, of either sign. -/
def isZero : FloatValue → Bool
  | .finite _ magnitude => decide (magnitude = 0)
  | _ => false

/-- The loop of `double_array_parser`, over the parts that are left: `range` is that `errno` is
`ERANGE`, which nothing resets. It is `none` when the function returns an error. -/
def doubleArrayParser (M : Minipod) :
    List (List UInt8) → Bool → List FloatValue → Option (List FloatValue)
  | [], _, parsed => some parsed
  | ptr :: rest, range, parsed =>
    if M.calibrationPointsMax ≤ parsed.length then none
    else
      let (valueDouble, error) := strtold ptr
      let range := range || error
      if valueDouble = .infinite false ∨ isZero valueDouble && range then none
      else doubleArrayParser M rest range (parsed ++ [valueDouble])

/-- The array of a key, as it is parsed. -/
def arrayOfKey (M : Minipod) (argz : List (List UInt8)) (key : List UInt8) :
    Option (List FloatValue) :=
  (configGet argz key).bind fun value => doubleArrayParser M (strtok 44 value) false []

/-- An array of numbers. One with an infinity or without a number for a value is left out here. -/
def numbersOf : Option (List FloatValue) → Option (Option (List ℚ))
  | none => some none
  | some parsed => (parsed.mapM FloatValue.number?).map some

/-- What `read_disciplining_parameters_from_file` takes from the vector of its file, at the time
`now`. -/
def discipliningText (M : Minipod) (errno : ℕ) (now : ℤ) (argz : List (List UInt8)) :
    Option DiscipliningText := do
  let factoryCoarse :=
    atoi (configGetDefault argz (ascii "coarse_equilibrium_factory") (ascii "-1"))
  let length := configGetUnsignedNumber errno argz (ascii "ctrl_nodes_length")
  let date := configGetUnsignedNumber errno argz (ascii "calibration_date")
  let equilibriumES := configGetUnsignedNumber errno argz (ascii "estimated_equilibrium_ES")
  let load ← numbersOf (arrayOfKey M argz (ascii "ctrl_load_nodes"))
  let drift ← numbersOf (arrayOfKey M argz (ascii "ctrl_drift_coeffs"))
  return {
    calibrationValid := configGetBoolDefault argz (ascii "calibration_valid") false
    coarseEquilibrium := atoi (configGetDefault argz (ascii "coarse_equilibrium") (ascii "-1"))
    coarseEquilibriumFactory := if 0 < factoryCoarse then some factoryCoarse else none
    ctrlNodesLength := if 0 < length then some length.toNat else none
    calibrationDate := if 0 < date then date else now
    ctrlLoadNodes := load
    ctrlDriftCoeffs := drift
    estimatedEquilibriumES := if 0 < equilibriumES then equilibriumES else 0 }

/-- `read_disciplining_parameters_from_file`, of a file with some content. `heap` is what follows
the buffer of the file. -/
def readDiscipliningFile (values : FieldValues M.toMinipodTypes) (heap : List UInt8) (errno : ℕ)
    (now : ℤ) (content : List UInt8) : Option (DiscipliningConfigV1 M.toMinipodTypes) :=
  (discipliningText M errno now (configInit heap (.complete content)).2).bind
    (readDiscipliningParametersFromFile M values)

/-! ### The law -/

/-- The nodes that are used are numbers. -/
def FiniteNodes (types : TextTypes M values) (length : M.NodesLength)
    (array : CtrlNodes M.toMinipodTypes) : Prop :=
  ∀ i : Fin M.calibrationPointsMax, (i : ℕ) < M.turns length →
    (types.nodes.value (array i)).number?.isSome = true

/-- The nodes that are used have the same six places. -/
def SameNodes (types : TextTypes M values) (length : M.NodesLength)
    (array array' : CtrlNodes M.toMinipodTypes) : Prop :=
  ∀ i : Fin M.calibrationPointsMax, (i : ℕ) < M.turns length →
    ∃ q q', (types.nodes.value (array i)).number? = some q ∧
      (types.nodes.value (array' i)).number? = some q' ∧
      nearestEven (q' * 10 ^ 6) = nearestEven (q * 10 ^ 6)

/-- What has come back of some parameters, with an equilibrium of the factory and a date. -/
structure ReadBack (types : TextTypes M values)
    (config config' : DiscipliningConfigV1 M.toMinipodTypes) (factory : M.Equilibrium)
    (date : M.Date) : Prop where
  coarseEquilibrium : config'.coarseEquilibrium = config.coarseEquilibrium
  coarseEquilibriumFactory : config'.coarseEquilibriumFactory = factory
  ctrlNodesLength : config'.ctrlNodesLength = config.ctrlNodesLength
  calibrationValid :
    types.validToBool config'.calibrationValid = types.validToBool config.calibrationValid
  calibrationDate : config'.calibrationDate = date
  estimatedEquilibriumES : config'.estimatedEquilibriumES = config.estimatedEquilibriumES
  ctrlLoadNodes :
    SameNodes types config.ctrlNodesLength config.ctrlLoadNodes config'.ctrlLoadNodes
  ctrlDriftCoeffs :
    SameNodes types config.ctrlNodesLength config.ctrlDriftCoeffs config'.ctrlDriftCoeffs

/-- The parameters the law is about. -/
structure TextDomain (types : TextTypes M values) (config : DiscipliningConfigV1 M.toMinipodTypes) :
    Prop where
  length_pos : 1 ≤ M.nodesLengthToInt config.ctrlNodesLength
  length_le : M.nodesLengthToInt config.ctrlNodesLength ≤ M.calibrationPointsMax
  ctrlLoadNodes : FiniteNodes types config.ctrlNodesLength config.ctrlLoadNodes
  ctrlDriftCoeffs : FiniteNodes types config.ctrlNodesLength config.ctrlDriftCoeffs
  date_nonneg : 0 ≤ types.dateToInt config.calibrationDate
  equilibriumES_nonneg : 0 ≤ types.equilibriumESToInt config.estimatedEquilibriumES

/-- **The law**: the parameters are written, and what was written is read, whatever is in memory
around the buffers, with an equilibrium of the factory, and a date that depends on the time. -/
def RoundTrip (types : TextTypes M values) (config : DiscipliningConfigV1 M.toMinipodTypes)
    (factory : M.Equilibrium) (date : ℤ → M.Date) : Prop :=
  ∃ content,
    (∀ stack, writeDiscipliningParametersToFile types stack 1 config = some (0, content)) ∧
      ∀ heap errno now, ∃ config',
        readDiscipliningFile values heap errno now content = some config' ∧
          ReadBack types config config' factory (date now)

/-! ### What is written -/

/-- Bytes that stay in their line, and in their string. -/
def IsPlain (text : List UInt8) : Prop := ∀ byte ∈ text, byte ≠ 0 ∧ byte ≠ newline

instance (text : List UInt8) : Decidable (IsPlain text) :=
  inferInstanceAs (Decidable (∀ byte ∈ text, byte ≠ 0 ∧ byte ≠ newline))

theorem isPlain_cons {byte : UInt8} {text : List UInt8} (hbyte : byte ≠ 0 ∧ byte ≠ newline)
    (h : IsPlain text) : IsPlain (byte :: text) :=
  List.forall_mem_cons.mpr ⟨hbyte, h⟩

theorem IsPlain.append {text more : List UInt8} (h : IsPlain text) (hmore : IsPlain more) :
    IsPlain (text ++ more) := fun byte hmem =>
  (List.mem_append.mp hmem).elim (h byte) (hmore byte)

theorem isPlain_of_isDecimal {text : List UInt8} (h : ∀ byte ∈ text, IsDecimal byte) :
    IsPlain text := fun byte hmem =>
  ⟨ne_of_isDecimal (h byte hmem) (by decide), ne_of_isDecimal (h byte hmem) (by decide)⟩

theorem isPlain_decimal (n : ℕ) : IsPlain (decimal n) :=
  isPlain_of_isDecimal fun _ hmem => isDecimal_of_mem_decimal hmem

theorem isPlain_signedDecimal (x : ℤ) : IsPlain (signedDecimal x) := by
  rw [signedDecimal]
  split_ifs
  · exact isPlain_cons (by decide) (isPlain_decimal _)
  · exact isPlain_decimal _

theorem length_signedDecimal_le {x : ℤ} {k : ℕ} (hk : 0 < k) (h : x.natAbs < 10 ^ k) :
    (signedDecimal x).length ≤ k + 1 := by
  have hlength := length_decimal_le hk h
  rw [signedDecimal]
  split_ifs
  · exact Nat.succ_le_succ hlength
  · exact Nat.le_succ_of_le hlength

/-- The text of a finite number. -/
theorem mem_fixedText {k : ℕ} {value : FloatValue} (hfinite : value.number?.isSome = true)
    {byte : UInt8} (hmem : byte ∈ fixedText k value) : byte = 45 ∨ byte = 46 ∨ IsDecimal byte := by
  obtain ⟨negative, magnitude, rfl⟩ := FloatValue.exists_of_isSome_number? hfinite
  rw [fixedText, fixedDigits, List.mem_append, List.mem_append, List.mem_cons] at hmem
  rcases hmem with hsign | hdigit | rfl | hplace
  · cases negative
    · cases hsign
    · exact .inl (List.mem_singleton.mp hsign)
  · exact .inr (.inr (isDecimal_of_mem_decimal hdigit))
  · exact .inr (.inl rfl)
  · exact .inr (.inr (isDecimal_of_mem_lastDigits hplace))

theorem isPlain_fixedText {k : ℕ} {value : FloatValue} (hfinite : value.number?.isSome = true) :
    IsPlain (fixedText k value) := by
  intro byte hmem
  rcases mem_fixedText hfinite hmem with rfl | rfl | hdecimal
  · decide
  · decide
  · exact ⟨ne_of_isDecimal hdecimal (by decide), ne_of_isDecimal hdecimal (by decide)⟩

theorem fixedText_ne_nil {k : ℕ} {value : FloatValue} (hfinite : value.number?.isSome = true) :
    fixedText k value ≠ [] := by
  obtain ⟨negative, magnitude, rfl⟩ := FloatValue.exists_of_isSome_number? hfinite
  simp [fixedText, fixedDigits]

/-- A loop prints the numbers joined with a comma. -/
theorem text_fileFloatArray {n : ℕ} (array : Fin n → FloatValue) (length : ℕ) :
    fileFloatArray.text array length length
      = [44].intercalate ((List.range length).map (fileFloatArray.item array)) := by
  have hbefore : ∀ turns, turns < length →
      fileFloatArray.text array length turns
        = ((List.range turns).map (fileFloatArray.item array)).flatMap
            fun item => item ++ [44] := by
    intro turns hturns
    rw [ArrayFormat.text, List.flatMap_map]
    refine List.flatMap_congr fun i hi => ?_
    have hlast : i + 1 < length := by
      have hlt := List.mem_range.mp hi
      omega
    rw [ArrayFormat.piece, if_pos hlast]
    rfl
  rcases length with _ | last
  · rfl
  · rw [ArrayFormat.text_succ, hbefore last (Nat.lt_succ_self last), List.range_succ,
      List.map_append, List.map_singleton, Lists.intercalate_concat, ArrayFormat.piece,
      if_neg (lt_irrefl _)]
    simp [fileFloatArray]

section Written

variable (types : TextTypes M values)

/-- The text of the nodes that are used. -/
def nodesText (length : M.NodesLength) (array : CtrlNodes M.toMinipodTypes) : List UInt8 :=
  fileFloatArray.text (fun i => types.nodes.value (array i)) (M.turns length) (M.turns length)

variable {types} {length : M.NodesLength} {array : CtrlNodes M.toMinipodTypes}

theorem isPlain_nodesText (hturns : M.turns length ≤ M.calibrationPointsMax)
    (hfinite : FiniteNodes types length array) : IsPlain (nodesText types length array) := by
  intro byte hmem
  rw [nodesText, ArrayFormat.text, List.mem_append, List.mem_flatMap] at hmem
  obtain hopening | ⟨i, hi, hmem⟩ := hmem
  · cases hopening
  have hlt : i < M.calibrationPointsMax := (List.mem_range.mp hi).trans_le hturns
  rw [ArrayFormat.piece, List.mem_append, ArrayFormat.item, dif_pos hlt] at hmem
  rcases hmem with hitem | hafter
  · exact isPlain_fixedText (hfinite ⟨i, hlt⟩ (List.mem_range.mp hi)) byte hitem
  · split_ifs at hafter
    · have hcomma : byte = 44 := List.mem_singleton.mp hafter
      rw [hcomma]
      decide
    · cases hafter

variable (types array) in
theorem length_nodesText_le (hturns : M.turns length ≤ M.calibrationPointsMax) :
    (nodesText types length array).length ≤ 432 := by
  have hnine := calibrationPointsMax_le types.nodes
  have htext := length_text_fileFloatArray_le types.nodes array (M.turns length) (M.turns length)
  rw [nodesText]
  omega

theorem printNodes_fileFloatArray (hturns : M.turns length ≤ M.calibrationPointsMax) :
    printNodes types.nodes fileFloatArray array length = some (nodesText types length array) := by
  obtain ⟨hslots, hitems, hsize⟩ := fits_fileFloatArray types.nodes array hturns
  exact ArrayFormat.print_eq_some_iff.mpr ⟨rfl, hslots, hitems, hsize⟩

variable (types) in
/-- The pairs of the text, and the newline that is put after the last one apart. -/
def shownPairs (config : DiscipliningConfigV1 M.toMinipodTypes) :
    List (List UInt8 × List UInt8) :=
  (discipliningPairs types
      (nodesText types config.ctrlNodesLength config.ctrlLoadNodes,
        nodesText types config.ctrlNodesLength config.ctrlDriftCoeffs) config).take 7
    ++ [(ascii "estimated_equilibrium_ES",
      signedDecimal (types.equilibriumESToInt config.estimatedEquilibriumES))]

variable (types) in
/-- What is in the file. -/
def writtenText (config : DiscipliningConfigV1 M.toMinipodTypes) : List UInt8 :=
  Envz.stringify newline (Envz.ofPairs equals (shownPairs types config)) ++ [newline]

/-- The keys, in their order. -/
def discipliningKeys : List (List UInt8) :=
  [ascii "coarse_equilibrium", ascii "ctrl_nodes_length", ascii "ctrl_load_nodes",
    ascii "ctrl_drift_coeffs", ascii "coarse_equilibrium_factory", ascii "calibration_valid",
    ascii "calibration_date", ascii "estimated_equilibrium_ES"]

theorem nodup_name_discipliningKeys : (discipliningKeys.map (Envz.name equals)).Nodup := by
  decide +kernel

theorem discipliningKeys_all : (discipliningKeys.all fun key =>
    (key.all fun byte => decide (65 ≤ byte)) && decide (0 < key.length) && decide (key.length ≤ 26))
      = true := by
  decide +kernel

/-- A key has no separator, begins no comment and is plain. -/
theorem discipliningKeys_spec : ∀ key ∈ discipliningKeys,
    equals ∉ key ∧ key ≠ [] ∧ key.head? ≠ some 35 ∧ IsPlain key ∧ key.length ≤ 26 := by
  intro key hmem
  have hall := List.all_eq_true.mp discipliningKeys_all key hmem
  simp only [Bool.and_eq_true, decide_eq_true_eq, List.all_eq_true] at hall
  obtain ⟨⟨hletters, hpos⟩, hlength⟩ := hall
  have hne : ∀ byte ∈ key, ∀ other : UInt8, other < 65 → byte ≠ other := by
    intro byte hbyte other hother heq
    rw [heq] at hbyte
    exact UInt8.lt_irrefl _ (UInt8.lt_of_lt_of_le hother (hletters other hbyte))
  refine ⟨fun hbyte => hne equals hbyte equals (by decide) rfl, List.ne_nil_of_length_pos hpos,
    fun hhead => ?_, fun byte hbyte => ⟨hne byte hbyte 0 (by decide), ?_⟩, hlength⟩
  · exact hne 35 (List.mem_of_head? hhead) 35 (by decide) rfl
  · exact hne byte hbyte newline (by decide)

variable {config : DiscipliningConfigV1 M.toMinipodTypes}

variable (types config) in
theorem map_fst_shownPairs : (shownPairs types config).map Prod.fst = discipliningKeys := rfl

variable (types config) in
theorem nodup_shownPairs :
    ((shownPairs types config).map fun pair => Envz.name equals pair.1).Nodup := by
  have hmap : (shownPairs types config).map (fun pair => Envz.name equals pair.1)
      = discipliningKeys.map (Envz.name equals) := by
    rw [← map_fst_shownPairs types config, List.map_map]
    rfl
  rw [hmap]
  exact nodup_name_discipliningKeys

/-- The vector that is dumped has the text with its terminator. -/
theorem stringify_discipliningPairs :
    Envz.stringify newline ((discipliningPairs types
        (nodesText types config.ctrlNodesLength config.ctrlLoadNodes,
          nodesText types config.ctrlNodesLength config.ctrlDriftCoeffs) config).foldl
        (fun argz pair => configSet argz pair.1 pair.2) [])
      = writtenText types config := by
  have hnodup : ((discipliningPairs types
      (nodesText types config.ctrlNodesLength config.ctrlLoadNodes,
        nodesText types config.ctrlNodesLength config.ctrlDriftCoeffs) config).map
      fun pair => Envz.name equals pair.1).Nodup := nodup_shownPairs types config
  have hfold := Envz.foldl_add_nil hnodup
  simp only [configSet]
  rw [hfold, writtenText, shownPairs, Envz.ofPairs, Envz.ofPairs, List.map_append,
    List.map_singleton, ← Envz.stringify_concat_append, List.append_assoc, List.cons_append]
  rfl

theorem TextDomain.turns_le (h : TextDomain types config) :
    M.turns config.ctrlNodesLength ≤ M.calibrationPointsMax :=
  turns_le_iff.mpr h.length_le

/-- The values of the text are plain. -/
theorem isPlain_shownPairs (h : TextDomain types config) :
    ∀ pair ∈ shownPairs types config, IsPlain pair.2 := by
  have hload := isPlain_nodesText h.turns_le h.ctrlLoadNodes
  have hdrift := isPlain_nodesText h.turns_le h.ctrlDriftCoeffs
  have hvalid : IsPlain (if types.validToBool config.calibrationValid then ascii "true"
      else ascii "false") := by
    split_ifs <;> decide +kernel
  simp [shownPairs, discipliningPairs, isPlain_signedDecimal, isPlain_decimal, hload, hdrift,
    hvalid]

/-- A line of the text. -/
theorem line_of_mem_ofPairs (h : TextDomain types config) {line : List UInt8}
    (hmem : line ∈ Envz.ofPairs equals (shownPairs types config)) :
    line ≠ [] ∧ isComment line = false ∧ IsPlain line := by
  obtain ⟨pair, hpair, rfl⟩ := List.mem_map.mp hmem
  have hkey : pair.1 ∈ discipliningKeys := by
    rw [← map_fst_shownPairs types config]
    exact List.mem_map_of_mem hpair
  obtain ⟨-, hne, hcomment, hplain, -⟩ := discipliningKeys_spec pair.1 hkey
  refine ⟨by simp, ?_, hplain.append (isPlain_cons (by decide)
    (isPlain_shownPairs h pair hpair))⟩
  obtain ⟨b, key, hcons⟩ := List.exists_cons_of_ne_nil hne
  rw [hcons, List.head?_cons] at hcomment
  rw [isComment, hcons, List.cons_append, List.head?_cons]
  exact decide_eq_false hcomment

/-- The text is shorter than the buffer. -/
theorem length_writtenText_lt (h : TextDomain types config) :
    (writtenText types config).length < textBufferSize := by
  have hstringify := Envz.length_stringify_le newline
    (Envz.ofPairs equals (shownPairs types config))
  have hkeys : ∀ key ∈ discipliningKeys, key.length ≤ 26 := fun key hmem =>
    (discipliningKeys_spec key hmem).2.2.2.2
  have hload := length_nodesText_le types config.ctrlLoadNodes h.turns_le
  have hdrift := length_nodesText_le types config.ctrlDriftCoeffs h.turns_le
  -- a sign and ten digits at most
  have hint32 : ∀ x : ℤ, -2 ^ 31 ≤ x ∧ x < 2 ^ 31 → (signedDecimal x).length ≤ 20 := by
    intro x hx
    exact (length_signedDecimal_le (k := 10) (by decide) (by omega)).trans (by decide)
  have hcoarse := hint32 _ (types.equilibrium_bounds config.coarseEquilibrium)
  have hfactory := hint32 _ (types.equilibrium_bounds config.coarseEquilibriumFactory)
  have hES := hint32 _ (types.equilibriumES_bounds config.estimatedEquilibriumES)
  have hdate : (signedDecimal (types.dateToInt config.calibrationDate)).length ≤ 20 := by
    have hbounds := types.date_bounds config.calibrationDate
    exact length_signedDecimal_le (k := 19) (by decide) (by omega)
  have hlength : (decimal (toUnsigned 32 (M.nodesLengthToInt config.ctrlNodesLength)).toNat).length
      ≤ 20 := by
    refine (length_decimal_le (k := 10) (by decide) ?_).trans (by decide)
    have hlt := Int.emod_lt_of_pos (M.nodesLengthToInt config.ctrlNodesLength)
      (by norm_num : (0 : ℤ) < 2 ^ 32)
    rw [toUnsigned]
    omega
  have hvalid : (if types.validToBool config.calibrationValid then ascii "true"
      else ascii "false").length ≤ 20 := by
    split_ifs <;> decide +kernel
  simp only [discipliningKeys, List.forall_mem_cons] at hkeys
  rw [writtenText, List.length_append, textBufferSize]
  simp only [shownPairs, discipliningPairs, Envz.ofPairs, List.take, List.cons_append,
    List.nil_append, List.map_cons, List.map_nil, List.sum_cons, List.sum_nil, List.length_append,
    List.length_cons, List.length_nil] at hstringify ⊢
  omega

theorem zero_notMem_writtenText (h : TextDomain types config) : 0 ∉ writtenText types config := by
  intro hmem
  rcases List.mem_append.mp hmem with hmem | hmem
  · rcases Envz.mem_of_mem_stringify hmem with hzero | ⟨line, hline, hzero⟩
    · exact absurd hzero (by decide)
    · exact ((line_of_mem_ofPairs h hline).2.2 0 hzero).1 rfl
  · exact absurd (List.mem_singleton.mp hmem) (by decide)

/-- **What is written**, and that the buffer holds it. -/
theorem writeDiscipliningParametersToFile_eq (h : TextDomain types config) (stack : List UInt8)
    (returnVal : ℤ) :
    writeDiscipliningParametersToFile types stack returnVal config
      = some (if returnVal = 1 then 0 else -1, writtenText types config) := by
  have hfile : fileNodes types.nodes config
      = some (nodesText types config.ctrlNodesLength config.ctrlLoadNodes,
          nodesText types config.ctrlNodesLength config.ctrlDriftCoeffs) := by
    rw [fileNodes, printNodes_fileFloatArray h.turns_le, printNodes_fileFloatArray h.turns_le]
    rfl
  have hlength := length_writtenText_lt h
  have hdump : (writtenText types config ++ [0]).take textBufferSize
      = writtenText types config ++ [0] := by
    refine List.take_of_length_le ?_
    rw [List.length_append, List.length_singleton]
    exact hlength
  rw [writeDiscipliningParametersToFile, hfile]
  simp only [Option.bind_eq_bind, Option.bind_some, configDump, stringify_discipliningPairs, hdump]
  rw [List.append_assoc, stringAt_of_not_mem (zero_notMem_writtenText h)]
  simp [stringAt]

/-! ### What is read -/

/-- The vector of the file begins with the pairs, whatever is in memory after the text. -/
theorem exists_configInit_writtenText (h : TextDomain types config) (heap : List UInt8) :
    ∃ more, (configInit heap (.complete (writtenText types config))).2
      = Envz.ofPairs equals (shownPairs types config) ++ more := by
  have hne : Envz.ofPairs equals (shownPairs types config) ≠ [] := by
    simp [Envz.ofPairs, shownPairs]
  obtain ⟨more, hmore⟩ := Envz.exists_createSep_stringify_append hne
    (fun line hmem => ⟨(line_of_mem_ofPairs h hmem).1,
      fun hnl => ((line_of_mem_ofPairs h hmem).2.2 newline hnl).2 rfl⟩) (stringAt heap)
  -- no key begins a comment
  have hkept : (Envz.ofPairs equals (shownPairs types config)).filter
      (fun entry => !isComment entry) = Envz.ofPairs equals (shownPairs types config) :=
    List.filter_eq_self.mpr fun line hmem => by simp [(line_of_mem_ofPairs h hmem).2.1]
  refine ⟨more.filter fun entry => !isComment entry, ?_⟩
  rw [configInit, stringAt_of_not_mem (zero_notMem_writtenText h), removeComments_eq_filter,
    writtenText, List.append_assoc, List.singleton_append, hmore, List.filter_append, hkept]

/-- A value of the text. -/
theorem configGet_shownPairs {k value : List UInt8} (more : List (List UInt8))
    (hmem : (k, value) ∈ shownPairs types config) :
    configGet (Envz.ofPairs equals (shownPairs types config) ++ more) k = some value := by
  have hkey : k ∈ discipliningKeys := by
    rw [← map_fst_shownPairs types config]
    exact List.mem_map_of_mem hmem
  exact Envz.get_ofPairs_append hmem (nodup_shownPairs types config)
    (discipliningKeys_spec k hkey).1 more

theorem configGetUnsignedNumber_of_decimal {argz : List (List UInt8)} {key : List UInt8} {n : ℕ}
    (errno : ℕ) (hget : configGet argz key = some (decimal n)) (hn : n < 2 ^ 63) :
    configGetUnsignedNumber errno argz key = n := by
  rw [configGetUnsignedNumber, hget]
  simp only [strtoul_decimal (hn.trans (by decide)), decimal_ne_nil, ne_eq, not_true, or_false,
    if_false]
  rw [if_neg (by omega)]

/-- The loop of the parser takes the numbers that were printed. -/
theorem doubleArrayParser_map_fixedText (texts parsed : List FloatValue)
    (hfloat : ∀ value ∈ texts, ∃ bits, value = ofBinary32 bits ∧ value.number?.isSome = true)
    (hroom : parsed.length + texts.length ≤ M.calibrationPointsMax) :
    doubleArrayParser M (texts.map (fixedText 6)) false parsed
      = some (parsed ++ texts.map FloatValue.reread) := by
  induction texts generalizing parsed with
  | nil => simp [doubleArrayParser]
  | cons value texts ih =>
    obtain ⟨bits, rfl, hnumber⟩ := hfloat value List.mem_cons_self
    obtain ⟨negative, magnitude, hvalue⟩ := FloatValue.exists_of_isSome_number? hnumber
    have hreread : (ofBinary32 bits).reread ≠ .infinite false := by
      rw [hvalue]
      exact FloatValue.noConfusion
    rw [List.length_cons] at hroom
    rw [List.map_cons, doubleArrayParser, if_neg (by omega), strtold_fixedText_ofBinary32 hnumber]
    simp only [hreread, Bool.or_false, Bool.and_false, Bool.false_eq_true, or_false, if_false]
    rw [ih _ (fun value hmem => hfloat value (List.mem_cons_of_mem _ hmem))
      (by rw [List.length_append, List.length_singleton]; omega), List.map_cons, List.append_assoc,
      List.singleton_append]

variable (types array) in
/-- A node, and zero beyond the array. -/
def nodeAt (i : ℕ) : FloatValue :=
  if h : i < M.calibrationPointsMax then types.nodes.value (array ⟨i, h⟩) else .finite false 0

variable (types length array) in
/-- The numbers that are read of some nodes. -/
def rereadNodes : List ℚ :=
  (List.range (M.turns length)).map fun i => (nodeAt types array i).reread.number?.getD 0

theorem nodeAt_of_finite (hturns : M.turns length ≤ M.calibrationPointsMax)
    (hfinite : FiniteNodes types length array) {i : ℕ} (hi : i < M.turns length) :
    ∃ bits, nodeAt types array i = ofBinary32 bits ∧
      (nodeAt types array i).number?.isSome = true := by
  have hlt := hi.trans_le hturns
  rw [nodeAt, dif_pos hlt]
  exact ⟨_, rfl, hfinite ⟨i, hlt⟩ hi⟩

theorem strtok_nodesText (hpos : 0 < M.turns length)
    (hturns : M.turns length ≤ M.calibrationPointsMax) (hfinite : FiniteNodes types length array) :
    strtok 44 (nodesText types length array)
      = ((List.range (M.turns length)).map (nodeAt types array)).map (fixedText 6) := by
  have hitem : (List.range (M.turns length)).map
      (fileFloatArray.item fun i => types.nodes.value (array i))
        = ((List.range (M.turns length)).map (nodeAt types array)).map (fixedText 6) := by
    rw [List.map_map]
    refine List.map_congr_left fun i hi => ?_
    have hlt := (List.mem_range.mp hi).trans_le hturns
    rw [ArrayFormat.item, dif_pos hlt, Function.comp_apply, nodeAt, dif_pos hlt]
    rfl
  rw [nodesText, text_fileFloatArray, hitem]
  refine strtok_intercalate (by simp [hpos.ne']) fun part hmem => ?_
  obtain ⟨value, hvalue, rfl⟩ := List.mem_map.mp hmem
  obtain ⟨i, hi, rfl⟩ := List.mem_map.mp hvalue
  obtain ⟨-, -, hnumber⟩ := nodeAt_of_finite hturns hfinite (List.mem_range.mp hi)
  refine ⟨fixedText_ne_nil hnumber, fun hcomma => ?_⟩
  rcases mem_fixedText hnumber hcomma with h | h | h
  · exact absurd h (by decide)
  · exact absurd h (by decide)
  · exact absurd h (by decide)

/-- An array of the text, as it is read. -/
theorem numbersOf_arrayOfKey {argz : List (List UInt8)} {key : List UInt8}
    (hget : configGet argz key = some (nodesText types length array)) (hpos : 0 < M.turns length)
    (hturns : M.turns length ≤ M.calibrationPointsMax) (hfinite : FiniteNodes types length array) :
    numbersOf (arrayOfKey M argz key) = some (some (rereadNodes types length array)) := by
  have hparse := doubleArrayParser_map_fixedText (M := M)
    ((List.range (M.turns length)).map (nodeAt types array)) []
    (fun value hmem => by
      obtain ⟨i, hi, rfl⟩ := List.mem_map.mp hmem
      exact nodeAt_of_finite hturns hfinite (List.mem_range.mp hi))
    (by simpa using hturns)
  rw [arrayOfKey, hget, Option.bind_some, strtok_nodesText hpos hturns hfinite, hparse,
    List.nil_append, numbersOf, List.map_map]
  -- what is read again of a finite node is a number
  have hnumbers : ((List.range (M.turns length)).map
      (FloatValue.reread ∘ nodeAt types array)).mapM FloatValue.number?
        = some (((List.range (M.turns length)).map (FloatValue.reread ∘ nodeAt types array)).map
            fun value => value.number?.getD 0) := by
    refine Lists.mapM_eq_some_map fun value hmem => ?_
    obtain ⟨i, hi, rfl⟩ := List.mem_map.mp hmem
    obtain ⟨bits, hbits, hnumber⟩ := nodeAt_of_finite hturns hfinite (List.mem_range.mp hi)
    obtain ⟨q, hq⟩ := Option.isSome_iff_exists.mp hnumber
    rw [hbits] at hq
    obtain ⟨r, hr, -⟩ := exists_number?_reread hq
    rw [Function.comp_apply, hbits, hr]
    rfl
  rw [hnumbers, List.map_map]
  rfl

/-- **The nodes that are stored** have the six places of those that were printed. -/
theorem sameNodes_replaceNodes (hfinite : FiniteNodes types length array)
    (factory : CtrlNodes M.toMinipodTypes) :
    SameNodes types length array
      (replaceNodes M values (rereadNodes types length array) factory) := by
  intro i hi
  obtain ⟨q, hq⟩ := Option.isSome_iff_exists.mp (hfinite i hi)
  obtain ⟨r, hr, hlt, hsix⟩ := exists_number?_reread hq
  have hread : (rereadNodes types length array)[(i : ℕ)]? = some r := by
    have hvalue : (types.nodes.value (array i)).reread.number? = some r := hr
    rw [rereadNodes, List.getElem?_map, List.getElem?_range hi, Option.map_some, nodeAt,
      dif_pos i.isLt, Fin.eta, hvalue]
    rfl
  obtain ⟨hindex, hget⟩ := List.getElem?_eq_some_iff.mp hread
  refine ⟨q, binary32.round r, hq, ?_, hsix⟩
  rw [replaceNodes, dif_pos hindex, hget]
  exact types.number_node r hlt

variable (types) in
/-- What the reader takes from the text, at some time. -/
def textOf (config : DiscipliningConfigV1 M.toMinipodTypes) (now : ℤ) : DiscipliningText :=
  let factoryCoarse := types.equilibriumToInt config.coarseEquilibriumFactory
  let date := types.dateToInt config.calibrationDate
  { calibrationValid := types.validToBool config.calibrationValid
    coarseEquilibrium := types.equilibriumToInt config.coarseEquilibrium
    coarseEquilibriumFactory := if 0 < factoryCoarse then some factoryCoarse else none
    ctrlNodesLength := some (M.turns config.ctrlNodesLength)
    calibrationDate := if 0 < date then date else now
    ctrlLoadNodes := some (rereadNodes types config.ctrlNodesLength config.ctrlLoadNodes)
    ctrlDriftCoeffs := some (rereadNodes types config.ctrlNodesLength config.ctrlDriftCoeffs)
    estimatedEquilibriumES := types.equilibriumESToInt config.estimatedEquilibriumES }

/-- A number that is not negative and was printed with a sign where it needs one. -/
theorem configGetUnsignedNumber_of_signedDecimal {argz : List (List UInt8)} {key : List UInt8}
    {x : ℤ} (errno : ℕ) (hget : configGet argz key = some (signedDecimal x)) (hnonneg : 0 ≤ x)
    (hx : x < 2 ^ 63) : configGetUnsignedNumber errno argz key = x := by
  obtain ⟨n, rfl⟩ := Int.eq_ofNat_of_zero_le hnonneg
  rw [signedDecimal, if_neg (by omega), Int.natAbs_natCast] at hget
  exact configGetUnsignedNumber_of_decimal errno hget (by omega)

theorem TextDomain.turns_pos (h : TextDomain types config) :
    0 < M.turns config.ctrlNodesLength := by
  have hlow := h.length_pos
  rw [MinipodTypes.turns]
  omega

theorem TextDomain.turns_eq (h : TextDomain types config) :
    ((M.turns config.ctrlNodesLength : ℕ) : ℤ) = M.nodesLengthToInt config.ctrlNodesLength :=
  Int.toNat_of_nonneg (by have := h.length_pos; omega)

variable (more : List (List UInt8))

/-- The number of nodes is printed as an `unsigned int`, which changes none of the domain. -/
theorem configGetUnsignedNumber_nodesLength (h : TextDomain types config) (errno : ℕ) :
    configGetUnsignedNumber errno (Envz.ofPairs equals (shownPairs types config) ++ more)
      (ascii "ctrl_nodes_length") = (M.turns config.ctrlNodesLength : ℕ) := by
  have hturns := h.turns_le
  have hnine := calibrationPointsMax_le types.nodes
  have hsame : (toUnsigned 32 (M.nodesLengthToInt config.ctrlNodesLength)).toNat
      = M.turns config.ctrlNodesLength := by
    rw [← h.turns_eq, toUnsigned, Int.emod_eq_of_lt (by omega) (by omega), Int.toNat_natCast]
  refine configGetUnsignedNumber_of_decimal errno (configGet_shownPairs more ?_) (by omega)
  rw [← hsame]
  simp [shownPairs, discipliningPairs]

theorem atoi_shownPairs {key : List UInt8} {c : M.Equilibrium}
    (hmem : (key, signedDecimal (types.equilibriumToInt c)) ∈ shownPairs types config)
    (defaultValue : List UInt8) :
    atoi (configGetDefault (Envz.ofPairs equals (shownPairs types config) ++ more) key
      defaultValue) = types.equilibriumToInt c := by
  obtain ⟨hlow, hhigh⟩ := types.equilibrium_bounds c
  rw [configGetDefault, configGet_shownPairs more hmem, Option.getD_some]
  exact atoi_signedDecimal hlow hhigh

theorem configGetBoolDefault_valid :
    configGetBoolDefault (Envz.ofPairs equals (shownPairs types config) ++ more)
      (ascii "calibration_valid") false = types.validToBool config.calibrationValid := by
  have hvalid : configGet (Envz.ofPairs equals (shownPairs types config) ++ more)
      (ascii "calibration_valid") = some (if types.validToBool config.calibrationValid then
        ascii "true" else ascii "false") :=
    configGet_shownPairs more (by simp [shownPairs, discipliningPairs])
  rw [configGetBoolDefault, hvalid]
  cases types.validToBool config.calibrationValid <;> decide +kernel

/-- **The values of the text** are found as they were written. -/
theorem discipliningText_eq (h : TextDomain types config) (errno : ℕ) (now : ℤ) :
    discipliningText M errno now (Envz.ofPairs equals (shownPairs types config) ++ more)
      = some (textOf types config now) := by
  have hcoarse : atoi (configGetDefault (Envz.ofPairs equals (shownPairs types config) ++ more)
      (ascii "coarse_equilibrium") (ascii "-1"))
        = types.equilibriumToInt config.coarseEquilibrium :=
    atoi_shownPairs more (by simp [shownPairs, discipliningPairs]) _
  have hfactory : atoi (configGetDefault (Envz.ofPairs equals (shownPairs types config) ++ more)
      (ascii "coarse_equilibrium_factory") (ascii "-1"))
        = types.equilibriumToInt config.coarseEquilibriumFactory :=
    atoi_shownPairs more (by simp [shownPairs, discipliningPairs]) _
  have hdate : configGetUnsignedNumber errno
      (Envz.ofPairs equals (shownPairs types config) ++ more) (ascii "calibration_date")
        = types.dateToInt config.calibrationDate :=
    configGetUnsignedNumber_of_signedDecimal errno
      (configGet_shownPairs more (by simp [shownPairs, discipliningPairs])) h.date_nonneg
      (types.date_bounds _).2
  have hES : configGetUnsignedNumber errno
      (Envz.ofPairs equals (shownPairs types config) ++ more) (ascii "estimated_equilibrium_ES")
        = types.equilibriumESToInt config.estimatedEquilibriumES :=
    configGetUnsignedNumber_of_signedDecimal errno
      (configGet_shownPairs more (by simp [shownPairs])) h.equilibriumES_nonneg
      ((types.equilibriumES_bounds _).2.trans (by norm_num))
  have hload : configGet (Envz.ofPairs equals (shownPairs types config) ++ more)
      (ascii "ctrl_load_nodes")
        = some (nodesText types config.ctrlNodesLength config.ctrlLoadNodes) :=
    configGet_shownPairs more (by simp [shownPairs, discipliningPairs])
  have hdrift : configGet (Envz.ofPairs equals (shownPairs types config) ++ more)
      (ascii "ctrl_drift_coeffs")
        = some (nodesText types config.ctrlNodesLength config.ctrlDriftCoeffs) :=
    configGet_shownPairs more (by simp [shownPairs, discipliningPairs])
  replace hload := numbersOf_arrayOfKey hload h.turns_pos h.turns_le h.ctrlLoadNodes
  replace hdrift := numbersOf_arrayOfKey hdrift h.turns_pos h.turns_le h.ctrlDriftCoeffs
  -- of the numbers that are taken when they are positive, the length is and the other may be zero
  have hlengthPos : (0 : ℤ) < (M.turns config.ctrlNodesLength : ℕ) := by
    exact_mod_cast h.turns_pos
  have hESpos : (if 0 < types.equilibriumESToInt config.estimatedEquilibriumES then
      types.equilibriumESToInt config.estimatedEquilibriumES else 0)
        = types.equilibriumESToInt config.estimatedEquilibriumES := by
    have hnonneg := h.equilibriumES_nonneg
    split_ifs <;> omega
  rw [discipliningText, hload, hdrift]
  simp only [Option.bind_eq_bind, Option.bind_some, hcoarse, hfactory,
    configGetUnsignedNumber_nodesLength more h, hdate, hES, configGetBoolDefault_valid more,
    hESpos, if_pos hlengthPos, Int.toNat_natCast]
  rfl

/-! ### The round trip -/

/-- The equilibrium of the factory that comes back: one that is not positive is missing. -/
def factoryBack (types : TextTypes M values) (factory : M.Equilibrium) : M.Equilibrium :=
  if 0 < types.equilibriumToInt factory then factory else values.equilibrium (-1)

/-- The date that comes back: one of zero is the time of the reading. -/
def dateBack (types : TextTypes M values) (date : M.Date) (now : ℤ) : M.Date :=
  if 0 < types.dateToInt date then date else values.date now

/-- The parameters that the reader makes of the values of the text. -/
def configBack (types : TextTypes M values) (config : DiscipliningConfigV1 M.toMinipodTypes)
    (now : ℤ) : DiscipliningConfigV1 M.toMinipodTypes :=
  { factoryConfig M values with
    calibrationValid := values.valid (types.validToBool config.calibrationValid)
    coarseEquilibrium := config.coarseEquilibrium
    coarseEquilibriumFactory := factoryBack types config.coarseEquilibriumFactory
    ctrlNodesLength := config.ctrlNodesLength
    calibrationDate := dateBack types config.calibrationDate now
    ctrlLoadNodes :=
      replaceNodes M values (rereadNodes types config.ctrlNodesLength config.ctrlLoadNodes)
        (factoryConfig M values).ctrlLoadNodes
    ctrlDriftCoeffs :=
      replaceNodes M values (rereadNodes types config.ctrlNodesLength config.ctrlDriftCoeffs)
        (factoryConfig M values).ctrlDriftCoeffs
    estimatedEquilibriumES := config.estimatedEquilibriumES }

theorem date_readBack (types : TextTypes M values) (date : M.Date) (now : ℤ) :
    values.date (if 0 < types.dateToInt date then types.dateToInt date else now)
      = dateBack types date now := by
  rw [dateBack]
  split_ifs
  · exact types.date_toInt date
  · rfl

theorem readDiscipliningParametersFromFile_textOf (h : TextDomain types config) (now : ℤ) :
    readDiscipliningParametersFromFile M values (textOf types config now)
      = some (configBack types config now) := by
  have hstored : values.nodesLength (M.turns config.ctrlNodesLength) = config.ctrlNodesLength :=
    types.nodesLength_toNat _ (by have := h.length_pos; omega) h.length_le
  have harray : ∀ array, getDoubleArrayFromConfig M
      (some (rereadNodes types config.ctrlNodesLength array))
      (M.nodesLengthToInt config.ctrlNodesLength)
        = some (rereadNodes types config.ctrlNodesLength array) := by
    intro array
    have hlength : (rereadNodes types config.ctrlNodesLength array).length
        = M.turns config.ctrlNodesLength := by
      simp [rereadNodes]
    -- the array is as long as the length that was read says
    rw [getDoubleArrayFromConfig, Option.filter_some, if_pos]
    simp [hlength, h.turns_eq, h.turns_le]
  rw [readDiscipliningParametersFromFile]
  simp only [textOf, Option.bind_eq_bind, Option.bind_some, hstored, harray,
    types.equilibrium_toInt, types.equilibriumES_toInt, date_readBack]
  by_cases hfactory : 0 < types.equilibriumToInt config.coarseEquilibriumFactory
  · simp only [if_pos hfactory, types.equilibrium_toInt, configBack, factoryBack]
    rfl
  · -- the equilibrium of `factory_config` stays
    simp only [if_neg hfactory, configBack, factoryBack]
    rfl

theorem readBack_configBack (h : TextDomain types config) (now : ℤ) :
    ReadBack types config (configBack types config now)
      (factoryBack types config.coarseEquilibriumFactory)
      (dateBack types config.calibrationDate now) where
  coarseEquilibrium := rfl
  coarseEquilibriumFactory := rfl
  ctrlNodesLength := rfl
  calibrationValid := types.toBool_valid _
  calibrationDate := rfl
  estimatedEquilibriumES := rfl
  ctrlLoadNodes := sameNodes_replaceNodes h.ctrlLoadNodes _
  ctrlDriftCoeffs := sameNodes_replaceNodes h.ctrlDriftCoeffs _

/-- What comes back of the text that is written. -/
theorem roundTrip_back (h : TextDomain types config) :
    RoundTrip types config (factoryBack types config.coarseEquilibriumFactory)
      (dateBack types config.calibrationDate) := by
  refine ⟨writtenText types config, fun stack => writeDiscipliningParametersToFile_eq h stack 1,
    fun heap errno now => ?_⟩
  obtain ⟨more, hmore⟩ := exists_configInit_writtenText h heap
  refine ⟨configBack types config now, ?_, readBack_configBack h now⟩
  rw [readDiscipliningFile, hmore, discipliningText_eq more h, Option.bind_some]
  exact readDiscipliningParametersFromFile_textOf h now

/-- What comes back is determined. -/
theorem RoundTrip.unique {factory factory' : M.Equilibrium} {date date' : ℤ → M.Date}
    (h : RoundTrip types config factory date) (h' : RoundTrip types config factory' date') :
    factory = factory' ∧ ∀ now, date now = date' now := by
  obtain ⟨content, hwrite, hread⟩ := h
  obtain ⟨content', hwrite', hread'⟩ := h'
  obtain rfl : content = content' := by
    have heq := (hwrite []).symm.trans (hwrite' [])
    exact (Prod.mk.inj (Option.some.inj heq)).2
  have hback : ∀ now, factory = factory' ∧ date now = date' now := by
    intro now
    obtain ⟨config', hconfig', hback⟩ := hread [] 0 now
    obtain ⟨config'', hconfig'', hback'⟩ := hread' [] 0 now
    obtain rfl := Option.some.inj (hconfig'.symm.trans hconfig'')
    exact ⟨hback.coarseEquilibriumFactory.symm.trans hback'.coarseEquilibriumFactory,
      hback.calibrationDate.symm.trans hback'.calibrationDate⟩
  exact ⟨(hback 0).1, fun now => (hback now).2⟩

end Written

/-- **What comes back of a text**: the parameters that were written, with the equilibrium of the
factory when it is positive, and else `-1`, and with the date when it is positive, and else the
time. -/
theorem discipliningText_round_trip (types : TextTypes M values)
    {config : DiscipliningConfigV1 M.toMinipodTypes} (h : TextDomain types config)
    (factory : M.Equilibrium) (date : ℤ → M.Date) :
    RoundTrip types config factory date ↔
      factory = factoryBack types config.coarseEquilibriumFactory ∧
        ∀ now, date now = dateBack types config.calibrationDate now := by
  constructor
  · exact fun hback => hback.unique (roundTrip_back h)
  · rintro ⟨rfl, hdate⟩
    obtain rfl : date = dateBack types config.calibrationDate := funext hdate
    exact roundTrip_back h

/-! ### The packed layout -/

/-- The values of the tools in the packed layout, in little-endian order. -/
def packedTextValues : FieldValues packed.toMinipodTypes where
  nodesLength n := storeLe 4 n
  node q := storeLe 4 (toBinary32 q)
  equilibrium n := storeLe 4 n
  date n := storeLe 8 n
  valid b := if b then (1 : UInt8) else (0 : UInt8)
  equilibriumES n := storeLe 4 n
  paddingConfig := ![]

theorem packed_nodesLengthToInt (length : Bytes 4) :
    packed.nodesLengthToInt length = loadI (List.ofFn length) 0 4 := by
  simp only [packed, packedTypes]

/-- The numbers of the packed layout. -/
def packedNumbers : FieldNumbers packed.toMinipodTypes where
  nodes := packedNodes
  equilibriumToInt c := loadI (List.ofFn (n := 4) c) 0 4
  dateToInt d := loadI (List.ofFn (n := 8) d) 0 8
  validToBool := fun valid : UInt8 => valid != 0
  equilibriumESToInt e := loadI (List.ofFn (n := 4) e) 0 4
  meanFineToInt m := loadU (List.ofFn (n := 2) m) 0 2

/-- The types of the packed layout. -/
def packedText : TextTypes packed packedTextValues where
  toFieldNumbers := packedNumbers
  number_node q hq := by
    have hbits : (leNat (List.ofFn (storeLe 4 (toBinary32 q))) : ℕ) = toBinary32 q % 2 ^ 32 := by
      have hstore := leNat_storeLe 4 (toBinary32 q)
      omega
    change (ofBinary32 (leNat (List.ofFn (storeLe 4 (toBinary32 q))))).number? = _
    rw [hbits, ofBinary32_mod, number?_ofBinary32_toBinary32 hq]
  nodesLength_toNat := fun (length : Bytes 4) hnonneg _ => by
    rw [packed_nodesLengthToInt] at hnonneg
    have hback : storeLe 4 (loadI (List.ofFn length) 0 4).toNat = length := by
      rw [Int.toNat_of_nonneg hnonneg]
      exact storeLe_loadI (n := 4) length
    simp only [packedTextValues]
    rw [packed_nodesLengthToInt]
    exact hback
  equilibrium_bounds c := by
    simp only [packedNumbers]
    exact loadI_bounds (List.ofFn (n := 4) c) 0 (n := 4) (by decide)
  equilibrium_toInt c := by
    simp only [packedNumbers, packedTextValues]
    exact storeLe_loadI (n := 4) c
  date_bounds d := by
    simp only [packedNumbers]
    exact loadI_bounds (List.ofFn (n := 8) d) 0 (n := 8) (by decide)
  date_toInt d := by
    simp only [packedNumbers, packedTextValues]
    exact storeLe_loadI (n := 8) d
  toBool_valid b := by cases b <;> rfl
  equilibriumES_bounds e := by
    simp only [packedNumbers]
    exact loadI_bounds (List.ofFn (n := 4) e) 0 (n := 4) (by decide)
  equilibriumES_toInt e := by
    simp only [packedNumbers, packedTextValues]
    exact storeLe_loadI (n := 4) e

/-- Parameters with two nodes, an equilibrium of the factory and a date. -/
def twoNodes (factory : Bytes 4) : DiscipliningConfigV1 packed.toMinipodTypes :=
  { parametersBlank.dscConfig with
    ctrlNodesLength := (![2, 0, 0, 0] : Bytes 4)
    ctrlLoadNodes := fun _ => (![0, 0, 0x80, 0x3E] : Bytes 4)
    ctrlDriftCoeffs := fun _ => (![0x9A, 0x99, 0x99, 0xBF] : Bytes 4)
    coarseEquilibrium := (![0x10, 0x27, 0, 0] : Bytes 4)
    coarseEquilibriumFactory := factory
    calibrationValid := (1 : UInt8)
    calibrationDate := (![0, 0xF1, 0x53, 0x65, 0, 0, 0, 0] : Bytes 8)
    estimatedEquilibriumES := (![7, 0, 0, 0] : Bytes 4) }

theorem nodesLength_twoNodes (factory : Bytes 4) :
    packed.nodesLengthToInt (twoNodes factory).ctrlNodesLength = 2 := by
  simp only [twoNodes]
  rw [packed_nodesLengthToInt]
  decide +kernel

theorem textDomain_twoNodes (factory : Bytes 4) : TextDomain packedText (twoNodes factory) where
  length_pos := by
    rw [nodesLength_twoNodes]
    decide
  length_le := by
    rw [nodesLength_twoNodes]
    decide +kernel
  ctrlLoadNodes _ _ := by
    simp only [twoNodes, packedText, packedNumbers]
    decide +kernel
  ctrlDriftCoeffs _ _ := by
    simp only [twoNodes, packedText, packedNumbers]
    decide +kernel
  date_nonneg := by
    simp only [twoNodes, packedText, packedNumbers]
    decide +kernel
  equilibriumES_nonneg := by
    simp only [twoNodes, packedText, packedNumbers]
    decide +kernel

/-- Parameters with a positive equilibrium of the factory come back as they are. -/
theorem roundTrip_twoNodes :
    RoundTrip packedText (twoNodes ![100, 0, 0, 0])
      (twoNodes ![100, 0, 0, 0]).coarseEquilibriumFactory
      fun _ => (twoNodes ![100, 0, 0, 0]).calibrationDate := by
  refine (discipliningText_round_trip packedText (textDomain_twoNodes _) _ _).mpr
    ⟨?_, fun now => ?_⟩
  · rw [factoryBack, if_pos (by decide +kernel)]
  · rw [dateBack, if_pos (by decide +kernel)]

/-- An equilibrium of the factory of zero comes back as `-1`. -/
theorem roundTrip_fails_factory_zero :
    ¬ ∀ config : DiscipliningConfigV1 packed.toMinipodTypes, TextDomain packedText config →
      RoundTrip packedText config config.coarseEquilibriumFactory
        fun _ => config.calibrationDate := by
  intro hlaw
  have h := textDomain_twoNodes ![0, 0, 0, 0]
  obtain ⟨hfactory, -⟩ := (hlaw _ h).unique (roundTrip_back h)
  rw [factoryBack, if_neg (by decide +kernel)] at hfactory
  exact absurd (congrFun hfactory (0 : Fin 4)) (by decide +kernel)

end Oscillatord
