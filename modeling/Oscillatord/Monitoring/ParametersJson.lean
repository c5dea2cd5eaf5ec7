import Oscillatord.Monitoring.Client

/-!
# The calibration parameters in JSON

`json_add_disciplining_disciplining_parameters` shows the arrays of the calibration, those of the
factory, and the temperatures that were measured. `ParametersJsonLaw` is that nothing is lost: each
array is there exactly when its length is positive, with all of its numbers, and each temperature
under a key of its own.

The arrays of the factory are guarded by the other length. So they are missing when only the factory
has nodes, and are a text without its closing bracket when only the factory has none
(`parametersJsonLaw_iff`).
-/

namespace Oscillatord

open ObjectRep CText CNumber Rounding HundredthSteps
open JsonObject (Value setMember)

variable {M : Minipod} (numbers : FieldNumbers M.toMinipodTypes) (steps : TemperatureSteps)

/-! ### The law -/

/-- An array of the calibration, with the key it is shown under. -/
structure NamedArray (T : MinipodTypes) where
  key : List UInt8
  length : T.NodesLength
  nodes : CtrlNodes T

/-- The arrays of a configuration. -/
def namedArrays (config : DiscipliningConfigV1 M.toMinipodTypes) :
    List (NamedArray M.toMinipodTypes) :=
  [⟨ascii "ctrl_load_nodes", config.ctrlNodesLength, config.ctrlLoadNodes⟩,
    ⟨ascii "ctrl_drift_coeffs", config.ctrlNodesLength, config.ctrlDriftCoeffs⟩,
    ⟨ascii "ctrl_load_nodes_factory", config.ctrlNodesLengthFactory,
      config.ctrlLoadNodesFactory⟩,
    ⟨ascii "ctrl_drift_coeffs_factory", config.ctrlNodesLengthFactory,
      config.ctrlDriftCoeffsFactory⟩]

/-- A number of an array, with two places. -/
def numeral (nodes : FloatNodes M.toMinipodTypes) (array : CtrlNodes M.toMinipodTypes) (i : ℕ) :
    List UInt8 :=
  if h : i < M.calibrationPointsMax then fixedText 2 (nodes.value (array ⟨i, h⟩)) else []

/-- The text of an array: its numbers, between brackets. -/
def arrayText (nodes : FloatNodes M.toMinipodTypes) (array : NamedArray M.toMinipodTypes) :
    List UInt8 :=
  ascii "[" ++ (ascii ", ").intercalate
    ((List.range (M.turns array.length)).map (numeral nodes array.nodes)) ++ ascii "]"

/-- The numbers of an array that are used are finite. -/
def FiniteNumbers (nodes : FloatNodes M.toMinipodTypes) (array : NamedArray M.toMinipodTypes) :
    Prop :=
  ∀ i : Fin M.calibrationPointsMax, (i : ℕ) < M.turns array.length →
    (nodes.value (array.nodes i)).number?.isSome = true

/-- An array is shown when it has numbers, and all of them are. -/
structure CompleteArray (nodes : FloatNodes M.toMinipodTypes) (array : NamedArray M.toMinipodTypes)
    (calibration : List (List UInt8 × Value)) : Prop where
  shown : ∀ value, (array.key, value) ∈ calibration ↔
    0 < M.nodesLengthToInt array.length ∧ value = .string (arrayText nodes array)
  finite : 0 < M.nodesLengthToInt array.length → FiniteNumbers nodes array

/-- The temperature was measured. -/
def isMeasured (tempTable : TemperatureTableV1 M.toMinipodTypes)
    (i : Fin M.meanTemperatureArrayMax) : Bool :=
  decide (numbers.meanFineToInt (tempTable.meanFineOverTemperature i) ≠ 0)

/-- A temperature and its mean value, as they are shown. -/
def shownTemperature (tempTable : TemperatureTableV1 M.toMinipodTypes)
    (i : Fin M.meanTemperatureArrayMax) : List UInt8 × Value :=
  (steps.range i,
    .string (meanValue (numbers.meanFineToInt (tempTable.meanFineOverTemperature i))))

/-- Each temperature that was measured is shown once, under its own key. -/
structure CompleteTable (tempTable : TemperatureTableV1 M.toMinipodTypes)
    (table : List (List UInt8 × Value)) : Prop where
  shown : table = ((List.finRange M.meanTemperatureArrayMax).filter
    (isMeasured numbers tempTable)).map (shownTemperature numbers steps tempTable)
  keys : ∀ i j : Fin M.meanTemperatureArrayMax, steps.range i = steps.range j → i = j

/-- **The law of the parameters in JSON.** -/
def ParametersJsonLaw (params : DiscipliningParameters M.toMinipodTypes) : Prop :=
  ∃ calibration table,
    jsonAddDiscipliningDiscipliningParameters numbers steps params
      = some (.object [(ascii "calibration_parameters", .object calibration),
          (ascii "temperature_table", .object table)]) ∧
    (∀ array ∈ namedArrays params.dscConfig, CompleteArray numbers.nodes array calibration) ∧
    CompleteTable numbers steps params.tempTable table

/-- What the law needs of a configuration: both lengths are positive or none is, and the arrays are
finite and have room in their texts. -/
structure ParametersJsonKept (nodes : FloatNodes M.toMinipodTypes)
    (config : DiscipliningConfigV1 M.toMinipodTypes) : Prop where
  guards : 0 < M.nodesLengthToInt config.ctrlNodesLength ↔
    0 < M.nodesLengthToInt config.ctrlNodesLengthFactory
  arrays : 0 < M.nodesLengthToInt config.ctrlNodesLength → ∀ array ∈ namedArrays config,
    JsonRoom nodes array.nodes array.length ∧ FiniteNumbers nodes array

/-! ### The temperatures -/

variable {numbers steps}

theorem setMember_of_notMem {members : List (List UInt8 × Value)} {key : List UInt8}
    (h : ∀ member ∈ members, member.1 ≠ key) (value : Value) :
    setMember members key value = members ++ [(key, value)] := by
  refine if_neg fun hany => ?_
  obtain ⟨member, hmem, hkey⟩ := List.any_eq_true.mp hany
  exact h member hmem (eq_of_beq hkey)

/-- One turn of the loop, over what it has shown so far. -/
theorem temperature_step {step : ℕ} {origin : ℤ}
    (h : HundredthSteps steps M.meanTemperatureArrayMax step origin)
    (tempTable : TemperatureTableV1 M.toMinipodTypes)
    {before : List (Fin M.meanTemperatureArrayMax)} {i : Fin M.meanTemperatureArrayMax}
    (hnew : i ∉ before) :
    (let mean := numbers.meanFineToInt (tempTable.meanFineOverTemperature i)
      let members := (before.filter (isMeasured numbers tempTable)).map
        (shownTemperature numbers steps tempTable)
      if mean = 0 then some members
      else if (steps.range i).length < 64 then
        some (setMember members (steps.range i) (.string (meanValue mean)))
      else none)
      = some (((before ++ [i]).filter (isMeasured numbers tempTable)).map
          (shownTemperature numbers steps tempTable)) := by
  dsimp only
  rw [List.filter_append]
  by_cases hmean : numbers.meanFineToInt (tempTable.meanFineOverTemperature i) = 0
  · rw [if_pos hmean, List.filter_cons_of_neg (by simp [isMeasured, hmean]), List.filter_nil,
      List.append_nil]
  · have hkeys : ∀ member ∈ (before.filter (isMeasured numbers tempTable)).map
        (shownTemperature numbers steps tempTable), member.1 ≠ steps.range i := by
      intro member hmem hkey
      obtain ⟨j, hj, rfl⟩ := List.mem_map.mp hmem
      obtain rfl : j = i := Fin.ext (h.range_injective j.isLt i.isLt hkey)
      exact hnew (List.mem_filter.mp hj).1
    rw [if_neg hmean, if_pos (h.length_range_lt i.isLt), setMember_of_notMem hkeys,
      List.filter_cons_of_pos (by simp [isMeasured, hmean]), List.filter_nil, List.map_append]
    rfl

/-- **The loop over the temperatures** shows those that were measured, in their order. -/
theorem jsonTemperatureTable_eq {step : ℕ} {origin : ℤ}
    (h : HundredthSteps steps M.meanTemperatureArrayMax step origin)
    (tempTable : TemperatureTableV1 M.toMinipodTypes) :
    jsonTemperatureTable numbers steps tempTable
      = some (((List.finRange M.meanTemperatureArrayMax).filter
          (isMeasured numbers tempTable)).map (shownTemperature numbers steps tempTable)) := by
  have hloop : ∀ before after : List (Fin M.meanTemperatureArrayMax),
      (before ++ after).Nodup →
      after.foldlM (fun members i =>
        let mean := numbers.meanFineToInt (tempTable.meanFineOverTemperature i)
        if mean = 0 then some members
        else if (steps.range i).length < 64 then
          some (setMember members (steps.range i) (.string (meanValue mean)))
        else none)
        ((before.filter (isMeasured numbers tempTable)).map
          (shownTemperature numbers steps tempTable))
      = some (((before ++ after).filter (isMeasured numbers tempTable)).map
          (shownTemperature numbers steps tempTable)) := by
    -- on the temperatures that are left
    intro before after
    induction after generalizing before with
    | nil =>
      intro _
      rw [List.append_nil]
      rfl
    | cons i after ih =>
      intro hnodup
      have hnew : i ∉ before := fun hmem =>
        (List.nodup_append.mp hnodup).2.2 i hmem i List.mem_cons_self rfl
      have hrest := ih (before ++ [i]) (by rwa [List.append_assoc, List.singleton_append])
      rw [List.append_assoc, List.singleton_append] at hrest
      rw [List.foldlM_cons, ← hrest]
      exact congrArg (fun members => members >>= _) (temperature_step h tempTable hnew)
  exact hloop [] (List.finRange M.meanTemperatureArrayMax) (List.nodup_finRange _)

/-! ### The arrays -/

/-- What the loop prints of an array. -/
def printedText (nodes : FloatNodes M.toMinipodTypes) (array : NamedArray M.toMinipodTypes) :
    List UInt8 :=
  jsonFloatArray.text (fun i => nodes.value (array.nodes i)) (M.turns array.length)
    (M.turns array.length)

/-- The text of an array that has numbers. -/
theorem printedText_eq (nodes : FloatNodes M.toMinipodTypes)
    {array : NamedArray M.toMinipodTypes} (h : 0 < M.turns array.length) :
    printedText nodes array = arrayText nodes array := by
  obtain ⟨last, hlast⟩ := Nat.exists_eq_succ_of_ne_zero h.ne'
  have hbefore : (List.range last).flatMap
      (jsonFloatArray.piece (fun i => nodes.value (array.nodes i)) (last + 1))
        = ((List.range last).map (numeral nodes array.nodes)).flatMap (· ++ ascii ", ") := by
    rw [List.flatMap_map]
    refine List.flatMap_congr fun i hi => ?_
    have hi' := List.mem_range.mp hi
    rw [ArrayFormat.piece, if_pos (by omega)]
    rfl
  rw [printedText, arrayText, hlast, List.range_succ, List.map_append, List.map_singleton,
    Lists.intercalate_concat, ← hbefore, ArrayFormat.text_succ, ArrayFormat.text, ArrayFormat.piece,
    if_neg (lt_irrefl _)]
  simp only [List.append_assoc]
  rfl

theorem turns_pos_iff {length : M.NodesLength} :
    0 < M.turns length ↔ 0 < M.nodesLengthToInt length := by
  rw [MinipodTypes.turns, Int.lt_toNat, Nat.cast_zero]

/-- The arrays that are shown: all of them when the first length is positive. -/
theorem jsonAddNodes_eq (nodes : FloatNodes M.toMinipodTypes)
    (config : DiscipliningConfigV1 M.toMinipodTypes) :
    jsonAddNodes nodes config =
      if 0 < M.nodesLengthToInt config.ctrlNodesLength then
        (namedArrays config).mapM fun array =>
          (printNodes nodes jsonFloatArray array.nodes array.length).map (array.key, ·)
      else some [] := by
  rw [jsonAddNodes]
  split_ifs
  · simp only [namedArrays, List.mapM_cons, List.mapM_nil, Option.bind_eq_bind, Option.pure_def,
      Option.bind_map, Function.comp_def, Option.bind_assoc, Option.bind_some]
  · rfl

/-- The arrays are printed when they have room. -/
theorem jsonAddNodes_of_room (nodes : FloatNodes M.toMinipodTypes)
    {config : DiscipliningConfigV1 M.toMinipodTypes}
    (hpos : 0 < M.nodesLengthToInt config.ctrlNodesLength)
    (hslots : ∀ array ∈ namedArrays config, M.turns array.length ≤ M.calibrationPointsMax)
    (hroom : ∀ array ∈ namedArrays config, JsonRoom nodes array.nodes array.length) :
    jsonAddNodes nodes config
      = some ((namedArrays config).map fun array => (array.key, printedText nodes array)) := by
  rw [jsonAddNodes_eq, if_pos hpos]
  refine Lists.mapM_eq_some_map fun array hmem => ?_
  have hfits := (fits_jsonFloatArray_iff nodes (hslots array hmem)).mpr (hroom array hmem)
  have hprint : printNodes nodes jsonFloatArray array.nodes array.length
      = some (printedText nodes array) :=
    ArrayFormat.print_eq_some_iff.mpr ⟨rfl, hfits.slots, hfits.items, hfits.size⟩
  rw [hprint]
  rfl

/-- Arrays that are printed have room. -/
theorem room_of_jsonAddNodes (nodes : FloatNodes M.toMinipodTypes)
    {config : DiscipliningConfigV1 M.toMinipodTypes} {arrays : List (List UInt8 × List UInt8)}
    (hpos : 0 < M.nodesLengthToInt config.ctrlNodesLength)
    (hslots : ∀ array ∈ namedArrays config, M.turns array.length ≤ M.calibrationPointsMax)
    (h : jsonAddNodes nodes config = some arrays) :
    ∀ array ∈ namedArrays config, JsonRoom nodes array.nodes array.length := by
  rw [jsonAddNodes_eq, if_pos hpos] at h
  have hsome := Lists.isSome_mapM_iff.mp (Option.isSome_of_eq_some h)
  intro array hmem
  have hprinted := hsome array hmem
  rw [Option.isSome_map] at hprinted
  exact (isSome_printNodes_json_iff nodes (hslots array hmem)).mp hprinted

/-! ### The members -/

/-- The members of `calibration_parameters`. -/
def calibrationMembers (numbers : FieldNumbers M.toMinipodTypes)
    (dscConfig : DiscipliningConfigV1 M.toMinipodTypes)
    (arrays : List (List UInt8 × List UInt8)) : List (List UInt8 × Value) :=
  [(ascii "ctrl_nodes_length", jsonObjectNewInt (M.nodesLengthToInt dscConfig.ctrlNodesLength))]
    ++ jsonArrays (arrays.take 2) ++
  [(ascii "coarse_equilibrium", .int (numbers.equilibriumToInt dscConfig.coarseEquilibrium)),
    (ascii "calibration_date", .int (numbers.dateToInt dscConfig.calibrationDate)),
    (ascii "calibration_valid", .string
      (if numbers.validToBool dscConfig.calibrationValid then ascii "True" else ascii "False")),
    (ascii "ctrl_nodes_length_factory",
      jsonObjectNewInt (M.nodesLengthToInt dscConfig.ctrlNodesLengthFactory))]
    ++ jsonArrays (arrays.drop 2) ++
  [(ascii "coarse_equilibrium_factory",
      .int (numbers.equilibriumToInt dscConfig.coarseEquilibriumFactory)),
    (ascii "estimated_equilibrium_ES",
      .int (numbers.equilibriumESToInt dscConfig.estimatedEquilibriumES))]

theorem jsonAddDiscipliningDiscipliningParameters_eq {step : ℕ} {origin : ℤ}
    (h : HundredthSteps steps M.meanTemperatureArrayMax step origin)
    (params : DiscipliningParameters M.toMinipodTypes) :
    jsonAddDiscipliningDiscipliningParameters numbers steps params
      = (jsonAddNodes numbers.nodes params.dscConfig).map fun arrays =>
        .object [(ascii "calibration_parameters",
            .object (calibrationMembers numbers params.dscConfig arrays)),
          (ascii "temperature_table",
            .object (((List.finRange M.meanTemperatureArrayMax).filter
              (isMeasured numbers params.tempTable)).map
                (shownTemperature numbers steps params.tempTable)))] := by
  rw [jsonAddDiscipliningDiscipliningParameters, jsonTemperatureTable_eq h]
  cases jsonAddNodes numbers.nodes params.dscConfig with
  | none => rfl
  | some arrays => rfl

/-- The keys that are no arrays. -/
def otherKeys : List (List UInt8) :=
  [ascii "ctrl_nodes_length", ascii "coarse_equilibrium", ascii "calibration_date",
    ascii "calibration_valid", ascii "ctrl_nodes_length_factory",
    ascii "coarse_equilibrium_factory", ascii "estimated_equilibrium_ES"]

/-- The keys of the arrays. -/
def arrayKeys : List (List UInt8) :=
  [ascii "ctrl_load_nodes", ascii "ctrl_drift_coeffs", ascii "ctrl_load_nodes_factory",
    ascii "ctrl_drift_coeffs_factory"]

theorem map_key_namedArrays (config : DiscipliningConfigV1 M.toMinipodTypes) :
    (namedArrays config).map NamedArray.key = arrayKeys := rfl

theorem key_notMem_otherKeys {config : DiscipliningConfigV1 M.toMinipodTypes}
    {array : NamedArray M.toMinipodTypes} (h : array ∈ namedArrays config) :
    array.key ∉ otherKeys := by
  have hall : ∀ key ∈ arrayKeys, key ∉ otherKeys := by decide
  exact hall array.key (map_key_namedArrays config ▸ List.mem_map_of_mem h)

/-- The text that is shown for an array. -/
theorem mem_jsonArrays_iff {config : DiscipliningConfigV1 M.toMinipodTypes}
    {array : NamedArray M.toMinipodTypes} (h : array ∈ namedArrays config)
    (text : NamedArray M.toMinipodTypes → List UInt8) (value : Value) :
    (array.key, value) ∈ jsonArrays ((namedArrays config).map fun a => (a.key, text a)) ↔
      value = .string (text array) := by
  have hnodup : ((namedArrays config).map NamedArray.key).Nodup := by
    rw [map_key_namedArrays]
    decide
  rw [jsonArrays, List.map_map, List.mem_map]
  constructor
  · rintro ⟨other, hother, heq⟩
    obtain ⟨hkey, rfl⟩ := Prod.mk.inj heq
    rw [List.inj_on_of_nodup_map hnodup hother h hkey]
  · rintro rfl
    exact ⟨array, h, rfl⟩

/-- The members with the key of an array are the arrays that are shown. -/
theorem mem_calibrationMembers_iff {config : DiscipliningConfigV1 M.toMinipodTypes}
    {arrays : List (List UInt8 × List UInt8)} {key : List UInt8} (hkey : key ∉ otherKeys)
    (value : Value) :
    (key, value) ∈ calibrationMembers numbers config arrays ↔
      (key, value) ∈ jsonArrays arrays := by
  have hother : ∀ {k : List UInt8}, k ∈ otherKeys → ∀ v : Value, (key, value) ≠ (k, v) := by
    intro k hk v heq
    exact hkey ((Prod.mk.inj heq).1 ▸ hk)
  have hsplit : jsonArrays arrays = jsonArrays (arrays.take 2) ++ jsonArrays (arrays.drop 2) := by
    rw [jsonArrays, jsonArrays, jsonArrays, ← List.map_append, List.take_append_drop]
  rw [hsplit, calibrationMembers]
  simp only [List.mem_append, List.mem_cons, List.not_mem_nil, or_false]
  simp only [hother (by decide : ascii "ctrl_nodes_length" ∈ otherKeys),
    hother (by decide : ascii "coarse_equilibrium" ∈ otherKeys),
    hother (by decide : ascii "calibration_date" ∈ otherKeys),
    hother (by decide : ascii "calibration_valid" ∈ otherKeys),
    hother (by decide : ascii "ctrl_nodes_length_factory" ∈ otherKeys),
    hother (by decide : ascii "coarse_equilibrium_factory" ∈ otherKeys),
    hother (by decide : ascii "estimated_equilibrium_ES" ∈ otherKeys), false_or, or_false]

/-! ### When the law holds -/

/-- An array is shown with its text exactly when it has numbers. -/
theorem completeArray_iff_of_shown {config : DiscipliningConfigV1 M.toMinipodTypes}
    {array : NamedArray M.toMinipodTypes} (h : array ∈ namedArrays config) :
    CompleteArray numbers.nodes array (calibrationMembers numbers config
        ((namedArrays config).map fun a => (a.key, printedText numbers.nodes a))) ↔
      0 < M.nodesLengthToInt array.length ∧ FiniteNumbers numbers.nodes array := by
  constructor
  · rintro ⟨hshown, hfinite⟩
    have hpos := ((hshown _).mp ((mem_calibrationMembers_iff (key_notMem_otherKeys h) _).mpr
      ((mem_jsonArrays_iff h (printedText numbers.nodes) _).mpr rfl))).1
    exact ⟨hpos, hfinite hpos⟩
  · rintro ⟨hpos, hfinite⟩
    refine ⟨fun value => ?_, fun _ => hfinite⟩
    rw [mem_calibrationMembers_iff (key_notMem_otherKeys h), mem_jsonArrays_iff h,
      printedText_eq numbers.nodes (turns_pos_iff.mpr hpos), and_iff_right hpos]

theorem completeArray_iff_of_nil {config : DiscipliningConfigV1 M.toMinipodTypes}
    {array : NamedArray M.toMinipodTypes} (h : array ∈ namedArrays config) :
    CompleteArray numbers.nodes array (calibrationMembers numbers config []) ↔
      ¬ 0 < M.nodesLengthToInt array.length := by
  have hnone : ∀ value, (array.key, value) ∉ calibrationMembers numbers config [] := by
    intro value hmem
    exact List.not_mem_nil ((mem_calibrationMembers_iff (key_notMem_otherKeys h) value).mp hmem)
  constructor
  · rintro ⟨hshown, -⟩ hpos
    exact hnone _ ((hshown _).mpr ⟨hpos, rfl⟩)
  · intro hpos
    exact ⟨fun value => iff_of_false (hnone value) fun h => hpos h.1, fun h => absurd h hpos⟩

/-- The law is about the arrays that are shown. -/
theorem parametersJsonLaw_iff_shown {step : ℕ} {origin : ℤ}
    (h : HundredthSteps steps M.meanTemperatureArrayMax step origin)
    (params : DiscipliningParameters M.toMinipodTypes) :
    ParametersJsonLaw numbers steps params ↔ ∃ arrays,
      jsonAddNodes numbers.nodes params.dscConfig = some arrays ∧
        ∀ array ∈ namedArrays params.dscConfig, CompleteArray numbers.nodes array
          (calibrationMembers numbers params.dscConfig arrays) := by
  rw [ParametersJsonLaw, jsonAddDiscipliningDiscipliningParameters_eq h]
  constructor
  · rintro ⟨calibration, table, hsome, harrays, -⟩
    obtain ⟨arrays, hnodes, heq⟩ := Option.map_eq_some_iff.mp hsome
    rw [JsonObject.Value.object.injEq, List.cons.injEq, Prod.mk.injEq,
      JsonObject.Value.object.injEq] at heq
    obtain ⟨⟨-, rfl⟩, -⟩ := heq
    exact ⟨arrays, hnodes, harrays⟩
  · rintro ⟨arrays, hnodes, harrays⟩
    refine ⟨_, _, by rw [hnodes]; rfl, harrays, rfl, fun i j heq => ?_⟩
    exact Fin.ext (h.range_injective i.isLt j.isLt heq)

/-- The lengths of the arrays are the two of the configuration. -/
theorem forall_namedArrays_length_iff {config : DiscipliningConfigV1 M.toMinipodTypes}
    (p : M.NodesLength → Prop) :
    (∀ array ∈ namedArrays config, p array.length) ↔
      p config.ctrlNodesLength ∧ p config.ctrlNodesLengthFactory := by
  simp only [namedArrays, List.forall_mem_cons, List.not_mem_nil]
  tauto

/-- With nodes, the law is that all arrays have some, finite ones with room. -/
theorem parametersJsonLaw_iff_of_pos {step : ℕ} {origin : ℤ}
    (h : HundredthSteps steps M.meanTemperatureArrayMax step origin)
    {params : DiscipliningParameters M.toMinipodTypes}
    (hslots : ∀ array ∈ namedArrays params.dscConfig,
      M.turns array.length ≤ M.calibrationPointsMax)
    (hpos : 0 < M.nodesLengthToInt params.dscConfig.ctrlNodesLength) :
    ParametersJsonLaw numbers steps params ↔ ∀ array ∈ namedArrays params.dscConfig,
      JsonRoom numbers.nodes array.nodes array.length ∧
        0 < M.nodesLengthToInt array.length ∧ FiniteNumbers numbers.nodes array := by
  rw [parametersJsonLaw_iff_shown h]
  constructor
  · rintro ⟨arrays, hnodes, harrays⟩ array hmem
    have hroom := room_of_jsonAddNodes numbers.nodes hpos hslots hnodes
    obtain rfl := Option.some.inj
      (hnodes.symm.trans (jsonAddNodes_of_room numbers.nodes hpos hslots hroom))
    exact ⟨hroom array hmem, (completeArray_iff_of_shown hmem).mp (harrays array hmem)⟩
  · intro hkept
    exact ⟨_, jsonAddNodes_of_room numbers.nodes hpos hslots fun array hmem => (hkept array hmem).1,
      fun array hmem => (completeArray_iff_of_shown hmem).mpr (hkept array hmem).2⟩

/-- Without nodes, it is that no array has any. -/
theorem parametersJsonLaw_iff_of_not_pos {step : ℕ} {origin : ℤ}
    (h : HundredthSteps steps M.meanTemperatureArrayMax step origin)
    {params : DiscipliningParameters M.toMinipodTypes}
    (hpos : ¬ 0 < M.nodesLengthToInt params.dscConfig.ctrlNodesLength) :
    ParametersJsonLaw numbers steps params ↔
      ∀ array ∈ namedArrays params.dscConfig, ¬ 0 < M.nodesLengthToInt array.length := by
  have hnodes : jsonAddNodes numbers.nodes params.dscConfig = some [] := by
    rw [jsonAddNodes_eq, if_neg hpos]
  rw [parametersJsonLaw_iff_shown h]
  constructor
  · rintro ⟨arrays, hsome, harrays⟩ array hmem
    obtain rfl := Option.some.inj (hnodes.symm.trans hsome)
    exact (completeArray_iff_of_nil hmem).mp (harrays array hmem)
  · intro hnone
    exact ⟨_, hnodes, fun array hmem => (completeArray_iff_of_nil hmem).mpr (hnone array hmem)⟩

/-- **The parameters are shown completely** exactly when both lengths are positive or none is, and
the arrays are finite and have room. -/
theorem parametersJsonLaw_iff {step : ℕ} {origin : ℤ}
    (hsteps : HundredthSteps steps M.meanTemperatureArrayMax step origin)
    (params : DiscipliningParameters M.toMinipodTypes)
    (hlength : M.nodesLengthToInt params.dscConfig.ctrlNodesLength ≤ M.calibrationPointsMax)
    (hlengthFactory :
      M.nodesLengthToInt params.dscConfig.ctrlNodesLengthFactory ≤ M.calibrationPointsMax) :
    ParametersJsonLaw numbers steps params ↔
      ParametersJsonKept numbers.nodes params.dscConfig := by
  have hslots := (forall_namedArrays_length_iff fun length =>
    M.turns length ≤ M.calibrationPointsMax).mpr
      ⟨turns_le_iff.mpr hlength, turns_le_iff.mpr hlengthFactory⟩
  by_cases hpos : 0 < M.nodesLengthToInt params.dscConfig.ctrlNodesLength
  · rw [parametersJsonLaw_iff_of_pos hsteps hslots hpos]
    constructor
    · intro hkept
      have hlengths := (forall_namedArrays_length_iff fun length =>
        0 < M.nodesLengthToInt length).mp fun array hmem => (hkept array hmem).2.1
      exact ⟨iff_of_true hpos hlengths.2,
        fun _ array hmem => ⟨(hkept array hmem).1, (hkept array hmem).2.2⟩⟩
    · rintro ⟨hguards, harrays⟩ array hmem
      have hlengths := (forall_namedArrays_length_iff fun length =>
        0 < M.nodesLengthToInt length).mpr ⟨hpos, hguards.mp hpos⟩
      exact ⟨(harrays hpos array hmem).1, hlengths array hmem, (harrays hpos array hmem).2⟩
  · rw [parametersJsonLaw_iff_of_not_pos hsteps hpos,
      forall_namedArrays_length_iff fun length => ¬ 0 < M.nodesLengthToInt length]
    exact ⟨fun hnone => ⟨iff_of_false hpos hnone.2, fun h => absurd h hpos⟩,
      fun hkept => ⟨hpos, fun h => hpos (hkept.guards.mpr h)⟩⟩

theorem hundredthSteps_tenths :
    HundredthSteps tenths packed.meanTemperatureArrayMax 10 2000 where
  step_pos := by decide
  step_eq := by norm_num [tenths]
  origin_eq := by norm_num [tenths]
  bounded := by decide

/-- Parameters with two nodes, and as many of the factory. -/
def bothNodes : DiscipliningParameters packed.toMinipodTypes :=
  { fullParameters with
    dscConfig := { twoNodes ![100, 0, 0, 0] with
      ctrlNodesLengthFactory := (![2, 0, 0, 0] : Bytes 4) } }

/-- They are shown completely. -/
theorem parametersJsonLaw_bothNodes : ParametersJsonLaw packedNumbers tenths bothNodes := by
  refine (parametersJsonLaw_iff hundredthSteps_tenths bothNodes (by decide +kernel)
    (by decide +kernel)).mpr ⟨by decide +kernel, fun _ array hmem => ?_⟩
  simp only [namedArrays, List.mem_cons, List.not_mem_nil, or_false] at hmem
  rcases hmem with rfl | rfl | rfl | rfl <;>
    exact ⟨⟨by decide +kernel, by decide +kernel⟩, by unfold FiniteNumbers; decide +kernel⟩

/-- Two nodes, and none of the factory: the texts of its arrays are not closed. -/
theorem parametersJsonLaw_fails_no_factory_nodes :
    ¬ ParametersJsonLaw packedNumbers tenths
      { fullParameters with dscConfig := twoNodes ![100, 0, 0, 0] } := by
  intro hlaw
  have hkept := (parametersJsonLaw_iff_of_pos hundredthSteps_tenths (by decide +kernel)
    (by decide +kernel)).mp hlaw
  have hfactory := (forall_namedArrays_length_iff fun length =>
    0 < packed.nodesLengthToInt length).mp fun array hmem => (hkept array hmem).2.1
  exact absurd hfactory.2 (by decide +kernel)

end Oscillatord
