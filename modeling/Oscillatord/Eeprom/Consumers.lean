import Mathlib.Data.FinEnum
import Oscillatord.Config.ConfigFile
import Oscillatord.Eeprom.Determined
import Oscillatord.Library.FloatText

/-!
# The lengths that are read, and the arrays they bound

No reader of the EEPROM files compares a length with the capacity of the arrays; the conversion of
the older structure, the JSON of the monitoring and the text of `art_disciplining_manager` run
their loops up to it. Writing into a text that has no room left is as undefined as leaving an
array: a consumer has no result then.

`AcceptedLaw` is that whatever a reader accepts has both lengths within the arrays, and that every
consumer has a result. It holds exactly when the lengths in the accepted bytes are within the arrays
and the texts of the nodes are narrow enough for the JSON (`acceptedLaw_iff`); the text of
`art_disciplining_manager` always has room then.
-/

namespace Oscillatord

open ObjectRep CText

/-! ### Texts of arrays -/

/-- How a function prints an array: the places of each number, the room for one number and for the
whole, and what stands around the numbers. -/
structure ArrayFormat where
  places : ℕ
  itemSize : ℕ
  size : ℕ
  opening : List UInt8
  separator : List UInt8
  closing : List UInt8

namespace ArrayFormat

variable (f : ArrayFormat) {n : ℕ} (array : Fin n → FloatValue) (length : ℕ)

/-- A number of the array, as it is printed. -/
def item (i : ℕ) : List UInt8 := if h : i < n then fixedText f.places (array ⟨i, h⟩) else []

/-- A number, and what follows it. -/
def piece (i : ℕ) : List UInt8 :=
  item f array i ++ if i + 1 < length then f.separator else f.closing

/-- The text after the first numbers. -/
def text (turns : ℕ) : List UInt8 := f.opening ++ (List.range turns).flatMap (f.piece array length)

/-- The loop that prints the array, undefined when it leaves the array or a text has no room. -/
def print : ℕ → Option (List UInt8)
  | 0 => if f.opening.length < f.size then some f.opening else none
  | i + 1 =>
    (print i).bind fun text =>
      -- the slot, the text of the number, and the text of the array
      if i < n ∧ (item f array i).length < f.itemSize ∧
          (text ++ f.piece array length i).length < f.size then
        some (text ++ f.piece array length i)
      else none

/-- The array and both texts have room. -/
structure Fits : Prop where
  slots : length ≤ n
  items : ∀ i < length, (item f array i).length < f.itemSize
  size : (f.text array length length).length < f.size

variable {f array length}

theorem text_succ (turns : ℕ) :
    f.text array length (turns + 1) = f.text array length turns ++ f.piece array length turns := by
  rw [text, text, List.range_succ, List.flatMap_append, List.append_assoc, List.flatMap_singleton]

/-- The loop has printed the text so far exactly when everything had room. -/
theorem print_eq_some_iff {turns : ℕ} {printed : List UInt8} :
    f.print array length turns = some printed ↔
      printed = f.text array length turns ∧ turns ≤ n ∧
        (∀ i < turns, (item f array i).length < f.itemSize) ∧
        (f.text array length turns).length < f.size := by
  induction turns generalizing printed with
  | zero => simp [print, text, eq_comm, and_comm]
  | succ turns ih =>
    rw [print, Option.bind_eq_some_iff]
    constructor
    · rintro ⟨before, hbefore, hstep⟩
      obtain ⟨rfl, -, hitems, -⟩ := ih.mp hbefore
      rw [← text_succ] at hstep
      split_ifs at hstep with hroom
      obtain rfl := Option.some.inj hstep
      refine ⟨rfl, hroom.1, fun i hi => ?_, hroom.2.2⟩
      rcases Nat.lt_succ_iff_lt_or_eq.mp hi with hlt | rfl
      · exact hitems i hlt
      · exact hroom.2.1
    · rintro ⟨rfl, hslots, hitems, hsize⟩
      have hshorter : (f.text array length turns).length < f.size := by
        rw [text_succ, List.length_append] at hsize
        omega
      refine ⟨_, ih.mpr ⟨rfl, by omega, fun i hi => hitems i (by omega), hshorter⟩, ?_⟩
      rw [← text_succ]
      exact if_pos ⟨hslots, hitems turns (by omega), hsize⟩

theorem isSome_print_iff : (f.print array length length).isSome = true ↔ f.Fits array length := by
  rw [Option.isSome_iff_exists]
  constructor
  · rintro ⟨printed, hprinted⟩
    obtain ⟨-, hslots, hitems, hsize⟩ := print_eq_some_iff.mp hprinted
    exact ⟨hslots, hitems, hsize⟩
  · rintro ⟨hslots, hitems, hsize⟩
    exact ⟨_, print_eq_some_iff.mpr ⟨rfl, hslots, hitems, hsize⟩⟩

/-- Only the slots below the length are printed. -/
theorem fits_congr {array' : Fin n → FloatValue}
    (h : ∀ i : Fin n, (i : ℕ) < length → array i = array' i) :
    f.Fits array length ↔ f.Fits array' length := by
  have hitem : ∀ i < length, item f array i = item f array' i := by
    intro i hi
    rw [item, item]
    split_ifs with hin
    · rw [h ⟨i, hin⟩ hi]
    · rfl
  have htext : f.text array length length = f.text array' length length := by
    rw [text, text]
    congr 1
    refine List.flatMap_congr fun i hi => ?_
    rw [piece, piece, hitem i (List.mem_range.mp hi)]
  constructor
  · rintro ⟨hslots, hitems, hsize⟩
    exact ⟨hslots, fun i hi => hitem i hi ▸ hitems i hi, htext ▸ hsize⟩
  · rintro ⟨hslots, hitems, hsize⟩
    exact ⟨hslots, fun i hi => hitem i hi ▸ hitems i hi, htext ▸ hsize⟩

end ArrayFormat

/-! ### The consumers -/

/-- The nodes are of type `float`: four bytes, in single precision. -/
structure FloatNodes (T : MinipodTypes) where
  rep : ObjectRep T.Node 4

variable {M : Minipod} (nodes : FloatNodes M.toMinipodTypes)

/-- The number a node holds. -/
def FloatNodes.value {T : MinipodTypes} (nodes : FloatNodes T) (node : T.Node) : FloatValue :=
  ofBinary32 (CNumber.leNat (List.ofFn (nodes.rep node)))

/-- The numbers in the fields, whose types are not in the repository. -/
structure FieldNumbers (T : MinipodTypes) where
  nodes : FloatNodes T
  equilibriumToInt : T.Equilibrium → ℤ
  dateToInt : T.Date → ℤ
  validToBool : T.Valid → Bool
  equilibriumESToInt : T.EquilibriumES → ℤ
  meanFineToInt : T.MeanFine → ℤ

/-- `json_add_float_array`. -/
def jsonFloatArray : ArrayFormat where
  places := 2
  itemSize := 32
  size := 256
  opening := ascii "["
  separator := ascii ", "
  closing := ascii "]"

/-- The loops of `write_disciplining_parameters_to_file`. -/
def fileFloatArray : ArrayFormat where
  places := 6
  itemSize := 256
  size := 2048
  opening := []
  separator := ascii ","
  closing := []

/-- A loop of a consumer over an array of nodes. -/
def printNodes (f : ArrayFormat) (array : CtrlNodes M.toMinipodTypes)
    (length : M.NodesLength) : Option (List UInt8) :=
  f.print (fun i => nodes.value (array i)) (M.turns length) (M.turns length)

/-- The arrays of `json_add_disciplining_disciplining_parameters`. The arrays of the factory are
printed when the other length is positive. -/
def jsonAddNodes (config : DiscipliningConfigV1 M.toMinipodTypes) :
    Option (List (List UInt8 × List UInt8)) :=
  -- one length guards the loops over both
  if 0 < M.nodesLengthToInt config.ctrlNodesLength then do
    let load ← printNodes nodes jsonFloatArray config.ctrlLoadNodes config.ctrlNodesLength
    let drift ← printNodes nodes jsonFloatArray config.ctrlDriftCoeffs config.ctrlNodesLength
    let loadFactory ←
      printNodes nodes jsonFloatArray config.ctrlLoadNodesFactory config.ctrlNodesLengthFactory
    let driftFactory ←
      printNodes nodes jsonFloatArray config.ctrlDriftCoeffsFactory config.ctrlNodesLengthFactory
    return [(ascii "ctrl_load_nodes", load), (ascii "ctrl_drift_coeffs", drift),
      (ascii "ctrl_load_nodes_factory", loadFactory),
      (ascii "ctrl_drift_coeffs_factory", driftFactory)]
  else some []

/-- The arrays of `write_disciplining_parameters_to_file`. -/
def fileNodes (config : DiscipliningConfigV1 M.toMinipodTypes) :
    Option (List UInt8 × List UInt8) := do
  let load ← printNodes nodes fileFloatArray config.ctrlLoadNodes config.ctrlNodesLength
  let drift ← printNodes nodes fileFloatArray config.ctrlDriftCoeffs config.ctrlNodesLength
  return (load, drift)

/-! ### The law -/

/-- Both lengths are within the arrays, and every consumer has a result. -/
structure ConsumersDefined (config : DiscipliningConfigV1 M.toMinipodTypes) : Prop where
  length : M.nodesLengthToInt config.ctrlNodesLength ≤ M.calibrationPointsMax
  lengthFactory : M.nodesLengthToInt config.ctrlNodesLengthFactory ≤ M.calibrationPointsMax
  json : (jsonAddNodes nodes config).isSome = true
  file : (fileNodes nodes config).isSome = true

/-- **The law** of the two readers, from some memory: the conversion they use is defined, and what
they accept has its lengths within the arrays of every consumer. -/
structure AcceptedLaw (configFile tableFile : EepromFile) (memory : EepromMemory M)
    (buffer : Bytes discipliningConfigFileSize) (config : DiscipliningConfigV1 M.toMinipodTypes) :
    Prop where
  conversion : (memory.read configFile tableFile).isSome = true
  eeprom : ∀ p, memory.read configFile tableFile = some (0, some p) →
    ConsumersDefined nodes p.dscConfig
  configFile : ∀ config',
    readDiscipliningParametersFromDiscipliningConfigFile M configFile buffer config = (0, config') →
      ConsumersDefined nodes config'

/-- The lengths and the nodes of a calibration. -/
structure CalibrationArrays (T : MinipodTypes) where
  length : T.NodesLength
  loadNodes : CtrlNodes T
  driftCoeffs : CtrlNodes T
  lengthFactory : T.NodesLength
  loadNodesFactory : CtrlNodes T
  driftCoeffsFactory : CtrlNodes T

def DiscipliningConfigV1.arrays {T : MinipodTypes} (config : DiscipliningConfigV1 T) :
    CalibrationArrays T :=
  ⟨config.ctrlNodesLength, config.ctrlLoadNodes, config.ctrlDriftCoeffs,
    config.ctrlNodesLengthFactory, config.ctrlLoadNodesFactory, config.ctrlDriftCoeffsFactory⟩

def DiscipliningParametersV0.arrays {T : MinipodTypes} (v0 : DiscipliningParametersV0 T) :
    CalibrationArrays T :=
  ⟨v0.ctrlNodesLength, v0.ctrlLoadNodes, v0.ctrlDriftCoeffs, v0.ctrlNodesLengthFactory,
    v0.ctrlLoadNodesFactory, v0.ctrlDriftCoeffsFactory⟩

/-- The width of a node of an array with two places. -/
def nodeWidth (array : CtrlNodes M.toMinipodTypes) (i : ℕ) : ℕ :=
  if h : i < M.calibrationPointsMax then (fixedText 2 (nodes.value (array ⟨i, h⟩))).length else 0

/-- An array has room in the JSON: 31 bytes for each number, and with two more for each of them 255
for all. -/
def JsonRoom (array : CtrlNodes M.toMinipodTypes) (length : M.NodesLength) : Prop :=
  (∀ i < M.turns length, nodeWidth nodes array i ≤ 31) ∧
    ∑ i ∈ Finset.range (M.turns length), nodeWidth nodes array i + 2 * M.turns length ≤ 255

/-- The lengths are within the arrays, and the texts of the arrays have room in the JSON. -/
structure CalibrationArrays.Fit (arrays : CalibrationArrays M.toMinipodTypes) : Prop where
  length : M.turns arrays.length ≤ M.calibrationPointsMax
  lengthFactory : M.turns arrays.lengthFactory ≤ M.calibrationPointsMax
  room : 0 < M.nodesLengthToInt arrays.length →
    JsonRoom nodes arrays.loadNodes arrays.length ∧
      JsonRoom nodes arrays.driftCoeffs arrays.length ∧
      JsonRoom nodes arrays.loadNodesFactory arrays.lengthFactory ∧
      JsonRoom nodes arrays.driftCoeffsFactory arrays.lengthFactory

/-- The bytes that a reader accepts hold lengths and nodes that fit. -/
structure AcceptedKept (configFile tableFile : EepromFile) (memory : EepromMemory M)
    (buffer : Bytes discipliningConfigFileSize) : Prop where
  version1 : memory.FindsV1 configFile tableFile →
    (M.config.symm (prefixOf M.configSize_le
      (readFile configFile memory.dscConfigData).2)).arrays.Fit nodes
  version0 : memory.FindsV0 configFile tableFile →
    (memory.structureV0 configFile tableFile).arrays.Fit nodes
  configFile : ReadableInFull discipliningConfigFileSize configFile →
    HasHeader M configFile → byteAt configFile 1 = some 1 →
      (M.config.symm (prefixOf M.configSize_le (readFile configFile buffer).2)).arrays.Fit nodes

/-! ### The text of the tool has room -/

/-- Four arrays of floats fit in the file of the configuration: there are nine slots at most. -/
theorem calibrationPointsMax_le (nodes : FloatNodes M.toMinipodTypes) :
    M.calibrationPointsMax ≤ 9 := by
  let config : (Fin 4 → Fin M.calibrationPointsMax → Bytes 4) →
      DiscipliningConfigV1 M.toMinipodTypes := fun arrays =>
    { M.config.symm (zeros _) with
      ctrlLoadNodes := fun i => nodes.rep.symm (arrays 0 i)
      ctrlDriftCoeffs := fun i => nodes.rep.symm (arrays 1 i)
      ctrlLoadNodesFactory := fun i => nodes.rep.symm (arrays 2 i)
      ctrlDriftCoeffsFactory := fun i => nodes.rep.symm (arrays 3 i) }
  -- different arrays are different bytes, so that there are no more of them than of files
  have hinjective : Function.Injective fun arrays => M.config (config arrays) := by
    intro arrays arrays' heq
    have hconfig := M.config.injective heq
    have hnode : ∀ {array array' : Fin M.calibrationPointsMax → Bytes 4},
        (fun i => nodes.rep.symm (array i)) = (fun i => nodes.rep.symm (array' i)) →
          array = array' := by
      intro array array' h
      funext i
      exact nodes.rep.symm.injective (congrFun h i)
    funext k
    match k with
    | 0 => exact hnode (congrArg DiscipliningConfigV1.ctrlLoadNodes hconfig)
    | 1 => exact hnode (congrArg DiscipliningConfigV1.ctrlDriftCoeffs hconfig)
    | 2 => exact hnode (congrArg DiscipliningConfigV1.ctrlLoadNodesFactory hconfig)
    | 3 => exact hnode (congrArg DiscipliningConfigV1.ctrlDriftCoeffsFactory hconfig)
  have hbyte : Fintype.card UInt8 = 2 ^ 8 := by
    rw [← FinEnum.card_eq_fintypeCard]
    rfl
  have hcard := Fintype.card_le_of_injective _ hinjective
  simp only [Fintype.card_fun, Fintype.card_fin, hbyte, ← pow_mul] at hcard
  have hexponent := (Nat.pow_le_pow_iff_right (by decide)).mp hcard
  have hsize : M.configSize ≤ 144 := M.configSize_le
  omega

theorem length_item_fileFloatArray_le (array : CtrlNodes M.toMinipodTypes) (i : ℕ) :
    (fileFloatArray.item (fun i => nodes.value (array i)) i).length ≤ 47 := by
  rw [ArrayFormat.item]
  split_ifs
  · exact length_fixedText_le
  · exact Nat.zero_le _

/-- The text of the tool takes so many bytes at most. -/
theorem length_text_fileFloatArray_le (array : CtrlNodes M.toMinipodTypes) (length turns : ℕ) :
    (fileFloatArray.text (fun i => nodes.value (array i)) length turns).length ≤ 48 * turns := by
  induction turns with
  | zero => exact Nat.le_refl 0
  | succ turns ih =>
    have hpiece : (fileFloatArray.piece (fun i => nodes.value (array i)) length turns).length
        ≤ 48 := by
      rw [ArrayFormat.piece, List.length_append]
      have hafter : (if turns + 1 < length then fileFloatArray.separator
          else fileFloatArray.closing).length ≤ 1 := by
        split_ifs <;> decide
      have hwidth := length_item_fileFloatArray_le nodes array turns
      omega
    rw [ArrayFormat.text_succ, List.length_append]
    omega

/-- The text of the tool has room for any nodes within the arrays. -/
theorem fits_fileFloatArray (array : CtrlNodes M.toMinipodTypes) {length : M.NodesLength}
    (h : M.turns length ≤ M.calibrationPointsMax) :
    fileFloatArray.Fits (fun i => nodes.value (array i)) (M.turns length) := by
  refine ⟨h, fun i _ => (length_item_fileFloatArray_le nodes array i).trans_lt (by decide), ?_⟩
  have hnine := calibrationPointsMax_le nodes
  have htext := length_text_fileFloatArray_le nodes array (M.turns length) (M.turns length)
  exact lt_of_le_of_lt htext (by simp only [fileFloatArray]; omega)

/-! ### When the law holds -/

theorem isSome_printNodes_iff {f : ArrayFormat} {array : CtrlNodes M.toMinipodTypes}
    {length : M.NodesLength} :
    (printNodes nodes f array length).isSome = true ↔
      f.Fits (fun i => nodes.value (array i)) (M.turns length) :=
  ArrayFormat.isSome_print_iff

theorem length_item_jsonFloatArray (array : CtrlNodes M.toMinipodTypes) (i : ℕ) :
    (jsonFloatArray.item (fun i => nodes.value (array i)) i).length = nodeWidth nodes array i := by
  rw [ArrayFormat.item, nodeWidth]
  split_ifs <;> rfl

/-- As long as the last number is not printed, a separator follows each. -/
theorem length_text_jsonFloatArray (array : CtrlNodes M.toMinipodTypes) {length turns : ℕ}
    (h : turns < length) :
    (jsonFloatArray.text (fun i => nodes.value (array i)) length turns).length
      = 1 + ∑ i ∈ Finset.range turns, nodeWidth nodes array i + 2 * turns := by
  induction turns with
  | zero => rfl
  | succ turns ih =>
    have hpiece : (jsonFloatArray.piece (fun i => nodes.value (array i)) length turns).length
        = nodeWidth nodes array turns + 2 := by
      rw [ArrayFormat.piece, if_pos h, List.length_append, length_item_jsonFloatArray]
      rfl
    rw [ArrayFormat.text_succ, List.length_append, ih (by omega), hpiece, Finset.sum_range_succ]
    omega

theorem length_text_jsonFloatArray_lt_iff (array : CtrlNodes M.toMinipodTypes) (length : ℕ) :
    (jsonFloatArray.text (fun i => nodes.value (array i)) length length).length
        < jsonFloatArray.size ↔
      ∑ i ∈ Finset.range length, nodeWidth nodes array i + 2 * length ≤ 255 := by
  rcases length with _ | last
  · have hopening : jsonFloatArray.opening.length < jsonFloatArray.size := by decide
    exact iff_of_true (by simpa [ArrayFormat.text] using hopening) (by simp)
  · have hpiece : (jsonFloatArray.piece (fun i => nodes.value (array i)) (last + 1) last).length
        = nodeWidth nodes array last + 1 := by
      rw [ArrayFormat.piece, if_neg (lt_irrefl _), List.length_append, length_item_jsonFloatArray]
      rfl
    rw [ArrayFormat.text_succ, List.length_append, length_text_jsonFloatArray nodes array
      (Nat.lt_succ_self last), hpiece, Finset.sum_range_succ]
    simp only [jsonFloatArray]
    omega

theorem fits_jsonFloatArray_iff {array : CtrlNodes M.toMinipodTypes} {length : M.NodesLength}
    (h : M.turns length ≤ M.calibrationPointsMax) :
    jsonFloatArray.Fits (fun i => nodes.value (array i)) (M.turns length) ↔
      JsonRoom nodes array length := by
  have hitem : ∀ i, (jsonFloatArray.item (fun i => nodes.value (array i)) i).length
      < jsonFloatArray.itemSize ↔ nodeWidth nodes array i ≤ 31 := by
    intro i
    rw [length_item_jsonFloatArray]
    exact Nat.lt_succ_iff
  have htext := length_text_jsonFloatArray_lt_iff nodes array (M.turns length)
  constructor
  · rintro ⟨-, hitems, hsize⟩
    exact ⟨fun i hi => (hitem i).mp (hitems i hi), htext.mp hsize⟩
  · rintro ⟨hitems, hsize⟩
    exact ⟨h, fun i hi => (hitem i).mpr (hitems i hi), htext.mpr hsize⟩

theorem isSome_printNodes_json_iff {array : CtrlNodes M.toMinipodTypes} {length : M.NodesLength}
    (h : M.turns length ≤ M.calibrationPointsMax) :
    (printNodes nodes jsonFloatArray array length).isSome = true ↔ JsonRoom nodes array length :=
  (isSome_printNodes_iff nodes).trans (fits_jsonFloatArray_iff nodes h)

theorem turns_le_iff {length : M.NodesLength} :
    M.turns length ≤ M.calibrationPointsMax ↔
      M.nodesLengthToInt length ≤ M.calibrationPointsMax := by
  rw [MinipodTypes.turns, Int.toNat_le]

theorem isSome_jsonAddNodes_iff {config : DiscipliningConfigV1 M.toMinipodTypes}
    (h : M.turns config.ctrlNodesLength ≤ M.calibrationPointsMax)
    (hfactory : M.turns config.ctrlNodesLengthFactory ≤ M.calibrationPointsMax) :
    (jsonAddNodes nodes config).isSome = true ↔
      (0 < M.nodesLengthToInt config.ctrlNodesLength →
        JsonRoom nodes config.ctrlLoadNodes config.ctrlNodesLength ∧
          JsonRoom nodes config.ctrlDriftCoeffs config.ctrlNodesLength ∧
          JsonRoom nodes config.ctrlLoadNodesFactory config.ctrlNodesLengthFactory ∧
          JsonRoom nodes config.ctrlDriftCoeffsFactory config.ctrlNodesLengthFactory) := by
  rw [jsonAddNodes]
  split_ifs with hpos
  · rw [forall_prop_of_true hpos]
    simp only [← isSome_printNodes_json_iff nodes h, ← isSome_printNodes_json_iff nodes hfactory,
      Option.isSome_iff_exists, Option.bind_eq_bind, Option.bind_eq_some_iff, Option.pure_def]
    constructor
    · rintro ⟨_, load, hload, drift, hdrift, loadFactory, hloadFactory, driftFactory,
        hdriftFactory, -⟩
      exact ⟨⟨load, hload⟩, ⟨drift, hdrift⟩, ⟨loadFactory, hloadFactory⟩,
        ⟨driftFactory, hdriftFactory⟩⟩
    · rintro ⟨⟨load, hload⟩, ⟨drift, hdrift⟩, ⟨loadFactory, hloadFactory⟩,
        ⟨driftFactory, hdriftFactory⟩⟩
      exact ⟨_, load, hload, drift, hdrift, loadFactory, hloadFactory, driftFactory,
        hdriftFactory, rfl⟩
  · simp [hpos]

/-- **The consumers of a configuration** have a result exactly when its lengths and nodes fit. -/
theorem consumersDefined_iff {config : DiscipliningConfigV1 M.toMinipodTypes} :
    ConsumersDefined nodes config ↔ config.arrays.Fit nodes := by
  constructor
  · rintro ⟨hlength, hfactory, hjson, -⟩
    have h := turns_le_iff.mpr hlength
    have h' := turns_le_iff.mpr hfactory
    exact ⟨h, h', (isSome_jsonAddNodes_iff nodes h h').mp hjson⟩
  · rintro ⟨hlength, hfactory, hroom⟩
    refine ⟨turns_le_iff.mp hlength, turns_le_iff.mp hfactory,
      (isSome_jsonAddNodes_iff nodes hlength hfactory).mpr hroom, ?_⟩
    -- the file always has room, so that only the lengths count there
    have hprinted : ∀ array : CtrlNodes M.toMinipodTypes,
        ∃ text, printNodes nodes fileFloatArray array config.ctrlNodesLength = some text :=
      fun array => Option.isSome_iff_exists.mp
        ((isSome_printNodes_iff nodes).mpr (fits_fileFloatArray nodes _ hlength))
    obtain ⟨load, hload⟩ := hprinted config.ctrlLoadNodes
    obtain ⟨drift, hdrift⟩ := hprinted config.ctrlDriftCoeffs
    rw [fileNodes, hload, hdrift]
    rfl

/-- The slots that the conversion does not fill are not printed. -/
theorem jsonRoom_usedSlots (src dst : CtrlNodes M.toMinipodTypes) {length : M.NodesLength}
    (h : M.turns length ≤ M.calibrationPointsMax) :
    JsonRoom nodes (usedSlots (M.turns length) src dst) length ↔ JsonRoom nodes src length := by
  rw [← fits_jsonFloatArray_iff nodes h, ← fits_jsonFloatArray_iff nodes h]
  refine ArrayFormat.fits_congr fun i hi => ?_
  rw [usedSlots, if_pos hi]

theorem fit_converted_iff {v0 : DiscipliningParametersV0 M.toMinipodTypes}
    (v1 : DiscipliningParameters M.toMinipodTypes) (h : LengthsFit v0) :
    (converted v0 v1).dscConfig.arrays.Fit nodes ↔ v0.arrays.Fit nodes := by
  have hload := jsonRoom_usedSlots nodes v0.ctrlLoadNodes v1.dscConfig.ctrlLoadNodes h.1
  have hdrift := jsonRoom_usedSlots nodes v0.ctrlDriftCoeffs v1.dscConfig.ctrlDriftCoeffs h.1
  have hloadFactory := jsonRoom_usedSlots nodes v0.ctrlLoadNodesFactory
    v1.dscConfig.ctrlLoadNodesFactory h.2
  have hdriftFactory := jsonRoom_usedSlots nodes v0.ctrlDriftCoeffsFactory
    v1.dscConfig.ctrlDriftCoeffsFactory h.2
  constructor
  · rintro ⟨hlength, hlengthFactory, hroom⟩
    refine ⟨hlength, hlengthFactory, fun hpos => ?_⟩
    obtain ⟨hl, hd, hlf, hdf⟩ := hroom hpos
    exact ⟨hload.mp hl, hdrift.mp hd, hloadFactory.mp hlf, hdriftFactory.mp hdf⟩
  · rintro ⟨hlength, hlengthFactory, hroom⟩
    refine ⟨hlength, hlengthFactory, fun hpos => ?_⟩
    obtain ⟨hl, hd, hlf, hdf⟩ := hroom hpos
    exact ⟨hload.mpr hl, hdrift.mpr hd, hloadFactory.mpr hlf, hdriftFactory.mpr hdf⟩

section Accepted

variable {configFile tableFile : EepromFile} {memory : EepromMemory M}
  {buffer : Bytes discipliningConfigFileSize} {config : DiscipliningConfigV1 M.toMinipodTypes}

theorem accepted_of_findsV1 (h : memory.FindsV1 configFile tableFile) :
    ((memory.read configFile tableFile).isSome = true ∧
        ∀ p, memory.read configFile tableFile = some (0, some p) →
          ConsumersDefined nodes p.dscConfig) ↔
      (M.config.symm (prefixOf M.configSize_le
        (readFile configFile memory.dscConfigData).2)).arrays.Fit nodes := by
  rw [read_of_findsV1 h]
  constructor
  · rintro ⟨-, hconsumers⟩
    exact (consumersDefined_iff nodes).mp (hconsumers _ rfl)
  · intro hfit
    refine ⟨rfl, fun p hp => ?_⟩
    obtain rfl := Option.some.inj (Prod.mk.inj (Option.some.inj hp)).2
    exact (consumersDefined_iff nodes).mpr hfit

/-- The lengths of an older structure have to be within the arrays for the conversion already. -/
theorem accepted_of_findsV0 (h : memory.FindsV0 configFile tableFile) :
    ((memory.read configFile tableFile).isSome = true ∧
        ∀ p, memory.read configFile tableFile = some (0, some p) →
          ConsumersDefined nodes p.dscConfig) ↔
      (memory.structureV0 configFile tableFile).arrays.Fit nodes := by
  by_cases hfit : LengthsFit (memory.structureV0 configFile tableFile)
  · rw [read_of_findsV0 h, convert_eq_converted hfit, Option.map_some,
      ← fit_converted_iff nodes memory.dscParams hfit]
    constructor
    · rintro ⟨-, hconsumers⟩
      exact (consumersDefined_iff nodes).mp (hconsumers _ rfl)
    · intro hnodes
      refine ⟨rfl, fun p hp => ?_⟩
      obtain rfl := Option.some.inj (Prod.mk.inj (Option.some.inj hp)).2
      exact (consumersDefined_iff nodes).mpr hnodes
  · rw [read_of_findsV0 h, convertDiscipliningParametersV0ToV1_of_not_fit hfit]
    refine iff_of_false (fun hnone => Bool.false_ne_true hnone.1) fun hnodes => ?_
    exact hfit ⟨hnodes.length, hnodes.lengthFactory⟩

/-- The read of the configuration alone checks that the file is there. -/
theorem readConfigFile_eq_iff {config' : DiscipliningConfigV1 M.toMinipodTypes} :
    readDiscipliningParametersFromDiscipliningConfigFile M configFile buffer config
        = (0, config') ↔
      ReadableInFull discipliningConfigFileSize configFile ∧ HasHeader M configFile ∧
        byteAt configFile 1 = some 1 ∧
        M.config.symm (prefixOf M.configSize_le (readFile configFile buffer).2) = config' := by
  rw [readDiscipliningParametersFromDiscipliningConfigFile]
  by_cases hfull : ReadableInFull discipliningConfigFileSize configFile
  · have hbyte : ∀ (i : Fin discipliningConfigFileSize) byte,
        (readFile configFile buffer).2 i = byte ↔ byteAt configFile i = some byte := by
      intro i byte
      obtain ⟨found, hfound⟩ := Option.ne_none_iff_exists'.mp
        ((readableInFull_iff (by decide)).mp hfull i i.isLt)
      rw [readFile_snd_eq_getD, hfound, Option.getD_some, Option.some.injEq]
    have hheader : (readFile configFile buffer).2 0 = M.headerMagic ↔ HasHeader M configFile :=
      hbyte 0 M.headerMagic
    have hversion : (readFile configFile buffer).2 1 = 1 ↔ byteAt configFile 1 = some 1 := hbyte 1 1
    simp only [readFile_eq_zero_iff.mpr hfull, ne_eq, not_true_eq_false, if_false, hversion]
    by_cases h0 : HasHeader M configFile
    · have hvalid : checkHeaderValid M ((readFile configFile buffer).2 0) = true :=
        decide_eq_true (hheader.mpr h0)
      by_cases h1 : byteAt configFile 1 = some 1 <;> simp [hfull, hvalid, h0, h1]
    · have hvalid : checkHeaderValid M ((readFile configFile buffer).2 0) = false :=
        decide_eq_false fun heq => h0 (hheader.mp heq)
      simp [hvalid, h0]
  · have hret : (readFile configFile buffer).1 ≠ 0 :=
      fun hzero => hfull (readFile_eq_zero_iff.mp hzero)
    simp [hret, hfull]

/-- **When accepted lengths are in bounds.** For every content of the two files, and whatever the
buffers and the parameters held: what the readers accept has its lengths within the arrays, with
every access of a consumer inside its array and the texts of the JSON inside their buffer, exactly
when the lengths and the nodes in the accepted bytes fit. -/
theorem acceptedLaw_iff (configFile tableFile : EepromFile) (memory : EepromMemory M)
    (buffer : Bytes discipliningConfigFileSize) (config : DiscipliningConfigV1 M.toMinipodTypes) :
    AcceptedLaw nodes configFile tableFile memory buffer config ↔
      AcceptedKept nodes configFile tableFile memory buffer := by
  constructor
  · rintro ⟨hconversion, heeprom, hconfig⟩
    refine ⟨fun h1 => ?_, fun h0 => ?_, fun hfull hheader hversion => ?_⟩
    · exact (accepted_of_findsV1 nodes h1).mp ⟨hconversion, heeprom⟩
    · exact (accepted_of_findsV0 nodes h0).mp ⟨hconversion, heeprom⟩
    · exact (consumersDefined_iff nodes).mp
        (hconfig _ (readConfigFile_eq_iff.mpr ⟨hfull, hheader, hversion, rfl⟩))
  · rintro ⟨hversion1, hversion0, hconfig⟩
    have hread : (memory.read configFile tableFile).isSome = true ∧
        ∀ p, memory.read configFile tableFile = some (0, some p) →
          ConsumersDefined nodes p.dscConfig := by
      -- the reader finds version 1, the older structure, or neither and refuses
      by_cases h1 : memory.FindsV1 configFile tableFile
      · exact (accepted_of_findsV1 nodes h1).mpr (hversion1 h1)
      by_cases h0 : memory.FindsV0 configFile tableFile
      · exact (accepted_of_findsV0 nodes h0).mpr (hversion0 h0)
      rw [read_of_not h1 h0]
      refine ⟨rfl, fun p hp => ?_⟩
      exact absurd (Prod.mk.inj (Option.some.inj hp)).1 (by decide)
    refine ⟨hread.1, hread.2, fun config' hconfig' => ?_⟩
    obtain ⟨hfull, hheader, hversion, rfl⟩ := readConfigFile_eq_iff.mp hconfig'
    exact (consumersDefined_iff nodes).mpr (hconfig hfull hheader hversion)

end Accepted

/-- The nodes of the packed layout. -/
def packedNodes : FloatNodes packed.toMinipodTypes := ⟨Equiv.refl _⟩

/-- A configuration that says it has eight nodes: the arrays have seven. -/
def eightNodes : List UInt8 := 0x4F :: 1 :: 8 :: List.replicate 141 0

/-- Files of version 1 with eight nodes are accepted. -/
theorem acceptedLaw_fails_eight_nodes :
    ¬ AcceptedLaw packedNodes (some eightNodes) (some (0x4F :: 1 :: List.replicate 366 0))
      ⟨zeros _, zeros _, parametersBlank⟩ (zeros _) parametersBlank.dscConfig := by
  rw [acceptedLaw_iff]
  intro h
  have hlength := (h.version1 (findsV1_iff.mpr ⟨⟨rfl, rfl⟩, rfl, rfl⟩)).length
  exact absurd hlength (by decide)

end Oscillatord
