import Oscillatord.Eeprom.RoundTrip
import Oscillatord.Eeprom.Write
import Oscillatord.Library.Runs

/-!
# The tools of the EEPROM files

Four programs write the files of a card. `art_disciplining_manager` writes the configuration and
`art_temperature_table_manager` the temperature table, each in the current version and each alone;
`art_eeprom_files_updater` and the daemon write both. A run is any sequence of their operations.

`CardLaw` is what the daemon relies on: the files are accepted, and what is read back is what each
of them was last written with. An operation that writes one file keeps it when the other file has
a header already; on files of the older structure it leaves one with a header and one without,
which are refused from then on (`cardLaw_fails_older_files`). In a run whose operations succeed,
write in full what they report as written, and write one file alone only when both have a header,
the law holds throughout (`cardLaw_throughout`).
-/

namespace Oscillatord

open ObjectRep StepRun

/-! ### The values of the tools -/

/-- How the values of the tools are stored in the fields, whose types are not in the repository. -/
structure FieldValues (T : MinipodTypes) where
  nodesLength : ℕ → T.NodesLength
  node : ℚ → T.Node
  equilibrium : ℤ → T.Equilibrium
  date : ℤ → T.Date
  valid : Bool → T.Valid
  equilibriumES : ℤ → T.EquilibriumES
  /-- The bytes between the fields of an initialised structure. -/
  paddingConfig : T.PaddingConfig

variable (M : Minipod) (values : FieldValues M.toMinipodTypes)

/-- An array of nodes with its first values given, and zeros after them. -/
def FieldValues.nodes {T : MinipodTypes} (values : FieldValues T) (first : List ℚ) : CtrlNodes T :=
  fun i => values.node (first.getD i 0)

/-- `factory_config`. -/
def factoryConfig : DiscipliningConfigV1 M.toMinipodTypes where
  header := M.headerMagic
  version := 1
  ctrlNodesLength := values.nodesLength 3
  ctrlLoadNodes := values.nodes [1 / 4, 1 / 2, 3 / 4]
  ctrlDriftCoeffs := values.nodes [0, 0, 0]
  coarseEquilibrium := values.equilibrium (-1)
  ctrlNodesLengthFactory := values.nodesLength 3
  ctrlLoadNodesFactory := values.nodes [1 / 4, 1 / 2, 3 / 4]
  ctrlDriftCoeffsFactory := values.nodes [12 / 10, 0, -12 / 10]
  coarseEquilibriumFactory := values.equilibrium (-1)
  calibrationValid := values.valid false
  calibrationDate := values.date 0
  estimatedEquilibriumES := values.equilibriumES 0
  padding := values.paddingConfig

/-- The entries of a text of disciplining parameters, as the tool has parsed them: the equilibrium
of the factory when it is positive, the number of nodes when it is, and the arrays when their key
is there. -/
structure DiscipliningText where
  calibrationValid : Bool
  coarseEquilibrium : ℤ
  coarseEquilibriumFactory : Option ℤ
  ctrlNodesLength : Option ℕ
  calibrationDate : ℤ
  ctrlLoadNodes : Option (List ℚ)
  ctrlDriftCoeffs : Option (List ℚ)
  estimatedEquilibriumES : ℤ

/-- `get_double_array_from_config`: an array has as many values as there are nodes, and no more
than `CALIBRATION_POINTS_MAX`. -/
def getDoubleArrayFromConfig (array : Option (List ℚ)) (expectedLength : ℤ) :
    Option (List ℚ) :=
  array.filter fun parsed =>
    decide (parsed.length ≤ M.calibrationPointsMax) && decide ((parsed.length : ℤ) = expectedLength)

/-- The nodes of the factory, the first of them replaced. -/
def replaceNodes (parsed : List ℚ) (nodes : CtrlNodes M.toMinipodTypes) :
    CtrlNodes M.toMinipodTypes :=
  fun i => if h : (i : ℕ) < parsed.length then values.node parsed[(i : ℕ)] else nodes i

/-- `read_disciplining_parameters_from_file`, `none` when it fails. -/
def readDiscipliningParametersFromFile (text : DiscipliningText) :
    Option (DiscipliningConfigV1 M.toMinipodTypes) := do
  let dscConfig := { factoryConfig M values with
    calibrationValid := values.valid text.calibrationValid
    coarseEquilibrium := values.equilibrium text.coarseEquilibrium }
  let dscConfig := match text.coarseEquilibriumFactory with
    | some factoryCoarse =>
      { dscConfig with coarseEquilibriumFactory := values.equilibrium factoryCoarse }
    | none => dscConfig
  let length := values.nodesLength (← text.ctrlNodesLength)
  let expected := M.nodesLengthToInt length
  let ctrlLoadNodes ← getDoubleArrayFromConfig M text.ctrlLoadNodes expected
  let ctrlDriftCoeffs ← getDoubleArrayFromConfig M text.ctrlDriftCoeffs expected
  return { dscConfig with
    ctrlNodesLength := length
    calibrationDate := values.date text.calibrationDate
    ctrlLoadNodes := replaceNodes M values ctrlLoadNodes dscConfig.ctrlLoadNodes
    ctrlDriftCoeffs := replaceNodes M values ctrlDriftCoeffs dscConfig.ctrlDriftCoeffs
    estimatedEquilibriumES := values.equilibriumES text.estimatedEquilibriumES }

/-- A line of a text of a temperature table: an entry of the table, a temperature out of its range,
or something else. -/
inductive TableLine (T : MinipodTypes)
  | entry (temperatureIndex : Fin T.meanTemperatureArrayMax) (value : T.MeanFine)
  | outOfRange
  | other

/-- `read_temperature_table_from_file`, `none` when it fails. -/
def readTemperatureTableFromFile (tempTable : TemperatureTableV1 M.toMinipodTypes) :
    List (TableLine M.toMinipodTypes) → Option (TemperatureTableV1 M.toMinipodTypes)
  | [] => some tempTable
  | .entry temperatureIndex value :: lines =>
    readTemperatureTableFromFile
      { tempTable with
        meanFineOverTemperature :=
          Function.update tempTable.meanFineOverTemperature temperatureIndex value } lines
  | .outOfRange :: _ => none
  | .other :: lines => readTemperatureTableFromFile tempTable lines

/-- The table `memset` has cleared. -/
def tableZero : TemperatureTableV1 M.toMinipodTypes := M.table.symm (zeros M.tableSize)

/-- The header and the version the tool gives a table. -/
def withHeader (tempTable : TemperatureTableV1 M.toMinipodTypes) :
    TemperatureTableV1 M.toMinipodTypes :=
  { tempTable with header := M.headerMagic, version := 1 }

/-! ### The operations -/

/-- An operation on the files of a card: `art_disciplining_manager` with `-w` or `-f`,
`art_temperature_table_manager` with `-w` (and the lines of its text, when it can be opened) or
`-f`, the updater, or the daemon, which reads the files and saves what it has read. -/
inductive CardOp
  | writeConfig (text : DiscipliningText) (outcome : WriteOutcome)
  | factoryReset (coarseValue : ℕ) (outcome : WriteOutcome)
  | writeTable (lines : Option (List (TableLine M.toMinipodTypes))) (outcome : WriteOutcome)
  | resetTable (outcome : WriteOutcome)
  | update (dscConfigData : Bytes discipliningConfigFileSize)
      (tempTable : Bytes temperatureTableFileSize)
      (dscParams : DiscipliningParameters M.toMinipodTypes)
      (configOutcome tableOutcome : WriteOutcome)
  | daemonRead (dscConfigData : Bytes discipliningConfigFileSize)
      (tempTable : Bytes temperatureTableFileSize)
      (dscParams : DiscipliningParameters M.toMinipodTypes)
  | daemonSave (configOutcome tableOutcome : WriteOutcome)

/-- The files of the card, the parameters the daemon last read, and, of each file, what it was last
written with. -/
structure CardState where
  config : EepromFile
  table : EepromFile
  daemon : Option (DiscipliningParameters M.toMinipodTypes)
  lastConfig : Option (DiscipliningConfigV1 M.toMinipodTypes)
  lastTable : Option (TemperatureTableV1 M.toMinipodTypes)

variable {M}

/-- The configuration is written alone. -/
def CardState.writeConfig (s : CardState M) (outcome : WriteOutcome)
    (config : DiscipliningConfigV1 M.toMinipodTypes) : ℤ × CardState M :=
  let (ret, file) :=
    writeDiscipliningParametersToDiscipliningConfigFile M outcome s.config (some config)
  (ret, { s with config := file, lastConfig := some config })

/-- The temperature table is written alone. -/
def CardState.writeTable (s : CardState M) (outcome : WriteOutcome)
    (tempTable : TemperatureTableV1 M.toMinipodTypes) : ℤ × CardState M :=
  let (ret, file) :=
    writeTemperatureTableToTemperatureTableFile M outcome s.table (some tempTable)
  (if ret ≠ 0 then -1 else 0, { s with table := file, lastTable := some tempTable })

/-- Both files are written, with these parameters if there are any. -/
def CardState.written (s : CardState M) (files : EepromFile × EepromFile) :
    Option (DiscipliningParameters M.toMinipodTypes) → CardState M
  | none => { s with config := files.1, table := files.2 }
  | some p =>
    { s with
      config := files.1
      table := files.2
      lastConfig := some p.dscConfig
      lastTable := some p.tempTable }

variable (M)

/-- The parameters a read of the files accepts. -/
def CardState.read (s : CardState M) (dscConfigData : Bytes discipliningConfigFileSize)
    (tempTable : Bytes temperatureTableFileSize)
    (dscParams : DiscipliningParameters M.toMinipodTypes) :
    Option (DiscipliningParameters M.toMinipodTypes) :=
  match readDiscipliningParametersFromEeprom M s.config s.table dscConfigData tempTable
      (some dscParams) with
  | some (0, p) => p
  | _ => none

/-- The configuration `art_disciplining_manager -f` writes. -/
def factoryReset (coarseValue : ℕ) : DiscipliningConfigV1 M.toMinipodTypes :=
  if coarseValue ≠ 0 then
    { factoryConfig M values with coarseEquilibriumFactory := values.equilibrium coarseValue }
  else factoryConfig M values

/-- The temperature table `art_temperature_table_manager -w` writes. -/
def tableOfLines (lines : Option (List (TableLine M.toMinipodTypes))) :
    Option (TemperatureTableV1 M.toMinipodTypes) :=
  (lines.bind (readTemperatureTableFromFile M (tableZero M))).map (withHeader M)

/-- **One operation**: the status it exits with, and the card. With `-f` the status of
`art_disciplining_manager` says nothing about its write. -/
def cardOp (s : CardState M) : CardOp M → ℤ × CardState M
  | .writeConfig text outcome =>
    match readDiscipliningParametersFromFile M values text with
    | none => (-1, s)
    | some config => s.writeConfig outcome config
  | .factoryReset coarseValue outcome =>
    (0, (s.writeConfig outcome (factoryReset M values coarseValue)).2)
  | .writeTable lines outcome =>
    match tableOfLines M lines with
    | none => (-1, s)
    | some tempTable => s.writeTable outcome tempTable
  | .resetTable outcome => s.writeTable outcome (withHeader M (tableZero M))
  | .update dscConfigData tempTable dscParams configOutcome tableOutcome =>
    match artEepromFilesUpdater M configOutcome tableOutcome s.config s.table dscConfigData
        tempTable dscParams with
    | some (ret, files) => (ret, s.written files (s.read M dscConfigData tempTable dscParams))
    | none => (-1, s)
  | .daemonRead dscConfigData tempTable dscParams =>
    match s.read M dscConfigData tempTable dscParams with
    | some p => (0, { s with daemon := some p })
    | none => (-1, s)
  | .daemonSave configOutcome tableOutcome =>
    let (ret, files) := writeDiscipliningParametersInEeprom M configOutcome tableOutcome
      s.config s.table s.daemon
    (ret, s.written files s.daemon)

/-- The step of a run. -/
def cardStep (s : CardState M) (op : CardOp M) : CardState M := (cardOp M values s op).2

/-! ### The law -/

/-- The operation exits with the status of a success. -/
def CardSuccess (s : CardState M) (op : CardOp M) : Prop := (cardOp M values s op).1 = 0

/-- **The law of a card**: a read accepts the files, whatever its memory held, and reads what they
were last written with. -/
def CardLaw (s : CardState M) : Prop :=
  ∀ dscConfigData tempTable dscParams, ∃ p,
    readDiscipliningParametersFromEeprom M s.config s.table dscConfigData tempTable
        (some dscParams) = some (0, some p) ∧
      (∀ config, s.lastConfig = some config → p.dscConfig = config) ∧
      (∀ tempTable, s.lastTable = some tempTable → p.tempTable = tempTable)

/-- The file begins with the header of version 1. -/
def BeginsWithHeader (file : EepromFile) : Prop :=
  ∃ rest, file = some (M.headerMagic :: 1 :: rest)

/-- Both images are written in full, or their files cannot be opened and hold them already. -/
def BothSaved (s : CardState M) (configOutcome tableOutcome : WriteOutcome)
    (p : DiscipliningParameters M.toMinipodTypes) : Prop :=
  Saved configOutcome s.config (configImage M p.dscConfig) ∧
    Saved tableOutcome s.table (tableImage M p.tempTable)

/-- A file is written alone only when the other one has a header, and what the operation reports
as written is. -/
def CardKept (s : CardState M) : CardOp M → Prop
  | .writeConfig _ _ => BeginsWithHeader M s.table
  | .factoryReset coarseValue outcome =>
    BeginsWithHeader M s.table ∧
      Saved outcome s.config (configImage M (factoryReset M values coarseValue))
  | .writeTable lines outcome =>
    BeginsWithHeader M s.config ∧ ∀ tempTable, tableOfLines M lines = some tempTable →
      Saved outcome s.table (tableImage M tempTable)
  | .resetTable outcome =>
    BeginsWithHeader M s.config ∧
      Saved outcome s.table (tableImage M (withHeader M (tableZero M)))
  | .update dscConfigData tempTable dscParams configOutcome tableOutcome =>
    ∀ p, s.read M dscConfigData tempTable dscParams = some p →
      BothSaved M s configOutcome tableOutcome p
  | .daemonRead _ _ _ => True
  | .daemonSave configOutcome tableOutcome =>
    ∀ p, s.daemon = some p → BothSaved M s configOutcome tableOutcome p

/-- A card with these files, before any of the operations. -/
def cardStart (config table : EepromFile) : CardState M :=
  { config, table, daemon := none, lastConfig := none, lastTable := none }

variable {M} {values}

/-! ### What the tools write has a header -/

/-- A configuration of the current version. -/
def CurrentConfig (config : DiscipliningConfigV1 M.toMinipodTypes) : Prop :=
  config.header = M.headerMagic ∧ config.version = 1

/-- A temperature table of the current version. -/
def CurrentTable (tempTable : TemperatureTableV1 M.toMinipodTypes) : Prop :=
  tempTable.header = M.headerMagic ∧ tempTable.version = 1

theorem currentConfig_factoryReset (coarseValue : ℕ) :
    CurrentConfig (factoryReset M values coarseValue) := by
  rw [factoryReset]
  split_ifs <;> exact ⟨rfl, rfl⟩

theorem currentConfig_of_text {text : DiscipliningText}
    {config : DiscipliningConfigV1 M.toMinipodTypes}
    (h : readDiscipliningParametersFromFile M values text = some config) :
    CurrentConfig config := by
  simp only [readDiscipliningParametersFromFile, Option.bind_eq_bind, Option.bind_eq_some_iff,
    Option.pure_def, Option.some.injEq] at h
  obtain ⟨_, -, _, -, _, -, rfl⟩ := h
  cases text.coarseEquilibriumFactory <;> exact ⟨rfl, rfl⟩

theorem currentTable_of_lines {lines : Option (List (TableLine M.toMinipodTypes))}
    {tempTable : TemperatureTableV1 M.toMinipodTypes} (h : tableOfLines M lines = some tempTable) :
    CurrentTable tempTable := by
  obtain ⟨parsed, -, rfl⟩ := Option.map_eq_some_iff.mp h
  exact ⟨rfl, rfl⟩

/-! ### Reading files with a header -/

section Reading

variable {configFile tableFile : EepromFile} {dscConfigData : Bytes discipliningConfigFileSize}
  {tempTable : Bytes temperatureTableFileSize}
  {dscParams p : DiscipliningParameters M.toMinipodTypes}

theorem BeginsWithHeader.read {n : ℕ} {file : EepromFile} (h : BeginsWithHeader M file)
    {data : Bytes n} (h0 : 0 < n) (h1 : 1 < n) :
    (readFile file data).2 ⟨0, h0⟩ = M.headerMagic ∧ (readFile file data).2 ⟨1, h1⟩ = 1 := by
  obtain ⟨rest, rfl⟩ := h
  exact ⟨rfl, rfl⟩

/-- With a header in one of the files, what a read accepts is what it finds in both. -/
theorem read_eq_of_not_absent
    (h : readDiscipliningParametersFromEeprom M configFile tableFile dscConfigData tempTable
      (some dscParams) = some (0, some p))
    (hheader : ¬ HeadersAbsent M (readFile configFile dscConfigData).2
      (readFile tableFile tempTable).2) :
    HeadersV1 M (readFile configFile dscConfigData).2 (readFile tableFile tempTable).2 ∧
      p = { dscConfig := M.config.symm
              (prefixOf M.configSize_le (readFile configFile dscConfigData).2)
            tempTable := M.table.symm
              (prefixOf M.tableSize_le (readFile tableFile tempTable).2) } := by
  rw [readDiscipliningParametersFromEeprom] at h
  by_cases h1 : HeadersV1 M (readFile configFile dscConfigData).2 (readFile tableFile tempTable).2
  · rw [decodeBuffers_of_headersV1 h1, Option.map_some, Option.some.injEq, Prod.mk.injEq,
      Option.some.injEq] at h
    exact ⟨h1, h.2.symm⟩
  · rw [decodeBuffers_of_not h1 hheader] at h
    simp at h

end Reading

/-! ### What an operation does to the law -/

variable {s : CardState M}

/-- The file is the one `write_file` leaves, whatever is reported. -/
theorem config_writeConfig (outcome : WriteOutcome)
    (config : DiscipliningConfigV1 M.toMinipodTypes) :
    (s.writeConfig outcome config).2.config
      = (writeFile outcome s.config (configImage M config)).2 := by
  simp only [CardState.writeConfig, writeDiscipliningParametersToDiscipliningConfigFile]
  split_ifs <;> rfl

theorem table_writeTable (outcome : WriteOutcome)
    (tempTable : TemperatureTableV1 M.toMinipodTypes) :
    (s.writeTable outcome tempTable).2.table
      = (writeFile outcome s.table (tableImage M tempTable)).2 := rfl

/-- A write of the configuration that reports success has written all of it. -/
theorem saved_of_writeConfig {outcome : WriteOutcome}
    {config : DiscipliningConfigV1 M.toMinipodTypes}
    (h : (s.writeConfig outcome config).1 = 0) :
    Saved outcome s.config (configImage M config) := by
  refine writeFile_snd_eq_iff.mp ?_
  rw [← config_writeConfig]
  exact writeDiscipliningParametersToDiscipliningConfigFile_eq_zero h

/-- What is read of a configuration that was written. -/
theorem readFile_writeConfig {outcome : WriteOutcome}
    {config : DiscipliningConfigV1 M.toMinipodTypes}
    (hsaved : Saved outcome s.config (configImage M config))
    (dscConfigData : Bytes discipliningConfigFileSize) :
    (readFile (s.writeConfig outcome config).2.config dscConfigData).2 = configImage M config := by
  rw [config_writeConfig, writeFile_snd_eq_iff.mpr hsaved]
  exact filled_ofFn _ _

/-- A configuration is written, and there is a header in the other file. -/
theorem CardLaw.writeConfig (h : CardLaw M s) (htable : BeginsWithHeader M s.table)
    {outcome : WriteOutcome} {config : DiscipliningConfigV1 M.toMinipodTypes}
    (hcurrent : CurrentConfig config) (hsaved : Saved outcome s.config (configImage M config)) :
    CardLaw M (s.writeConfig outcome config).2 := by
  intro dscConfigData tempTable dscParams
  obtain ⟨p, hread, -, hlast⟩ := h dscConfigData tempTable dscParams
  obtain ⟨hheaders, rfl⟩ := read_eq_of_not_absent hread fun habsent =>
    habsent.2 (htable.read (by decide) (by decide)).1
  refine ⟨⟨config, M.table.symm (prefixOf M.tableSize_le (readFile s.table tempTable).2)⟩, ?_,
    fun c hc => Option.some.inj hc, hlast⟩
  have hconfig := readFile_writeConfig hsaved dscConfigData
  have htable' : (s.writeConfig outcome config).2.table = s.table := rfl
  obtain ⟨hconfig0, hconfig1⟩ := configImage_apply config
  have hheaders' : HeadersV1 M (configImage M config) (readFile s.table tempTable).2 :=
    ⟨⟨hconfig0.trans hcurrent.1, hheaders.1.2⟩, hconfig1.trans hcurrent.2, hheaders.2.2⟩
  rw [readDiscipliningParametersFromEeprom, hconfig, htable', decodeBuffers_of_headersV1 hheaders',
    symm_prefixOf_configImage, Option.map_some]

/-- A configuration is written, and there is no header in the other file: the files are refused. -/
theorem not_cardLaw_writeConfig {outcome : WriteOutcome}
    {config : DiscipliningConfigV1 M.toMinipodTypes} (hcurrent : CurrentConfig config)
    (hsaved : Saved outcome s.config (configImage M config))
    {tempTable : Bytes temperatureTableFileSize}
    (htable : (readFile s.table tempTable).2 0 ≠ M.headerMagic)
    (dscConfigData : Bytes discipliningConfigFileSize)
    (dscParams : DiscipliningParameters M.toMinipodTypes) :
    ¬ CardLaw M (s.writeConfig outcome config).2 := by
  intro h
  obtain ⟨p, hread, -⟩ := h dscConfigData tempTable dscParams
  obtain ⟨hheaders, -⟩ := read_eq_of_not_absent hread fun habsent => by
    refine habsent.1 ?_
    rw [readFile_writeConfig hsaved]
    exact (configImage_apply config).1.trans hcurrent.1
  exact htable hheaders.1.2

/-- A temperature table is written, and there is a header in the other file. -/
theorem CardLaw.writeTable (h : CardLaw M s) (hconfig : BeginsWithHeader M s.config)
    {outcome : WriteOutcome} {tempTable : TemperatureTableV1 M.toMinipodTypes}
    (hcurrent : CurrentTable tempTable) (hsaved : Saved outcome s.table (tableImage M tempTable)) :
    CardLaw M (s.writeTable outcome tempTable).2 := by
  intro dscConfigData tableData dscParams
  obtain ⟨p, hread, hlast, -⟩ := h dscConfigData tableData dscParams
  obtain ⟨hheaders, rfl⟩ := read_eq_of_not_absent hread fun habsent =>
    habsent.1 (hconfig.read (by decide) (by decide)).1
  refine ⟨⟨M.config.symm (prefixOf M.configSize_le (readFile s.config dscConfigData).2),
    tempTable⟩, ?_, hlast, fun t ht => Option.some.inj ht⟩
  have htable : (readFile (s.writeTable outcome tempTable).2.table tableData).2
      = tableImage M tempTable := by
    rw [table_writeTable, writeFile_snd_eq_iff.mpr hsaved]
    exact filled_ofFn _ _
  have hconfig' : (s.writeTable outcome tempTable).2.config = s.config := rfl
  obtain ⟨htable0, htable1⟩ := tableImage_apply tempTable
  have hheaders' : HeadersV1 M (readFile s.config dscConfigData).2 (tableImage M tempTable) :=
    ⟨⟨hheaders.1.1, htable0.trans hcurrent.1⟩, hheaders.2.1, htable1.trans hcurrent.2⟩
  rw [readDiscipliningParametersFromEeprom, htable, hconfig', decodeBuffers_of_headersV1 hheaders',
    symm_prefixOf_tableImage, Option.map_some]

/-- Parameters of the current version are written in both files, whatever these held. -/
theorem cardLaw_written {p : DiscipliningParameters M.toMinipodTypes} (hcurrent : CurrentVersion p)
    {configOutcome tableOutcome : WriteOutcome}
    (hsaved : BothSaved M s configOutcome tableOutcome p) :
    CardLaw M (s.written (writeDiscipliningParametersInEeprom M configOutcome tableOutcome s.config
      s.table (some p)).2 (some p)) := by
  intro dscConfigData tempTable dscParams
  have hfiles : (writeDiscipliningParametersInEeprom M configOutcome tableOutcome s.config
      s.table (some p)).2 = imageFiles M p :=
    Prod.ext (writeFile_snd_eq_iff.mpr hsaved.1) (writeFile_snd_eq_iff.mpr hsaved.2)
  refine ⟨p, ?_, fun c hc => Option.some.inj hc, fun t ht => Option.some.inj ht⟩
  rw [hfiles]
  exact read_write_of_current hcurrent dscConfigData tempTable dscParams

/-! ### The law over a run -/

/-- The invariant: the law, and the daemon holds parameters of the current version. -/
structure CardInv (s : CardState M) : Prop where
  law : CardLaw M s
  daemon : ∀ p, s.daemon = some p → CurrentVersion p

/-- On files a read accepts, it accepts parameters of the current version. -/
theorem CardLaw.read (h : CardLaw M s) (dscConfigData : Bytes discipliningConfigFileSize)
    (tempTable : Bytes temperatureTableFileSize)
    (dscParams : DiscipliningParameters M.toMinipodTypes) :
    ∃ p, readDiscipliningParametersFromEeprom M s.config s.table dscConfigData tempTable
        (some dscParams) = some (0, some p) ∧
      s.read M dscConfigData tempTable dscParams = some p ∧ CurrentVersion p := by
  obtain ⟨p, hread, -⟩ := h dscConfigData tempTable dscParams
  refine ⟨p, hread, ?_, currentVersion_of_read hread⟩
  simp only [CardState.read, hread]

/-- **One operation** that succeeds and meets the condition keeps the invariant. -/
theorem cardInv_step (h : CardInv s) (op : CardOp M) (hsuccess : CardSuccess M values s op)
    (hkept : CardKept M values s op) : CardInv (cardStep M values s op) := by
  cases op with
  | writeConfig text outcome =>
    rw [CardSuccess, cardOp] at hsuccess
    rw [cardStep, cardOp]
    rcases htext : readDiscipliningParametersFromFile M values text with _ | config
    · exact h
    · rw [htext] at hsuccess
      exact ⟨h.law.writeConfig hkept (currentConfig_of_text htext) (saved_of_writeConfig hsuccess),
        h.daemon⟩
  | factoryReset coarseValue outcome =>
    exact ⟨h.law.writeConfig hkept.1 (currentConfig_factoryReset coarseValue) hkept.2, h.daemon⟩
  | writeTable lines outcome =>
    rw [cardStep, cardOp]
    rcases hlines : tableOfLines M lines with _ | tempTable
    · exact h
    · exact ⟨h.law.writeTable hkept.1 (currentTable_of_lines hlines) (hkept.2 tempTable hlines),
        h.daemon⟩
  | resetTable outcome => exact ⟨h.law.writeTable hkept.1 ⟨rfl, rfl⟩ hkept.2, h.daemon⟩
  | update dscConfigData tempTable dscParams configOutcome tableOutcome =>
    obtain ⟨p, hread, hp, hcurrent⟩ := h.law.read dscConfigData tempTable dscParams
    have hlaw := cardLaw_written hcurrent (hkept p hp)
    rw [cardStep, cardOp, artEepromFilesUpdater, hread, hp]
    exact ⟨hlaw, h.daemon⟩
  | daemonRead dscConfigData tempTable dscParams =>
    obtain ⟨p, -, hp, hcurrent⟩ := h.law.read dscConfigData tempTable dscParams
    rw [cardStep, cardOp, hp]
    exact ⟨h.law, fun q hq => Option.some.inj hq ▸ hcurrent⟩
  | daemonSave configOutcome tableOutcome =>
    rw [cardStep, cardOp]
    rcases hdaemon : s.daemon with _ | p
    · exact h
    · have hlaw := cardLaw_written (h.daemon p hdaemon) (hkept p hdaemon)
      exact ⟨hlaw, h.daemon⟩

/-- **The tools keep the card readable.** Whatever the layout of the structures and the values of
the fields, from every pair of files that a read accepts: after any sequence of operations that
succeed, write in full what they report as written, and write one file alone only when the other
one has a header, the files are accepted and what is read back is what they were last written
with. -/
theorem cardLaw_throughout (M : Minipod) (values : FieldValues M.toMinipodTypes) {s : CardState M}
    (hstart : CardLaw M s) (hdaemon : s.daemon = none) {ops : List (CardOp M)}
    (hsuccess : EachStep (cardStep M values) (CardSuccess M values) s ops)
    (hkept : EachStep (cardStep M values) (CardKept M values) s ops) :
    Throughout (cardStep M values) (CardLaw M) s ops := by
  have hboth : EachStep (cardStep M values)
      (fun s op => CardSuccess M values s op ∧ CardKept M values s op) s ops :=
    fun pre op hpre => ⟨hsuccess pre op hpre, hkept pre op hpre⟩
  have hinit : CardInv s := by
    refine ⟨hstart, fun p hp => ?_⟩
    rw [hdaemon] at hp
    cases hp
  have hinv : Throughout (cardStep M values) CardInv s ops :=
    throughout_of_eachStep hinit (fun _ op h hop => cardInv_step h op hop.1 hop.2) hboth
  exact fun pre hpre => (hinv pre hpre).law

/-! ### Two cards of the packed layout -/

/-- The values of the tools in the packed layout: lengths, equilibria and dates in little-endian
order, and the nodes of the factory as single-precision numbers. -/
def packedValues : FieldValues packed.toMinipodTypes where
  nodesLength n := ![UInt8.ofNat n, UInt8.ofNat (n / 256), 0, 0]
  node q :=
    if q = 1 / 4 then ![0, 0, 0x80, 0x3E]
    else if q = 1 / 2 then ![0, 0, 0, 0x3F]
    else if q = 3 / 4 then ![0, 0, 0x40, 0x3F]
    else if q = 12 / 10 then ![0x9A, 0x99, 0x99, 0x3F]
    else if q = -12 / 10 then ![0x9A, 0x99, 0x99, 0xBF]
    else ![0, 0, 0, 0]
  equilibrium n := fun i => UInt8.ofInt (n / 256 ^ (i : ℕ))
  date n := fun i => UInt8.ofInt (n / 256 ^ (i : ℕ))
  valid b := if b then (1 : UInt8) else (0 : UInt8)
  equilibriumES n := fun i => UInt8.ofInt (n / 256 ^ (i : ℕ))
  paddingConfig := ![]

/-- The parameters of a card that was reset by both tools. -/
def parametersReset : DiscipliningParameters packed.toMinipodTypes :=
  { dscConfig := factoryReset packed packedValues 0
    tempTable := withHeader packed (tableZero packed) }

/-- A card that was reset: its temperature table is reset again. -/
theorem cardLaw_reset :
    Throughout (cardStep packed packedValues) (CardLaw packed)
      (cardStart packed (imageFiles packed parametersReset).1 (imageFiles packed parametersReset).2)
      [.resetTable (.written 368)] := by
  have hcurrent : CurrentVersion parametersReset := ⟨⟨rfl, rfl⟩, rfl, rfl⟩
  have hstart : CardLaw packed (cardStart packed (imageFiles packed parametersReset).1
      (imageFiles packed parametersReset).2) := fun dscConfigData tempTable dscParams =>
    ⟨parametersReset, read_write_of_current hcurrent dscConfigData tempTable dscParams,
      fun _ h => (by cases h), fun _ h => (by cases h)⟩
  refine cardLaw_throughout packed packedValues hstart rfl ?_ ?_
  · rw [eachStep_cons]
    exact ⟨rfl, eachStep_nil⟩
  · rw [eachStep_cons]
    exact ⟨⟨⟨_, rfl⟩, .inl ⟨368, rfl, le_rfl⟩⟩, eachStep_nil⟩

/-- The card of an older calibration. -/
def cardV0 : CardState packed :=
  cardStart packed (some (List.ofFn (configHalf calibrationV0)))
    (some (List.ofFn (tableHalf calibrationV0 (zeros _))))

theorem cardLaw_cardV0 : CardLaw packed cardV0 := by
  intro dscConfigData tempTable dscParams
  obtain ⟨p, hp⟩ : ∃ p,
      convertDiscipliningParametersV0ToV1 packed calibrationV0 dscParams = some p :=
    convertDiscipliningParametersV0ToV1_of_fit ⟨by decide +kernel, by decide +kernel⟩ dscParams
  have hheaders : HeadersAbsent packed (configHalf calibrationV0)
      (tableHalf calibrationV0 (zeros _)) := by
    constructor <;> decide +kernel
  exact ⟨p, read_of_halves hheaders hp dscConfigData tempTable, fun _ h => (by cases h),
    fun _ h => (by cases h)⟩

/-- An older calibration is reset by `art_disciplining_manager -f`: only the first file gets a
header, and the card is refused. -/
theorem cardLaw_fails_older_files :
    CardLaw packed cardV0 ∧
      EachStep (cardStep packed packedValues) (CardSuccess packed packedValues) cardV0
        [.factoryReset 0 (.written 144)] ∧
      ¬ Throughout (cardStep packed packedValues) (CardLaw packed) cardV0
        [.factoryReset 0 (.written 144)] := by
  refine ⟨cardLaw_cardV0, eachStep_cons.mpr ⟨rfl, eachStep_nil⟩, fun h => ?_⟩
  have hreset := h.last
  simp only [after_cons, after_nil, cardStep, cardOp] at hreset
  have htable : (readFile cardV0.table (zeros temperatureTableFileSize)).2 0
      ≠ packed.headerMagic := by
    simp only [cardV0, cardStart, readFile, filled_ofFn]
    decide +kernel
  exact not_cardLaw_writeConfig (currentConfig_factoryReset 0) (.inl ⟨144, rfl, le_rfl⟩) htable
    (zeros _) parametersBlank hreset

end Oscillatord
