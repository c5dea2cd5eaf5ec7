import Oscillatord.Eeprom.Read

/-!
# The round trip of the disciplining parameters

Parameters that have been read from complete files are written in the current version: the bytes
of version 1 files come back as they were, and the conversion of files without a header sets both
headers and versions. Writing such parameters and reading them again gives them back, byte for
byte (`read_write_of_current`), so a second write leaves the files as the first one did, and the
updater is idempotent (`eepromRoundTrip_of_accepted`).
-/

namespace Oscillatord

open ObjectRep

variable {M : Minipod}

/-! ### Parameters of the current version -/

/-- Both structures begin with the header and version 1. -/
structure CurrentVersion (p : DiscipliningParameters M.toMinipodTypes) : Prop where
  config : p.dscConfig.header = M.headerMagic ∧ p.dscConfig.version = 1
  table : p.tempTable.header = M.headerMagic ∧ p.tempTable.version = 1

/-- The first bytes of the image of a configuration. -/
theorem configImage_apply (config : DiscipliningConfigV1 M.toMinipodTypes) :
    configImage M config 0 = config.header ∧ configImage M config 1 = config.version := by
  have h2 := M.two_le_configSize
  rw [configImage, padded_apply (by simp; omega), padded_apply (by simp; omega)]
  exact ⟨M.config_header config, M.config_version config⟩

/-- The first bytes of the image of a temperature table. -/
theorem tableImage_apply (table : TemperatureTableV1 M.toMinipodTypes) :
    tableImage M table 0 = table.header ∧ tableImage M table 1 = table.version := by
  have h2 := M.two_le_tableSize
  rw [tableImage, padded_apply (by simp; omega), padded_apply (by simp; omega)]
  exact ⟨M.table_header table, M.table_version table⟩

/-- The header and the version of a configuration are the first two bytes it is made from. -/
theorem header_config_symm (b : Bytes M.configSize) (h0 : 0 < M.configSize)
    (h1 : 1 < M.configSize) :
    (M.config.symm b).header = b ⟨0, h0⟩ ∧ (M.config.symm b).version = b ⟨1, h1⟩ := by
  rw [← M.config_header, ← M.config_version, M.config.apply_symm_apply]
  exact ⟨rfl, rfl⟩

/-- The header and the version of a temperature table are the first two bytes it is made from. -/
theorem header_table_symm (b : Bytes M.tableSize) (h0 : 0 < M.tableSize) (h1 : 1 < M.tableSize) :
    (M.table.symm b).header = b ⟨0, h0⟩ ∧ (M.table.symm b).version = b ⟨1, h1⟩ := by
  rw [← M.table_header, ← M.table_version, M.table.apply_symm_apply]
  exact ⟨rfl, rfl⟩

/-- A read accepts only parameters of the current version. -/
theorem currentVersion_of_decodeBuffers {dscConfigData : Bytes discipliningConfigFileSize}
    {tempTable : Bytes temperatureTableFileSize}
    {dscParams p : DiscipliningParameters M.toMinipodTypes}
    (h : decodeBuffers M dscConfigData tempTable dscParams = some (0, p)) : CurrentVersion p := by
  by_cases h1 : HeadersV1 M dscConfigData tempTable
  · rw [decodeBuffers_of_headersV1 h1] at h
    obtain rfl := (Prod.mk.inj (Option.some.inj h)).2
    have hconfigSize := M.two_le_configSize
    have htableSize := M.two_le_tableSize
    obtain ⟨hheader, hversion⟩ := header_config_symm (prefixOf M.configSize_le dscConfigData)
      (by omega) (by omega)
    obtain ⟨hheader', hversion'⟩ := header_table_symm (prefixOf M.tableSize_le tempTable)
      (by omega) (by omega)
    exact ⟨⟨hheader.trans h1.1.1, hversion.trans h1.2.1⟩,
      hheader'.trans h1.1.2, hversion'.trans h1.2.2⟩
  · by_cases h0 : HeadersAbsent M dscConfigData tempTable
    · rw [decodeBuffers_of_headersAbsent h0] at h
      obtain ⟨q, hq, hpq⟩ := Option.map_eq_some_iff.mp h
      obtain rfl := (Prod.mk.inj hpq).2
      obtain ⟨hconfig, htable⟩ := headers_convertDiscipliningParametersV0ToV1 hq
      exact ⟨hconfig, htable⟩
    · rw [decodeBuffers_of_not h1 h0] at h
      exact absurd (Prod.mk.inj (Option.some.inj h)).1 (by decide)

/-- A read accepts only parameters of the current version. -/
theorem currentVersion_of_read {configFile tableFile : EepromFile}
    {dscConfigData : Bytes discipliningConfigFileSize}
    {tempTable : Bytes temperatureTableFileSize}
    {dscParams p : DiscipliningParameters M.toMinipodTypes}
    (h : readDiscipliningParametersFromEeprom M configFile tableFile dscConfigData tempTable
      (some dscParams) = some (0, some p)) : CurrentVersion p := by
  obtain ⟨⟨ret, q⟩, hdecoded, hpq⟩ := Option.map_eq_some_iff.mp h
  obtain ⟨rfl, hq⟩ := Prod.mk.inj hpq
  obtain rfl := Option.some.inj hq
  exact currentVersion_of_decodeBuffers hdecoded

/-! ### Writing and reading again -/

/-- A configuration is recovered from its image. -/
theorem symm_prefixOf_configImage (config : DiscipliningConfigV1 M.toMinipodTypes) :
    M.config.symm (prefixOf M.configSize_le (configImage M config)) = config := by
  rw [configImage, prefixOf_padded, M.config.symm_apply_apply]

/-- A temperature table is recovered from its image. -/
theorem symm_prefixOf_tableImage (tempTable : TemperatureTableV1 M.toMinipodTypes) :
    M.table.symm (prefixOf M.tableSize_le (tableImage M tempTable)) = tempTable := by
  rw [tableImage, prefixOf_padded, M.table.symm_apply_apply]

/-- The files that hold the images of the parameters. -/
def imageFiles (M : Minipod) (p : DiscipliningParameters M.toMinipodTypes) :
    EepromFile × EepromFile :=
  (some (List.ofFn (configImage M p.dscConfig)), some (List.ofFn (tableImage M p.tempTable)))

/-- Writes that succeed leave the images, whatever was there. -/
theorem write_of_full {configOutcome tableOutcome : WriteOutcome}
    (hconfig : configOutcome.Full discipliningConfigFileSize)
    (htable : tableOutcome.Full temperatureTableFileSize) (configFile tableFile : EepromFile)
    (p : DiscipliningParameters M.toMinipodTypes) :
    writeDiscipliningParametersInEeprom M configOutcome tableOutcome configFile tableFile (some p)
      = (0, imageFiles M p) := by
  have hc : (writeFile configOutcome configFile (configImage M p.dscConfig)).2 = _ :=
    writeFile_snd_eq_iff.mpr (.inl hconfig)
  have ht : (writeFile tableOutcome tableFile (tableImage M p.tempTable)).2 = _ :=
    writeFile_snd_eq_iff.mpr (.inl htable)
  rw [writeDiscipliningParametersInEeprom, hc, ht, imageFiles]

/-- **Reading what was written.** Parameters of the current version are read back from their
images, whatever the buffers and the parameters held. -/
theorem read_write_of_current {p : DiscipliningParameters M.toMinipodTypes}
    (h : CurrentVersion p) (dscConfigData : Bytes discipliningConfigFileSize)
    (tempTable : Bytes temperatureTableFileSize)
    (dscParams : DiscipliningParameters M.toMinipodTypes) :
    readDiscipliningParametersFromEeprom M (imageFiles M p).1 (imageFiles M p).2 dscConfigData
      tempTable (some dscParams) = some (0, some p) := by
  obtain ⟨hconfig0, hconfig1⟩ := configImage_apply p.dscConfig
  obtain ⟨htable0, htable1⟩ := tableImage_apply p.tempTable
  have hheaders : HeadersV1 M (configImage M p.dscConfig) (tableImage M p.tempTable) :=
    ⟨⟨hconfig0.trans h.config.1, htable0.trans h.table.1⟩,
      hconfig1.trans h.config.2, htable1.trans h.table.2⟩
  simp only [readDiscipliningParametersFromEeprom, imageFiles, readFile, filled_ofFn,
    decodeBuffers_of_headersV1 hheaders, symm_prefixOf_configImage, symm_prefixOf_tableImage,
    Option.map_some]

/-- **The round trip of `p`** from the files it was read from: after a successful write of `p`,
every read gives `p` back, another write leaves the same bytes, and the updater has done and does
nothing else. -/
structure EepromRoundTrip (M : Minipod) (configFile tableFile : EepromFile)
    (dscConfigData : Bytes discipliningConfigFileSize)
    (tempTable : Bytes temperatureTableFileSize)
    (dscParams p : DiscipliningParameters M.toMinipodTypes)
    (configOutcome tableOutcome : WriteOutcome) (written : EepromFile × EepromFile) : Prop where
  write : writeDiscipliningParametersInEeprom M configOutcome tableOutcome configFile tableFile
    (some p) = (0, written)
  read : ∀ dscConfigData' tempTable' dscParams', readDiscipliningParametersFromEeprom M written.1
    written.2 dscConfigData' tempTable' (some dscParams') = some (0, some p)
  rewrite : ∀ configOutcome' tableOutcome',
    WriteOutcome.Full discipliningConfigFileSize configOutcome' →
    WriteOutcome.Full temperatureTableFileSize tableOutcome' →
    writeDiscipliningParametersInEeprom M configOutcome' tableOutcome' written.1 written.2 (some p)
      = (0, written)
  update : artEepromFilesUpdater M configOutcome tableOutcome configFile tableFile dscConfigData
    tempTable dscParams = some (0, written)
  updateAgain : ∀ configOutcome' tableOutcome' dscConfigData' tempTable' dscParams',
    WriteOutcome.Full discipliningConfigFileSize configOutcome' →
    WriteOutcome.Full temperatureTableFileSize tableOutcome' →
    artEepromFilesUpdater M configOutcome' tableOutcome' written.1 written.2 dscConfigData'
      tempTable' dscParams' = some (0, written)

/-- An update whose read is accepted and whose writes succeed leaves the images of what it
read. -/
theorem artEepromFilesUpdater_of_full {configFile tableFile : EepromFile}
    {dscConfigData : Bytes discipliningConfigFileSize}
    {tempTable : Bytes temperatureTableFileSize}
    {dscParams p : DiscipliningParameters M.toMinipodTypes}
    {configOutcome tableOutcome : WriteOutcome}
    (hread : readDiscipliningParametersFromEeprom M configFile tableFile dscConfigData tempTable
      (some dscParams) = some (0, some p))
    (hconfig : configOutcome.Full discipliningConfigFileSize)
    (htable : tableOutcome.Full temperatureTableFileSize) :
    artEepromFilesUpdater M configOutcome tableOutcome configFile tableFile dscConfigData tempTable
      dscParams = some (0, imageFiles M p) := by
  rw [artEepromFilesUpdater, hread, Option.map_some, write_of_full hconfig htable]
  simp

/-- **Round trip and idempotent upgrade.** Whatever the layout of the structures: parameters that
a read accepts, of version 1 or converted, survive a successful write unchanged, a second write
leaves the files byte for byte as they are, and so does a second run of the updater. -/
theorem eepromRoundTrip_of_accepted (M : Minipod) {configFile tableFile : EepromFile}
    {dscConfigData : Bytes discipliningConfigFileSize}
    {tempTable : Bytes temperatureTableFileSize}
    {dscParams p : DiscipliningParameters M.toMinipodTypes}
    {configOutcome tableOutcome : WriteOutcome}
    (hread : readDiscipliningParametersFromEeprom M configFile tableFile dscConfigData tempTable
      (some dscParams) = some (0, some p))
    (hconfig : configOutcome.Full discipliningConfigFileSize)
    (htable : tableOutcome.Full temperatureTableFileSize) :
    EepromRoundTrip M configFile tableFile dscConfigData tempTable dscParams p configOutcome
      tableOutcome (imageFiles M p) := by
  -- whatever was accepted has the header of version 1, so that writing it loses nothing
  have hcurrent : CurrentVersion p := currentVersion_of_read hread
  exact
    { write := write_of_full hconfig htable configFile tableFile p
      read := read_write_of_current hcurrent
      rewrite := fun _ _ hconfig' htable' => write_of_full hconfig' htable' _ _ p
      update := artEepromFilesUpdater_of_full hread hconfig htable
      updateAgain := fun _ _ _ _ _ hconfig' htable' =>
        artEepromFilesUpdater_of_full (read_write_of_current hcurrent _ _ _) hconfig' htable' }

/-! ### Files without a header -/

/-- The bytes of the older structure that are in the first file. -/
def configHalf (v0 : DiscipliningParametersV0 M.toMinipodTypes) :
    Bytes discipliningConfigFileSize :=
  prefixOf M.le_sizeV0 (M.paramsV0 v0)

/-- The second file: the remaining bytes of the older structure, followed by others. -/
def tableHalf (v0 : DiscipliningParametersV0 M.toMinipodTypes)
    (others : Bytes temperatureTableFileSize) : Bytes temperatureTableFileSize := fun i =>
  if h : discipliningConfigFileSize + i < M.sizeV0 then
    M.paramsV0 v0 ⟨discipliningConfigFileSize + i, h⟩
  else others i

/-- The older structure is put together again from both files. -/
theorem copyV0_halves (v0 : DiscipliningParametersV0 M.toMinipodTypes)
    (others : Bytes temperatureTableFileSize) :
    copyV0 M (configHalf v0) (tableHalf v0 others) = M.paramsV0 v0 := by
  funext i
  by_cases hi : (i : ℕ) < discipliningConfigFileSize
  · simp only [copyV0, dif_pos hi, configHalf, prefixOf]
    rfl
  · have hsum : discipliningConfigFileSize + ((i : ℕ) - discipliningConfigFileSize) = i := by
      omega
    simp only [copyV0, dif_neg hi, tableHalf, hsum, i.isLt, dif_pos]

/-- Files that hold an older structure without a header are accepted and converted. -/
theorem read_of_halves {v0 : DiscipliningParametersV0 M.toMinipodTypes}
    {others : Bytes temperatureTableFileSize}
    {dscParams p : DiscipliningParameters M.toMinipodTypes}
    (hheaders : HeadersAbsent M (configHalf v0) (tableHalf v0 others))
    (hp : convertDiscipliningParametersV0ToV1 M v0 dscParams = some p)
    (dscConfigData : Bytes discipliningConfigFileSize)
    (tempTable : Bytes temperatureTableFileSize) :
    readDiscipliningParametersFromEeprom M (some (List.ofFn (configHalf v0)))
      (some (List.ofFn (tableHalf v0 others))) dscConfigData tempTable (some dscParams)
        = some (0, some p) := by
  simp only [readDiscipliningParametersFromEeprom, readFile, filled_ofFn,
    decodeBuffers_of_headersAbsent hheaders, copyV0_halves, M.paramsV0.symm_apply_apply, hp,
    Option.map_some]

/-- A calibration of three points, as it was stored before the files had a header. -/
def calibrationV0 : DiscipliningParametersV0 packed.toMinipodTypes where
  ctrlNodesLength := ![3, 0, 0, 0]
  ctrlLoadNodes i := ![0, 0, UInt8.ofNat i, 0x3E]
  ctrlDriftCoeffs i := ![1, UInt8.ofNat i, 0, 0x40]
  coarseEquilibrium := ![0x80, 0x84, 0x1E, 0]
  ctrlNodesLengthFactory := ![3, 0, 0, 0]
  ctrlLoadNodesFactory i := ![0, 0, UInt8.ofNat i, 0x3E]
  ctrlDriftCoeffsFactory _ := ![0, 0, 0, 0]
  coarseEquilibriumFactory := ![0xFF, 0xFF, 0xFF, 0xFF]
  calibrationValid := (1 : UInt8)
  calibrationDate := ![0, 0x5E, 0xD2, 0x66, 0, 0, 0, 0]
  estimatedEquilibriumES := ![0x60, 9, 0, 0]
  meanFineOverTemperature i := ![UInt8.ofNat i, 0x5D]
  padding := ![]

/-- What the calibration is converted to. -/
theorem calibrationV0_converts :
    ∃ p, convertDiscipliningParametersV0ToV1 packed calibrationV0 parametersBlank = some p :=
  convertDiscipliningParametersV0ToV1_of_fit ⟨by decide +kernel, by decide +kernel⟩ parametersBlank

/-- The files of the older calibration, updated with writes that succeed. -/
theorem eepromRoundTrip_calibrationV0 :
    ∃ p, EepromRoundTrip packed (some (List.ofFn (configHalf calibrationV0)))
      (some (List.ofFn (tableHalf calibrationV0 fun _ => 0))) (fun _ => 0) (fun _ => 0)
      parametersBlank p (.written 144) (.written 368) (imageFiles packed p) := by
  obtain ⟨p, hp⟩ := calibrationV0_converts
  have hheaders : HeadersAbsent packed (configHalf calibrationV0)
      (tableHalf calibrationV0 fun _ => 0) := by
    constructor <;> decide +kernel
  exact ⟨p, eepromRoundTrip_of_accepted packed (read_of_halves hheaders hp _ _)
    ⟨144, rfl, le_rfl⟩ ⟨368, rfl, le_rfl⟩⟩

end Oscillatord
