import Mathlib.Data.List.TakeDrop
import Oscillatord.Eeprom.Layout

/-!
# Reading and writing the EEPROM files

The functions of `eeprom_config.c`, and the tool that reads the files and writes them back. A file
is missing or holds bytes. The local buffers of a read are not initialised: their previous content
is an argument, and a read that fails leaves of it what the file did not overwrite. The result of
`read_file` and of `write_file` is only logged by some of the callers, and the definitions follow
each of them.

The conversion of the older structure copies as many nodes as the lengths it has read say. A
length beyond the capacity of the arrays makes it run past them, which is undefined: the
conversion, and the reads that use it, then have no result.
-/

namespace Oscillatord

open ObjectRep

/-! ### Files -/

/-- What a path leads to: nothing that can be opened, or a file. -/
abbrev EepromFile := Option (List UInt8)

/-- `EINVAL`. -/
def einval : ℤ := 22

/-- `read_file`: the return value, and the buffer. -/
def readFile {n : ℕ} (file : EepromFile) (data : Bytes n) : ℤ × Bytes n :=
  match file with
  | some content => (if n ≤ content.length then 0 else -1, filled content data)
  | none => (-1, data)

/-- What happens to a file that is opened for writing: it cannot be opened, or it is truncated and
so many bytes of the data are written. -/
inductive WriteOutcome
  | openFails
  | written (count : ℕ)
  deriving Repr, DecidableEq

/-- `write_file`: the return value, and the file. The bytes that `fwrite` says it wrote are the ones
in the file: a write that the stream keeps back and that fails in `fclose`, which nothing checks,
is left out. -/
def writeFile {n : ℕ} (outcome : WriteOutcome) (file : EepromFile) (data : Bytes n) :
    ℤ × EepromFile :=
  match outcome with
  | .openFails => (-1, file)
  | .written count =>
    let content := (List.ofFn data).take count
    (if content.length = n then 0 else -1, some content)

/-! ### Conversion of the older structure -/

/-- The loop `for (int i = 0; i < length; i++) dst[i] = src[i]`, undefined when it leaves the
arrays. -/
def copySlots {α : Type} {n : ℕ} (src dst : Fin n → α) : ℕ → Option (Fin n → α)
  | 0 => some dst
  | i + 1 =>
    (copySlots src dst i).bind fun dst =>
      if h : i < n then some (Function.update dst ⟨i, h⟩ (src ⟨i, h⟩)) else none

variable (M : Minipod)

/-- The number of turns of the loop over the nodes. -/
def MinipodTypes.turns (T : MinipodTypes) (length : T.NodesLength) : ℕ :=
  (T.nodesLengthToInt length).toNat

/-- `convert_disciplining_parameters_V0_to_V1`: the slots it does not fill keep what they held. -/
def convertDiscipliningParametersV0ToV1 (v0 : DiscipliningParametersV0 M.toMinipodTypes)
    (v1 : DiscipliningParameters M.toMinipodTypes) :
    Option (DiscipliningParameters M.toMinipodTypes) := do
  let turns := M.turns v0.ctrlNodesLength
  let ctrlLoadNodes ← copySlots v0.ctrlLoadNodes v1.dscConfig.ctrlLoadNodes turns
  let ctrlDriftCoeffs ← copySlots v0.ctrlDriftCoeffs v1.dscConfig.ctrlDriftCoeffs turns
  let turns := M.turns v0.ctrlNodesLengthFactory
  let ctrlLoadNodesFactory ←
    copySlots v0.ctrlLoadNodesFactory v1.dscConfig.ctrlLoadNodesFactory turns
  let ctrlDriftCoeffsFactory ←
    copySlots v0.ctrlDriftCoeffsFactory v1.dscConfig.ctrlDriftCoeffsFactory turns
  let meanFineOverTemperature ←
    copySlots v0.meanFineOverTemperature v1.tempTable.meanFineOverTemperature
      M.meanTemperatureArrayMax
  return {
    dscConfig := { v1.dscConfig with
      header := M.headerMagic
      version := 1
      ctrlNodesLength := v0.ctrlNodesLength
      ctrlNodesLengthFactory := v0.ctrlNodesLengthFactory
      coarseEquilibrium := v0.coarseEquilibrium
      coarseEquilibriumFactory := v0.coarseEquilibriumFactory
      calibrationDate := v0.calibrationDate
      calibrationValid := v0.calibrationValid
      estimatedEquilibriumES := v0.estimatedEquilibriumES
      ctrlLoadNodes, ctrlDriftCoeffs, ctrlLoadNodesFactory, ctrlDriftCoeffsFactory }
    tempTable := { v1.tempTable with
      header := M.headerMagic, version := 1, meanFineOverTemperature } }

/-! ### Reading -/

/-- `check_header_valid`. -/
def checkHeaderValid (header : UInt8) : Bool := header = M.headerMagic

/-- The two copies that lay the older structure across both buffers. -/
def copyV0 (dscConfigData : Bytes discipliningConfigFileSize)
    (tempTable : Bytes temperatureTableFileSize) : Bytes M.sizeV0 := fun i =>
  if h : i < discipliningConfigFileSize then dscConfigData ⟨i, h⟩
  else tempTable ⟨i - discipliningConfigFileSize, by have := M.sizeV0_le; omega⟩

/-- Both buffers begin with the header of version 1. -/
def HeadersV1 (dscConfigData : Bytes discipliningConfigFileSize)
    (tempTable : Bytes temperatureTableFileSize) : Prop :=
  (dscConfigData 0 = M.headerMagic ∧ tempTable 0 = M.headerMagic) ∧
    dscConfigData 1 = 1 ∧ tempTable 1 = 1

/-- Neither buffer begins with a header. -/
def HeadersAbsent (dscConfigData : Bytes discipliningConfigFileSize)
    (tempTable : Bytes temperatureTableFileSize) : Prop :=
  dscConfigData 0 ≠ M.headerMagic ∧ tempTable 0 ≠ M.headerMagic

/-- What `read_disciplining_parameters_from_eeprom` does with the buffers it has read into. -/
def decodeBuffers (dscConfigData : Bytes discipliningConfigFileSize)
    (tempTable : Bytes temperatureTableFileSize)
    (dscParams : DiscipliningParameters M.toMinipodTypes) :
    Option (ℤ × DiscipliningParameters M.toMinipodTypes) :=
  if checkHeaderValid M (dscConfigData 0) && checkHeaderValid M (tempTable 0) then
    if dscConfigData 1 ≠ tempTable 1 then some (-1, dscParams)
    else if dscConfigData 1 = 1 then
      some (0,
        { dscConfig := M.config.symm (prefixOf M.configSize_le dscConfigData)
          tempTable := M.table.symm (prefixOf M.tableSize_le tempTable) })
    else some (-1, dscParams)
  else if !checkHeaderValid M (dscConfigData 0) && !checkHeaderValid M (tempTable 0) then
    let v0 := M.paramsV0.symm (copyV0 M dscConfigData tempTable)
    (convertDiscipliningParametersV0ToV1 M v0 dscParams).map fun dscParams => (0, dscParams)
  else some (-1, dscParams)

/-- `read_disciplining_parameters_from_eeprom`, with the previous content of its local buffers:
the return value and `*dsc_params`. -/
def readDiscipliningParametersFromEeprom (configFile tableFile : EepromFile)
    (dscConfigData : Bytes discipliningConfigFileSize)
    (tempTable : Bytes temperatureTableFileSize) :
    Option (DiscipliningParameters M.toMinipodTypes) →
      Option (ℤ × Option (DiscipliningParameters M.toMinipodTypes))
  | none => some (-einval, none)
  | some dscParams =>
    (decodeBuffers M (readFile configFile dscConfigData).2 (readFile tableFile tempTable).2
      dscParams).map fun outcome => (outcome.1, some outcome.2)

/-- `read_disciplining_parameters_from_disciplining_config_file`. -/
def readDiscipliningParametersFromDiscipliningConfigFile (file : EepromFile)
    (buffer : Bytes discipliningConfigFileSize)
    (config : DiscipliningConfigV1 M.toMinipodTypes) :
    ℤ × DiscipliningConfigV1 M.toMinipodTypes :=
  let (ret, buffer) := readFile file buffer
  if ret ≠ 0 then (-1, config)
  else if checkHeaderValid M (buffer 0) then
    if buffer 1 = 1 then (0, M.config.symm (prefixOf M.configSize_le buffer)) else (-1, config)
  else (-1, config)

/-! ### Writing -/

/-- The image of the configuration in its file. -/
def configImage (config : DiscipliningConfigV1 M.toMinipodTypes) :
    Bytes discipliningConfigFileSize :=
  padded discipliningConfigFileSize (M.config config)

/-- The image of the temperature table in its file. -/
def tableImage (tempTable : TemperatureTableV1 M.toMinipodTypes) :
    Bytes temperatureTableFileSize :=
  padded temperatureTableFileSize (M.table tempTable)

/-- `write_disciplining_parameters_to_disciplining_config_file`. -/
def writeDiscipliningParametersToDiscipliningConfigFile (outcome : WriteOutcome)
    (file : EepromFile) :
    Option (DiscipliningConfigV1 M.toMinipodTypes) → ℤ × EepromFile
  | none => (-einval, file)
  | some config =>
    let (ret, file) := writeFile outcome file (configImage M config)
    if ret ≠ 0 then (-1, file) else (0, file)

/-- `write_temperature_table_to_temperature_table_file`: a write that fails is only logged. -/
def writeTemperatureTableToTemperatureTableFile (outcome : WriteOutcome) (file : EepromFile) :
    Option (TemperatureTableV1 M.toMinipodTypes) → ℤ × EepromFile
  | none => (-einval, file)
  | some tempTable => (0, (writeFile outcome file (tableImage M tempTable)).2)

/-- `write_disciplining_parameters_in_eeprom`: writes that fail are only logged. -/
def writeDiscipliningParametersInEeprom (configOutcome tableOutcome : WriteOutcome)
    (configFile tableFile : EepromFile) :
    Option (DiscipliningParameters M.toMinipodTypes) → ℤ × EepromFile × EepromFile
  | none => (-einval, configFile, tableFile)
  | some dscParams =>
    (0, (writeFile configOutcome configFile (configImage M dscParams.dscConfig)).2,
      (writeFile tableOutcome tableFile (tableImage M dscParams.tempTable)).2)

/-- `art_eeprom_files_updater`, on the paths of both files and with the previous content of its
memory: the return value and the files. -/
def artEepromFilesUpdater (configOutcome tableOutcome : WriteOutcome)
    (configFile tableFile : EepromFile) (dscConfigData : Bytes discipliningConfigFileSize)
    (tempTable : Bytes temperatureTableFileSize)
    (dscParams : DiscipliningParameters M.toMinipodTypes) :
    Option (ℤ × EepromFile × EepromFile) :=
  (readDiscipliningParametersFromEeprom M configFile tableFile dscConfigData tempTable
    (some dscParams)).map fun outcome =>
      if outcome.1 ≠ 0 then (-1, configFile, tableFile)
      else
        let written := writeDiscipliningParametersInEeprom M configOutcome tableOutcome configFile
          tableFile outcome.2
        if written.1 ≠ 0 then (-1, written.2) else (0, written.2)

/-! ### The files -/

section Files

variable {n : ℕ} {outcome : WriteOutcome} {file : EepromFile} {data : Bytes n}

/-- A file can be read in full: it can be opened and is long enough. -/
def ReadableInFull (n : ℕ) (file : EepromFile) : Prop :=
  ∃ content, file = some content ∧ n ≤ content.length

theorem readFile_eq_zero_iff : (readFile file data).1 = 0 ↔ ReadableInFull n file := by
  rcases file with _ | content
  · simp [readFile, ReadableInFull]
  · simp [readFile, ReadableInFull]

/-- A write succeeds exactly when all of the data is written. -/
def WriteOutcome.Full (n : ℕ) (outcome : WriteOutcome) : Prop :=
  ∃ count, outcome = .written count ∧ n ≤ count

theorem writeFile_eq_zero_iff : (writeFile outcome file data).1 = 0 ↔ outcome.Full n := by
  rcases outcome with _ | count
  · simp [writeFile, WriteOutcome.Full]
  · simp [writeFile, WriteOutcome.Full]

/-- A file holds an image after a write exactly when all of it is written, or the file cannot be
opened and holds it already. -/
theorem writeFile_snd_eq_iff :
    (writeFile outcome file data).2 = some (List.ofFn data) ↔
      outcome.Full n ∨ outcome = .openFails ∧ file = some (List.ofFn data) := by
  rcases outcome with _ | count
  · simp [writeFile, WriteOutcome.Full]
  · have htake : (List.ofFn data).take count = List.ofFn data ↔ n ≤ count := by
      rw [List.take_eq_self_iff, List.length_ofFn]
    simp [writeFile, WriteOutcome.Full, htake]

end Files

end Oscillatord
