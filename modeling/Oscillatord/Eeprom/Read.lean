import Oscillatord.Eeprom.EepromConfig
import Oscillatord.Eeprom.PackedLayout

/-!
# Which files are accepted

`read_disciplining_parameters_from_eeprom` should accept exactly the pairs of complete files that
are both of version 1 or both without a header, and should leave `*dsc_params` alone when it does
not accept. It looks at the headers it finds in its buffers, whether or not the files have been
read into them, so a missing or short file is judged by what the buffers held before
(`eepromReadLaw_iff`); and the conversion of files without a header runs past the arrays when a
length exceeds their capacity (`convertDiscipliningParametersV0ToV1_of_not_fit`).
-/

namespace Oscillatord

open ObjectRep

variable {M : Minipod}

/-! ### The conversion stays in the arrays -/

/-- Within the arrays the copying loop fills the slots of its turns and keeps the others. -/
theorem copySlots_of_le {α : Type} {n : ℕ} {src dst : Fin n → α} {turns : ℕ} (h : turns ≤ n) :
    copySlots src dst turns = some fun i : Fin n => if (i : ℕ) < turns then src i else dst i := by
  induction turns with
  | zero => simp [copySlots]
  | succ i ih =>
    rw [copySlots, ih (Nat.le_of_succ_le h), Option.bind_some, dif_pos (Nat.lt_of_succ_le h)]
    congr 1
    funext j
    by_cases hj : j = ⟨i, h⟩
    · subst hj
      simp
    · have hne : (j : ℕ) ≠ i := fun heq => hj (Fin.ext heq)
      rw [Function.update_of_ne hj]
      have hiff : (j : ℕ) < i ↔ (j : ℕ) < i + 1 := by omega
      simp only [hiff]

/-- More turns than slots lead out of the arrays. -/
theorem copySlots_of_lt {α : Type} {n : ℕ} {src dst : Fin n → α} {turns : ℕ} (h : n < turns) :
    copySlots src dst turns = none := by
  induction turns with
  | zero => exact absurd h (Nat.not_lt_zero n)
  | succ i ih =>
    rcases Nat.lt_succ_iff_lt_or_eq.mp h with hlt | heq
    · rw [copySlots, ih hlt, Option.bind_none]
    · have hout : ¬ i < n := by omega
      rw [copySlots, copySlots_of_le heq.ge, Option.bind_some, dif_neg hout]

/-- The two lengths of the older structure are within the capacity of the arrays. -/
def LengthsFit (v0 : DiscipliningParametersV0 M.toMinipodTypes) : Prop :=
  M.turns v0.ctrlNodesLength ≤ M.calibrationPointsMax ∧
    M.turns v0.ctrlNodesLengthFactory ≤ M.calibrationPointsMax

/-- The conversion sets both headers and versions. -/
theorem headers_convertDiscipliningParametersV0ToV1
    {v0 : DiscipliningParametersV0 M.toMinipodTypes}
    {v1 p : DiscipliningParameters M.toMinipodTypes}
    (h : convertDiscipliningParametersV0ToV1 M v0 v1 = some p) :
    (p.dscConfig.header = M.headerMagic ∧ p.dscConfig.version = 1) ∧
      p.tempTable.header = M.headerMagic ∧ p.tempTable.version = 1 := by
  simp only [convertDiscipliningParametersV0ToV1, Option.bind_eq_bind, Option.bind_eq_some_iff,
    Option.pure_def, Option.some.injEq] at h
  obtain ⟨_, -, _, -, _, -, _, -, _, -, rfl⟩ := h
  exact ⟨⟨rfl, rfl⟩, rfl, rfl⟩

/-- With both lengths within the capacity the conversion is defined. -/
theorem convertDiscipliningParametersV0ToV1_of_fit
    {v0 : DiscipliningParametersV0 M.toMinipodTypes} (h : LengthsFit v0)
    (v1 : DiscipliningParameters M.toMinipodTypes) :
    ∃ p, convertDiscipliningParametersV0ToV1 M v0 v1 = some p := by
  simp only [convertDiscipliningParametersV0ToV1, copySlots_of_le h.1, copySlots_of_le h.2,
    copySlots_of_le le_rfl, Option.bind_eq_bind, Option.bind_some, Option.pure_def]
  exact ⟨_, rfl⟩

/-- With a length beyond the capacity the conversion is not defined. -/
theorem convertDiscipliningParametersV0ToV1_of_not_fit
    {v0 : DiscipliningParametersV0 M.toMinipodTypes} (h : ¬ LengthsFit v0)
    (v1 : DiscipliningParameters M.toMinipodTypes) :
    convertDiscipliningParametersV0ToV1 M v0 v1 = none := by
  rw [LengthsFit, not_and_or, not_le, not_le] at h
  by_cases hlen : M.calibrationPointsMax < M.turns v0.ctrlNodesLength
  · simp only [convertDiscipliningParametersV0ToV1, copySlots_of_lt hlen, Option.bind_eq_bind,
      Option.bind_none]
  · have hfactory := h.resolve_left hlen
    simp only [convertDiscipliningParametersV0ToV1, copySlots_of_le (not_lt.mp hlen),
      copySlots_of_lt hfactory, Option.bind_eq_bind, Option.bind_some, Option.bind_none]

/-! ### The headers found in the buffers -/

section Buffers

variable {dscConfigData : Bytes discipliningConfigFileSize}
  {tempTable : Bytes temperatureTableFileSize}
  {dscParams : DiscipliningParameters M.toMinipodTypes}

/-- Buffers of version 1 are decoded as they are. -/
theorem decodeBuffers_of_headersV1 (h : HeadersV1 M dscConfigData tempTable) :
    decodeBuffers M dscConfigData tempTable dscParams =
      some (0,
        { dscConfig := M.config.symm (prefixOf M.configSize_le dscConfigData)
          tempTable := M.table.symm (prefixOf M.tableSize_le tempTable) }) := by
  obtain ⟨⟨hconfig, htable⟩, hconfig1, htable1⟩ := h
  simp [decodeBuffers, checkHeaderValid, hconfig, htable, hconfig1, htable1]

/-- Buffers without a header are converted. -/
theorem decodeBuffers_of_headersAbsent (h : HeadersAbsent M dscConfigData tempTable) :
    decodeBuffers M dscConfigData tempTable dscParams =
      (convertDiscipliningParametersV0ToV1 M (M.paramsV0.symm (copyV0 M dscConfigData tempTable))
        dscParams).map fun dscParams => (0, dscParams) := by
  obtain ⟨hconfig, htable⟩ := h
  simp [decodeBuffers, checkHeaderValid, hconfig, htable]

/-- Other buffers are refused, and the parameters left alone. -/
theorem decodeBuffers_of_not (h1 : ¬ HeadersV1 M dscConfigData tempTable)
    (h0 : ¬ HeadersAbsent M dscConfigData tempTable) :
    decodeBuffers M dscConfigData tempTable dscParams = some (-1, dscParams) := by
  rw [HeadersAbsent, not_and_or, not_not, not_not] at h0
  simp only [decodeBuffers, checkHeaderValid, Bool.and_eq_true, decide_eq_true_eq,
    Bool.not_eq_true', decide_eq_false_iff_not]
  split_ifs with hboth hversions hone hneither
  · rfl
  · exact absurd ⟨hboth, hone, by rw [← not_not.mp hversions, hone]⟩ h1
  · rfl
  · rcases h0 with hconfig | htable
    · exact absurd hconfig hneither.1
    · exact absurd htable hneither.2
  · rfl

end Buffers

/-! ### The law -/

/-- Both files are complete, and both are of version 1 or neither has a header. -/
def WellFormedFiles (M : Minipod) (configFile tableFile : EepromFile) : Prop :=
  ∃ config table, configFile = some config ∧ tableFile = some table ∧
    discipliningConfigFileSize ≤ config.length ∧ temperatureTableFileSize ≤ table.length ∧
    ((config[0]? = some M.headerMagic ∧ table[0]? = some M.headerMagic) ∧
        config[1]? = some 1 ∧ table[1]? = some 1 ∨
      config[0]? ≠ some M.headerMagic ∧ table[0]? ≠ some M.headerMagic)

/-- **The law of the read**: it returns, with `0` exactly for well-formed files, and a failure
leaves the parameters as they were. -/
def EepromReadLaw (M : Minipod) (configFile tableFile : EepromFile)
    (dscConfigData : Bytes discipliningConfigFileSize)
    (tempTable : Bytes temperatureTableFileSize)
    (dscParams : DiscipliningParameters M.toMinipodTypes) : Prop :=
  ∃ ret dscParams', readDiscipliningParametersFromEeprom M configFile tableFile dscConfigData
      tempTable (some dscParams) = some (ret, some dscParams') ∧
    (ret = 0 ↔ WellFormedFiles M configFile tableFile) ∧ (ret ≠ 0 → dscParams' = dscParams)

/-- A byte of a file that is long enough, once read. -/
theorem readFile_snd_apply {n : ℕ} {content : List UInt8} {data : Bytes n} (h : n ≤ content.length)
    (i : Fin n) (byte : UInt8) :
    (readFile (some content) data).2 i = byte ↔ content[(i : ℕ)]? = some byte := by
  have hi : (i : ℕ) < content.length := i.isLt.trans_le h
  simp [readFile, filled, List.getD_eq_getElem?_getD, List.getElem?_eq_getElem hi]

/-- Files are well formed exactly when both can be read in full and their headers are of version
1, or absent. -/
theorem wellFormedFiles_iff {configFile tableFile : EepromFile}
    (dscConfigData : Bytes discipliningConfigFileSize)
    (tempTable : Bytes temperatureTableFileSize) :
    WellFormedFiles M configFile tableFile ↔
      (ReadableInFull discipliningConfigFileSize configFile ∧
        ReadableInFull temperatureTableFileSize tableFile) ∧
      (HeadersV1 M (readFile configFile dscConfigData).2 (readFile tableFile tempTable).2 ∨
        HeadersAbsent M (readFile configFile dscConfigData).2
          (readFile tableFile tempTable).2) := by
  constructor
  · rintro ⟨config, table, rfl, rfl, hconfig, htable, h⟩
    refine ⟨⟨⟨config, rfl, hconfig⟩, table, rfl, htable⟩, ?_⟩
    simp only [HeadersV1, HeadersAbsent, ne_eq, readFile_snd_apply hconfig,
      readFile_snd_apply htable]
    exact h
  · rintro ⟨⟨⟨config, rfl, hconfig⟩, table, rfl, htable⟩, h⟩
    refine ⟨config, table, rfl, rfl, hconfig, htable, ?_⟩
    simp only [HeadersV1, HeadersAbsent, ne_eq, readFile_snd_apply hconfig,
      readFile_snd_apply htable] at h
    exact h

/-- **Which files are accepted.** For every state of the files and every previous content of the
buffers and of the parameters, the read obeys its law exactly when both files can be read in full
or the headers left in the buffers are not acceptable, and, where the buffers have no header, the
lengths found in them are within the capacity of the arrays. -/
theorem eepromReadLaw_iff (M : Minipod) (configFile tableFile : EepromFile)
    (dscConfigData : Bytes discipliningConfigFileSize)
    (tempTable : Bytes temperatureTableFileSize)
    (dscParams : DiscipliningParameters M.toMinipodTypes) :
    EepromReadLaw M configFile tableFile dscConfigData tempTable dscParams ↔
      ((ReadableInFull discipliningConfigFileSize configFile ∧
          ReadableInFull temperatureTableFileSize tableFile) ∨
        ¬ (HeadersV1 M (readFile configFile dscConfigData).2 (readFile tableFile tempTable).2 ∨
          HeadersAbsent M (readFile configFile dscConfigData).2
            (readFile tableFile tempTable).2)) ∧
      (HeadersAbsent M (readFile configFile dscConfigData).2 (readFile tableFile tempTable).2 →
        LengthsFit (M.paramsV0.symm (copyV0 M (readFile configFile dscConfigData).2
          (readFile tableFile tempTable).2))) := by
  rw [EepromReadLaw, wellFormedFiles_iff dscConfigData tempTable]
  simp only [readDiscipliningParametersFromEeprom]
  -- what was read matters no more: the headers in the buffers alone decide the return value
  generalize (readFile configFile dscConfigData).2 = config
  generalize (readFile tableFile tempTable).2 = table
  by_cases h1 : HeadersV1 M config table
  · have h0 : ¬ HeadersAbsent M config table := fun h => h.1 h1.1.1
    rw [decodeBuffers_of_headersV1 h1]
    simp [h1, h0]
  · by_cases h0 : HeadersAbsent M config table
    · rw [decodeBuffers_of_headersAbsent h0]
      by_cases hfit : LengthsFit (M.paramsV0.symm (copyV0 M config table))
      · obtain ⟨p, hp⟩ := convertDiscipliningParametersV0ToV1_of_fit hfit dscParams
        rw [hp]
        simp [h0, hfit]
      · rw [convertDiscipliningParametersV0ToV1_of_not_fit hfit]
        simp [h0, hfit]
    · rw [decodeBuffers_of_not h1 h0]
      simp [h1, h0]

/-- A buffer that still holds the header of an earlier read. -/
def leftover (n : ℕ) : Bytes n := fun i =>
  if (i : ℕ) = 0 then packed.headerMagic else if (i : ℕ) = 1 then 1 else 0

/-- Neither file can be opened, and the buffers still hold the headers of an earlier read: the
read succeeds. -/
theorem eepromReadLaw_fails_missing_files :
    ¬ EepromReadLaw packed none none (leftover _) (leftover _) parametersBlank := by
  rintro ⟨ret, dscParams', hread, hret, -⟩
  have hheaders : HeadersV1 packed (leftover _) (leftover _) := ⟨⟨rfl, rfl⟩, rfl, rfl⟩
  have hdecoded : decodeBuffers packed (leftover _) (leftover _) parametersBlank = _ :=
    decodeBuffers_of_headersV1 hheaders
  have hzero : ret = 0 := by
    rw [readDiscipliningParametersFromEeprom] at hread
    simp only [readFile, hdecoded, Option.map_some, Option.some.injEq, Prod.mk.injEq] at hread
    exact hread.1.symm
  obtain ⟨config, table, hconfig, -⟩ := hret.mp hzero
  cases hconfig

end Oscillatord
