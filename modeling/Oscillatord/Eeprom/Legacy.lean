import Oscillatord.Eeprom.RoundTrip

/-!
# Files of the older structure

Before the files had a header, one older structure was laid across both: its first bytes in the
first file, the others at the beginning of the second. The read recognises such files by what the
first byte of each is not. The first byte of the second file is then a byte from the middle of the
structure, which may have any value: an older structure is recovered, all of it, exactly when that
byte is not the one a header begins with (`legacyLaw_iff`).
-/

namespace Oscillatord

open ObjectRep

variable {M : Minipod}

/-- The files hold an older structure: the first one its first bytes, and the second one begins
with the others. -/
structure HoldsV0 (M : Minipod) (v0 : DiscipliningParametersV0 M.toMinipodTypes)
    (config table : List UInt8) : Prop where
  config : ∀ i : Fin M.sizeV0, (i : ℕ) < discipliningConfigFileSize →
    config[(i : ℕ)]? = some (M.paramsV0 v0 i)
  table : ∀ i : Fin M.sizeV0, discipliningConfigFileSize ≤ (i : ℕ) →
    table[(i : ℕ) - discipliningConfigFileSize]? = some (M.paramsV0 v0 i)

/-- The parameters have every scalar, every used slot of an array and every entry of the
temperature table of an older structure. -/
structure RecoveredFrom (v0 : DiscipliningParametersV0 M.toMinipodTypes)
    (p : DiscipliningParameters M.toMinipodTypes) : Prop where
  ctrlNodesLength : p.dscConfig.ctrlNodesLength = v0.ctrlNodesLength
  ctrlLoadNodes : ∀ i : Fin M.calibrationPointsMax, (i : ℕ) < M.turns v0.ctrlNodesLength →
    p.dscConfig.ctrlLoadNodes i = v0.ctrlLoadNodes i
  ctrlDriftCoeffs : ∀ i : Fin M.calibrationPointsMax, (i : ℕ) < M.turns v0.ctrlNodesLength →
    p.dscConfig.ctrlDriftCoeffs i = v0.ctrlDriftCoeffs i
  coarseEquilibrium : p.dscConfig.coarseEquilibrium = v0.coarseEquilibrium
  ctrlNodesLengthFactory : p.dscConfig.ctrlNodesLengthFactory = v0.ctrlNodesLengthFactory
  ctrlLoadNodesFactory : ∀ i : Fin M.calibrationPointsMax,
    (i : ℕ) < M.turns v0.ctrlNodesLengthFactory →
      p.dscConfig.ctrlLoadNodesFactory i = v0.ctrlLoadNodesFactory i
  ctrlDriftCoeffsFactory : ∀ i : Fin M.calibrationPointsMax,
    (i : ℕ) < M.turns v0.ctrlNodesLengthFactory →
      p.dscConfig.ctrlDriftCoeffsFactory i = v0.ctrlDriftCoeffsFactory i
  coarseEquilibriumFactory :
    p.dscConfig.coarseEquilibriumFactory = v0.coarseEquilibriumFactory
  calibrationValid : p.dscConfig.calibrationValid = v0.calibrationValid
  calibrationDate : p.dscConfig.calibrationDate = v0.calibrationDate
  estimatedEquilibriumES : p.dscConfig.estimatedEquilibriumES = v0.estimatedEquilibriumES
  meanFineOverTemperature : ∀ i, p.tempTable.meanFineOverTemperature i
    = v0.meanFineOverTemperature i

/-- The conversion loses nothing of an older structure whose lengths fit. -/
theorem exists_convert_recoveredFrom {v0 : DiscipliningParametersV0 M.toMinipodTypes}
    (hfit : LengthsFit v0) (v1 : DiscipliningParameters M.toMinipodTypes) :
    ∃ p, convertDiscipliningParametersV0ToV1 M v0 v1 = some p ∧ RecoveredFrom v0 p := by
  simp only [convertDiscipliningParametersV0ToV1, copySlots_of_le hfit.1, copySlots_of_le hfit.2,
    copySlots_of_le le_rfl, Option.bind_eq_bind, Option.bind_some, Option.pure_def]
  refine ⟨_, rfl, ?_⟩
  constructor
  case ctrlLoadNodes => exact fun i hi => if_pos hi
  case ctrlDriftCoeffs => exact fun i hi => if_pos hi
  case ctrlLoadNodesFactory => exact fun i hi => if_pos hi
  case ctrlDriftCoeffsFactory => exact fun i hi => if_pos hi
  case meanFineOverTemperature => exact fun i => if_pos i.isLt
  all_goals rfl

/-! ### What the buffers hold -/

section Files

variable {v0 : DiscipliningParametersV0 M.toMinipodTypes} {config table : List UInt8}
  {dscConfigData : Bytes discipliningConfigFileSize} {tempTable : Bytes temperatureTableFileSize}

/-- A byte of a buffer is the byte of the file that is read into it. -/
theorem readFile_snd_of_getElem? {n : ℕ} {content : List UInt8} {data : Bytes n} {i : Fin n}
    {byte : UInt8} (h : content[(i : ℕ)]? = some byte) :
    (readFile (some content) data).2 i = byte := by
  simp [readFile, filled, List.getD_eq_getElem?_getD, h]

/-- The copies put the older structure together again. -/
theorem HoldsV0.copyV0_eq (h : HoldsV0 M v0 config table) :
    copyV0 M (readFile (some config) dscConfigData).2 (readFile (some table) tempTable).2
      = M.paramsV0 v0 := by
  funext i
  by_cases hi : (i : ℕ) < discipliningConfigFileSize
  · rw [copyV0, dif_pos hi]
    exact readFile_snd_of_getElem? (h.config i hi)
  · rw [copyV0, dif_neg hi]
    exact readFile_snd_of_getElem? (h.table i (not_lt.mp hi))

/-- The first byte of the first buffer is the first byte of the older structure. -/
theorem HoldsV0.config_zero (h : HoldsV0 M v0 config table) (hpos : 0 < M.sizeV0) :
    (readFile (some config) dscConfigData).2 0 = M.paramsV0 v0 ⟨0, hpos⟩ :=
  readFile_snd_of_getElem? (h.config ⟨0, hpos⟩ (by simp))

/-- The first byte of the second buffer is the byte of the older structure the first file has no
place for. -/
theorem HoldsV0.table_zero (h : HoldsV0 M v0 config table)
    (hsize : discipliningConfigFileSize < M.sizeV0) :
    (readFile (some table) tempTable).2 0
      = M.paramsV0 v0 ⟨discipliningConfigFileSize, hsize⟩ := by
  have hbyte := h.table ⟨discipliningConfigFileSize, hsize⟩ le_rfl
  simp only [Nat.sub_self] at hbyte
  exact readFile_snd_of_getElem? hbyte

end Files

/-! ### The law -/

/-- **The law of the older files**: the read succeeds and recovers the structure. -/
def LegacyLaw (M : Minipod) (v0 : DiscipliningParametersV0 M.toMinipodTypes)
    (config table : List UInt8) (dscConfigData : Bytes discipliningConfigFileSize)
    (tempTable : Bytes temperatureTableFileSize)
    (dscParams : DiscipliningParameters M.toMinipodTypes) : Prop :=
  ∃ p, readDiscipliningParametersFromEeprom M (some config) (some table) dscConfigData tempTable
      (some dscParams) = some (0, some p) ∧ RecoveredFrom v0 p

/-- **Which older files are recovered.** Whatever the layout, for every older structure whose
lengths fit and which does not begin with the header byte, and for every pair of files that holds
it: the read recovers the structure exactly when its byte at the beginning of the second file is
not the header byte. -/
theorem legacyLaw_iff (M : Minipod) {v0 : DiscipliningParametersV0 M.toMinipodTypes}
    (hsize : discipliningConfigFileSize < M.sizeV0) (hfit : LengthsFit v0)
    (hheader : M.paramsV0 v0 ⟨0, Nat.zero_lt_of_lt hsize⟩ ≠ M.headerMagic)
    {config table : List UInt8} (hfiles : HoldsV0 M v0 config table)
    (dscConfigData : Bytes discipliningConfigFileSize)
    (tempTable : Bytes temperatureTableFileSize)
    (dscParams : DiscipliningParameters M.toMinipodTypes) :
    LegacyLaw M v0 config table dscConfigData tempTable dscParams ↔
      M.paramsV0 v0 ⟨discipliningConfigFileSize, hsize⟩ ≠ M.headerMagic := by
  have hconfig : (readFile (some config) dscConfigData).2 0 ≠ M.headerMagic := by
    rw [hfiles.config_zero (Nat.zero_lt_of_lt hsize)]
    exact hheader
  have htable : (readFile (some table) tempTable).2 0
      = M.paramsV0 v0 ⟨discipliningConfigFileSize, hsize⟩ := hfiles.table_zero hsize
  constructor
  · rintro ⟨p, hread, -⟩ hmagic
    -- with the header byte there, the second file seems to have a header and the first one none
    have h1 : ¬ HeadersV1 M (readFile (some config) dscConfigData).2
        (readFile (some table) tempTable).2 := fun h => hconfig h.1.1
    have h0 : ¬ HeadersAbsent M (readFile (some config) dscConfigData).2
        (readFile (some table) tempTable).2 := fun h => h.2 (htable.trans hmagic)
    rw [readDiscipliningParametersFromEeprom, decodeBuffers_of_not h1 h0] at hread
    simp at hread
  · intro hmagic
    have h0 : HeadersAbsent M (readFile (some config) dscConfigData).2
        (readFile (some table) tempTable).2 := ⟨hconfig, by rw [htable]; exact hmagic⟩
    obtain ⟨p, hp, hrecovered⟩ := exists_convert_recoveredFrom hfit dscParams
    refine ⟨p, ?_, hrecovered⟩
    rw [readDiscipliningParametersFromEeprom, decodeBuffers_of_headersAbsent h0,
      hfiles.copyV0_eq, M.paramsV0.symm_apply_apply, hp]
    rfl

/-- The files that hold an older structure and nothing else of interest. -/
theorem holdsV0_halves (v0 : DiscipliningParametersV0 M.toMinipodTypes)
    (others : Bytes temperatureTableFileSize) :
    HoldsV0 M v0 (List.ofFn (configHalf v0)) (List.ofFn (tableHalf v0 others)) := by
  constructor
  · intro i hi
    rw [List.getElem?_ofFn, dif_pos hi]
    rfl
  · intro i hi
    have hlt : (i : ℕ) - discipliningConfigFileSize < temperatureTableFileSize := by
      have := M.sizeV0_le
      omega
    have hsum : discipliningConfigFileSize + ((i : ℕ) - discipliningConfigFileSize) = i := by
      omega
    rw [List.getElem?_ofFn, dif_pos hlt]
    simp only [tableHalf, hsum, i.isLt, dif_pos]

/-- An older calibration is recovered from its files. -/
theorem legacyLaw_calibrationV0 :
    LegacyLaw packed calibrationV0 (List.ofFn (configHalf calibrationV0))
      (List.ofFn (tableHalf calibrationV0 (zeros _))) (zeros _) (zeros _) parametersBlank :=
  (legacyLaw_iff packed (by decide) ⟨by decide +kernel, by decide +kernel⟩ (by decide +kernel)
    (holdsV0_halves calibrationV0 _) _ _ _).mpr (by decide +kernel)

/-- The same calibration, with a temperature table whose second entry ends with the header
byte. -/
def calibrationCollides : DiscipliningParametersV0 packed.toMinipodTypes :=
  { calibrationV0 with meanFineOverTemperature := fun _ => ![0, 0x4F] }

/-- Its second file begins with the header byte: the calibration is refused. -/
theorem legacyLaw_fails_header_byte :
    LengthsFit calibrationCollides ∧
      packed.paramsV0 calibrationCollides ⟨0, by decide⟩ ≠ packed.headerMagic ∧
      HoldsV0 packed calibrationCollides (List.ofFn (configHalf calibrationCollides))
        (List.ofFn (tableHalf calibrationCollides (zeros _))) ∧
      ¬ LegacyLaw packed calibrationCollides (List.ofFn (configHalf calibrationCollides))
        (List.ofFn (tableHalf calibrationCollides (zeros _))) (zeros _) (zeros _)
          parametersBlank := by
  refine ⟨⟨by decide +kernel, by decide +kernel⟩, by decide +kernel, holdsV0_halves _ _, ?_⟩
  rintro ⟨p, hread, -⟩
  have h1 : ¬ HeadersV1 packed (configHalf calibrationCollides)
      (tableHalf calibrationCollides (zeros _)) := fun h => absurd h.1.1 (by decide +kernel)
  have h0 : ¬ HeadersAbsent packed (configHalf calibrationCollides)
      (tableHalf calibrationCollides (zeros _)) := fun h => absurd h.2 (by decide +kernel)
  simp only [readDiscipliningParametersFromEeprom, readFile, filled_ofFn,
    decodeBuffers_of_not h1 h0, Option.map_some, Option.some.injEq, Prod.mk.injEq] at hread
  exact absurd hread.1 (by decide)

end Oscillatord
