import Oscillatord.Eeprom.EepromConfig
import Oscillatord.Eeprom.PackedLayout

/-!
# What a successful save has saved

A save that returns `0` should have left the full image of what it was given in each of its files.
`write_disciplining_parameters_to_disciplining_config_file` hands the failure of its write on, and
its return value can be relied on (`writeDiscipliningParametersToDiscipliningConfigFile_eq_zero`).
The two other writes only log the failure and return `0` whatever happened, so they obey the law
exactly when the files hold the images anyway (`saveLaw_iff`).
-/

namespace Oscillatord

open ObjectRep

variable {M : Minipod}

/-- A file holds an image after the write: all of it is written, or the file cannot be opened and
holds it already. -/
def Saved {n : ℕ} (outcome : WriteOutcome) (file : EepromFile) (image : Bytes n) : Prop :=
  outcome.Full n ∨ outcome = .openFails ∧ file = some (List.ofFn image)

/-- The configuration alone: the return value tells whether the image was written. -/
theorem writeDiscipliningParametersToDiscipliningConfigFile_eq_zero {outcome : WriteOutcome}
    {file : EepromFile} {config : DiscipliningConfigV1 M.toMinipodTypes}
    (h : (writeDiscipliningParametersToDiscipliningConfigFile M outcome file (some config)).1
      = 0) :
    (writeDiscipliningParametersToDiscipliningConfigFile M outcome file (some config)).2
      = some (List.ofFn (configImage M config)) := by
  simp only [writeDiscipliningParametersToDiscipliningConfigFile] at h ⊢
  split_ifs at h ⊢ with hfull
  · cases h
  · exact writeFile_snd_eq_iff.mpr (.inl (writeFile_eq_zero_iff.mp (not_not.mp hfull)))

/-- **The law of the save**: a save that returns `0` has left the full image of the configuration
and of the temperature table in their files, and so has a save of the table alone. -/
structure SaveLaw (M : Minipod) (configOutcome tableOutcome : WriteOutcome)
    (configFile tableFile : EepromFile) (dscParams : DiscipliningParameters M.toMinipodTypes) :
    Prop where
  eeprom : (writeDiscipliningParametersInEeprom M configOutcome tableOutcome configFile tableFile
      (some dscParams)).1 = 0 →
    (writeDiscipliningParametersInEeprom M configOutcome tableOutcome configFile tableFile
      (some dscParams)).2 =
        (some (List.ofFn (configImage M dscParams.dscConfig)),
          some (List.ofFn (tableImage M dscParams.tempTable)))
  temperatureTable : (writeTemperatureTableToTemperatureTableFile M tableOutcome tableFile
      (some dscParams.tempTable)).1 = 0 →
    (writeTemperatureTableToTemperatureTableFile M tableOutcome tableFile
      (some dscParams.tempTable)).2 = some (List.ofFn (tableImage M dscParams.tempTable))

/-- **What a successful save has saved.** For all parameters, all states of the files and all
outcomes of opening and writing them, the saves obey their law exactly when each image is written
in full, or its file cannot be opened and holds the image already. -/
theorem saveLaw_iff (M : Minipod) (configOutcome tableOutcome : WriteOutcome)
    (configFile tableFile : EepromFile) (dscParams : DiscipliningParameters M.toMinipodTypes) :
    SaveLaw M configOutcome tableOutcome configFile tableFile dscParams ↔
      Saved configOutcome configFile (configImage M dscParams.dscConfig) ∧
        Saved tableOutcome tableFile (tableImage M dscParams.tempTable) := by
  have hconfig : (writeFile configOutcome configFile (configImage M dscParams.dscConfig)).2 = _ ↔
      Saved configOutcome configFile (configImage M dscParams.dscConfig) := writeFile_snd_eq_iff
  have htable : (writeFile tableOutcome tableFile (tableImage M dscParams.tempTable)).2 = _ ↔
      Saved tableOutcome tableFile (tableImage M dscParams.tempTable) := writeFile_snd_eq_iff
  constructor
  · intro h
    obtain ⟨hc, ht⟩ := Prod.mk.inj (h.eeprom rfl)
    exact ⟨hconfig.mp hc, htable.mp ht⟩
  · rintro ⟨hc, ht⟩
    refine ⟨fun _ => ?_, fun _ => htable.mpr ht⟩
    exact congrArg₂ Prod.mk (hconfig.mpr hc) (htable.mpr ht)

/-- The configuration file cannot be opened: nothing is saved, and the save succeeds. -/
theorem saveLaw_fails_config_not_opened :
    ¬ SaveLaw packed .openFails (.written 368) none none parametersBlank := by
  intro h
  have hnone : (none : EepromFile) = some _ := (Prod.mk.inj (h.eeprom rfl)).1
  cases hnone

end Oscillatord
