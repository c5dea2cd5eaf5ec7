import Oscillatord.Library.ObjectRep

/-!
# The structures of the EEPROM files

The disciplining parameters are two structures of the disciplining library, one per file, and in
files written before they had a header a single older structure laid across both. The declarations
are in a header the repository does not hold, so they are a parameter here: `MinipodTypes` gives
the types of the fields and the capacities of the arrays, `Minipod` the sizes and the object
representations. What the code relies on is part of `Minipod`: both current structures begin with
the header byte and the version byte and fit in their files, and the older one needs more than the
first file and no more than both.
-/

namespace Oscillatord

open ObjectRep

/-- `DISCIPLINING_CONFIG_FILE_SIZE`. -/
abbrev discipliningConfigFileSize : ℕ := 144

/-- `TEMPERATURE_TABLE_FILE_SIZE`. -/
abbrev temperatureTableFileSize : ℕ := 368

/-- The types of the fields. Both versions of a field have the same type; a length is compared as
an `int`. -/
structure MinipodTypes where
  NodesLength : Type
  Node : Type
  Equilibrium : Type
  Date : Type
  Valid : Type
  EquilibriumES : Type
  MeanFine : Type
  nodesLengthToInt : NodesLength → ℤ
  /-- `CALIBRATION_POINTS_MAX`. -/
  calibrationPointsMax : ℕ
  /-- `MEAN_TEMPERATURE_ARRAY_MAX`. -/
  meanTemperatureArrayMax : ℕ
  /-- The bytes of each structure between and after its fields. -/
  PaddingConfig : Type
  PaddingTable : Type
  PaddingV0 : Type

variable (T : MinipodTypes)

/-- The nodes of a calibration, as many as the array holds. -/
abbrev CtrlNodes := Fin T.calibrationPointsMax → T.Node

/-- The temperature table proper. -/
abbrev MeanFineOverTemperature := Fin T.meanTemperatureArrayMax → T.MeanFine

/-- `struct disciplining_config_V_1`. -/
@[ext]
structure DiscipliningConfigV1 where
  header : UInt8
  version : UInt8
  ctrlNodesLength : T.NodesLength
  ctrlLoadNodes : CtrlNodes T
  ctrlDriftCoeffs : CtrlNodes T
  coarseEquilibrium : T.Equilibrium
  ctrlNodesLengthFactory : T.NodesLength
  ctrlLoadNodesFactory : CtrlNodes T
  ctrlDriftCoeffsFactory : CtrlNodes T
  coarseEquilibriumFactory : T.Equilibrium
  calibrationValid : T.Valid
  calibrationDate : T.Date
  estimatedEquilibriumES : T.EquilibriumES
  padding : T.PaddingConfig

/-- `struct temperature_table_V_1`. -/
@[ext]
structure TemperatureTableV1 where
  header : UInt8
  version : UInt8
  meanFineOverTemperature : MeanFineOverTemperature T
  padding : T.PaddingTable

/-- `struct disciplining_parameters`, in its current version. -/
@[ext]
structure DiscipliningParameters where
  dscConfig : DiscipliningConfigV1 T
  tempTable : TemperatureTableV1 T

/-- `struct disciplining_parameters_V_0`. -/
@[ext]
structure DiscipliningParametersV0 where
  ctrlNodesLength : T.NodesLength
  ctrlLoadNodes : CtrlNodes T
  ctrlDriftCoeffs : CtrlNodes T
  coarseEquilibrium : T.Equilibrium
  ctrlNodesLengthFactory : T.NodesLength
  ctrlLoadNodesFactory : CtrlNodes T
  ctrlDriftCoeffsFactory : CtrlNodes T
  coarseEquilibriumFactory : T.Equilibrium
  calibrationValid : T.Valid
  calibrationDate : T.Date
  estimatedEquilibriumES : T.EquilibriumES
  meanFineOverTemperature : MeanFineOverTemperature T
  padding : T.PaddingV0

/-- The layout of the structures. -/
structure Minipod extends MinipodTypes where
  /-- `HEADER_MAGIC`. -/
  headerMagic : UInt8
  configSize : ℕ
  tableSize : ℕ
  sizeV0 : ℕ
  configSize_le : configSize ≤ discipliningConfigFileSize
  tableSize_le : tableSize ≤ temperatureTableFileSize
  le_sizeV0 : discipliningConfigFileSize ≤ sizeV0
  sizeV0_le : sizeV0 ≤ discipliningConfigFileSize + temperatureTableFileSize
  two_le_configSize : 2 ≤ configSize
  two_le_tableSize : 2 ≤ tableSize
  config : ObjectRep (DiscipliningConfigV1 toMinipodTypes) configSize
  table : ObjectRep (TemperatureTableV1 toMinipodTypes) tableSize
  paramsV0 : ObjectRep (DiscipliningParametersV0 toMinipodTypes) sizeV0
  config_header : ∀ c, config c ⟨0, by omega⟩ = c.header
  config_version : ∀ c, config c ⟨1, by omega⟩ = c.version
  table_header : ∀ t, table t ⟨0, by omega⟩ = t.header
  table_version : ∀ t, table t ⟨1, by omega⟩ = t.version

end Oscillatord
