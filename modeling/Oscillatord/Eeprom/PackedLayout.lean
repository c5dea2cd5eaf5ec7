import Oscillatord.Eeprom.Layout
import Oscillatord.Library.CNumbers

/-!
# A packed layout

A layout of the structures of the kind the disciplining library declares: the fields one after the
other, without padding, in little-endian order. Numbers other than the lengths are never computed
with, so their fields are known by their bytes.
-/

namespace Oscillatord

open ObjectRep

/-- Fields of the usual sizes, seven calibration points and twelve temperature ranges. -/
def packedTypes : MinipodTypes where
  NodesLength := Bytes 4
  Node := Bytes 4
  Equilibrium := Bytes 4
  Date := Bytes 8
  Valid := UInt8
  EquilibriumES := Bytes 4
  MeanFine := Bytes 2
  nodesLengthToInt length := CNumber.loadI (List.ofFn length) 0 4
  calibrationPointsMax := 7
  meanTemperatureArrayMax := 12
  PaddingConfig := Bytes 0
  PaddingTable := Bytes 0
  PaddingV0 := Bytes 0

/-- The fields of the calibration, laid out one after the other. -/
abbrev PackedCalibration :=
  Bytes 4 × (Fin 7 → Bytes 4) × (Fin 7 → Bytes 4) × Bytes 4 × Bytes 4 × (Fin 7 → Bytes 4) ×
    (Fin 7 → Bytes 4) × Bytes 4 × UInt8 × Bytes 8 × Bytes 4

/-- Their representation. -/
def packedCalibration : ObjectRep PackedCalibration 141 :=
  pair (raw 4) <| pair (array 7 (raw 4)) <| pair (array 7 (raw 4)) <| pair (raw 4) <|
    pair (raw 4) <| pair (array 7 (raw 4)) <| pair (array 7 (raw 4)) <| pair (raw 4) <|
      pair byte <| pair (raw 8) (raw 4)

/-- The fields of a configuration, in their order. -/
def packedConfigFields :
    DiscipliningConfigV1 packedTypes ≃ UInt8 × UInt8 × PackedCalibration × Bytes 0 where
  toFun c :=
    (c.header, c.version,
      (c.ctrlNodesLength, c.ctrlLoadNodes, c.ctrlDriftCoeffs, c.coarseEquilibrium,
        c.ctrlNodesLengthFactory, c.ctrlLoadNodesFactory, c.ctrlDriftCoeffsFactory,
        c.coarseEquilibriumFactory, c.calibrationValid, c.calibrationDate,
        c.estimatedEquilibriumES),
      c.padding)
  invFun
    | (header, version, (ctrlNodesLength, ctrlLoadNodes, ctrlDriftCoeffs, coarseEquilibrium,
        ctrlNodesLengthFactory, ctrlLoadNodesFactory, ctrlDriftCoeffsFactory,
        coarseEquilibriumFactory, calibrationValid, calibrationDate, estimatedEquilibriumES),
        padding) =>
      { header, version, ctrlNodesLength, ctrlLoadNodes, ctrlDriftCoeffs, coarseEquilibrium
        ctrlNodesLengthFactory, ctrlLoadNodesFactory, ctrlDriftCoeffsFactory
        coarseEquilibriumFactory, calibrationValid, calibrationDate, estimatedEquilibriumES
        padding }
  left_inv _ := rfl
  right_inv _ := rfl

/-- The fields of a temperature table, in their order. -/
def packedTableFields :
    TemperatureTableV1 packedTypes ≃ UInt8 × UInt8 × (Fin 12 → Bytes 2) × Bytes 0 where
  toFun t := (t.header, t.version, t.meanFineOverTemperature, t.padding)
  invFun
    | (header, version, meanFineOverTemperature, padding) =>
      { header, version, meanFineOverTemperature, padding }
  left_inv _ := rfl
  right_inv _ := rfl

/-- The fields of the older structure, in their order. -/
def packedV0Fields :
    DiscipliningParametersV0 packedTypes ≃ PackedCalibration × (Fin 12 → Bytes 2) × Bytes 0 where
  toFun v :=
    ((v.ctrlNodesLength, v.ctrlLoadNodes, v.ctrlDriftCoeffs, v.coarseEquilibrium,
        v.ctrlNodesLengthFactory, v.ctrlLoadNodesFactory, v.ctrlDriftCoeffsFactory,
        v.coarseEquilibriumFactory, v.calibrationValid, v.calibrationDate,
        v.estimatedEquilibriumES),
      v.meanFineOverTemperature, v.padding)
  invFun
    | ((ctrlNodesLength, ctrlLoadNodes, ctrlDriftCoeffs, coarseEquilibrium,
        ctrlNodesLengthFactory, ctrlLoadNodesFactory, ctrlDriftCoeffsFactory,
        coarseEquilibriumFactory, calibrationValid, calibrationDate, estimatedEquilibriumES),
        meanFineOverTemperature, padding) =>
      { ctrlNodesLength, ctrlLoadNodes, ctrlDriftCoeffs, coarseEquilibrium
        ctrlNodesLengthFactory, ctrlLoadNodesFactory, ctrlDriftCoeffsFactory
        coarseEquilibriumFactory, calibrationValid, calibrationDate, estimatedEquilibriumES
        meanFineOverTemperature, padding }
  left_inv _ := rfl
  right_inv _ := rfl

/-- Two bytes and a rest, in representation. -/
def headed {α : Type} {n : ℕ} (r : ObjectRep α n) :
    ObjectRep (UInt8 × UInt8 × α) (1 + (1 + n)) :=
  pair byte (pair byte r)

theorem headed_apply_zero {α : Type} {n : ℕ} (r : ObjectRep α n) (x : UInt8 × UInt8 × α)
    (h : 0 < 1 + (1 + n)) : headed r x ⟨0, h⟩ = x.1 :=
  pair_apply_castAdd byte (pair byte r) x 0

theorem headed_apply_one {α : Type} {n : ℕ} (r : ObjectRep α n) (x : UInt8 × UInt8 × α)
    (h : 1 < 1 + (1 + n)) : headed r x ⟨1, h⟩ = x.2.1 :=
  (pair_apply_natAdd byte (pair byte r) x (Fin.castAdd n 0)).trans
    (pair_apply_castAdd byte r x.2 0)

/-- The packed layout. -/
def packed : Minipod where
  toMinipodTypes := packedTypes
  headerMagic := 0x4F
  configSize := 143
  tableSize := 26
  sizeV0 := 165
  configSize_le := by decide
  tableSize_le := by decide
  le_sizeV0 := by decide
  sizeV0_le := by decide
  two_le_configSize := by decide
  two_le_tableSize := by decide
  config := packedConfigFields.trans (headed (pair packedCalibration (raw 0)))
  table := packedTableFields.trans (headed (pair (array 12 (raw 2)) (raw 0)))
  paramsV0 := packedV0Fields.trans (pair packedCalibration (pair (array 12 (raw 2)) (raw 0)))
  config_header _ := headed_apply_zero _ _ _
  config_version _ := headed_apply_one _ _ _
  table_header _ := headed_apply_zero _ _ _
  table_version _ := headed_apply_one _ _ _

/-- Parameters in fresh memory. -/
def parametersBlank : DiscipliningParameters packed.toMinipodTypes :=
  { dscConfig := packed.config.symm fun _ => 0, tempTable := packed.table.symm fun _ => 0 }

end Oscillatord
