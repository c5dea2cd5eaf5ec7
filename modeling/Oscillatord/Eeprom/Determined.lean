import Oscillatord.Eeprom.Read

/-!
# What a read depends on

The local buffers of `read_disciplining_parameters_from_eeprom` are not initialised, and neither is
the variable its callers hand it. `DependsOnFiles` is that none of this memory reaches the outcome:
two reads of the same files return the same code, the same bytes when it is 0, and lead
`art_eeprom_files_updater` to write the same files.

A file that is missing or short leaves bytes of its buffer as they were, and the conversion of the
older structure leaves the slots it does not use and the padding of `*dsc_params`. So the outcome is
that of the files exactly when the bytes in them are refused whatever follows, or give both
structures of version 1, or give an older structure whose conversion leaves nothing out
(`dependsOnFiles_iff`).
-/

namespace Oscillatord

open ObjectRep

variable (M : Minipod)

/-! ### The memory of a read -/

/-- What a read finds in its buffers and in `*dsc_params`. -/
structure EepromMemory where
  dscConfigData : Bytes discipliningConfigFileSize
  tempTable : Bytes temperatureTableFileSize
  dscParams : DiscipliningParameters M.toMinipodTypes

/-- The read, from some memory. -/
def EepromMemory.read {M : Minipod} (memory : EepromMemory M) (configFile tableFile : EepromFile) :
    Option (ℤ × Option (DiscipliningParameters M.toMinipodTypes)) :=
  readDiscipliningParametersFromEeprom M configFile tableFile memory.dscConfigData
    memory.tempTable (some memory.dscParams)

/-- The updater, from some memory. -/
def EepromMemory.update {M : Minipod} (memory : EepromMemory M)
    (configOutcome tableOutcome : WriteOutcome) (configFile tableFile : EepromFile) :
    Option (ℤ × EepromFile × EepromFile) :=
  artEepromFilesUpdater M configOutcome tableOutcome configFile tableFile memory.dscConfigData
    memory.tempTable memory.dscParams

/-- The same bytes in both structures. -/
def SameBytes (p p' : DiscipliningParameters M.toMinipodTypes) : Prop :=
  M.config p.dscConfig = M.config p'.dscConfig ∧ M.table p.tempTable = M.table p'.tempTable

/-- **The law**: the memory does not reach the outcome. -/
def DependsOnFiles (configFile tableFile : EepromFile) : Prop :=
  ∀ memory memory' : EepromMemory M,
    (∃ ret p p', memory.read configFile tableFile = some (ret, some p) ∧
      memory'.read configFile tableFile = some (ret, some p') ∧ (ret = 0 → SameBytes M p p')) ∧
    ∀ configOutcome tableOutcome,
      memory.update configOutcome tableOutcome configFile tableFile
        = memory'.update configOutcome tableOutcome configFile tableFile

/-! ### What the files say -/

/-- A byte of a file, if the file goes that far. -/
def byteAt (file : EepromFile) (i : ℕ) : Option UInt8 := file.bind fun content => content[i]?

def HasHeader (file : EepromFile) : Prop := byteAt file 0 = some M.headerMagic

def NoHeader (file : EepromFile) : Prop := ∃ byte, byteAt file 0 = some byte ∧ byte ≠ M.headerMagic

def OtherVersion (file : EepromFile) : Prop := ∃ byte, byteAt file 1 = some byte ∧ byte ≠ 1

/-- Files that are refused whatever the buffers held: one begins with the header and goes on with
another version, or the other one begins without it. -/
def AlwaysRefused (configFile tableFile : EepromFile) : Prop :=
  (HasHeader M configFile ∧ (OtherVersion configFile ∨ NoHeader M tableFile)) ∨
    (HasHeader M tableFile ∧ (OtherVersion tableFile ∨ NoHeader M configFile))

/-- Files that hold both structures of version 1. -/
structure CompleteV1 (configFile tableFile : EepromFile) : Prop where
  configHeader : HasHeader M configFile
  configVersion : byteAt configFile 1 = some 1
  config : ReadableInFull M.configSize configFile
  tableHeader : HasHeader M tableFile
  tableVersion : byteAt tableFile 1 = some 1
  table : ReadableInFull M.tableSize tableFile

variable {M}

/-- The older structure a read lays out. -/
def EepromMemory.structureV0 (memory : EepromMemory M) (configFile tableFile : EepromFile) :
    DiscipliningParametersV0 M.toMinipodTypes :=
  M.paramsV0.symm (copyV0 M (readFile configFile memory.dscConfigData).2
    (readFile tableFile memory.tempTable).2)

/-- Two older structures agree but for their padding. -/
def SameFields (v0 v0' : DiscipliningParametersV0 M.toMinipodTypes) : Prop :=
  { v0 with padding := v0'.padding } = v0'

/-- Both lengths are the capacity of the arrays, or beyond. -/
def UsesAllSlots (v0 : DiscipliningParametersV0 M.toMinipodTypes) : Prop :=
  M.calibrationPointsMax ≤ M.turns v0.ctrlNodesLength ∧
    M.calibrationPointsMax ≤ M.turns v0.ctrlNodesLengthFactory

variable (M) in
/-- Files that hold an older structure whose conversion leaves nothing out: no slot, and no byte of
padding. -/
structure CompleteV0 (configFile tableFile : EepromFile) : Prop where
  configHeader : NoHeader M configFile
  tableHeader : NoHeader M tableFile
  lengths : ∀ memory : EepromMemory M, LengthsFit (memory.structureV0 configFile tableFile)
  fields : ∀ memory memory' : EepromMemory M,
    SameFields (memory.structureV0 configFile tableFile)
      (memory'.structureV0 configFile tableFile)
  slots : ∀ memory : EepromMemory M,
    Subsingleton M.Node ∨ UsesAllSlots (memory.structureV0 configFile tableFile)
  paddingConfig : Subsingleton M.PaddingConfig
  paddingTable : Subsingleton M.PaddingTable

/-! ### Bytes of the buffers -/

theorem readFile_snd_eq_getD {n : ℕ} (file : EepromFile) (data : Bytes n) (i : Fin n) :
    (readFile file data).2 i = (byteAt file i).getD (data i) := by
  rcases file with _ | content
  · rfl
  · exact List.getD_eq_getElem?_getD

theorem byteAt_eq_none_of_le {file : EepromFile} {i j : ℕ} (h : byteAt file i = none)
    (hij : i ≤ j) : byteAt file j = none := by
  rcases file with _ | content
  · rfl
  · have hlen : content.length ≤ i := List.getElem?_eq_none_iff.mp h
    exact List.getElem?_eq_none_iff.mpr (hlen.trans hij)

theorem readableInFull_iff {n : ℕ} {file : EepromFile} (hn : 0 < n) :
    ReadableInFull n file ↔ ∀ i < n, byteAt file i ≠ none := by
  rcases file with _ | content
  · refine iff_of_false ?_ fun h => h 0 hn rfl
    rintro ⟨content, hfile, -⟩
    cases hfile
  · constructor
    · rintro ⟨content', hfile, hlen⟩ i hi hnone
      obtain rfl := Option.some.inj hfile
      have hle : content.length ≤ i := List.getElem?_eq_none_iff.mp hnone
      omega
    · intro h
      refine ⟨content, rfl, ?_⟩
      by_contra hlt
      exact h content.length (by omega) (List.getElem?_eq_none_iff.mpr le_rfl)

/-- What a file holds in full does not depend on the buffer. -/
theorem prefixOf_readFile_eq {k n : ℕ} (h : k ≤ n) {file : EepromFile} (hk : 0 < k)
    (hread : ReadableInFull k file) (data data' : Bytes n) :
    prefixOf h (readFile file data).2 = prefixOf h (readFile file data').2 := by
  funext i
  obtain ⟨byte, hbyte⟩ := Option.ne_none_iff_exists'.mp ((readableInFull_iff hk).mp hread i i.isLt)
  simp only [prefixOf, readFile_snd_eq_getD, Fin.val_castLE, hbyte, Option.getD_some]

theorem exists_byte_ne (byte : UInt8) : ∃ other : UInt8, other ≠ byte := by
  by_cases hzero : byte = 0
  · exact ⟨1, by rw [hzero]; decide⟩
  · exact ⟨0, Ne.symm hzero⟩

/-- Bytes of a buffer that no byte of it can change are all in the file. -/
theorem readableInFull_of_prefixOf {k n : ℕ} (hk : 0 < k) (hkn : k ≤ n) {file : EepromFile}
    (data : Bytes n)
    (h : ∀ i other, prefixOf hkn (readFile file data).2
      = prefixOf hkn (readFile file (Function.update data i other)).2) :
    ReadableInFull k file := by
  rw [readableInFull_iff hk]
  intro i hi hnone
  have hlt : i < n := hi.trans_le hkn
  obtain ⟨other, hother⟩ := exists_byte_ne (data ⟨i, hlt⟩)
  have hbyte := congrFun (h ⟨i, hlt⟩ other) ⟨i, hi⟩
  simp only [prefixOf, readFile_snd_eq_getD, Fin.val_castLE, hnone, Option.getD_none] at hbyte
  have hupdated : Function.update data ⟨i, hlt⟩ other ⟨i, hlt⟩ = other := Function.update_self ..
  exact hother (hupdated.symm.trans hbyte.symm)

/-! ### The law in terms of one outcome -/

section Outcome

variable {configFile tableFile : EepromFile}

theorem sameBytes_iff {p p' : DiscipliningParameters M.toMinipodTypes} :
    SameBytes M p p' ↔ p = p' := by
  constructor
  · rintro ⟨hconfig, htable⟩
    exact DiscipliningParameters.ext (M.config.injective hconfig) (M.table.injective htable)
  · rintro rfl
    exact ⟨rfl, rfl⟩

/-- What the updater writes is a function of what it has read. -/
theorem update_eq_of_read {memory memory' : EepromMemory M} {ret : ℤ}
    {p p' : DiscipliningParameters M.toMinipodTypes}
    (h : memory.read configFile tableFile = some (ret, some p))
    (h' : memory'.read configFile tableFile = some (ret, some p')) (hp : ret = 0 → p = p')
    (configOutcome tableOutcome : WriteOutcome) :
    memory.update configOutcome tableOutcome configFile tableFile
      = memory'.update configOutcome tableOutcome configFile tableFile := by
  rw [EepromMemory.read] at h h'
  rw [EepromMemory.update, EepromMemory.update, artEepromFilesUpdater, artEepromFilesUpdater, h, h']
  by_cases hret : ret = 0
  · rw [hp hret]
  · simp [hret]

/-- Two reads of the same files agree, whatever the memory. -/
def ReadsAgree (M : Minipod) (configFile tableFile : EepromFile) : Prop :=
  ∀ memory memory' : EepromMemory M, ∃ ret p p',
    memory.read configFile tableFile = some (ret, some p) ∧
      memory'.read configFile tableFile = some (ret, some p') ∧ (ret = 0 → p = p')

/-- The law is about any two reads. -/
theorem dependsOnFiles_iff_read :
    DependsOnFiles M configFile tableFile ↔ ReadsAgree M configFile tableFile := by
  constructor
  · intro h memory memory'
    obtain ⟨⟨ret, p, p', hread, hread', hsame⟩, -⟩ := h memory memory'
    exact ⟨ret, p, p', hread, hread', fun hret => sameBytes_iff.mp (hsame hret)⟩
  · intro h memory memory'
    obtain ⟨ret, p, p', hread, hread', hsame⟩ := h memory memory'
    exact ⟨⟨ret, p, p', hread, hread', fun hret => sameBytes_iff.mpr (hsame hret)⟩,
      update_eq_of_read hread hread' hsame⟩

/-- Both buffers of a read begin with the header of version 1. -/
def EepromMemory.FindsV1 (memory : EepromMemory M) (configFile tableFile : EepromFile) : Prop :=
  HeadersV1 M (readFile configFile memory.dscConfigData).2 (readFile tableFile memory.tempTable).2

/-- Neither buffer of a read begins with the header. -/
def EepromMemory.FindsV0 (memory : EepromMemory M) (configFile tableFile : EepromFile) : Prop :=
  HeadersAbsent M (readFile configFile memory.dscConfigData).2
    (readFile tableFile memory.tempTable).2

theorem read_of_findsV1 {memory : EepromMemory M} (h : memory.FindsV1 configFile tableFile) :
    memory.read configFile tableFile = some (0, some
      { dscConfig :=
          M.config.symm (prefixOf M.configSize_le (readFile configFile memory.dscConfigData).2)
        tempTable :=
          M.table.symm (prefixOf M.tableSize_le (readFile tableFile memory.tempTable).2) }) := by
  rw [EepromMemory.read, readDiscipliningParametersFromEeprom, decodeBuffers_of_headersV1 h]
  rfl

theorem read_of_findsV0 {memory : EepromMemory M} (h : memory.FindsV0 configFile tableFile) :
    memory.read configFile tableFile =
      (convertDiscipliningParametersV0ToV1 M (memory.structureV0 configFile tableFile)
        memory.dscParams).map fun p => (0, some p) := by
  rw [EepromMemory.read, readDiscipliningParametersFromEeprom, decodeBuffers_of_headersAbsent h,
    Option.map_map]
  rfl

theorem read_of_not {memory : EepromMemory M} (h1 : ¬ memory.FindsV1 configFile tableFile)
    (h0 : ¬ memory.FindsV0 configFile tableFile) :
    memory.read configFile tableFile = some (-1, some memory.dscParams) := by
  rw [EepromMemory.read, readDiscipliningParametersFromEeprom, decodeBuffers_of_not h1 h0]
  rfl

theorem findsV1_iff {memory : EepromMemory M} :
    memory.FindsV1 configFile tableFile ↔
      ((byteAt configFile 0).getD (memory.dscConfigData 0) = M.headerMagic ∧
        (byteAt tableFile 0).getD (memory.tempTable 0) = M.headerMagic) ∧
      (byteAt configFile 1).getD (memory.dscConfigData 1) = 1 ∧
        (byteAt tableFile 1).getD (memory.tempTable 1) = 1 := by
  simp only [EepromMemory.FindsV1, HeadersV1, readFile_snd_eq_getD]
  exact Iff.rfl

theorem findsV0_iff {memory : EepromMemory M} :
    memory.FindsV0 configFile tableFile ↔
      (byteAt configFile 0).getD (memory.dscConfigData 0) ≠ M.headerMagic ∧
        (byteAt tableFile 0).getD (memory.tempTable 0) ≠ M.headerMagic := by
  simp only [EepromMemory.FindsV0, HeadersAbsent, readFile_snd_eq_getD]
  exact Iff.rfl

/-! ### Files that determine the outcome -/

theorem getD_of_hasHeader {file : EepromFile} (h : HasHeader M file) (byte : UInt8) :
    (byteAt file 0).getD byte = M.headerMagic := by
  rw [h, Option.getD_some]

theorem getD_of_noHeader {file : EepromFile} (h : NoHeader M file) (byte : UInt8) :
    (byteAt file 0).getD byte ≠ M.headerMagic := by
  obtain ⟨found, hfound, hne⟩ := h
  rw [hfound, Option.getD_some]
  exact hne

theorem getD_of_otherVersion {file : EepromFile} (h : OtherVersion file) (byte : UInt8) :
    (byteAt file 1).getD byte ≠ 1 := by
  obtain ⟨found, hfound, hne⟩ := h
  rw [hfound, Option.getD_some]
  exact hne

theorem read_of_alwaysRefused (h : AlwaysRefused M configFile tableFile)
    (memory : EepromMemory M) :
    memory.read configFile tableFile = some (-1, some memory.dscParams) := by
  refine read_of_not ?_ ?_
  · rw [findsV1_iff]
    rintro ⟨⟨hconfig, htable⟩, hconfig1, htable1⟩
    rcases h with ⟨-, hother | hno⟩ | ⟨-, hother | hno⟩
    · exact getD_of_otherVersion hother _ hconfig1
    · exact getD_of_noHeader hno _ htable
    · exact getD_of_otherVersion hother _ htable1
    · exact getD_of_noHeader hno _ hconfig
  · rw [findsV0_iff]
    rintro ⟨hconfig, htable⟩
    rcases h with ⟨hhas, -⟩ | ⟨hhas, -⟩
    · exact hconfig (getD_of_hasHeader hhas _)
    · exact htable (getD_of_hasHeader hhas _)

theorem read_of_completeV1 (h : CompleteV1 M configFile tableFile)
    (memory memory' : EepromMemory M) :
    ∃ p, memory.read configFile tableFile = some (0, some p) ∧
      memory'.read configFile tableFile = some (0, some p) := by
  have hfinds : ∀ memory : EepromMemory M, memory.FindsV1 configFile tableFile := by
    intro memory
    rw [findsV1_iff, h.configVersion, h.tableVersion]
    exact ⟨⟨getD_of_hasHeader h.configHeader _, getD_of_hasHeader h.tableHeader _⟩, rfl, rfl⟩
  refine ⟨_, read_of_findsV1 (hfinds memory), ?_⟩
  rw [read_of_findsV1 (hfinds memory'),
    prefixOf_readFile_eq M.configSize_le (Nat.lt_of_succ_lt M.two_le_configSize) h.config _
      memory.dscConfigData,
    prefixOf_readFile_eq M.tableSize_le (Nat.lt_of_succ_lt M.two_le_tableSize) h.table _
      memory.tempTable]

/-! ### The conversion of the older structure -/

/-- The slots of an array after the copying loop. -/
def usedSlots {α : Type} {n : ℕ} (turns : ℕ) (src dst : Fin n → α) : Fin n → α :=
  fun i => if (i : ℕ) < turns then src i else dst i

/-- What the conversion leaves in `*dsc_params` when the lengths fit. -/
def converted (v0 : DiscipliningParametersV0 M.toMinipodTypes)
    (v1 : DiscipliningParameters M.toMinipodTypes) : DiscipliningParameters M.toMinipodTypes :=
  let turns := M.turns v0.ctrlNodesLength
  let turnsFactory := M.turns v0.ctrlNodesLengthFactory
  { dscConfig :=
      { header := M.headerMagic
        version := 1
        ctrlNodesLength := v0.ctrlNodesLength
        ctrlLoadNodes := usedSlots turns v0.ctrlLoadNodes v1.dscConfig.ctrlLoadNodes
        ctrlDriftCoeffs := usedSlots turns v0.ctrlDriftCoeffs v1.dscConfig.ctrlDriftCoeffs
        coarseEquilibrium := v0.coarseEquilibrium
        ctrlNodesLengthFactory := v0.ctrlNodesLengthFactory
        ctrlLoadNodesFactory :=
          usedSlots turnsFactory v0.ctrlLoadNodesFactory v1.dscConfig.ctrlLoadNodesFactory
        ctrlDriftCoeffsFactory :=
          usedSlots turnsFactory v0.ctrlDriftCoeffsFactory v1.dscConfig.ctrlDriftCoeffsFactory
        coarseEquilibriumFactory := v0.coarseEquilibriumFactory
        calibrationValid := v0.calibrationValid
        calibrationDate := v0.calibrationDate
        estimatedEquilibriumES := v0.estimatedEquilibriumES
        padding := v1.dscConfig.padding }
    tempTable :=
      { header := M.headerMagic
        version := 1
        meanFineOverTemperature := v0.meanFineOverTemperature
        padding := v1.tempTable.padding } }

section Conversion

variable {v0 v0' : DiscipliningParametersV0 M.toMinipodTypes}
  {v1 v1' : DiscipliningParameters M.toMinipodTypes}

theorem convert_eq_converted (h : LengthsFit v0)
    (v1 : DiscipliningParameters M.toMinipodTypes) :
    convertDiscipliningParametersV0ToV1 M v0 v1 = some (converted v0 v1) := by
  simp only [convertDiscipliningParametersV0ToV1, copySlots_of_le h.1, copySlots_of_le h.2,
    copySlots_of_le le_rfl, Option.bind_eq_bind, Option.bind_some, Option.pure_def, Fin.is_lt,
    if_true]
  rfl

theorem usedSlots_of_le {α : Type} {n turns : ℕ} {src dst : Fin n → α} (h : n ≤ turns) :
    usedSlots turns src dst = src := by
  funext i
  exact if_pos (i.isLt.trans_le h)

/-- A slot beyond the turns of the loop keeps what it held. -/
theorem le_turns_of_usedSlots {α : Type} [Nontrivial α] {n turns : ℕ} (src : Fin n → α)
    (h : ∀ dst dst' : Fin n → α, usedSlots turns src dst = usedSlots turns src dst') :
    n ≤ turns := by
  by_contra hlt
  obtain ⟨a, b, hab⟩ := exists_pair_ne α
  have hslot := congrFun (h (fun _ => a) fun _ => b) ⟨turns, not_le.mp hlt⟩
  simp only [usedSlots, lt_irrefl, if_false] at hslot
  exact hab hslot

/-- Where every slot is used, the conversion takes the older structure alone. -/
theorem converted_eq_of_uses (hslots : Subsingleton M.Node ∨ UsesAllSlots v0)
    (hconfig : Subsingleton M.PaddingConfig) (htable : Subsingleton M.PaddingTable)
    (hfields : SameFields v0 v0') : converted v0 v1 = converted v0' v1' := by
  have hpadding : converted v0' v1' = converted v0 v1' := by
    rw [← hfields]
    rfl
  have hused : ∀ (turns : ℕ) (src dst dst' : Fin M.calibrationPointsMax → M.Node),
      (Subsingleton M.Node ∨ M.calibrationPointsMax ≤ turns) →
        usedSlots turns src dst = usedSlots turns src dst' := by
    rintro turns src dst dst' (hnode | hle)
    · exact Subsingleton.elim _ _
    · rw [usedSlots_of_le hle, usedSlots_of_le hle]
  have hturns := hslots.imp_right And.left
  have hturnsFactory := hslots.imp_right And.right
  rw [hpadding]
  simp only [converted, Subsingleton.elim v1.dscConfig.padding v1'.dscConfig.padding,
    Subsingleton.elim v1.tempTable.padding v1'.tempTable.padding,
    hused _ v0.ctrlLoadNodes _ v1'.dscConfig.ctrlLoadNodes hturns,
    hused _ v0.ctrlDriftCoeffs _ v1'.dscConfig.ctrlDriftCoeffs hturns,
    hused _ v0.ctrlLoadNodesFactory _ v1'.dscConfig.ctrlLoadNodesFactory hturnsFactory,
    hused _ v0.ctrlDriftCoeffsFactory _ v1'.dscConfig.ctrlDriftCoeffsFactory hturnsFactory]

/-- A conversion that takes the older structure alone uses every slot, and there is no padding. -/
theorem uses_of_converted_eq (h : ∀ v1 v1', converted v0 v1 = converted v0 v1') :
    (Subsingleton M.Node ∨ UsesAllSlots v0) ∧ Subsingleton M.PaddingConfig ∧
      Subsingleton M.PaddingTable := by
  -- a previous content, of which those that differ in one field are made
  let some1 : DiscipliningParameters M.toMinipodTypes :=
    { dscConfig := M.config.symm (zeros _), tempTable := M.table.symm (zeros _) }
  refine ⟨?_, ⟨fun a b => ?_⟩, ⟨fun a b => ?_⟩⟩
  · rcases subsingleton_or_nontrivial M.Node with hnode | hnode
    · exact .inl hnode
    · refine .inr ⟨le_turns_of_usedSlots v0.ctrlLoadNodes fun dst dst' => ?_,
        le_turns_of_usedSlots v0.ctrlLoadNodesFactory fun dst dst' => ?_⟩
      · exact congrArg (·.dscConfig.ctrlLoadNodes)
          (h { some1 with dscConfig := { some1.dscConfig with ctrlLoadNodes := dst } }
            { some1 with dscConfig := { some1.dscConfig with ctrlLoadNodes := dst' } })
      · exact congrArg (·.dscConfig.ctrlLoadNodesFactory)
          (h { some1 with dscConfig := { some1.dscConfig with ctrlLoadNodesFactory := dst } }
            { some1 with dscConfig := { some1.dscConfig with ctrlLoadNodesFactory := dst' } })
  · exact congrArg (·.dscConfig.padding)
      (h { some1 with dscConfig := { some1.dscConfig with padding := a } }
        { some1 with dscConfig := { some1.dscConfig with padding := b } })
  · exact congrArg (·.tempTable.padding)
      (h { some1 with tempTable := { some1.tempTable with padding := a } }
        { some1 with tempTable := { some1.tempTable with padding := b } })

/-- Structures whose conversions are the same, with every slot used, agree but for their padding. -/
theorem sameFields_of_converted_eq (hslots : Subsingleton M.Node ∨ UsesAllSlots v0)
    (hslots' : Subsingleton M.Node ∨ UsesAllSlots v0') (h : converted v0 v1 = converted v0' v1') :
    SameFields v0 v0' := by
  have hnodes : ∀ {turns turns' : ℕ} {src src' dst dst' : Fin M.calibrationPointsMax → M.Node},
      (Subsingleton M.Node ∨ M.calibrationPointsMax ≤ turns) →
      (Subsingleton M.Node ∨ M.calibrationPointsMax ≤ turns') →
      usedSlots turns src dst = usedSlots turns' src' dst' → src = src' := by
    intro turns turns' src src' dst dst' hle hle' hused
    rcases hle with hnode | hle
    · exact Subsingleton.elim _ _
    · rcases hle' with hnode | hle'
      · exact Subsingleton.elim _ _
      · rwa [usedSlots_of_le hle, usedSlots_of_le hle'] at hused
  have hturns := hslots.imp_right And.left
  have hturnsFactory := hslots.imp_right And.right
  have hturns' := hslots'.imp_right And.left
  have hturnsFactory' := hslots'.imp_right And.right
  simp only [converted, DiscipliningParameters.mk.injEq, DiscipliningConfigV1.mk.injEq,
    TemperatureTableV1.mk.injEq, true_and] at h
  obtain ⟨⟨hlength, hload, hdrift, hcoarse, hlengthF, hloadF, hdriftF, hcoarseF, hvalid, hdate,
    hES, -⟩, hmean, -⟩ := h
  exact DiscipliningParametersV0.ext hlength (hnodes hturns hturns' hload)
    (hnodes hturns hturns' hdrift) hcoarse hlengthF (hnodes hturnsFactory hturnsFactory' hloadF)
    (hnodes hturnsFactory hturnsFactory' hdriftF) hcoarseF hvalid hdate hES hmean rfl

end Conversion

/-! ### When the outcome is that of the files -/

theorem findsV0_of_noHeader (hconfig : NoHeader M configFile) (htable : NoHeader M tableFile)
    (memory : EepromMemory M) : memory.FindsV0 configFile tableFile :=
  findsV0_iff.mpr ⟨getD_of_noHeader hconfig _, getD_of_noHeader htable _⟩

/-- Files without a header, whatever the buffers held. -/
theorem readsAgree_of_completeV0 (h : CompleteV0 M configFile tableFile) :
    ReadsAgree M configFile tableFile := by
  have hread : ∀ memory : EepromMemory M, memory.read configFile tableFile
      = some (0, some (converted (memory.structureV0 configFile tableFile) memory.dscParams)) := by
    intro memory
    rw [read_of_findsV0 (findsV0_of_noHeader h.configHeader h.tableHeader memory),
      convert_eq_converted (h.lengths memory)]
    rfl
  intro memory memory'
  refine ⟨0, _, _, hread memory, hread memory', fun _ => ?_⟩
  exact converted_eq_of_uses (h.slots memory) h.paddingConfig h.paddingTable
    (h.fields memory memory')

theorem completeV0_of_readsAgree (hconfig : NoHeader M configFile) (htable : NoHeader M tableFile)
    (h : ReadsAgree M configFile tableFile) : CompleteV0 M configFile tableFile := by
  have hfit : ∀ memory : EepromMemory M, LengthsFit (memory.structureV0 configFile tableFile) := by
    intro memory
    by_contra hnot
    obtain ⟨ret, p, -, hread, -⟩ := h memory memory
    rw [read_of_findsV0 (findsV0_of_noHeader hconfig htable memory),
      convertDiscipliningParametersV0ToV1_of_not_fit hnot] at hread
    cases hread
  have hsame : ∀ memory memory' : EepromMemory M,
      converted (memory.structureV0 configFile tableFile) memory.dscParams
        = converted (memory'.structureV0 configFile tableFile) memory'.dscParams := by
    intro memory memory'
    obtain ⟨ret, p, p', hread, hread', hret⟩ := h memory memory'
    rw [read_of_findsV0 (findsV0_of_noHeader hconfig htable memory),
      convert_eq_converted (hfit memory)] at hread
    rw [read_of_findsV0 (findsV0_of_noHeader hconfig htable memory'),
      convert_eq_converted (hfit memory')] at hread'
    simp only [Option.map_some, Option.some.injEq, Prod.mk.injEq] at hread hread'
    rw [hread.2, hread'.2]
    exact hret hread.1.symm
  -- the buffers stay and only `*dsc_params` changes, of which the conversion leaves nothing
  have huses : ∀ memory : EepromMemory M,
      (Subsingleton M.Node ∨ UsesAllSlots (memory.structureV0 configFile tableFile)) ∧
        Subsingleton M.PaddingConfig ∧ Subsingleton M.PaddingTable := fun memory =>
    uses_of_converted_eq fun v1 v1' =>
      hsame { memory with dscParams := v1 } { memory with dscParams := v1' }
  let memory0 : EepromMemory M :=
    ⟨zeros _, zeros _, M.config.symm (zeros _), M.table.symm (zeros _)⟩
  exact
    { configHeader := hconfig
      tableHeader := htable
      lengths := hfit
      fields := fun memory memory' =>
        sameFields_of_converted_eq (huses memory).1 (huses memory').1 (hsame memory memory')
      slots := fun memory => (huses memory).1
      paddingConfig := (huses memory0).2.1
      paddingTable := (huses memory0).2.2 }

/-- One memory does not lead to a success where another leads to a failure. -/
theorem finds_of_readsAgree (h : ReadsAgree M configFile tableFile) {memory : EepromMemory M}
    (hfinds : memory.FindsV1 configFile tableFile ∨ memory.FindsV0 configFile tableFile)
    (memory' : EepromMemory M) :
    memory'.FindsV1 configFile tableFile ∨ memory'.FindsV0 configFile tableFile := by
  by_contra hnot
  rw [not_or] at hnot
  obtain ⟨ret, p, p', hread, hread', -⟩ := h memory memory'
  rw [read_of_not hnot.1 hnot.2] at hread'
  simp only [Option.some.injEq, Prod.mk.injEq] at hread'
  -- both reads have one return value, which is `0` here and `-1` there
  have hzero : ret = 0 := by
    rcases hfinds with h1 | h0
    · rw [read_of_findsV1 h1] at hread
      simp only [Option.some.injEq, Prod.mk.injEq] at hread
      exact hread.1.symm
    · rw [read_of_findsV0 h0] at hread
      obtain ⟨q, -, hq⟩ := Option.map_eq_some_iff.mp hread
      simp only [Prod.mk.injEq] at hq
      exact hq.1.symm
  omega

theorem byteAt_zero_cases (M : Minipod) (file : EepromFile) :
    byteAt file 0 = none ∨ HasHeader M file ∨ NoHeader M file := by
  rcases hbyte : byteAt file 0 with _ | byte
  · exact .inl rfl
  · by_cases hmagic : byte = M.headerMagic
    · subst hmagic
      exact .inr (.inl hbyte)
    · exact .inr (.inr ⟨byte, hbyte, hmagic⟩)

/-- Memory that holds the header of version 1, or bytes that are no header in one of the
buffers. -/
def headerMemory (M : Minipod) (config table : UInt8) : EepromMemory M where
  dscConfigData i := if (i : ℕ) = 0 then config else 1
  tempTable i := if (i : ℕ) = 0 then table else 1
  dscParams := ⟨M.config.symm (zeros _), M.table.symm (zeros _)⟩

/-- A file without a header goes with a file without a header, or is refused. -/
theorem noHeader_of_noHeader (h : ReadsAgree M configFile tableFile)
    (hrefused : ¬ AlwaysRefused M configFile tableFile) :
    NoHeader M configFile ↔ NoHeader M tableFile := by
  obtain ⟨other, hother⟩ := exists_byte_ne M.headerMagic
  constructor
  · intro hconfig
    -- an empty file leaves the first byte to the buffer, which is chosen either way
    rcases byteAt_zero_cases M tableFile with hnone | hhas | hno
    · have hfinds : (headerMemory M other other).FindsV0 configFile tableFile :=
        findsV0_iff.mpr ⟨getD_of_noHeader hconfig _, by rw [hnone]; exact hother⟩
      rcases finds_of_readsAgree h (.inr hfinds) (headerMemory M other M.headerMagic) with h1 | h0
      · exact absurd (findsV1_iff.mp h1).1.1 (getD_of_noHeader hconfig _)
      · refine absurd ?_ (findsV0_iff.mp h0).2
        rw [hnone]
        rfl
    · exact absurd (.inr ⟨hhas, .inr hconfig⟩) hrefused
    · exact hno
  · intro htable
    rcases byteAt_zero_cases M configFile with hnone | hhas | hno
    · have hfinds : (headerMemory M other other).FindsV0 configFile tableFile :=
        findsV0_iff.mpr ⟨by rw [hnone]; exact hother, getD_of_noHeader htable _⟩
      rcases finds_of_readsAgree h (.inr hfinds) (headerMemory M M.headerMagic other) with h1 | h0
      · exact absurd (findsV1_iff.mp h1).1.2 (getD_of_noHeader htable _)
      · refine absurd ?_ (findsV0_iff.mp h0).1
        rw [hnone]
        rfl
    · exact absurd (.inl ⟨hhas, .inr htable⟩) hrefused
    · exact hno

/-- A file that is not refused and begins with no other byte than the header goes on with no other
version than 1. -/
theorem getD_of_not_otherVersion {file : EepromFile} (hno : ¬ NoHeader M file)
    (hother : HasHeader M file → ¬ OtherVersion file) :
    (byteAt file 0).getD M.headerMagic = M.headerMagic ∧ (byteAt file 1).getD 1 = 1 := by
  rcases byteAt_zero_cases M file with hnone | hhas | hno'
  · rw [hnone, byteAt_eq_none_of_le hnone zero_le_one]
    exact ⟨rfl, rfl⟩
  · refine ⟨getD_of_hasHeader hhas _, ?_⟩
    rcases hbyte : byteAt file 1 with _ | byte
    · rfl
    · by_contra hne
      exact hother hhas ⟨byte, hbyte, hne⟩
  · exact absurd hno' hno

/-- Two reads that succeed in version 1 have the same bytes of both structures. -/
theorem prefixOf_eq_of_readsAgree (h : ReadsAgree M configFile tableFile)
    {memory memory' : EepromMemory M} (h1 : memory.FindsV1 configFile tableFile)
    (h1' : memory'.FindsV1 configFile tableFile) :
    prefixOf M.configSize_le (readFile configFile memory.dscConfigData).2
        = prefixOf M.configSize_le (readFile configFile memory'.dscConfigData).2 ∧
      prefixOf M.tableSize_le (readFile tableFile memory.tempTable).2
        = prefixOf M.tableSize_le (readFile tableFile memory'.tempTable).2 := by
  obtain ⟨ret, p, p', hread, hread', hret⟩ := h memory memory'
  rw [read_of_findsV1 h1] at hread
  rw [read_of_findsV1 h1'] at hread'
  simp only [Option.some.injEq, Prod.mk.injEq] at hread hread'
  obtain ⟨hzero, rfl⟩ := hread
  obtain ⟨-, rfl⟩ := hread'
  have heq := DiscipliningParameters.mk.inj (hret hzero.symm)
  exact ⟨M.config.symm.injective heq.1, M.table.symm.injective heq.2⟩

/-- A byte of the structures that the files do not give changes the outcome. -/
theorem completeV1_of_readsAgree (h : ReadsAgree M configFile tableFile)
    (hrefused : ¬ AlwaysRefused M configFile tableFile) (hconfig : ¬ NoHeader M configFile)
    (htable : ¬ NoHeader M tableFile) : CompleteV1 M configFile tableFile := by
  have hc := getD_of_not_otherVersion hconfig fun hhas hother => hrefused (.inl ⟨hhas, .inl hother⟩)
  have ht := getD_of_not_otherVersion htable fun hhas hother => hrefused (.inr ⟨hhas, .inl hother⟩)
  set memory := headerMemory M M.headerMagic M.headerMagic with hmemory
  have hfinds : memory.FindsV1 configFile tableFile := findsV1_iff.mpr ⟨⟨hc.1, ht.1⟩, hc.2, ht.2⟩
  -- a byte of the buffer that is changed is not in the file, or the outcome changes with it
  have hconfigFull : ReadableInFull M.configSize configFile := by
    refine readableInFull_of_prefixOf (Nat.lt_of_succ_lt M.two_le_configSize) M.configSize_le
      memory.dscConfigData fun i other => ?_
    have hfinds' : ({ memory with dscConfigData := Function.update memory.dscConfigData i other } :
        EepromMemory M).FindsV1 configFile tableFile := by
      refine (finds_of_readsAgree h (.inl hfinds) _).resolve_right fun h0 => ?_
      exact (findsV0_iff.mp h0).2 ht.1
    exact (prefixOf_eq_of_readsAgree h hfinds hfinds').1
  have htableFull : ReadableInFull M.tableSize tableFile := by
    refine readableInFull_of_prefixOf (Nat.lt_of_succ_lt M.two_le_tableSize) M.tableSize_le
      memory.tempTable fun i other => ?_
    have hfinds' : ({ memory with tempTable := Function.update memory.tempTable i other } :
        EepromMemory M).FindsV1 configFile tableFile := by
      refine (finds_of_readsAgree h (.inl hfinds) _).resolve_right fun h0 => ?_
      exact (findsV0_iff.mp h0).1 hc.1
    exact (prefixOf_eq_of_readsAgree h hfinds hfinds').2
  have hbytes : ∀ {k : ℕ} {file : EepromFile}, 2 ≤ k → ReadableInFull k file →
      (byteAt file 0).getD M.headerMagic = M.headerMagic ∧ (byteAt file 1).getD 1 = 1 →
        HasHeader M file ∧ byteAt file 1 = some 1 := by
    intro k file hk hfull hgetD
    have hgiven := (readableInFull_iff (by omega)).mp hfull
    obtain ⟨header, hheader⟩ := Option.ne_none_iff_exists'.mp (hgiven 0 (by omega))
    obtain ⟨version, hversion⟩ := Option.ne_none_iff_exists'.mp (hgiven 1 (by omega))
    rw [hheader, hversion] at hgetD
    rw [HasHeader, hheader, hversion]
    exact ⟨congrArg some hgetD.1, congrArg some hgetD.2⟩
  obtain ⟨hheader, hversion⟩ := hbytes M.two_le_configSize hconfigFull hc
  obtain ⟨htableHeader, htableVersion⟩ := hbytes M.two_le_tableSize htableFull ht
  exact ⟨hheader, hversion, hconfigFull, htableHeader, htableVersion, htableFull⟩

/-- **What a read depends on.** For every content of the two files: the outcome of the read, and
what the updater writes back, are the same whatever the buffers and the parameters held exactly when
the files are always refused, or hold both structures of version 1, or hold an older structure whose
conversion leaves nothing out. -/
theorem dependsOnFiles_iff (M : Minipod) (configFile tableFile : EepromFile) :
    DependsOnFiles M configFile tableFile ↔
      AlwaysRefused M configFile tableFile ∨ CompleteV1 M configFile tableFile ∨
        CompleteV0 M configFile tableFile := by
  rw [dependsOnFiles_iff_read]
  constructor
  · intro h
    by_cases hrefused : AlwaysRefused M configFile tableFile
    · exact .inl hrefused
    refine .inr ?_
    have hiff := noHeader_of_noHeader h hrefused
    by_cases hconfig : NoHeader M configFile
    · exact .inr (completeV0_of_readsAgree hconfig (hiff.mp hconfig) h)
    · exact .inl (completeV1_of_readsAgree h hrefused hconfig fun ht => hconfig (hiff.mpr ht))
  · rintro (hrefused | hcomplete | hcomplete) memory memory'
    · exact ⟨-1, _, _, read_of_alwaysRefused hrefused memory,
        read_of_alwaysRefused hrefused memory', fun hret => absurd hret (by decide)⟩
    · obtain ⟨p, hread, hread'⟩ := read_of_completeV1 hcomplete memory memory'
      exact ⟨0, p, p, hread, hread', fun _ => rfl⟩
    · exact readsAgree_of_completeV0 hcomplete memory memory'

/-- Neither file can be opened: the outcome is that of the buffers. -/
theorem dependsOnFiles_fails_missing_files : ¬ DependsOnFiles packed none none := by
  intro h
  obtain ⟨⟨ret, p, p', hread, hread', -⟩, -⟩ := h ⟨leftover _, leftover _, parametersBlank⟩
    ⟨leftover _, zeros _, parametersBlank⟩
  have hzero : ret = 0 := by
    rw [read_of_findsV1 (findsV1_iff.mpr ⟨⟨rfl, rfl⟩, rfl, rfl⟩)] at hread
    simp only [Option.some.injEq, Prod.mk.injEq] at hread
    exact hread.1.symm
  have hfailed : ret = -1 := by
    rw [read_of_not (fun h1 => absurd (findsV1_iff.mp h1).1.2 (by decide))
      fun h0 => absurd (findsV0_iff.mp h0).1 (by decide)] at hread'
    simp only [Option.some.injEq, Prod.mk.injEq] at hread'
    exact hread'.1.symm
  omega

end Outcome

end Oscillatord
