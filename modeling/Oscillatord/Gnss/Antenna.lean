import Oscillatord.Gnss.Thread
import Oscillatord.Library.Lists

/-!
# The antenna status of several RF blocks

A UBX-MON-RF message carries one block per RF front end. `gnss_get_antenna_data` merges their
statuses and their powers into one of each: `0x5` stands for "no block yet", and `0x2` is kept
only until another value comes. So what is merged is the first value other than these two, or the
last value where every block has one of them (`antennaMerge_eq`).

`AntennaLaw` asks that the merge be that of the worst: independent of the order of the blocks,
and OK exactly when every block is. It holds of a message exactly when the statuses and the powers
are each `Settled` (`antennaLaw_iff`): two blocks that differ and are neither `0x2` nor `0x5`, or
`0x2` beside `0x5` alone, are told apart by their order.
-/

namespace Oscillatord

open CNumber Lists

/-! ### Messages -/

/-- One RF block. -/
abbrev RfBlock := Fin 24 → UInt8

/-- `antStatus` of a block. -/
def RfBlock.antStatus (block : RfBlock) : UInt8 := block 2

/-- `antPower` of a block. -/
def RfBlock.antPower (block : RfBlock) : UInt8 := block 3

/-- A UBX-MON-RF message, with at least one block. -/
structure MonRf where
  length : Fin 2 → UInt8
  group0 : Fin 4 → UInt8
  blocks : List RfBlock
  checksum : Fin 2 → UInt8
  nonempty : blocks ≠ []

/-- The frame up to its blocks. -/
def MonRf.head (rf : MonRf) : List UInt8 :=
  [0xb5, 0x62, 0x0a, 0x38] ++ List.ofFn rf.length ++ List.ofFn rf.group0

/-- The message as the receive library delivers it. -/
def MonRf.msg (rf : MonRf) : ParserMsgT :=
  { type := .ubx
    data := rf.head ++ (rf.blocks.map List.ofFn).flatten ++ List.ofFn rf.checksum }

variable (session : GpsDeviceT) (rf : MonRf)

@[simp] theorem length_head : rf.head.length = 10 := by
  simp [MonRf.head]

theorem length_flatten_blocks (blocks : List RfBlock) :
    (blocks.map List.ofFn).flatten.length = 24 * blocks.length := by
  induction blocks with
  | nil => rfl
  | cons block blocks ih =>
    rw [List.map_cons, List.flatten_cons, List.length_append, List.length_ofFn, ih,
      List.length_cons]
    ring

theorem length_data_msg : rf.msg.data.length = 24 * rf.blocks.length + 12 := by
  simp only [MonRf.msg, List.length_append, length_head, length_flatten_blocks,
    List.length_ofFn]
  omega

/-- A byte of a block, at its place in the frame. -/
theorem loadByte_block {k : ℕ} (hk : k < rf.blocks.length) (i : Fin 24) :
    loadByte rf.msg.data (10 + 24 * k + i) = rf.blocks[k] i := by
  have hrows : ∀ row ∈ rf.blocks.map List.ofFn, row.length = 24 := by
    intro row hrow
    obtain ⟨block, -, rfl⟩ := List.mem_map.mp hrow
    exact List.length_ofFn
  have hget := getElem?_flatten_of_length hrows (i := k) i.isLt
  have hlt : k * 24 + i < (rf.blocks.map List.ofFn).flatten.length := by
    rw [length_flatten_blocks]
    omega
  rw [loadByte, MonRf.msg, List.append_assoc, List.getD_eq_getElem?_getD,
    List.getElem?_append_right (by rw [length_head]; omega), length_head,
    show 10 + 24 * k + (i : ℕ) - 10 = k * 24 + i by omega, List.getElem?_append_left hlt, hget,
    List.getElem?_map, List.getElem?_eq_getElem hk, Option.map_some, Option.bind_some,
    List.getElem?_eq_getElem (by simp), Option.getD_some, List.getElem_ofFn]

/-- The loop takes the blocks of the message. -/
theorem antennaBlocks_msg :
    antennaBlocks rf.msg.data = rf.blocks.map fun block => (block.antStatus, block.antPower) := by
  have hcount : (rf.msg.data.length - 2 - (ubxHeadSize + 4)) / 24 = rf.blocks.length := by
    rw [length_data_msg, ubxHeadSize]
    omega
  refine List.ext_getElem (by simp [antennaBlocks, hcount]) fun k hk hk' => ?_
  have hlt : k < rf.blocks.length := by simpa using hk'
  have hstatus := loadByte_block rf hlt 2
  have hpower := loadByte_block rf hlt 3
  simp only [antennaBlocks, List.getElem_map, List.getElem_range, ubxHeadSize]
  exact Prod.ext hstatus hpower

/-! ### The merge -/

/-- A value that is kept once it has come: neither OK (for the power: unknown) nor the value
before the first block. -/
def keptByMerge (value : UInt8) : Bool := value ≠ 2 && value ≠ 5

/-- A byte stored in an `int8_t` is that of another byte only if the bytes are equal. -/
theorem toSigned_toNat_inj {a b : UInt8} : toSigned 8 a.toNat = toSigned 8 b.toNat ↔ a = b := by
  have ha := a.toNat_lt
  have hb := b.toNat_lt
  constructor
  · intro h
    simp only [toSigned, Int.bmod_def] at h
    exact UInt8.toNat_inj.mp (by omega)
  · rintro rfl
    rfl

theorem toSigned_eq_two_iff {a : UInt8} : toSigned 8 a.toNat = 2 ↔ a = 2 := by
  have htwo : toSigned 8 (2 : UInt8).toNat = 2 := by decide
  rw [← htwo, toSigned_toNat_inj]

/-- One turn of the loop, on bytes: a stored OK gives way to OK as well. -/
theorem antennaWorst_toSigned (current value : UInt8) :
    toSigned 8 (antennaWorst (toSigned 8 current.toNat) value.toNat)
      = toSigned 8 (if keptByMerge current then current else value).toNat := by
  have h5 : toSigned 8 current.toNat = 5 ↔ current = 5 := by
    rw [← toSigned_toNat_inj, show toSigned 8 (5 : UInt8).toNat = 5 by decide]
  have hvalue : (value.toNat : ℤ) = 2 ↔ value = 2 := by
    rw [← UInt8.toNat_inj]
    exact Nat.cast_inj (n := 2)
  simp only [antennaWorst, h5, toSigned_eq_two_iff, ne_eq, hvalue, keptByMerge]
  by_cases hcurrent5 : current = 5
  · simp [hcurrent5]
  · by_cases hcurrent2 : current = 2
    · by_cases hvalue2 : value = 2
      · subst hcurrent2 hvalue2
        decide
      · simp [hcurrent2, hvalue2]
    · have hbounds := toSigned_bounds (w := 8) (by decide) (current.toNat : ℤ)
      have hself : toSigned 8 (toSigned 8 current.toNat) = toSigned 8 current.toNat :=
        toSigned_eq_self (by decide) hbounds.1 hbounds.2
      simp [hcurrent5, hcurrent2, hself]

/-- **What is merged**: the first value that is kept, or the last one. -/
theorem antennaMerge_eq (values : List UInt8) :
    values.foldl (fun (current : ℤ) value => toSigned 8 (antennaWorst current value.toNat)) 5
      = toSigned 8 (firstOrLast keptByMerge 5 values).toNat := by
  have hfold : ∀ start : UInt8,
      values.foldl (fun (current : ℤ) value => toSigned 8 (antennaWorst current value.toNat))
          (toSigned 8 start.toNat)
        = toSigned 8 (values.foldl
            (fun current value => if keptByMerge current then current else value) start).toNat := by
    induction values with
    | nil => simp
    | cons value values ih =>
      intro start
      rw [List.foldl_cons, List.foldl_cons, antennaWorst_toSigned, ih]
  have hinit : keptByMerge 5 = false := by decide
  have hstart : (5 : ℤ) = toSigned 8 (5 : UInt8).toNat := by decide
  rw [← foldl_eq_firstOrLast hinit, ← hfold, ← hstart]

/-- The session after a message with these blocks. -/
theorem gnssGetAntennaData_msg :
    gnssGetAntennaData session rf.msg
      = { session with
          antennaStatus :=
            toSigned 8 (firstOrLast keptByMerge 5 (rf.blocks.map RfBlock.antStatus)).toNat
          antennaPower :=
            toSigned 8 (firstOrLast keptByMerge 5 (rf.blocks.map RfBlock.antPower)).toNat } := by
  have hpos : 0 < rf.blocks.length := List.length_pos_of_ne_nil rf.nonempty
  have hsize : rf.msg.size > ubxFrameSize + 4 ∧ rf.msg.size ≥ 4 + ubxFrameSize := by
    simp only [ParserMsgT.size, length_data_msg, ubxFrameSize]
    omega
  rw [gnssGetAntennaData, if_pos hsize, antennaBlocks_msg]
  simp only [← antennaMerge_eq, List.foldl_map]

@[simp] theorem antennaStatus_msg : (gnssGetAntennaData session rf.msg).antennaStatus
    = toSigned 8 (firstOrLast keptByMerge 5 (rf.blocks.map RfBlock.antStatus)).toNat := by
  rw [gnssGetAntennaData_msg]

@[simp] theorem antennaPower_msg : (gnssGetAntennaData session rf.msg).antennaPower
    = toSigned 8 (firstOrLast keptByMerge 5 (rf.blocks.map RfBlock.antPower)).toNat := by
  rw [gnssGetAntennaData_msg]

/-! ### The law -/

/-- **The law of the antenna status**, for the merge of one message: what the thread makes of it
does not depend on the order of the blocks, and the status is OK exactly when every block is,
otherwise that of a block that is not. -/
structure AntennaLaw : Prop where
  order : ∀ other : MonRf, other.blocks.Perm rf.blocks →
    gnssGetAntennaData session other.msg = gnssGetAntennaData session rf.msg ∧
      gnssThreadAnalyze session other.msg = gnssThreadAnalyze session rf.msg
  ok : (gnssGetAntennaData session rf.msg).antennaStatus = 2 ↔
    ∀ block ∈ rf.blocks, block.antStatus = 2
  worst : (gnssGetAntennaData session rf.msg).antennaStatus ≠ 2 →
    ∃ block ∈ rf.blocks, block.antStatus ≠ 2 ∧
      (gnssGetAntennaData session rf.msg).antennaStatus = toSigned 8 block.antStatus.toNat

/-- The thread makes of a UBX-MON-RF message what the merge makes of it. -/
theorem gnssThreadAnalyze_msg :
    gnssThreadAnalyze session rf.msg =
      let session := gnssGetAntennaData session rf.msg
      if session.antennaPower = 0 then (gnssResetSessionNavigationData session, [.condData])
      else (session, []) := by
  have hclass : ubxClsId rf.msg = 0x0a ∧ ubxMsgId rf.msg = 0x38 := ⟨rfl, rfl⟩
  rw [gnssThreadAnalyze, if_pos hclass]

/-- The merged status of settled blocks is OK exactly when every block is. -/
theorem firstOrLast_antStatus_eq_iff
    (hsettled : Lists.Settled keptByMerge (rf.blocks.map RfBlock.antStatus)) :
    firstOrLast keptByMerge 5 (rf.blocks.map RfBlock.antStatus) = 2 ↔
      ∀ block ∈ rf.blocks, block.antStatus = 2 := by
  have hne : rf.blocks.map RfBlock.antStatus ≠ [] := by simpa using rf.nonempty
  have hmem := firstOrLast_mem (p := keptByMerge) 5 hne
  constructor
  · intro hok block hblock
    have hnone : ∀ value ∈ rf.blocks.map RfBlock.antStatus, keptByMerge value = false := by
      intro value hvalue
      by_contra hkept
      -- A status that is kept would have been taken.
      have htaken := (firstOrLast_mem_of_exists 5
        ⟨value, hvalue, Bool.of_not_eq_false hkept⟩).2
      rw [hok] at htaken
      exact absurd htaken (by decide)
    rw [← hok]
    exact hsettled.2 hnone _ (List.mem_map_of_mem hblock) _ hmem
  · intro hall
    obtain ⟨block, hblock, hstatus⟩ := List.mem_map.mp hmem
    rw [← hstatus]
    exact hall block hblock

/-- Where no order of the blocks makes a difference, their values are settled. -/
theorem AntennaLaw.settled (h : AntennaLaw session rf) :
    Lists.Settled keptByMerge (rf.blocks.map RfBlock.antStatus) ∧
      Lists.Settled keptByMerge (rf.blocks.map RfBlock.antPower) := by
  have horder : ∀ blocks : List RfBlock, blocks.Perm rf.blocks →
      firstOrLast keptByMerge 5 (blocks.map RfBlock.antStatus)
          = firstOrLast keptByMerge 5 (rf.blocks.map RfBlock.antStatus) ∧
        firstOrLast keptByMerge 5 (blocks.map RfBlock.antPower)
          = firstOrLast keptByMerge 5 (rf.blocks.map RfBlock.antPower) := by
    intro blocks hperm
    have hne : blocks ≠ [] := fun hnil => rf.nonempty (hnil ▸ hperm).nil_eq.symm
    have hsame := (h.order { rf with blocks, nonempty := hne } hperm).1
    have hstatus := congrArg GpsDeviceT.antennaStatus hsame
    have hpower := congrArg GpsDeviceT.antennaPower hsame
    rw [antennaStatus_msg, antennaStatus_msg, toSigned_toNat_inj] at hstatus
    rw [antennaPower_msg, antennaPower_msg, toSigned_toNat_inj] at hpower
    exact ⟨hstatus, hpower⟩
  exact ⟨settled_map_of_forall_perm fun blocks hperm => (horder blocks hperm).1,
    settled_map_of_forall_perm fun blocks hperm => (horder blocks hperm).2⟩

/-- Settled values are merged into the worst. -/
theorem antennaLaw_of_settled
    (hstatus : Lists.Settled keptByMerge (rf.blocks.map RfBlock.antStatus))
    (hpower : Lists.Settled keptByMerge (rf.blocks.map RfBlock.antPower)) :
    AntennaLaw session rf := by
  have hok : toSigned 8 (firstOrLast keptByMerge 5 (rf.blocks.map RfBlock.antStatus)).toNat = 2 ↔
      ∀ block ∈ rf.blocks, block.antStatus = 2 := by
    rw [toSigned_eq_two_iff]
    exact firstOrLast_antStatus_eq_iff rf hstatus
  refine { order := fun other hperm => ?_, ok := ?_, worst := ?_ }
  · have hdata : gnssGetAntennaData session other.msg = gnssGetAntennaData session rf.msg := by
      rw [gnssGetAntennaData_msg, gnssGetAntennaData_msg,
        hstatus.firstOrLast_perm (hperm.map _), hpower.firstOrLast_perm (hperm.map _)]
    refine ⟨hdata, ?_⟩
    rw [gnssThreadAnalyze_msg, gnssThreadAnalyze_msg, hdata]
  · rw [antennaStatus_msg]
    exact hok
  · rw [antennaStatus_msg]
    intro hnotOk
    have hne : rf.blocks.map RfBlock.antStatus ≠ [] := by simpa using rf.nonempty
    obtain ⟨block, hblock, hvalue⟩ :=
      List.mem_map.mp (firstOrLast_mem (p := keptByMerge) 5 hne)
    refine ⟨block, hblock, ?_, by rw [hvalue]⟩
    intro hblockOk
    exact hnotOk (toSigned_eq_two_iff.mpr (hvalue.symm.trans hblockOk))

/-- **Antenna status of several blocks.** For every message, the merge is that of the worst
exactly when, for the status and for the power, the values other than `0x2` and `0x5` are all
equal, and where there are none all values are. -/
theorem antennaLaw_iff :
    AntennaLaw session rf ↔
      Lists.Settled keptByMerge (rf.blocks.map RfBlock.antStatus) ∧
        Lists.Settled keptByMerge (rf.blocks.map RfBlock.antPower) :=
  ⟨AntennaLaw.settled session rf, fun h => antennaLaw_of_settled session rf h.1 h.2⟩

/-! ### Two front ends -/

/-- A block with this status and power. -/
def rfBlock (antStatus antPower : UInt8) : RfBlock := fun i =>
  if (i : ℕ) = 2 then antStatus else if (i : ℕ) = 3 then antPower else 0

/-- One antenna powered, the other one not. -/
def monRfOnOff : MonRf :=
  { length := fun _ => 52, group0 := fun _ => 2, checksum := fun _ => 0
    blocks := [rfBlock 2 1, rfBlock 2 0], nonempty := List.cons_ne_nil _ _ }

/-- In this order the power counts as on, in the other one as off. -/
theorem antennaLaw_fails_on_off : ¬ AntennaLaw sessionZero monRfOnOff := by
  intro h
  have hsame := (h.order { monRfOnOff with
    blocks := [rfBlock 2 0, rfBlock 2 1], nonempty := List.cons_ne_nil _ _ }
    (List.Perm.swap _ _ _)).1
  exact absurd (congrArg GpsDeviceT.antennaPower hsame) (by decide)

end Oscillatord
