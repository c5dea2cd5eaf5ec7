import Oscillatord.Eeprom.Manufacturing
import Oscillatord.Library.Crc

/-!
# Bursts in the manufacturing block

`gencrc` is a cyclic redundancy check with the generator `X ^ 8 + X ^ 5 + X ^ 4 + 1`: what it
returns is the remainder of the buffer as a polynomial, after the `0xff` that it begins with
(`ofWord_gencrc`). The generator has a constant term, so that two buffers with different bits in a
window of 8, and the same bits outside, have different checksums. A block with its checksum after it
has the checksum zero, so that this holds of the bits of `crc8` as well (`burstLaw`).
-/

namespace Oscillatord

open Polynomial

/-! ### The law -/

/-- The bits of a buffer, from the most significant bit of the first byte. -/
def bufferBits (data : List UInt8) : List Bool := Crc.bitsOf (data.map UInt8.toBitVec)

/-- Two buffers differ, and only in bits of a window of 8. -/
def DiffersInBurst (data data' : List UInt8) : Prop :=
  Crc.DiffersInWindow 8 (bufferBits data) (bufferBits data')

/-- **The law of the bursts**: none keeps the checksum of a buffer, or leaves a block intact. -/
structure BurstLaw : Prop where
  checksum : ∀ data data', data.length = data'.length → DiffersInBurst data data' →
    gencrc data ≠ gencrc data'
  block : ∀ content content', DiffersInBurst (blockAt content) (blockAt content') →
    BlockIntact content → ¬ BlockIntact content'

/-! ### The polynomial of the checksum -/

theorem toBitVec_crcStep (crc : UInt8) :
    (crcStep crc).toBitVec = Crc.step 0x31#8 crc.toBitVec := by
  have hhigh : crc &&& 0x80 ≠ 0 ↔ crc.toBitVec.msb = true := by
    have hand : crc.toBitVec &&& UInt8.toBitVec 0x80
        = if crc.toBitVec.getLsbD 7 then 0x80#8 else 0#8 := BitVec.and_twoPow crc.toBitVec 7
    rw [Ne, ← UInt8.toBitVec_inj, UInt8.toBitVec_and, BitVec.msb_eq_getLsbD_last, hand]
    split_ifs with hbit
    · exact iff_of_true (by decide) hbit
    · exact iff_of_false (by decide) hbit
  rw [crcStep, Crc.step]
  simp only [hhigh]
  split_ifs <;> rfl

/-- **`gencrc` is a cyclic redundancy check.** -/
theorem toBitVec_gencrc (data : List UInt8) :
    (gencrc data).toBitVec = Crc.checksum 0x31#8 0xff#8 (data.map UInt8.toBitVec) := by
  have hbyte : ∀ crc byte : UInt8, (Crc.step 0x31#8)^[8] (crc.toBitVec ^^^ byte.toBitVec)
      = (crcStep^[8] (crc ^^^ byte)).toBitVec := by
    intro crc byte
    rw [← UInt8.toBitVec_xor]
    exact (Function.Semiconj.iterate_right toBitVec_crcStep 8 _).symm
  rw [gencrc, Crc.checksum, List.foldl_map]
  exact (List.foldl_hom UInt8.toBitVec hbyte).symm

/-- The generator of `gencrc`. -/
theorem generator_gencrc : Crc.generator 0x31#8 = X ^ 8 + X ^ 5 + X ^ 4 + 1 := by
  have hbits : Crc.wordBits 0x31#8 = [false, false, true, true, false, false, false, true] := by
    decide
  rw [Crc.generator, Crc.ofWord, hbits]
  simp [Crc.ofBits, Crc.bit, add_assoc]

/-- **The checksum is the remainder** of the bits of the buffer, after those it begins with. -/
theorem ofWord_gencrc (data : List UInt8) :
    Crc.ofWord (gencrc data).toBitVec
      = (Crc.ofWord 0xff#8 * X ^ (data.length * 8) + Crc.ofBits (bufferBits data) * X ^ 8)
          %ₘ (X ^ 8 + X ^ 5 + X ^ 4 + 1) := by
  rw [← generator_gencrc]
  refine Crc.ofWord_eq_modByMonic _ ?_
  rw [toBitVec_gencrc, Crc.mk_ofWord_checksum, List.length_map]
  rfl

/-! ### The block -/

/-- A buffer with its checksum after it has the checksum zero. -/
theorem gencrc_append_eq_zero_iff (data : List UInt8) (crc8 : UInt8) :
    gencrc (data ++ [crc8]) = 0 ↔ gencrc data = crc8 := by
  rw [← UInt8.toBitVec_inj, ← UInt8.toBitVec_inj, toBitVec_gencrc, toBitVec_gencrc, List.map_append]
  exact Crc.checksum_append_eq_zero_iff (by decide) _ _ _

/-- **An intact block is one of the full size with the checksum zero.** -/
theorem blockIntact_iff_gencrc (content : List UInt8) :
    BlockIntact content ↔
      (blockAt content).length = manufacturingSize ∧ gencrc (blockAt content) = 0 := by
  have hle : (blockAt content).length ≤ manufacturingSize := by
    rw [blockAt]
    exact List.length_take_le _ _
  rw [BlockIntact]
  rcases hle.lt_or_eq with hlt | hfull
  · have hnone : (blockAt content)[crc8Offset]? = none :=
      List.getElem?_eq_none (Nat.le_of_lt_succ hlt)
    rw [hnone]
    exact iff_of_false (fun h => by cases h) fun h => hlt.ne h.1
  · have hlast : crc8Offset < (blockAt content).length := by
      rw [hfull]
      decide
    have hsplit : blockAt content
        = (blockAt content).take crc8Offset ++ [(blockAt content)[crc8Offset]] := by
      rw [← List.take_succ_eq_append_getElem hlast]
      exact (List.take_of_length_le hfull.le).symm
    have hzero := gencrc_append_eq_zero_iff ((blockAt content).take crc8Offset)
      (blockAt content)[crc8Offset]
    rw [← hsplit] at hzero
    rw [List.getElem?_eq_getElem hlast, Option.some.injEq, hzero, and_iff_right hfull]
    exact eq_comm

/-! ### When bursts are found -/

theorem gencrc_ne_of_burst {data data' : List UInt8} (h : DiffersInBurst data data') :
    gencrc data ≠ gencrc data' := by
  rw [Ne, ← UInt8.toBitVec_inj, toBitVec_gencrc, toBitVec_gencrc]
  exact Crc.checksum_ne_of_window (by decide) _ h

/-- **Every burst is found**, in buffers of any length and at any bit of a block. -/
theorem burstLaw : BurstLaw where
  checksum _ _ _ hburst := gencrc_ne_of_burst hburst
  block content content' hburst hintact hintact' := by
    have hzero := ((blockIntact_iff_gencrc content).mp hintact).2
    have hzero' := ((blockIntact_iff_gencrc content').mp hintact').2
    exact gencrc_ne_of_burst hburst (hzero.trans hzero'.symm)

/-- A burst of 8 bits over the end of a byte. -/
example : DiffersInBurst [0x01, 0xfe] [0x00, 0x00] := by
  refine ⟨rfl, by decide, 7, fun i hne => ?_⟩
  have hsame : ∀ i < 16, ¬ (7 ≤ i ∧ i < 15) →
      (bufferBits [0x01, 0xfe])[i]? = (bufferBits [0x00, 0x00])[i]? := by decide
  by_contra hout
  rcases lt_or_ge i 16 with hlt | hge
  · exact hne (hsame i hlt hout)
  · exact hne ((List.getElem?_eq_none hge).trans (List.getElem?_eq_none hge).symm)

end Oscillatord
