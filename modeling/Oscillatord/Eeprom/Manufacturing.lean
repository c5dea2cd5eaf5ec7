import Oscillatord.Config.ConfigFile
import Oscillatord.Library.Runs

/-!
# The manufacturing block

`art_eeprom_format` writes a block of 196 bytes at offset 512 of the factory EEPROM, and
`art_eeprom_reformat` reads it, gives it another part number and writes it back. The last byte of
the block is the checksum of the others.

`BlockStepLaw` is what a run of either tool that reports success should leave: the block is
complete, its checksum is that of its bytes, and the writer said `0` only of a write of all bytes.
The writer has two status variables and returns the one its count does not set; the reformat does
not compute the checksum again, does not look at the result of its read, and ends with success where
there is nothing to do as well. So the law holds throughout the runs that write all they have and
whose reformats find a block whose checksum is that of the changed bytes (`blockLaw_iff`).
-/

namespace Oscillatord

open StepRun

/-! ### The block -/

/-- `sizeof(struct eeprom_manufacturing_data)`, and the offset of its last field, `crc8`. -/
def manufacturingSize : ℕ := 196

def crc8Offset : ℕ := 195

/-- The offset of `od_pcba_part_number`. -/
def odPcbaPartNumberOffset : ℕ := 0x43

/-- The offset of the block in the EEPROM. -/
def manufacturingOffset : ℕ := 2 * 256

/-- A bit of `gencrc`. -/
def crcStep (crc : UInt8) : UInt8 := if crc &&& 0x80 ≠ 0 then (crc <<< 1) ^^^ 0x31 else crc <<< 1

/-- `gencrc`. -/
def gencrc (data : List UInt8) : UInt8 :=
  data.foldl (fun crc byte => crcStep^[8] (crc ^^^ byte)) 0xff

/-- The bytes at an offset of a structure, replaced. -/
def setBytes (offset : ℕ) (bytes data : List UInt8) : List UInt8 :=
  data.take offset ++ bytes ++ data.drop (offset + bytes.length)

/-- What `strncpy(dst, text, n)` puts at `dst`. -/
def strncpy (text : List UInt8) (n : ℕ) : List UInt8 :=
  text.take n ++ List.replicate (n - text.length) 0

/-- The new part number. -/
def partNumber : List UInt8 := ascii "1003066C00"

/-- `init_eeprom_manufacturing_pcba`. -/
def initEepromManufacturingPcba (data : List UInt8) : List UInt8 :=
  setBytes odPcbaPartNumberOffset (strncpy partNumber 11) data

/-- The date of `localtime`. -/
structure ManufacturingDate where
  day : ℕ
  month : ℕ
  year : ℕ
  deriving Repr, DecidableEq

/-- The fields `init_manufacturing_eeprom_data` fills in, each with its offset. A length is the
lesser of the size of the text, which counts its terminator, and of that of the field. -/
def manufacturingFields (serialNumber : List UInt8) (date : ManufacturingDate) :
    List (ℕ × List UInt8) :=
  [(0x00, [0xFB, 0xFB]), (0x02, [3]), (0x5D, [3]), (0x5E, [5]), (0x5F, [0]),
    (0x03, strncpy (ascii "TIME CARD") 10),
    (0x1F, strncpy (ascii "19002225") 9),
    (0x2B, strncpy (ascii "13200014402") 12),
    (0x37, strncpy (ascii "13100010902") 12),
    (odPcbaPartNumberOffset, strncpy partNumber 11),
    (0x50, strncpy serialNumber (min serialNumber.length 12)),
    (0x60, strncpy serialNumber (min serialNumber.length 13)),
    (0x79, strncpy (ascii "OROLIA") 7),
    (0x8D, strncpy (ascii "ASTEEL") 7),
    (0x17, strncpy (ascii "00000000") 8),
    (0x6D, strncpy (ascii "000000000000") 10),
    (0x95, strncpy (ascii "000000000000") 12),
    (0xA1, strncpy (ascii "000000000000") 12),
    (0xAD, [0, 0]),
    (0xAF, strncpy (ascii "TIME CARD") 9),
    (0x85, strncpy (ascii "JOVE") 4),
    (0x84, [UInt8.ofNat date.day]), (0x83, [UInt8.ofNat date.month]),
    (0x81, [UInt8.ofNat date.year, UInt8.ofNat (date.year / 256)])]

/-- `init_manufacturing_eeprom_data`. -/
def initManufacturingEepromData (data serialNumber : List UInt8) (date : ManufacturingDate) :
    List UInt8 :=
  let filled := (manufacturingFields serialNumber date).foldl
    (fun data field => setBytes field.1 field.2 data) data
  -- the checksum comes last, of all other bytes
  setBytes crc8Offset [gencrc (filled.take crc8Offset)] filled

/-! ### The EEPROM -/

/-- Bytes stored at an offset, with zeros in a gap before them. -/
def storeAt (offset : ℕ) (bytes content : List UInt8) : List UInt8 :=
  if bytes = [] then content
  else setBytes offset bytes (content ++ List.replicate (offset - content.length) 0)

/-- The block in the EEPROM, as much of it as there is. -/
def blockAt (content : List UInt8) : List UInt8 :=
  (content.drop manufacturingOffset).take manufacturingSize

/-- How a write goes: the file cannot be opened, the seek fails, or `fwrite` takes some of the bytes
and some of these reach the EEPROM. Opening a file truncates it, but not an EEPROM. -/
inductive BlockWrite
  | openFails
  | seekFails (truncates : Bool)
  | written (truncates : Bool) (taken stored : ℕ)
  deriving Repr, DecidableEq

/-- All bytes of the structure are written. -/
def BlockWrite.Complete (write : BlockWrite) : Prop :=
  ∃ truncates taken stored, write = .written truncates taken stored ∧
    manufacturingSize ≤ taken ∧ manufacturingSize ≤ stored

/-- `write_eeprom_manufacturing_data`: the return value and the EEPROM. -/
def writeEepromManufacturingData (write : BlockWrite) (content data : List UInt8) :
    ℤ × List UInt8 :=
  match write with
  | .openFails => (-1, content)
  | .seekFails truncates => (-1, if truncates then [] else content)
  | .written truncates taken stored =>
    -- `err` and `ret`: a short count sets the variable that is not returned
    let status : ℤ × ℤ := if taken < manufacturingSize then (0, -1) else (0, 0)
    (status.1,
      storeAt manufacturingOffset ((data.take taken).take stored)
        (if truncates then [] else content))

/-- How a read goes: the file cannot be opened, the seek fails, or some bytes are read. -/
inductive BlockRead
  | openFails
  | seekFails
  | read (count : ℕ)
  deriving Repr, DecidableEq

/-- `read_eeprom_manufacturing_data`: what it leaves in the structure, undefined when the file
cannot be opened. No caller looks at the return value. -/
def readEepromManufacturingData (read : BlockRead) (content data : List UInt8) :
    Option (List UInt8) :=
  match read with
  | .openFails => none
  | .seekFails => some data
  | .read count =>
    let got := (blockAt content).take count
    some (got ++ data.drop got.length)

/-! ### The tools -/

/-- `validate_serial`: the serial number without the dashes, if it is one. -/
def validateSerial (serial : Option (List UInt8)) : Option (List UInt8) :=
  (serial.map fun serial => serial.filter fun c => c ≠ 45).filter fun serial =>
    -- an `F` and eight digits
    decide (serial.head? = some 70) && decide (serial.length = 9) &&
      serial.tail.all fun c => decide (48 ≤ c ∧ c ≤ 57)

/-- The command line of `art_eeprom_format`. -/
inductive FormatArgs
  | help
  | unknown
  | given (path : Bool) (serial : Option (List UInt8))
  deriving Repr, DecidableEq

/-- What a run of `art_eeprom_format` meets. `dataRead` is the structure it reads back into, which
is not initialised. -/
structure FormatIo where
  args : FormatArgs
  allocated : Bool
  date : ManufacturingDate
  write : BlockWrite
  readBack : BlockRead
  dataRead : List UInt8
  length_dataRead : dataRead.length = manufacturingSize

/-- The structure of a run of `art_eeprom_format` that goes as far as to write it. -/
def FormatIo.data (io : FormatIo) : Option (List UInt8) :=
  match io.args with
  | .given true serial =>
    (validateSerial serial).bind fun serial =>
      if io.allocated then
        some (initManufacturingEepromData (List.replicate manufacturingSize 0) serial io.date)
      else none
  | _ => none

/-- `art_eeprom_format`: the exit status, if it comes to its end, and the EEPROM. -/
def artEepromFormat (io : FormatIo) (content : List UInt8) : Option ℤ × List UInt8 :=
  match io.args with
  | .help => (some 0, content)
  | .unknown => (some (-1), content)
  | .given path serial =>
    if !path || (validateSerial serial).isNone then (some (-1), content)
    else
      match io.data with
      | none => (none, content)
      | some data =>
        let written := writeEepromManufacturingData io.write content data
        if written.1 ≠ 0 then (some written.1, written.2)
        else
          ((readEepromManufacturingData io.readBack written.2 io.dataRead).map fun dataRead =>
            if data = dataRead then 0 else -1, written.2)

/-- What a run of `art_eeprom_reformat` meets: whether its argument leads to an EEPROM, and the
structure it reads into, which is not initialised. -/
structure ReformatIo where
  found : Bool
  read : BlockRead
  write : BlockWrite
  readBack : BlockRead
  dataRead : List UInt8
  length_dataRead : dataRead.length = manufacturingSize

/-- The structure a run of `art_eeprom_reformat` writes, if it comes to that. -/
def ReformatIo.data (io : ReformatIo) (content : List UInt8) : Option (List UInt8) :=
  if io.found then
    (readEepromManufacturingData io.read content io.dataRead).map initEepromManufacturingPcba
  else none

/-- `art_eeprom_reformat`: whether the part number is there afterwards is only logged. -/
def artEepromReformat (io : ReformatIo) (content : List UInt8) : Option ℤ × List UInt8 :=
  if !io.found then (some 0, content)
  else
    match io.data content with
    | none => (none, content)
    | some data =>
      let written := writeEepromManufacturingData io.write content data
      if written.1 ≠ 0 then (some written.1, written.2)
      else
        -- the structure is read back over the one that was written
        ((readEepromManufacturingData io.readBack written.2 data).map fun _ => written.1,
          written.2)

/-- A run of one of the tools. -/
inductive ManufacturingRun
  | format (io : FormatIo)
  | reformat (io : ReformatIo)

/-- What a run ends with. -/
def manufacturingRun (content : List UInt8) : ManufacturingRun → Option ℤ × List UInt8
  | .format io => artEepromFormat io content
  | .reformat io => artEepromReformat io content

/-- The EEPROM after a run. -/
def manufacturingStep (content : List UInt8) (run : ManufacturingRun) : List UInt8 :=
  (manufacturingRun content run).2

/-- The run reports success. -/
def ManufacturingSuccess (content : List UInt8) (run : ManufacturingRun) : Prop :=
  (manufacturingRun content run).1 = some 0

/-! ### The law -/

/-- The block is complete, and its checksum is that of the bytes before it. -/
def BlockIntact (content : List UInt8) : Prop :=
  (blockAt content)[crc8Offset]? = some (gencrc ((blockAt content).take crc8Offset))

/-- The write of a run, with what is written. -/
def ManufacturingRun.write (content : List UInt8) :
    ManufacturingRun → Option (BlockWrite × List UInt8)
  | .format io => io.data.map fun data => (io.write, data)
  | .reformat io => (io.data content).map fun data => (io.write, data)

/-- **The law of one run**: the block is intact afterwards, and the writer returned `0` only if all
bytes were written. -/
structure BlockStepLaw (content : List UInt8) (run : ManufacturingRun) : Prop where
  intact : BlockIntact (manufacturingStep content run)
  written : ∀ write data, run.write content = some (write, data) →
    (writeEepromManufacturingData write content data).1 = 0 → write.Complete

/-- What a run that reports success needs: one that writes nothing, an intact block; a format, to
write all bytes; a reformat, to write all bytes of a block whose checksum is that of the changed
bytes. -/
def BlockKept (content : List UInt8) : ManufacturingRun → Prop
  | .format io => if io.data.isSome then io.write.Complete else BlockIntact content
  | .reformat io =>
    match io.data content with
    | some data =>
      io.write.Complete ∧ data[crc8Offset]? = some (gencrc (data.take crc8Offset))
    | none => BlockIntact content

/-- **The law of a sequence of runs** that each report success, on an EEPROM with some content. -/
def BlockLaw (content : List UInt8) (runs : List ManufacturingRun) : Prop :=
  EachStep manufacturingStep ManufacturingSuccess content runs →
    EachStep manufacturingStep BlockStepLaw content runs

/-! ### Bytes of the block -/

theorem length_setBytes {offset : ℕ} {bytes data : List UInt8}
    (h : offset + bytes.length ≤ data.length) :
    (setBytes offset bytes data).length = data.length := by
  simp only [setBytes, List.length_append, List.length_take, List.length_drop]
  omega

@[simp] theorem length_strncpy (text : List UInt8) (n : ℕ) : (strncpy text n).length = n := by
  simp only [strncpy, List.length_append, List.length_take, List.length_replicate]
  omega

theorem length_foldl_setBytes {size : ℕ} {fields : List (ℕ × List UInt8)} {data : List UInt8}
    (hdata : data.length = size) (h : ∀ field ∈ fields, field.1 + field.2.length ≤ size) :
    (fields.foldl (fun data field => setBytes field.1 field.2 data) data).length = size := by
  induction fields generalizing data with
  | nil => exact hdata
  | cons field fields ih =>
    have hfield := h field List.mem_cons_self
    refine ih ?_ fun other hother => h other (List.mem_cons_of_mem _ hother)
    rw [length_setBytes (hfield.trans_eq hdata.symm), hdata]

theorem length_initEepromManufacturingPcba {data : List UInt8}
    (h : data.length = manufacturingSize) :
    (initEepromManufacturingPcba data).length = manufacturingSize := by
  have hroom : odPcbaPartNumberOffset + 11 ≤ manufacturingSize := by decide
  rw [initEepromManufacturingPcba, length_setBytes (by rw [length_strncpy, h]; exact hroom), h]

/-- The checksum that is put at the end is that of the bytes before it. -/
theorem setBytes_crc8 {filled : List UInt8} (h : filled.length = manufacturingSize) :
    (setBytes crc8Offset [gencrc (filled.take crc8Offset)] filled)[crc8Offset]?
      = some (gencrc ((setBytes crc8Offset [gencrc (filled.take crc8Offset)] filled).take
          crc8Offset)) := by
  have hlength : (filled.take crc8Offset).length = crc8Offset := by
    rw [List.length_take, h]
    rfl
  rw [setBytes, List.append_assoc]
  have htake : ∀ rest, (filled.take crc8Offset ++ rest).take crc8Offset
      = filled.take crc8Offset := fun rest => List.take_left' hlength
  rw [htake, List.getElem?_append_right hlength.le, hlength, Nat.sub_self]
  rfl

/-- **What a format writes** is complete and has the checksum of its bytes. -/
theorem initManufacturingEepromData_intact {serialNumber : List UInt8}
    (hserial : serialNumber.length = 9) (date : ManufacturingDate) :
    (initManufacturingEepromData (List.replicate manufacturingSize 0) serialNumber date).length
        = manufacturingSize ∧
      (initManufacturingEepromData (List.replicate manufacturingSize 0) serialNumber
          date)[crc8Offset]?
        = some (gencrc ((initManufacturingEepromData (List.replicate manufacturingSize 0)
            serialNumber date).take crc8Offset)) := by
  have hfilled : ((manufacturingFields serialNumber date).foldl
      (fun data field => setBytes field.1 field.2 data)
      (List.replicate manufacturingSize 0)).length = manufacturingSize := by
    refine length_foldl_setBytes List.length_replicate fun field hfield => ?_
    -- every field ends within the structure
    simp only [manufacturingFields, List.mem_cons, List.not_mem_nil, or_false] at hfield
    rcases hfield with rfl | rfl | rfl | rfl | rfl | rfl | rfl | rfl | rfl | rfl | rfl | rfl |
      rfl | rfl | rfl | rfl | rfl | rfl | rfl | rfl | rfl | rfl | rfl | rfl <;>
      simp [hserial, manufacturingSize, odPcbaPartNumberOffset]
  have hroom : crc8Offset + 1 ≤ manufacturingSize := by decide
  refine ⟨?_, setBytes_crc8 hfilled⟩
  rw [initManufacturingEepromData, length_setBytes (by rw [hfilled]; exact hroom), hfilled]

/-- What is stored in full is the block. -/
theorem blockAt_storeAt {data : List UInt8} (h : data.length = manufacturingSize)
    (content : List UInt8) : blockAt (storeAt manufacturingOffset data content) = data := by
  have hne : data ≠ [] := by
    rintro rfl
    exact absurd h (by decide)
  have hgap : manufacturingOffset ≤
      (content ++ List.replicate (manufacturingOffset - content.length) 0).length := by
    rw [List.length_append, List.length_replicate]
    omega
  have htake : ((content ++ List.replicate (manufacturingOffset - content.length) 0).take
      manufacturingOffset).length = manufacturingOffset := by
    rw [List.length_take]
    omega
  rw [storeAt, if_neg hne, setBytes, blockAt, List.append_assoc, List.drop_left' htake, ← h,
    List.take_left' rfl]

theorem validateSerial_length {serial : Option (List UInt8)} {serialNumber : List UInt8}
    (h : validateSerial serial = some serialNumber) : serialNumber.length = 9 := by
  rw [validateSerial, Option.filter_eq_some_iff] at h
  simp only [Bool.and_eq_true, decide_eq_true_eq] at h
  exact h.2.1.2

/-! ### When the law holds -/

theorem write_of_complete {write : BlockWrite} {data : List UInt8} (h : write.Complete)
    (hdata : data.length = manufacturingSize) (content : List UInt8) :
    (writeEepromManufacturingData write content data).1 = 0 ∧
      blockAt (writeEepromManufacturingData write content data).2 = data := by
  obtain ⟨truncates, taken, stored, rfl, htaken, hstored⟩ := h
  have hall : (data.take taken).take stored = data := by
    rw [List.take_of_length_le (hdata.trans_le htaken),
      List.take_of_length_le (hdata.trans_le hstored)]
  rw [writeEepromManufacturingData, hall]
  refine ⟨?_, blockAt_storeAt hdata _⟩
  dsimp only
  split_ifs <;> rfl

/-- A run that writes nothing and leaves the content keeps an intact block. -/
theorem blockStepLaw_of_unwritten {content : List UInt8} {run : ManufacturingRun}
    (hwrite : run.write content = none) (hsame : manufacturingStep content run = content) :
    BlockStepLaw content run ↔ BlockIntact content := by
  constructor
  · rintro ⟨hintact, -⟩
    rwa [hsame] at hintact
  · intro hintact
    refine ⟨hsame.symm ▸ hintact, fun write data hsome => ?_⟩
    rw [hwrite] at hsome
    cases hsome

/-- A run whose writer returned `0` keeps the law by writing all bytes of a block whose checksum is
that of its bytes. -/
theorem blockStepLaw_of_written {content data : List UInt8} {run : ManufacturingRun}
    {write : BlockWrite} (hwrite : run.write content = some (write, data))
    (hlength : data.length = manufacturingSize)
    (hzero : (writeEepromManufacturingData write content data).1 = 0)
    (hafter : manufacturingStep content run
      = (writeEepromManufacturingData write content data).2) :
    BlockStepLaw content run ↔
      write.Complete ∧ data[crc8Offset]? = some (gencrc (data.take crc8Offset)) := by
  have hblock : write.Complete → (BlockIntact (manufacturingStep content run) ↔
      data[crc8Offset]? = some (gencrc (data.take crc8Offset))) := by
    intro hcomplete
    rw [BlockIntact, hafter, (write_of_complete hcomplete hlength content).2]
  constructor
  · rintro ⟨hintact, hwritten⟩
    have hcomplete := hwritten write data hwrite hzero
    exact ⟨hcomplete, (hblock hcomplete).mp hintact⟩
  · rintro ⟨hcomplete, hcrc⟩
    refine ⟨(hblock hcomplete).mpr hcrc, fun write' data' hwrite' _ => ?_⟩
    obtain ⟨rfl, -⟩ := Prod.mk.inj (Option.some.inj (hwrite.symm.trans hwrite'))
    exact hcomplete

section Steps

variable {content : List UInt8}

theorem data_format {io : FormatIo} {data : List UInt8} (h : io.data = some data) :
    data.length = manufacturingSize ∧
      data[crc8Offset]? = some (gencrc (data.take crc8Offset)) := by
  obtain ⟨args, allocated, date, write, readBack, dataRead, hlength⟩ := io
  rcases args with _ | _ | ⟨_ | _, serial⟩
  · cases h
  · cases h
  · cases h
  · obtain ⟨serialNumber, hserial, hdata⟩ := Option.bind_eq_some_iff.mp h
    split_ifs at hdata
    obtain rfl := Option.some.inj hdata
    exact initManufacturingEepromData_intact (validateSerial_length hserial) date

/-- A format with nothing to write, which has shown its help or failed, leaves the content. -/
theorem format_of_data_eq_none {io : FormatIo} (h : io.data = none) :
    (artEepromFormat io content).2 = content := by
  rw [artEepromFormat]
  rcases hargs : io.args with _ | _ | ⟨path, serial⟩
  · rfl
  · rfl
  · simp only [h]
    split_ifs <;> rfl

/-- A format writes the structure it has filled in. -/
theorem format_of_data {io : FormatIo} {data : List UInt8} (h : io.data = some data)
    (hsuccess : (artEepromFormat io content).1 = some 0) :
    (writeEepromManufacturingData io.write content data).1 = 0 ∧
      (artEepromFormat io content).2
        = (writeEepromManufacturingData io.write content data).2 := by
  rcases hargs : io.args with _ | _ | ⟨path, serial⟩
  · simp [FormatIo.data, hargs] at h
  · simp [FormatIo.data, hargs] at h
  rw [artEepromFormat] at hsuccess ⊢
  simp only [hargs, h] at hsuccess ⊢
  split_ifs at hsuccess ⊢ with hargs' hwritten
  · simp at hsuccess
  · exact absurd (Option.some.inj hsuccess) hwritten
  · exact ⟨not_not.mp hwritten, rfl⟩

theorem formatLaw_iff {io : FormatIo} (hsuccess : ManufacturingSuccess content (.format io)) :
    BlockStepLaw content (.format io) ↔ BlockKept content (.format io) := by
  have hwrite : ManufacturingRun.write content (.format io)
      = io.data.map fun data => (io.write, data) := rfl
  rw [BlockKept]
  rcases hdata : io.data with _ | data
  · rw [if_neg (by simp)]
    rw [hdata] at hwrite
    exact blockStepLaw_of_unwritten hwrite (format_of_data_eq_none hdata)
  · obtain ⟨hzero, hafter⟩ := format_of_data hdata hsuccess
    obtain ⟨hlength, hcrc⟩ := data_format hdata
    rw [if_pos Option.isSome_some]
    rw [hdata] at hwrite
    -- the checksum of the bytes was filled in with them
    exact (blockStepLaw_of_written hwrite hlength hzero hafter).trans (and_iff_left hcrc)

theorem length_data_reformat {io : ReformatIo} {data : List UInt8}
    (h : io.data content = some data) : data.length = manufacturingSize := by
  rw [ReformatIo.data] at h
  split_ifs at h
  obtain ⟨before, hbefore, rfl⟩ := Option.map_eq_some_iff.mp h
  refine length_initEepromManufacturingPcba ?_
  rcases hread : io.read with _ | _ | count
  · simp [readEepromManufacturingData, hread] at hbefore
  · rw [hread, readEepromManufacturingData] at hbefore
    rw [← Option.some.inj hbefore]
    exact io.length_dataRead
  · rw [hread, readEepromManufacturingData] at hbefore
    have hgot : ((blockAt content).take count).length ≤ manufacturingSize :=
      (List.length_take_le' _ _).trans (List.length_take_le _ _)
    rw [← Option.some.inj hbefore, List.length_append, List.length_drop, io.length_dataRead]
    omega

/-- A reformat that reports success without a write has found no EEPROM. -/
theorem reformat_of_data_eq_none {io : ReformatIo} (h : io.data content = none) :
    (artEepromReformat io content).2 = content := by
  rw [artEepromReformat]
  simp only [h]
  split_ifs <;> rfl

theorem reformat_of_data {io : ReformatIo} {data : List UInt8} (h : io.data content = some data)
    (hsuccess : (artEepromReformat io content).1 = some 0) :
    (writeEepromManufacturingData io.write content data).1 = 0 ∧
      (artEepromReformat io content).2
        = (writeEepromManufacturingData io.write content data).2 := by
  have hfound : io.found = true := by
    by_contra hnot
    rw [ReformatIo.data, if_neg hnot] at h
    cases h
  rw [artEepromReformat] at hsuccess ⊢
  simp only [hfound, h] at hsuccess ⊢
  split_ifs at hsuccess ⊢ with hfalse hwritten
  · exact absurd hfalse (by decide)
  · exact absurd (Option.some.inj hsuccess) hwritten
  · exact ⟨not_not.mp hwritten, rfl⟩

theorem reformatLaw_iff {io : ReformatIo}
    (hsuccess : ManufacturingSuccess content (.reformat io)) :
    BlockStepLaw content (.reformat io) ↔ BlockKept content (.reformat io) := by
  have hwrite : ManufacturingRun.write content (.reformat io)
      = (io.data content).map fun data => (io.write, data) := rfl
  simp only [BlockKept]
  rcases hdata : io.data content with _ | data
  · rw [hdata] at hwrite
    exact blockStepLaw_of_unwritten hwrite (reformat_of_data_eq_none hdata)
  · obtain ⟨hzero, hafter⟩ := reformat_of_data hdata hsuccess
    rw [hdata] at hwrite
    -- the checksum of the block stays as it was read, so that it may be that of other bytes
    exact blockStepLaw_of_written hwrite (length_data_reformat hdata) hzero hafter

end Steps

/-- **When the manufacturing block is intact.** On an EEPROM with any content, after any sequence of
formats and reformats that each report success, with any outcome of their file operations: each run
leaves a complete block with the checksum of its bytes, and its writer returned `0` only for a
complete write, exactly when each run writes all bytes of a block whose checksum is that of its
bytes, or writes nothing and finds the block so. -/
theorem blockLaw_iff (content : List UInt8) (runs : List ManufacturingRun) :
    BlockLaw content runs ↔
      (EachStep manufacturingStep ManufacturingSuccess content runs →
        EachStep manufacturingStep BlockKept content runs) := by
  refine imp_congr_right fun hsuccess =>
    eachStep_congr_of_eachStep hsuccess fun content run hrun => ?_
  rcases run with io | io
  · exact formatLaw_iff hrun
  · exact reformatLaw_iff hrun

/-- An EEPROM with a block of zeros, which has the checksum of its bytes. -/
def zeroBlock : List UInt8 :=
  List.replicate manufacturingOffset 0 ++ List.replicate crc8Offset 0 ++
    [gencrc (List.replicate crc8Offset 0)]

/-- A reformat whose write takes no byte. -/
def reformatUnwritten : ReformatIo where
  found := true
  read := .read manufacturingSize
  write := .written false 0 0
  readBack := .read manufacturingSize
  dataRead := List.replicate manufacturingSize 0
  length_dataRead := List.length_replicate

/-- The writer returns `0`, and the reformat reports success. -/
theorem blockLaw_fails_unwritten : ¬ BlockLaw zeroBlock [.reformat reformatUnwritten] := by
  rw [blockLaw_iff]
  intro h
  have hsuccess : ManufacturingSuccess zeroBlock (.reformat reformatUnwritten) := rfl
  have hkept := (eachStep_cons.mp (h (eachStep_cons.mpr ⟨hsuccess, eachStep_nil⟩))).1
  obtain ⟨truncates, taken, stored, hwrite, htaken, -⟩ := hkept.1
  cases hwrite
  exact absurd htaken (by decide)

end Oscillatord
