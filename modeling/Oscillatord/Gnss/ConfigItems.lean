import Oscillatord.Config.ConfigFile
import Oscillatord.Gnss.Configuration
import Oscillatord.Library.CText
import Oscillatord.Library.KeyedList

/-!
# The items of a receiver configuration

`_cfgDbAdd` adds the items of a configuration line to a list. A line names an item and its value,
gives the rates of a message on the five ports, or sets up a port. What is known of the items is
that of a library that is not in the repository (`Ubloxcfg`).

Each function returns whether it succeeds and the list it leaves, which has what was added before a
failure. `cfgDbAdd_eq` is what they do together: a line has a list of steps that the list of items
has no part in (`lineSteps`), and they are taken one after the other.
-/

namespace Oscillatord

open CText KeyedList

/-! ### The library -/

/-- `UBLOXCFG_TYPE_t`. -/
inductive UbloxcfgType
  | u1 | u2 | u4 | u8 | i1 | i2 | i4 | i8 | x1 | x2 | x4 | x8 | e1 | e2 | e4 | r4 | r8 | l
  deriving Repr, DecidableEq

/-- `UBLOXCFG_SIZE_t`. -/
inductive UbloxcfgSize
  | bit | one | two | four | eight
  deriving Repr, DecidableEq

/-- `UBLOXCFG_ITEM_t`. -/
structure UbloxcfgItem where
  id : UInt32
  type : UbloxcfgType
  deriving Repr, DecidableEq

/-- `UBLOXCFG_MSGRATE_t`: the items of the rates of a message, of the ports that have one. -/
structure UbloxcfgMsgrate where
  itemUart1 : Option UbloxcfgItem
  itemUart2 : Option UbloxcfgItem
  itemSpi : Option UbloxcfgItem
  itemI2c : Option UbloxcfgItem
  itemUsb : Option UbloxcfgItem
  deriving Repr, DecidableEq

/-- The ids of the protocols of a port, in one direction. -/
structure ProtocolIds where
  ubx : UInt32
  nmea : UInt32
  rtcm3x : UInt32
  deriving Repr, DecidableEq

/-- The library of the items. -/
structure Ubloxcfg where
  getItemByName : List UInt8 → Option UbloxcfgItem
  getMsgRateCfg : List UInt8 → Option UbloxcfgMsgrate
  /-- The raw form of the value that a text is, of a type, with the names of an item. -/
  valueFromString : List UInt8 → UbloxcfgType → Option UbloxcfgItem → Option UInt64
  /-- `UBLOXCFG_ID2SIZE`, if it is one of the sizes. -/
  id2Size : UInt32 → Option UbloxcfgSize
  uart1BaudrateId : UInt32
  uart2BaudrateId : UInt32
  uart1InProt : ProtocolIds
  uart1OutProt : ProtocolIds
  uart2InProt : ProtocolIds
  uart2OutProt : ProtocolIds
  spiInProt : ProtocolIds
  spiOutProt : ProtocolIds
  i2cInProt : ProtocolIds
  i2cOutProt : ProtocolIds
  usbInProt : ProtocolIds
  usbOutProt : ProtocolIds

/-! ### The list -/

/-- `CFG_DB_t`. -/
structure CfgDb where
  kv : List UbloxcfgKeyval
  maxKv : ℕ
  deriving Repr, DecidableEq

/-- `_cfgDbAddKeyVal`. -/
def cfgDbAddKeyVal (db : CfgDb) (id : UInt32) (value : UInt64) : Bool × CfgDb :=
  if db.maxKv ≤ db.kv.length then (false, db)
  else if db.kv.any fun item => item.id == id then (false, db)
  else (true, { db with kv := db.kv ++ [{ id := id, raw := value }] })

/-- What follows a call, where its failure ends the function. -/
def orFail (result : Bool × CfgDb) (next : CfgDb → Bool × CfgDb) : Bool × CfgDb :=
  if result.1 then next result.2 else (false, result.2)

/-! ### The tables -/

/-- `PROTFILT_CFG_t`. -/
structure ProtfiltCfg where
  name : List UInt8
  id : UInt32
  deriving Repr, DecidableEq

/-- `PORT_CFG_t`. -/
structure PortCfg where
  name : List UInt8
  baudrateId : UInt32
  inProt : List ProtfiltCfg
  outProt : List ProtfiltCfg
  deriving Repr, DecidableEq

/-- The protocols of a port, in one direction. -/
def ProtocolIds.protfiltCfg (ids : ProtocolIds) : List ProtfiltCfg :=
  [⟨ascii "UBX", ids.ubx⟩, ⟨ascii "NMEA", ids.nmea⟩, ⟨ascii "RTCM3", ids.rtcm3x⟩]

/-- `portCfg`. -/
def Ubloxcfg.portCfg (lib : Ubloxcfg) : List PortCfg :=
  [⟨ascii "UART1", lib.uart1BaudrateId, lib.uart1InProt.protfiltCfg, lib.uart1OutProt.protfiltCfg⟩,
    ⟨ascii "UART2", lib.uart2BaudrateId, lib.uart2InProt.protfiltCfg, lib.uart2OutProt.protfiltCfg⟩,
    ⟨ascii "SPI", 0, lib.spiInProt.protfiltCfg, lib.spiOutProt.protfiltCfg⟩,
    ⟨ascii "I2C", 0, lib.i2cInProt.protfiltCfg, lib.i2cOutProt.protfiltCfg⟩,
    ⟨ascii "USB", 0, lib.usbInProt.protfiltCfg, lib.usbOutProt.protfiltCfg⟩]

/-- `baudCfg`. -/
def baudCfg : List (List UInt8 × UInt64) :=
  [(ascii "9600", 9600), (ascii "19200", 19200), (ascii "38400", 38400), (ascii "57600", 57600),
    (ascii "115200", 115200), (ascii "230400", 230400), (ascii "460800", 460800),
    (ascii "921600", 921600)]

/-! ### The branches -/

/-- The types that the value of a hex item may have, by its size, in the order they are tried. -/
def typesOfSize : UbloxcfgSize → List UbloxcfgType
  | .bit => [.l]
  | .one => [.u1, .i1]
  | .two => [.u2, .i2]
  | .four => [.u4, .i4, .r4]
  | .eight => [.u8, .i8, .r8]

variable (lib : Ubloxcfg)

/-- The value of a hex item. -/
def hexValue (id : UInt32) (valStr : List UInt8) : Option UInt64 :=
  (lib.id2Size id).bind fun size =>
    (typesOfSize size).findSome? fun type => lib.valueFromString valStr type none

/-- The branch of a named item. -/
def addNamed (db : CfgDb) : List (List UInt8) → Bool × CfgDb
  | [keyStr, valStr] =>
    match lib.getItemByName keyStr with
    | none => (false, db)
    | some item =>
      match lib.valueFromString valStr item.type (some item) with
      | none => (false, db)
      | some value => cfgDbAddKeyVal db item.id value
  | _ => (false, db)

/-- The branch of an item with its id in hex. -/
def addHex (db : CfgDb) : List (List UInt8) → Bool × CfgDb
  | [keyStr, valStr] =>
    match scanInt 16 keyStr with
    | .number key [] =>
      let id := UInt32.ofInt (unsignedOf key)
      match hexValue lib id valStr with
      | none => (false, db)
      | some value => cfgDbAddKeyVal db id value
    | _ => (false, db)
  | _ => (false, db)

/-- The loop over the rates of a message. -/
def addRates : List (List UInt8 × Option UbloxcfgItem) → CfgDb → Bool × CfgDb
  | [], db => (true, db)
  | (rate, item) :: rates, db =>
    if rate.head? = some 45 ∧ rate.tail = [] then addRates rates db
    else
      match item with
      | none => (false, db)
      | some item =>
        match lib.valueFromString rate item.type (some item) with
        | none => (false, db)
        | some value => orFail (cfgDbAddKeyVal db item.id value) (addRates rates)

/-- The branch of the rates of a message. -/
def addMsgrate (db : CfgDb) : List (List UInt8) → Bool × CfgDb
  | name :: uart1 :: uart2 :: spi :: i2c :: usb :: _ =>
    match lib.getMsgRateCfg name with
    | none => (false, db)
    | some items =>
      addRates lib [(uart1, items.itemUart1), (uart2, items.itemUart2), (spi, items.itemSpi),
        (i2c, items.itemI2c), (usb, items.itemUsb)] db
  | _ => (false, db)

/-- The loop over the baud rates: `baudrateOk` is that one was found. -/
def addBaudrate (id : UInt32) (baudrate : List UInt8) :
    List (List UInt8 × UInt64) → Bool → CfgDb → Bool × CfgDb
  | [], baudrateOk, db => (baudrateOk, db)
  | (str, val) :: rest, baudrateOk, db =>
    if str = baudrate then
      orFail (cfgDbAddKeyVal db id val) (addBaudrate id baudrate rest true)
    else addBaudrate id baudrate rest baudrateOk db

/-- `_cfgDbApplyProtfilt`, over the parts of the field. -/
def cfgDbApplyProtfilt (protfiltCfg : List ProtfiltCfg) : List (List UInt8) → CfgDb → Bool × CfgDb
  | [], db => (true, db)
  | part :: parts, db =>
    let protEna := part.head? ≠ some 33
    let name := if part.head? = some 33 then part.tail else part
    match protfiltCfg.find? fun prot => prot.name == name with
    | none => (false, db)
    | some prot =>
      orFail (cfgDbAddKeyVal db prot.id (if protEna then 1 else 0))
        (cfgDbApplyProtfilt protfiltCfg parts)

/-- `field[0] != '-' && field[1] != '\0'`, of a field that is not empty. -/
def isGiven (field : List UInt8) : Bool := decide (field.head? ≠ some 45 ∧ field.tail ≠ [])

/-- The filter of one direction, where there is one. -/
def addFilter (protfiltCfg : List ProtfiltCfg) (field : List UInt8) (db : CfgDb) : Bool × CfgDb :=
  if isGiven field then cfgDbApplyProtfilt protfiltCfg (strtok 44 field) db else (true, db)

/-- The branch of a port. -/
def addPort (db : CfgDb) : List (List UInt8) → Bool × CfgDb
  | port :: baudrate :: inprot :: outprot :: _ =>
    match lib.portCfg.find? fun cfg => cfg.name == port with
    | none => (false, db)
    | some cfg =>
      let configured :=
        if cfg.baudrateId ≠ 0 ∧ isGiven baudrate then
          addBaudrate cfg.baudrateId baudrate baudCfg false db
        else if isGiven baudrate then (false, db)
        else (true, db)
      orFail (orFail configured (addFilter cfg.inProt inprot)) (addFilter cfg.outProt outprot)
  | _ => (false, db)

/-- `kCfgTokSep`. -/
def cfgTokSep : List UInt8 := ascii " \t"

/-- The line begins with one of the words. -/
def startsWith (words : List String) (line : List UInt8) : Bool :=
  words.any fun word => (ascii word).isPrefixOf line

/-- `_cfgDbAdd`. -/
def cfgDbAdd (db : CfgDb) (line : List UInt8) : Bool × CfgDb :=
  let tokens := strtokAny cfgTokSep (cString line)
  if startsWith ["CFG-"] (cString line) then addNamed lib db tokens
  else if startsWith ["0x"] (cString line) then addHex lib db tokens
  else if startsWith ["UBX-", "NMEA-", "RTCM-"] (cString line) then addMsgrate lib db tokens
  -- five characters of the names with a digit are compared, which leaves the blank out
  else if startsWith ["UART1", "UART2", "SPI ", "I2C ", "USB "] (cString line) then
    addPort lib db tokens
  else (false, db)

/-! ### The steps of a line -/

/-- A line, by its branch and its fields. -/
inductive CfgLine
  | named (keyStr valStr : List UInt8)
  | hex (key : ℤ) (valStr : List UInt8)
  | msgrate (name : List UInt8) (rates : List (List UInt8))
  | port (name : List UInt8) (fields : List (List UInt8))
  deriving Repr, DecidableEq

/-- The fields of a line: a name and a value are no more and no less, and other fields are those
that there are. -/
def cfgLine (line : List UInt8) : Option CfgLine :=
  let tokens := strtokAny cfgTokSep (cString line)
  if startsWith ["CFG-"] (cString line) then
    match tokens with
    | [keyStr, valStr] => some (.named keyStr valStr)
    | _ => none
  else if startsWith ["0x"] (cString line) then
    match tokens with
    | [keyStr, valStr] =>
      match scanInt 16 keyStr with
      | .number key [] => some (.hex key valStr)
      | _ => none
    | _ => none
  else if startsWith ["UBX-", "NMEA-", "RTCM-"] (cString line) then
    match tokens with
    | name :: rates => some (.msgrate name rates)
    | [] => none
  else if startsWith ["UART1", "UART2", "SPI ", "I2C ", "USB "] (cString line) then
    match tokens with
    | name :: fields => some (.port name fields)
    | [] => none
  else none

/-- The item of a name and a value. -/
def namedItem (valStr : List UInt8) (item : UbloxcfgItem) : Option UbloxcfgKeyval :=
  (lib.valueFromString valStr item.type (some item)).map fun raw => { id := item.id, raw := raw }

/-- The item of a hex id. -/
def hexItem (id : UInt32) (valStr : List UInt8) : Option UbloxcfgKeyval :=
  (hexValue lib id valStr).map fun raw => { id := id, raw := raw }

/-- The item of a baud rate. -/
def baudItem (id : UInt32) (baudrate : List UInt8) : Option UbloxcfgKeyval :=
  (baudCfg.find? fun baud => baud.1 == baudrate).map fun baud => { id := id, raw := baud.2 }

/-- The item of a part of a filter: one protocol, on or off. -/
def partItem (protfiltCfg : List ProtfiltCfg) (part : List UInt8) : Option UbloxcfgKeyval :=
  let name := if part.head? = some 33 then part.tail else part
  (protfiltCfg.find? fun prot => prot.name == name).map fun prot =>
    { id := prot.id, raw := if part.head? = some 33 then 0 else 1 }

/-- `"-"`. -/
def dash : List UInt8 := ascii "-"

/-- The steps of a rate. -/
def rateSteps (rate : List UInt8) (item : Option UbloxcfgItem) : List (Option UbloxcfgKeyval) :=
  if rate = dash then [] else [item.bind (namedItem lib rate)]

/-- The steps of a filter. -/
def filterSteps (protfiltCfg : List ProtfiltCfg) (field : List UInt8) :
    List (Option UbloxcfgKeyval) :=
  if isGiven field then (strtok 44 field).map (partItem protfiltCfg) else []

/-- The steps of a baud rate. -/
def baudSteps (id : UInt32) (baudrate : List UInt8) : List (Option UbloxcfgKeyval) :=
  if isGiven baudrate then [if id ≠ 0 then baudItem id baudrate else none] else []

/-- The steps of a line. -/
def CfgLine.steps : CfgLine → List (Option UbloxcfgKeyval)
  | .named keyStr valStr => [(lib.getItemByName keyStr).bind (namedItem lib valStr)]
  | .hex key valStr => [hexItem lib (UInt32.ofInt (unsignedOf key)) valStr]
  | .msgrate name (uart1 :: uart2 :: spi :: i2c :: usb :: _) =>
    match lib.getMsgRateCfg name with
    | none => [none]
    | some items =>
      rateSteps lib uart1 items.itemUart1 ++ (rateSteps lib uart2 items.itemUart2
        ++ (rateSteps lib spi items.itemSpi ++ (rateSteps lib i2c items.itemI2c
          ++ rateSteps lib usb items.itemUsb)))
  | .port name (baudrate :: inprot :: outprot :: _) =>
    match lib.portCfg.find? fun cfg => cfg.name == name with
    | none => [none]
    | some cfg =>
      (baudSteps cfg.baudrateId baudrate ++ filterSteps cfg.inProt inprot)
        ++ filterSteps cfg.outProt outprot
  | _ => [none]

/-- A run of steps over the list. -/
def runSteps (steps : List (Option UbloxcfgKeyval)) (db : CfgDb) : Bool × CfgDb :=
  let result := addSteps UbloxcfgKeyval.id db.maxKv steps db.kv
  (result.1, { db with kv := result.2 })

section Steps

variable {db : CfgDb}

theorem runSteps_append (first second : List (Option UbloxcfgKeyval)) (db : CfgDb) :
    runSteps (first ++ second) db = orFail (runSteps first db) (runSteps second) := by
  rw [runSteps, addSteps_append, orFail, runSteps]
  rcases hfirst : (addSteps UbloxcfgKeyval.id db.maxKv first db.kv).1 with _ | _
  · simp [hfirst]
  · simp [runSteps]

theorem cfgDbAddKeyVal_eq (db : CfgDb) (item : UbloxcfgKeyval) :
    cfgDbAddKeyVal db item.id item.raw = runSteps [some item] db := by
  have hany : (db.kv.any fun other => other.id == item.id) = true ↔
      item.id ∈ db.kv.map UbloxcfgKeyval.id := by
    rw [List.any_eq_true, List.mem_map]
    simp only [beq_iff_eq]
  rw [cfgDbAddKeyVal, runSteps, addSteps]
  by_cases hroom : db.maxKv ≤ db.kv.length
  · rw [if_pos hroom, if_neg fun h => by omega]
  · rw [if_neg hroom]
    by_cases hnew : item.id ∈ db.kv.map UbloxcfgKeyval.id
    · rw [if_pos (hany.mpr hnew), if_neg fun h => h.2 hnew]
    · rw [if_neg (mt hany.mp hnew), if_pos ⟨by omega, hnew⟩]
      rfl

theorem addNamed_eq (keyStr valStr : List UInt8) (db : CfgDb) :
    addNamed lib db [keyStr, valStr] = runSteps ((CfgLine.named keyStr valStr).steps lib) db := by
  rw [addNamed, CfgLine.steps]
  rcases lib.getItemByName keyStr with _ | item
  · rfl
  · rw [Option.bind_some, namedItem]
    dsimp only
    rcases lib.valueFromString valStr item.type (some item) with _ | raw
    · rfl
    · exact cfgDbAddKeyVal_eq db { id := item.id, raw := raw }

theorem addHex_eq (key : ℤ) {keyStr : List UInt8} (valStr : List UInt8) (db : CfgDb)
    (hkey : scanInt 16 keyStr = .number key []) :
    addHex lib db [keyStr, valStr] = runSteps ((CfgLine.hex key valStr).steps lib) db := by
  rw [addHex, hkey, CfgLine.steps, hexItem]
  dsimp only
  rcases hexValue lib (UInt32.ofInt (unsignedOf key)) valStr with _ | raw
  · rfl
  · exact cfgDbAddKeyVal_eq db { id := UInt32.ofInt (unsignedOf key), raw := raw }

theorem addRates_eq (rates : List (List UInt8 × Option UbloxcfgItem)) (db : CfgDb) :
    addRates lib rates db
      = runSteps (rates.flatMap fun rate => rateSteps lib rate.1 rate.2) db := by
  induction rates generalizing db with
  | nil => rfl
  | cons head rates ih =>
    obtain ⟨rate, item⟩ := head
    have hdash : rate.head? = some 45 ∧ rate.tail = [] ↔ rate = dash := by
      rcases rate with _ | ⟨b, rate⟩
      · simp [dash, ascii]
      · simp [dash, ascii]
    rw [List.flatMap_cons, runSteps_append, addRates.eq_def, rateSteps]
    dsimp only
    by_cases hskip : rate = dash
    · rw [if_pos (hdash.mpr hskip), if_pos hskip, ih]
      rfl
    · rw [if_neg (mt hdash.mp hskip), if_neg hskip]
      rcases item with _ | item
      · rfl
      · rw [Option.bind_some, namedItem]
        dsimp only
        rcases lib.valueFromString rate item.type (some item) with _ | raw
        · rfl
        · have hadd := cfgDbAddKeyVal_eq db { id := item.id, raw := raw }
          dsimp only at hadd ⊢
          rw [hadd, Option.map_some]
          congr 1
          exact funext ih

theorem addMsgrate_eq (name : List UInt8) (rates : List (List UInt8)) (db : CfgDb) :
    addMsgrate lib db (name :: rates) = runSteps ((CfgLine.msgrate name rates).steps lib) db := by
  rcases rates with _ | ⟨uart1, _ | ⟨uart2, _ | ⟨spi, _ | ⟨i2c, _ | ⟨usb, others⟩⟩⟩⟩⟩
  · rfl
  · rfl
  · rfl
  · rfl
  · rfl
  · rw [addMsgrate, CfgLine.steps]
    rcases lib.getMsgRateCfg name with _ | items
    · rfl
    · dsimp only
      rw [addRates_eq]
      simp only [List.flatMap_cons, List.flatMap_nil, List.append_nil]

/-- The baud rates of the table are different. -/
theorem addBaudrate_eq (id : UInt32) (baudrate : List UInt8)
    {table : List (List UInt8 × UInt64)} (htable : (table.map Prod.fst).Nodup) (baudrateOk : Bool)
    (db : CfgDb) :
    addBaudrate id baudrate table baudrateOk db
      = match table.find? fun baud => baud.1 == baudrate with
        | some baud => cfgDbAddKeyVal db id baud.2
        | none => (baudrateOk, db) := by
  induction table generalizing baudrateOk db with
  | nil => rfl
  | cons head table ih =>
    obtain ⟨str, val⟩ := head
    obtain ⟨hstr, hothers⟩ := List.nodup_cons.mp htable
    rw [addBaudrate, List.find?_cons]
    by_cases hmatch : str = baudrate
    · have hnone : (table.find? fun baud => baud.1 == baudrate) = none := by
        rw [List.find?_eq_none]
        intro baud hmem hsame
        have hkey : baud.1 = str := (beq_iff_eq.mp hsame).trans hmatch.symm
        have hin : baud.1 ∈ table.map Prod.fst := List.mem_map_of_mem hmem
        exact hstr (hkey ▸ hin)
      rw [if_pos hmatch, beq_iff_eq.mpr hmatch]
      dsimp only
      rw [orFail]
      rcases hadd : cfgDbAddKeyVal db id val with ⟨ok, added⟩
      cases ok
      · rfl
      · rw [if_pos rfl, ih hothers, hnone]
    · rw [if_neg hmatch, beq_false_of_ne hmatch, ih hothers]

theorem cfgDbApplyProtfilt_eq (protfiltCfg : List ProtfiltCfg) (parts : List (List UInt8))
    (db : CfgDb) :
    cfgDbApplyProtfilt protfiltCfg parts db = runSteps (parts.map (partItem protfiltCfg)) db := by
  induction parts generalizing db with
  | nil => rfl
  | cons part parts ih =>
    have hsplit : (part :: parts).map (partItem protfiltCfg)
        = [partItem protfiltCfg part] ++ parts.map (partItem protfiltCfg) := rfl
    rw [hsplit, runSteps_append, cfgDbApplyProtfilt, partItem]
    generalize List.find? _ protfiltCfg = found
    rcases found with _ | prot
    · rfl
    · have hadd := cfgDbAddKeyVal_eq db
        { id := prot.id, raw := if part.head? = some 33 then 0 else 1 }
      have hraw : (if part.head? ≠ some 33 then (1 : UInt64) else 0)
          = if part.head? = some 33 then 0 else 1 := ite_not ..
      dsimp only at hadd ⊢
      rw [hraw, hadd, Option.map_some]
      congr 1
      exact funext ih

theorem addFilter_eq (protfiltCfg : List ProtfiltCfg) (field : List UInt8) (db : CfgDb) :
    addFilter protfiltCfg field db = runSteps (filterSteps protfiltCfg field) db := by
  rw [addFilter, filterSteps]
  split_ifs
  · exact cfgDbApplyProtfilt_eq protfiltCfg _ db
  · rfl

theorem baudCfg_nodup : (baudCfg.map Prod.fst).Nodup := by decide

theorem addPort_eq (name : List UInt8) (fields : List (List UInt8)) (db : CfgDb) :
    addPort lib db (name :: fields) = runSteps ((CfgLine.port name fields).steps lib) db := by
  rcases fields with _ | ⟨baudrate, _ | ⟨inprot, _ | ⟨outprot, others⟩⟩⟩
  · rfl
  · rfl
  · rfl
  · rw [addPort, CfgLine.steps]
    generalize List.find? _ lib.portCfg = found
    rcases found with _ | cfg
    · rfl
    have hbaud : (if cfg.baudrateId ≠ 0 ∧ isGiven baudrate = true then
          addBaudrate cfg.baudrateId baudrate baudCfg false db
        else if isGiven baudrate = true then (false, db) else (true, db))
        = runSteps (baudSteps cfg.baudrateId baudrate) db := by
      rw [baudSteps]
      by_cases hgiven : isGiven baudrate = true
      · rw [if_pos hgiven, if_pos hgiven]
        by_cases hid : cfg.baudrateId ≠ 0
        · rw [if_pos ⟨hid, hgiven⟩, if_pos hid, addBaudrate_eq _ _ baudCfg_nodup, baudItem]
          generalize List.find? _ baudCfg = found
          rcases found with _ | baud
          · rfl
          · exact cfgDbAddKeyVal_eq db { id := cfg.baudrateId, raw := baud.2 }
        · rw [if_neg fun h => hid h.1, if_neg hid]
          rfl
      · rw [if_neg fun h => hgiven h.2, if_neg hgiven, if_neg hgiven]
        rfl
    dsimp only
    rw [hbaud, runSteps_append, runSteps_append]
    congr 1
    · congr 1
      exact funext (addFilter_eq cfg.inProt inprot)
    · exact funext (addFilter_eq cfg.outProt outprot)

/-- **What a line does** is that of its steps. -/
theorem cfgDbAdd_eq (db : CfgDb) (line : List UInt8) :
    cfgDbAdd lib db line
      = match cfgLine line with
        | none => (false, db)
        | some fields => runSteps (fields.steps lib) db := by
  rw [cfgDbAdd, cfgLine]
  split_ifs
  · rcases strtokAny cfgTokSep (cString line) with _ | ⟨key, _ | ⟨value, _ | ⟨other, others⟩⟩⟩
    · rfl
    · rfl
    · exact addNamed_eq lib key value db
    · rfl
  · rcases strtokAny cfgTokSep (cString line) with _ | ⟨key, _ | ⟨value, _ | ⟨other, others⟩⟩⟩
    · rfl
    · rfl
    · dsimp only
      rcases hkey : scanInt 16 key with ⟨number, _ | ⟨b, rest⟩⟩ | _ | _
      · exact addHex_eq lib number value db hkey
      · rw [addHex, hkey]
      · rw [addHex, hkey]
      · rw [addHex, hkey]
    · rfl
  · rcases strtokAny cfgTokSep (cString line) with _ | ⟨name, rates⟩
    · rfl
    · exact addMsgrate_eq lib name rates db
  · rcases strtokAny cfgTokSep (cString line) with _ | ⟨name, fields⟩
    · rfl
    · exact addPort_eq lib name fields db
  · rfl

end Steps

end Oscillatord
