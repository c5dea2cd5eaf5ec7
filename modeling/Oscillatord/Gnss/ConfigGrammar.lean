import Oscillatord.Gnss.ConfigItems

/-!
# The grammar of a receiver configuration

A configuration line should be added when it is one of the grammar, with the items that its fields
denote and no others (`CfgLineLaw`): the item of a name and its value, one for each rate, the baud
rate and each part of a filter, and none for the fields that are a dash.

`_cfgDbAdd` takes more lines than those. It does not look at what follows the fields of a message or
a port, takes a field of a port for a dash when it begins with one or has one character, finds no
part in a filter of commas, and cuts a hex id to its width. What it does with a line is what the
grammar says of the line without these (`CfgLine.clean`), which is the exact condition
(`cfgLineLaw_iff`).
-/

namespace Oscillatord

open CText KeyedList

variable (lib : Ubloxcfg)

/-! ### The grammar -/

/-- What a rate denotes. -/
def rateItems (rate : List UInt8) (item : Option UbloxcfgItem) : Option (List UbloxcfgKeyval) :=
  if rate = dash then some [] else (item.bind (namedItem lib rate)).map fun kv => [kv]

/-- What a baud rate denotes, of a port that has one. -/
def baudItems (id : UInt32) (baudrate : List UInt8) : Option (List UbloxcfgKeyval) :=
  if baudrate = dash then some []
  else if id = 0 then none
  else (baudItem id baudrate).map fun kv => [kv]

/-- What a filter denotes: it has parts, and each is a protocol. -/
def filterItems (protfiltCfg : List ProtfiltCfg) (field : List UInt8) :
    Option (List UbloxcfgKeyval) :=
  if field = dash then some []
  else if strtok 44 field = [] then none
  else (strtok 44 field).mapM (partItem protfiltCfg)

/-- What the rates of a message denote. -/
def msgrateItems (items : UbloxcfgMsgrate) : List (List UInt8) → Option (List UbloxcfgKeyval)
  | [uart1, uart2, spi, i2c, usb] => do
    let uart1 ← rateItems lib uart1 items.itemUart1
    let uart2 ← rateItems lib uart2 items.itemUart2
    let spi ← rateItems lib spi items.itemSpi
    let i2c ← rateItems lib i2c items.itemI2c
    let usb ← rateItems lib usb items.itemUsb
    some (uart1 ++ (uart2 ++ (spi ++ (i2c ++ usb))))
  | _ => none

/-- What the fields of a port denote. -/
def portItems (cfg : PortCfg) : List (List UInt8) → Option (List UbloxcfgKeyval)
  | [baudrate, inprot, outprot] => do
    let baud ← baudItems cfg.baudrateId baudrate
    let inputs ← filterItems cfg.inProt inprot
    let outputs ← filterItems cfg.outProt outprot
    some ((baud ++ inputs) ++ outputs)
  | _ => none

/-- **The items of a line**, where it is one of the grammar. -/
def CfgLine.items : CfgLine → Option (List UbloxcfgKeyval)
  | .named keyStr valStr =>
    ((lib.getItemByName keyStr).bind (namedItem lib valStr)).map fun kv => [kv]
  | .hex key valStr =>
    if 0 ≤ key ∧ key < 2 ^ 32 then (hexItem lib (UInt32.ofInt key) valStr).map fun kv => [kv]
    else none
  | .msgrate name rates => (lib.getMsgRateCfg name).bind fun items => msgrateItems lib items rates
  | .port name fields =>
    (lib.portCfg.find? fun cfg => cfg.name == name).bind fun cfg => portItems cfg fields

/-- **The law of a line**: when it is added, it is one of the grammar, and its items are added,
which are new and different, and no others. -/
def CfgLineLaw (db : CfgDb) (line : List UInt8) : Prop :=
  ∀ added, cfgDbAdd lib db line = (true, added) → ∃ fields items,
    cfgLine line = some fields ∧ fields.items lib = some items ∧
      Fits UbloxcfgKeyval.id db.maxKv db.kv items ∧ added = { db with kv := db.kv ++ items }

/-! ### What is ignored -/

/-- A field that is taken for a dash is one. -/
def cleanField (field : List UInt8) : List UInt8 := if isGiven field then field else dash

/-- A filter without parts is a dash, too. -/
def cleanFilter (field : List UInt8) : List UInt8 :=
  if isGiven field ∧ strtok 44 field ≠ [] then field else dash

/-- The line without what is ignored of it. -/
def CfgLine.clean : CfgLine → CfgLine
  | .named keyStr valStr => .named keyStr valStr
  | .hex key valStr => .hex (unsignedOf key) valStr
  | .msgrate name rates => .msgrate name (rates.take 5)
  | .port name (baudrate :: inprot :: outprot :: _) =>
    .port name [cleanField baudrate, cleanFilter inprot, cleanFilter outprot]
  | .port name fields => .port name fields

/-- Nothing of the line is ignored, or it cannot be added without that. -/
def CfgLineRead (db : CfgDb) (line : List UInt8) : Prop :=
  ∀ fields, cfgLine line = some fields → fields.clean = fields ∨
    ¬ ∃ items, fields.clean.items lib = some items ∧
      Fits UbloxcfgKeyval.id db.maxKv db.kv items

/-! ### The steps and the grammar -/

theorem rateItems_eq (rate : List UInt8) (item : Option UbloxcfgItem) :
    rateItems lib rate item = entriesOf (rateSteps lib rate item) := by
  rw [rateItems, rateSteps]
  split_ifs
  · rfl
  · exact (entriesOf_singleton _).symm

theorem not_isGiven_dash : ¬ isGiven dash = true := by decide

theorem baudItems_cleanField (id : UInt32) (baudrate : List UInt8) :
    baudItems id (cleanField baudrate) = entriesOf (baudSteps id baudrate) := by
  rw [cleanField, baudSteps]
  by_cases hgiven : isGiven baudrate = true
  · have hne : baudrate ≠ dash := fun h => not_isGiven_dash (h ▸ hgiven)
    rw [if_pos hgiven, if_pos hgiven, entriesOf_singleton, baudItems, if_neg hne, ite_not]
    split_ifs <;> rfl
  · rw [if_neg hgiven, if_neg hgiven]
    rfl

theorem filterItems_cleanFilter (protfiltCfg : List ProtfiltCfg) (field : List UInt8) :
    filterItems protfiltCfg (cleanFilter field) = entriesOf (filterSteps protfiltCfg field) := by
  rw [cleanFilter, filterSteps]
  by_cases hgiven : isGiven field = true
  · have hne : field ≠ dash := fun h => not_isGiven_dash (h ▸ hgiven)
    by_cases hparts : strtok 44 field = []
    · rw [if_neg fun h => h.2 hparts, if_pos hgiven, hparts]
      rfl
    · rw [if_pos ⟨hgiven, hparts⟩, if_pos hgiven, filterItems, if_neg hne, if_neg hparts,
        entriesOf_map]
  · rw [if_neg fun h => hgiven h.1, if_neg hgiven]
    rfl

theorem unsignedOf_bounds (x : ℤ) : 0 ≤ unsignedOf x ∧ unsignedOf x < 2 ^ 32 := by
  rw [unsignedOf, CNumber.toUnsigned]
  exact ⟨Int.emod_nonneg _ (by decide), Int.emod_lt_of_pos _ (by decide)⟩

/-- **What a line does** is what the grammar says of it without what is ignored. -/
theorem items_clean (fields : CfgLine) :
    fields.clean.items lib = entriesOf (fields.steps lib) := by
  rcases fields with ⟨keyStr, valStr⟩ | ⟨key, valStr⟩ | ⟨name, rates⟩ | ⟨name, fields⟩
  · exact (entriesOf_singleton _).symm
  · rw [CfgLine.clean, CfgLine.items, if_pos (unsignedOf_bounds key), CfgLine.steps,
      entriesOf_singleton]
  · rw [CfgLine.clean, CfgLine.items]
    rcases rates with _ | ⟨uart1, _ | ⟨uart2, _ | ⟨spi, _ | ⟨i2c, _ | ⟨usb, others⟩⟩⟩⟩⟩
    any_goals
      rw [CfgLine.steps.eq_def]
      rcases lib.getMsgRateCfg name <;> rfl
    rw [CfgLine.steps]
    rcases lib.getMsgRateCfg name with _ | items
    · rfl
    · dsimp only
      rw [List.take, List.take, List.take, List.take, List.take, List.take_zero, Option.bind_some,
        msgrateItems]
      simp only [rateItems_eq, entriesOf_append, Option.bind_eq_bind, Option.bind_assoc,
        Option.bind_some]
  · rcases fields with _ | ⟨baudrate, _ | ⟨inprot, _ | ⟨outprot, others⟩⟩⟩
    any_goals
      rw [CfgLine.clean.eq_def]
      dsimp only
      rw [CfgLine.items, CfgLine.steps.eq_def]
      generalize List.find? _ lib.portCfg = found
      rcases found with _ | cfg <;> rfl
    rw [CfgLine.clean, CfgLine.items, CfgLine.steps]
    generalize List.find? _ lib.portCfg = found
    rcases found with _ | cfg
    · rfl
    · rw [Option.bind_some, portItems, baudItems_cleanField, filterItems_cleanFilter,
        filterItems_cleanFilter]
      simp only [entriesOf_append, Option.bind_eq_bind, Option.bind_assoc, Option.bind_some]

/-! ### The lines of the grammar -/

/-- The names of the protocols. -/
def WellNamed (protfiltCfg : List ProtfiltCfg) : Prop :=
  ∀ prot ∈ protfiltCfg, isGiven prot.name = true

theorem wellNamed_protfiltCfg (ids : ProtocolIds) : WellNamed ids.protfiltCfg := by
  simp only [WellNamed, ProtocolIds.protfiltCfg, List.forall_mem_cons]
  exact ⟨by decide, by decide, by decide, fun _ hmem => absurd hmem List.not_mem_nil⟩

theorem wellNamed_portCfg {cfg : PortCfg} (h : cfg ∈ lib.portCfg) :
    WellNamed cfg.inProt ∧ WellNamed cfg.outProt := by
  have hall : ∀ cfg ∈ lib.portCfg, WellNamed cfg.inProt ∧ WellNamed cfg.outProt := by
    simp only [Ubloxcfg.portCfg, List.forall_mem_cons, wellNamed_protfiltCfg, true_and]
    exact fun _ hmem => absurd hmem List.not_mem_nil
  exact hall cfg h

/-- A part that a protocol is found for has two characters, and is no dash. -/
theorem isGiven_of_partItem {protfiltCfg : List ProtfiltCfg} (hnames : WellNamed protfiltCfg)
    {part : List UInt8} {item : UbloxcfgKeyval} (h : partItem protfiltCfg part = some item) :
    isGiven part = true := by
  obtain ⟨prot, hprot, -⟩ := Option.map_eq_some_iff.mp h
  have hname := hnames prot (List.mem_of_find?_eq_some hprot)
  have hfound : prot.name = if part.head? = some 33 then part.tail else part := by
    simpa using List.find?_some hprot
  rw [hfound] at hname
  split_ifs at hname with hbang
  · rcases part with _ | ⟨b, part⟩
    · cases hbang
    · rw [isGiven, decide_eq_true_eq] at hname ⊢
      rw [List.head?_cons] at hbang
      refine ⟨by rw [List.head?_cons, hbang]; decide, fun htail => hname.2 ?_⟩
      rw [List.tail_cons] at htail ⊢
      rw [htail, List.tail_nil]
  · exact hname

/-- A field that does not begin with a comma has a first part. -/
theorem exists_part {c : UInt8} (hc : c ≠ 44) (field : List UInt8) :
    ∃ part, c :: part ∈ strtok 44 (c :: field) ∧ (field = [] → part = []) := by
  obtain ⟨first, others, hsplit⟩ := List.exists_cons_of_ne_nil (List.splitOn_ne_nil 44 field)
  have hcons : (c :: field).splitOn 44 = (c :: first) :: others := by
    rw [List.splitOn, List.splitOnP_cons_eq_if_modifyHead, if_neg (by simpa using hc),
      ← List.splitOn, hsplit]
    rfl
  refine ⟨first, ?_, ?_⟩
  · rw [strtok, hcons, List.mem_filter]
    exact ⟨List.mem_cons_self, by simp⟩
  · rintro rfl
    have hnil : ([] : List UInt8).splitOn 44 = [[]] := rfl
    rw [hnil] at hsplit
    exact (List.cons.inj hsplit).1.symm

/-- A filter whose parts are protocols is given. -/
theorem isGiven_of_filterItems {protfiltCfg : List ProtfiltCfg} (hnames : WellNamed protfiltCfg)
    {field : List UInt8} (hdash : field ≠ dash) {items : List UbloxcfgKeyval}
    (h : filterItems protfiltCfg field = some items) :
    isGiven field = true ∧ strtok 44 field ≠ [] := by
  rw [filterItems, if_neg hdash] at h
  split_ifs at h with hparts
  refine ⟨?_, hparts⟩
  have hall : ∀ part ∈ strtok 44 field, isGiven part = true := by
    intro part hmem
    have hsome := Lists.isSome_mapM_iff.mp (Option.isSome_of_eq_some h) part hmem
    obtain ⟨item, hitem⟩ := Option.isSome_iff_exists.mp hsome
    exact isGiven_of_partItem hnames hitem
  rcases field with _ | ⟨c, field⟩
  · exact absurd rfl hparts
  have hcomma : c = 44 → field ≠ [] := by
    rintro rfl rfl
    exact hparts rfl
  by_cases hc : c = 44
  · rw [isGiven, decide_eq_true_eq, List.head?_cons, hc]
    exact ⟨by decide, hcomma hc⟩
  · obtain ⟨part, hmem, hempty⟩ := exists_part hc field
    have hgiven := hall _ hmem
    rw [isGiven, decide_eq_true_eq, List.head?_cons, List.tail_cons] at hgiven ⊢
    exact ⟨hgiven.1, fun htail => hgiven.2 (hempty htail)⟩

theorem isGiven_of_baudItems {id : UInt32} {baudrate : List UInt8} (hdash : baudrate ≠ dash)
    {items : List UbloxcfgKeyval} (h : baudItems id baudrate = some items) :
    isGiven baudrate = true := by
  rw [baudItems, if_neg hdash] at h
  split_ifs at h
  obtain ⟨item, hitem, -⟩ := Option.map_eq_some_iff.mp h
  obtain ⟨baud, hbaud, -⟩ := Option.map_eq_some_iff.mp hitem
  have hgiven : ∀ baud ∈ baudCfg, isGiven baud.1 = true := by decide
  have hfound : baud.1 = baudrate := by simpa using List.find?_some hbaud
  exact hfound ▸ hgiven baud (List.mem_of_find?_eq_some hbaud)

/-- **Nothing is ignored of a line of the grammar.** -/
theorem clean_of_items {fields : CfgLine} {items : List UbloxcfgKeyval}
    (h : fields.items lib = some items) : fields.clean = fields := by
  rcases fields with ⟨keyStr, valStr⟩ | ⟨key, valStr⟩ | ⟨name, rates⟩ | ⟨name, fields⟩
  · rfl
  · rw [CfgLine.items] at h
    split_ifs at h with hkey
    have hsmall : ¬ 2 ^ 64 ≤ |key| := by
      rw [abs_of_nonneg hkey.1]
      omega
    rw [CfgLine.clean, unsignedOf, if_neg hsmall, CNumber.toUnsigned,
      Int.emod_eq_of_lt hkey.1 hkey.2]
  · obtain ⟨items, -, hrates⟩ := Option.bind_eq_some_iff.mp h
    rw [msgrateItems.eq_def] at hrates
    split at hrates
    · rfl
    · cases hrates
  · obtain ⟨cfg, hcfg, hfields⟩ := Option.bind_eq_some_iff.mp h
    rw [portItems.eq_def] at hfields
    split at hfields
    · rename_i baudrate inprot outprot
      obtain ⟨baud, hbaud, hrest⟩ := Option.bind_eq_some_iff.mp hfields
      obtain ⟨inputs, hinputs, hrest⟩ := Option.bind_eq_some_iff.mp hrest
      obtain ⟨outputs, houtputs, -⟩ := Option.bind_eq_some_iff.mp hrest
      have hfilter : ∀ {protfiltCfg : List ProtfiltCfg} {field : List UInt8}
          {items : List UbloxcfgKeyval}, WellNamed protfiltCfg →
          filterItems protfiltCfg field = some items → cleanFilter field = field := by
        intro protfiltCfg field items hnames hitems
        rw [cleanFilter]
        by_cases hdash : field = dash
        · rw [hdash, if_neg fun h => not_isGiven_dash h.1]
        · exact if_pos (isGiven_of_filterItems hnames hdash hitems)
      have hbaudrate : cleanField baudrate = baudrate := by
        rw [cleanField]
        by_cases hdash : baudrate = dash
        · rw [hdash, if_neg not_isGiven_dash]
        · exact if_pos (isGiven_of_baudItems hdash hbaud)
      obtain ⟨hin, hout⟩ := wellNamed_portCfg lib (List.mem_of_find?_eq_some hcfg)
      rw [CfgLine.clean, hbaudrate, hfilter hin hinputs, hfilter hout houtputs]
    · cases hfields

theorem runSteps_eq_true_iff {steps : List (Option UbloxcfgKeyval)} {db added : CfgDb} :
    runSteps steps db = (true, added) ↔ ∃ items, steps = items.map some ∧
      Fits UbloxcfgKeyval.id db.maxKv db.kv items ∧ added = { db with kv := db.kv ++ items } := by
  rw [runSteps]
  constructor
  · intro h
    obtain ⟨hok, rfl⟩ := Prod.mk.inj h
    obtain ⟨items, hsteps, hfits, hkv⟩ :=
      addSteps_eq_true_iff.mp (Prod.ext hok (rfl : _ = (addSteps _ db.maxKv steps db.kv).2))
    exact ⟨items, hsteps, hfits, congrArg (fun kv => { db with kv := kv }) hkv⟩
  · rintro ⟨items, hsteps, hfits, rfl⟩
    rw [addSteps_eq_true_iff.mpr ⟨items, hsteps, hfits, rfl⟩]

/-- **A line is added as the grammar says** exactly when nothing of it is ignored, or it cannot be
added without that. -/
theorem cfgLineLaw_iff (db : CfgDb) (line : List UInt8) :
    CfgLineLaw lib db line ↔ CfgLineRead lib db line := by
  have hadd : ∀ added, cfgDbAdd lib db line = (true, added) ↔ ∃ fields items,
      cfgLine line = some fields ∧ fields.clean.items lib = some items ∧
        Fits UbloxcfgKeyval.id db.maxKv db.kv items ∧ added = { db with kv := db.kv ++ items } := by
    intro added
    rw [cfgDbAdd_eq]
    rcases hline : cfgLine line with _ | fields
    · simp
    · simp only [Option.some.injEq, exists_and_left, exists_eq_left', items_clean,
        entriesOf_eq_some_iff]
      exact runSteps_eq_true_iff
  constructor
  · intro hlaw fields hline
    by_contra hnot
    rw [not_or, not_not] at hnot
    obtain ⟨hclean, items, hitems, hfits⟩ := hnot
    obtain ⟨fields', items', hline', hstrict, -⟩ :=
      hlaw _ ((hadd _).mpr ⟨fields, items, hline, hitems, hfits, rfl⟩)
    obtain rfl := Option.some.inj (hline.symm.trans hline')
    exact hclean (clean_of_items lib hstrict)
  · intro hread added hadded
    obtain ⟨fields, items, hline, hitems, hfits, hadded⟩ := (hadd _).mp hadded
    have hclean := (hread fields hline).resolve_right (not_not.mpr ⟨items, hitems, hfits⟩)
    rw [hclean] at hitems
    exact ⟨fields, items, hline, hitems, hfits, hadded⟩

/-- The protocols of a group of ids, in their order. -/
def protocolGroup (group : UInt32) : ProtocolIds := ⟨group + 1, group + 2, group + 4⟩

/-- A library that knows the ports of a receiver, and no items by their names. -/
def portLibrary : Ubloxcfg where
  getItemByName _ := none
  getMsgRateCfg _ := none
  valueFromString _ _ _ := none
  id2Size _ := none
  uart1BaudrateId := 0x40520001
  uart2BaudrateId := 0x40530001
  uart1InProt := protocolGroup 0x10730000
  uart1OutProt := protocolGroup 0x10740000
  uart2InProt := protocolGroup 0x10750000
  uart2OutProt := protocolGroup 0x10760000
  spiInProt := protocolGroup 0x10790000
  spiOutProt := protocolGroup 0x107a0000
  i2cInProt := protocolGroup 0x10710000
  i2cOutProt := protocolGroup 0x10720000
  usbInProt := protocolGroup 0x10770000
  usbOutProt := protocolGroup 0x10780000

/-- A list without items. -/
def emptyDb : CfgDb := { kv := [], maxKv := 1280 }

/-- A line of the grammar. -/
example : (cfgDbAdd portLibrary emptyDb (ascii "UART1 9600 UBX !NMEA,UBX")).2.kv
    = [⟨0x40520001, 9600⟩, ⟨0x10730001, 1⟩, ⟨0x10740002, 0⟩, ⟨0x10740001, 1⟩] := by decide

/-- A baud rate that begins with a dash is ignored. -/
theorem cfgLineLaw_fails_dash :
    ¬ CfgLineLaw portLibrary emptyDb (ascii "UART1 -9600 - -") := by
  intro hlaw
  obtain ⟨fields, items, hline, hitems, -⟩ := hlaw emptyDb (by decide)
  have hfields : cfgLine (ascii "UART1 -9600 - -")
      = some (.port (ascii "UART1") [ascii "-9600", dash, dash]) := by decide
  obtain rfl := Option.some.inj (hfields.symm.trans hline)
  have hnone : (CfgLine.port (ascii "UART1") [ascii "-9600", dash, dash]).items portLibrary
      = none := by decide
  exact Option.some_ne_none items (hitems.symm.trans hnone)

end Oscillatord
