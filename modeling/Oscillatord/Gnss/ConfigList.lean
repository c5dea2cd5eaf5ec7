import Oscillatord.Gnss.ConfigGrammar
import Oscillatord.Gnss.ReceiverVersion
import Oscillatord.Library.Numerals

/-!
# The list of the receiver configuration

`get_default_value_from_config` adds the lines of a table to an empty list, and
`set_preferred_time_scale` and `set_cable_delay` put the values of the user's configuration in it.
The items of the list should have different ids whatever lines are added, a line that fails should
leave what is there and the caller without a list, and the user's values should change the items
they are for, when they are of their grammar, and nothing else (`ConfigListLaw`).

The grammars are those of the beginning of a value (`configListLaw`): the first three characters of
a time scale are compared, and what follows the numeral of a cable delay may be a remark, as it is
in the example of a configuration.
-/

namespace Oscillatord

open CText CNumber KeyedList

/-! ### The default list -/

variable (lib : Ubloxcfg)

/-- The list after some lines, those that fail among them. -/
def cfgDbFeed (db : CfgDb) (lines : List (List UInt8)) : CfgDb :=
  lines.foldl (fun db line => (cfgDbAdd lib db line).2) db

/-- The list after some lines, from an empty one. -/
def cfgDbReached (maxKv : ℕ) (lines : List (List UInt8)) : CfgDb :=
  cfgDbFeed lib { kv := [], maxKv := maxKv } lines

/-- The loop of `get_default_value_from_config`. -/
def addLines : List (List UInt8) → CfgDb → Bool × CfgDb
  | [], db => (true, db)
  | line :: lines, db => orFail (cfgDbAdd lib db line) (addLines lines)

/-- A line of a table as it is copied, to 127 characters. -/
def currentLine (text : List UInt8) : List UInt8 := (cString text).take 127

/-- The tables of lines. -/
structure DefaultConfiguration where
  defaultConfiguration : List (List UInt8)
  defaultConfigurationV220 : List (List UInt8)

/-- The lines for a version, as they are added. -/
def DefaultConfiguration.lines (tables : DefaultConfiguration) (version : ReceiverVersion) :
    List (List UInt8) :=
  (if isV220 version then tables.defaultConfigurationV220 else tables.defaultConfiguration).map
    currentLine

/-- `get_default_value_from_config`; `allocated` is that there is memory for the list. -/
def getDefaultValueFromConfig (tables : DefaultConfiguration) (maxKv : ℕ) (allocated : Bool)
    (version : ReceiverVersion) : Option (List UbloxcfgKeyval) :=
  if allocated then
    match addLines lib (tables.lines version) { kv := [], maxKv := maxKv } with
    | (true, db) => some db.kv
    | (false, _) => none
  else none

/-! ### The values of the user -/

/-- The constants of the items that the user can set. -/
structure CustomIds where
  timegridId : UInt32
  gps : UInt8
  gal : UInt8
  glo : UInt8
  bds : UInt8
  utc : UInt8
  cableDelayId : UInt32

/-- The time scales, with the values of the item. -/
def CustomIds.timeScales (ids : CustomIds) : List (List UInt8 × UInt8) :=
  [(ascii "GPS", ids.gps), (ascii "GAL", ids.gal), (ascii "GLO", ids.glo), (ascii "BDS", ids.bds),
    (ascii "UTC", ids.utc)]

/-- A value of one byte is stored in the union. -/
def storeE1 (value : UInt8) (item : UbloxcfgKeyval) : UbloxcfgKeyval :=
  { item with raw := (item.raw &&& 0xffffffffffffff00) ||| value.toUInt64 }

/-- A value of two bytes is stored in the union. -/
def storeI2 (value : UInt16) (item : UbloxcfgKeyval) : UbloxcfgKeyval :=
  { item with raw := (item.raw &&& 0xffffffffffff0000) ||| value.toUInt64 }

/-- The search for an item from the end of the list, and what is done with it. -/
def setItem (id : UInt32) (store : UbloxcfgKeyval → UbloxcfgKeyval) (kv : List UbloxcfgKeyval) :
    Bool × List UbloxcfgKeyval :=
  match modifyLast (fun item => decide (item.id = id)) store kv with
  | some kv => (true, kv)
  | none => (false, kv)

/-- The key of the time scale. -/
def timeScaleKey : List UInt8 := ascii "gnss-preferred-time-scale"

/-- The key of the cable delay. -/
def cableDelayKey : List UInt8 := ascii "gnss-cable-delay"

/-- `set_preferred_time_scale`. -/
def setPreferredTimeScale (ids : CustomIds) (config : List (List UInt8))
    (kv : List UbloxcfgKeyval) : Bool × List UbloxcfgKeyval :=
  match configGet config timeScaleKey with
  | none => (false, kv)
  | some preferredConstellation =>
    match ids.timeScales.find? fun scale => scale.1.isPrefixOf preferredConstellation with
    | none => (false, kv)
    | some scale => setItem ids.timegridId (storeE1 scale.2) kv

/-- `set_cable_delay`. -/
def setCableDelay (ids : CustomIds) (config : List (List UInt8)) (kv : List UbloxcfgKeyval) :
    Bool × List UbloxcfgKeyval :=
  match configGet config cableDelayKey with
  | none => (false, kv)
  | some string =>
    let (value, range, rest) := strtol string
    if range then (false, kv)
    else if value ≤ 0 ∨ 32767 < value then (false, kv)
    else if rest = string then (false, kv)
    else setItem ids.cableDelayId (storeI2 (UInt16.ofInt value)) kv

/-! ### The law -/

/-- The lists differ in the value of the one item with an id. -/
def ChangesItem (ownId : UInt32) (kv changed : List UbloxcfgKeyval) : Prop :=
  ∃ before item after raw, kv = before ++ item :: after ∧ item.id = ownId ∧
    (∀ other ∈ before ++ after, other.id ≠ ownId) ∧
    changed = before ++ { item with raw := raw } :: after

/-- What a value of the user may do to the list: it changes the value of its own item at most, and
nothing when the function fails, or when the value is not of its grammar. -/
structure CustomLaw (ownId : UInt32) (valid : Prop) (kv : List UbloxcfgKeyval)
    (result : Bool × List UbloxcfgKeyval) : Prop where
  changed : result.2 = kv ∨ ChangesItem ownId kv result.2
  failed : result.1 = false → result.2 = kv
  invalid : ¬ valid → result.2 = kv

/-- **The law of the list**, for the grammars of the values of the user. -/
structure ConfigListLaw (ids : CustomIds) (maxKv : ℕ)
    (timeScaleValid cableDelayValid : List (List UInt8) → Prop) : Prop where
  keyed : ∀ lines, Keyed UbloxcfgKeyval.id maxKv (cfgDbReached lib maxKv lines).kv
  kept : ∀ db line, db.kv <+: (cfgDbAdd lib db line).2.kv
  none : ∀ tables allocated version before line,
    before ++ [line] <+: DefaultConfiguration.lines tables version →
    (cfgDbAdd lib (cfgDbReached lib maxKv before) line).1 = false →
    getDefaultValueFromConfig lib tables maxKv allocated version = none
  returned : ∀ tables allocated version items,
    getDefaultValueFromConfig lib tables maxKv allocated version = some items →
    Keyed UbloxcfgKeyval.id maxKv items
  timeScale : ∀ lines config,
    let kv := (cfgDbReached lib maxKv lines).kv
    CustomLaw ids.timegridId (timeScaleValid config) kv (setPreferredTimeScale ids config kv)
  cableDelay : ∀ lines config,
    let kv := (cfgDbReached lib maxKv lines).kv
    CustomLaw ids.cableDelayId (cableDelayValid config) kv (setCableDelay ids config kv)

/-- The configuration has a time scale. -/
def HasTimeScale (ids : CustomIds) (config : List (List UInt8)) : Prop :=
  ∃ scale ∈ ids.timeScales, configGet config timeScaleKey = some scale.1

/-- The configuration has a cable delay, as a numeral in its range. -/
def HasCableDelay (config : List (List UInt8)) : Prop :=
  ∃ string n, configGet config cableDelayKey = some string ∧ SignedNumeral string false n ∧
    1 ≤ n ∧ n ≤ 32767

/-- The configuration has a value that begins with a time scale. -/
def BeginsWithTimeScale (ids : CustomIds) (config : List (List UInt8)) : Prop :=
  ∃ scale ∈ ids.timeScales, ∃ rest, configGet config timeScaleKey = some (scale.1 ++ rest)

/-- The configuration has a value that begins with a cable delay: the longest numeral at its
beginning is in the range. -/
def BeginsWithCableDelay (config : List (List UInt8)) : Prop :=
  ∃ string n, configGet config cableDelayKey = some string ∧ LeadingNumeral string false n ∧
    1 ≤ n ∧ n ≤ 32767

/-! ### Adding lines -/

theorem keyed_cfgDbAdd {db : CfgDb} (h : Keyed UbloxcfgKeyval.id db.maxKv db.kv)
    (line : List UInt8) :
    Keyed UbloxcfgKeyval.id db.maxKv (cfgDbAdd lib db line).2.kv := by
  rw [cfgDbAdd_eq]
  rcases cfgLine line with _ | fields
  · exact h
  · exact h.addSteps _

theorem maxKv_cfgDbAdd (db : CfgDb) (line : List UInt8) :
    (cfgDbAdd lib db line).2.maxKv = db.maxKv := by
  rw [cfgDbAdd_eq]
  rcases cfgLine line with _ | fields <;> rfl

/-- **What is there stays there.** -/
theorem prefix_cfgDbAdd (db : CfgDb) (line : List UInt8) :
    db.kv <+: (cfgDbAdd lib db line).2.kv := by
  rw [cfgDbAdd_eq]
  rcases cfgLine line with _ | fields
  · exact List.prefix_rfl
  · exact prefix_addSteps _

/-- **The ids are different** after any lines. -/
theorem keyed_cfgDbFeed {db : CfgDb} (h : Keyed UbloxcfgKeyval.id db.maxKv db.kv)
    (lines : List (List UInt8)) :
    Keyed UbloxcfgKeyval.id db.maxKv (cfgDbFeed lib db lines).kv := by
  induction lines generalizing db with
  | nil => exact h
  | cons line lines ih =>
    have hline := keyed_cfgDbAdd lib h line
    rw [← maxKv_cfgDbAdd lib db line] at hline ⊢
    exact ih hline

theorem keyed_empty (maxKv : ℕ) : Keyed UbloxcfgKeyval.id maxKv [] :=
  ⟨List.nodup_nil, Nat.zero_le _⟩

theorem keyed_cfgDbReached (maxKv : ℕ) (lines : List (List UInt8)) :
    Keyed UbloxcfgKeyval.id maxKv (cfgDbReached lib maxKv lines).kv := by
  have hempty : Keyed UbloxcfgKeyval.id (CfgDb.mk [] maxKv).maxKv (CfgDb.mk [] maxKv).kv :=
    keyed_empty maxKv
  exact keyed_cfgDbFeed lib hempty lines

variable {lib}

/-- A line that fails ends the loop. -/
theorem addLines_of_failed {before : List (List UInt8)} {line : List UInt8} {db : CfgDb}
    (h : (cfgDbAdd lib (cfgDbFeed lib db before) line).1 = false) (after : List (List UInt8)) :
    (addLines lib (before ++ line :: after) db).1 = false := by
  induction before generalizing db with
  | nil =>
    have hline : (cfgDbAdd lib db line).1 = false := h
    rw [List.nil_append, addLines, orFail, hline]
    rfl
  | cons first before ih =>
    rw [List.cons_append, addLines, orFail]
    split_ifs with hfirst
    · exact ih h
    · rfl

theorem getDefaultValueFromConfig_of_failed {tables : DefaultConfiguration} {maxKv : ℕ}
    {version : ReceiverVersion} {before : List (List UInt8)} {line : List UInt8}
    (hbegins : before ++ [line] <+: tables.lines version)
    (h : (cfgDbAdd lib (cfgDbReached lib maxKv before) line).1 = false)
    (allocated : Bool) :
    getDefaultValueFromConfig lib tables maxKv allocated version = none := by
  obtain ⟨after, hlines⟩ := hbegins
  have hfailed := addLines_of_failed h after
  rw [List.append_assoc, List.singleton_append] at hlines
  rw [hlines] at hfailed
  rw [getDefaultValueFromConfig]
  split_ifs
  · rcases hresult : addLines lib (tables.lines version) { kv := [], maxKv := maxKv } with ⟨ok, db⟩
    rw [hresult] at hfailed
    obtain rfl : ok = false := hfailed
    rfl
  · rfl

/-- The loop that goes through leaves what the lines leave. -/
theorem addLines_eq_feed (lines : List (List UInt8)) (db : CfgDb)
    (h : (addLines lib lines db).1 = true) :
    (addLines lib lines db).2 = cfgDbFeed lib db lines := by
  induction lines generalizing db with
  | nil => rfl
  | cons line lines ih =>
    rw [addLines, orFail] at h ⊢
    split_ifs at h ⊢ with hline
    exact ih _ h

theorem keyed_getDefaultValueFromConfig {tables : DefaultConfiguration} {maxKv : ℕ}
    {allocated : Bool} {version : ReceiverVersion} {items : List UbloxcfgKeyval}
    (h : getDefaultValueFromConfig lib tables maxKv allocated version = some items) :
    Keyed UbloxcfgKeyval.id maxKv items := by
  rw [getDefaultValueFromConfig] at h
  split_ifs at h
  have hfeed : (addLines lib (tables.lines version) { kv := [], maxKv := maxKv }).1 = true → _ :=
    addLines_eq_feed (tables.lines version) { kv := [], maxKv := maxKv }
  rcases hresult : addLines lib (tables.lines version) { kv := [], maxKv := maxKv } with ⟨ok, db⟩
  rw [hresult] at h hfeed
  cases ok with
  | false => cases h
  | true =>
    obtain rfl := Option.some.inj h
    obtain rfl : db = _ := hfeed rfl
    exact keyed_cfgDbReached lib maxKv _

/-! ### Setting an item -/

/-- A function that fails leaves the list. -/
theorem customLaw_unchanged (ownId : UInt32) (valid : Prop) (kv : List UbloxcfgKeyval) :
    CustomLaw ownId valid kv (false, kv) :=
  ⟨.inl rfl, fun _ => rfl, fun _ => rfl⟩

variable {kv : List UbloxcfgKeyval} {id : UInt32} {store : UbloxcfgKeyval → UbloxcfgKeyval}

/-- **One item is changed**, and only its value. -/
theorem customLaw_setItem (hnodup : (kv.map UbloxcfgKeyval.id).Nodup)
    (hstore : ∀ item, ∃ raw, store item = { item with raw := raw }) {valid : Prop}
    (hvalid : valid) : CustomLaw id valid kv (setItem id store kv) := by
  rcases hmodify : modifyLast (fun item => decide (item.id = id)) store kv with _ | changed
  · rw [setItem, hmodify]
    exact customLaw_unchanged id valid kv
  · rw [setItem, hmodify]
    obtain ⟨before, item, after, rfl, hid, rfl⟩ := modifyLast_eq_some hmodify
    obtain rfl := of_decide_eq_true hid
    obtain ⟨raw, hraw⟩ := hstore item
    have hchanges : ChangesItem item.id (before ++ item :: after)
        (before ++ store item :: after) :=
      ⟨before, item, after, raw, rfl, rfl, key_ne_of_nodup hnodup, by rw [hraw]⟩
    exact ⟨.inr hchanges, fun h => Bool.noConfusion h, fun h => absurd hvalid h⟩

theorem customLaw_setPreferredTimeScale (ids : CustomIds) (config : List (List UInt8))
    (hnodup : (kv.map UbloxcfgKeyval.id).Nodup) :
    CustomLaw ids.timegridId (BeginsWithTimeScale ids config) kv
      (setPreferredTimeScale ids config kv) := by
  rcases hget : configGet config timeScaleKey with _ | preferred
  · rw [setPreferredTimeScale, hget]
    exact customLaw_unchanged _ _ kv
  · rcases hfind : ids.timeScales.find? fun scale => scale.1.isPrefixOf preferred with _ | scale
    · simp only [setPreferredTimeScale, hget, hfind]
      exact customLaw_unchanged _ _ kv
    · have hbegins := List.find?_some hfind
      obtain ⟨rest, rfl⟩ := List.isPrefixOf_iff_prefix.mp hbegins
      simp only [setPreferredTimeScale, hget, hfind]
      exact customLaw_setItem hnodup (fun item => ⟨_, rfl⟩)
        ⟨scale, List.mem_of_find?_eq_some hfind, rest, hget⟩

theorem customLaw_setCableDelay (ids : CustomIds) (config : List (List UInt8))
    (hnodup : (kv.map UbloxcfgKeyval.id).Nodup) :
    CustomLaw ids.cableDelayId (BeginsWithCableDelay config) kv (setCableDelay ids config kv) := by
  rcases hget : configGet config cableDelayKey with _ | string
  · rw [setCableDelay, hget]
    exact customLaw_unchanged _ _ kv
  · rcases hvalue : strtol string with ⟨value, range, rest⟩
    simp only [setCableDelay, hget, hvalue]
    split_ifs with hrange hbounds hnone
    · exact customLaw_unchanged _ _ kv
    · exact customLaw_unchanged _ _ kv
    · exact customLaw_unchanged _ _ kv
    · rw [not_or, not_le, not_lt] at hbounds
      obtain rfl := Bool.eq_false_of_not_eq_true hrange
      obtain ⟨n, rfl, hnumeral⟩ := leadingNumeral_of_strtol hbounds.1 hvalue
      exact customLaw_setItem hnodup (fun item => ⟨_, rfl⟩)
        ⟨string, n, hget, hnumeral, by omega, by omega⟩

variable (lib)

/-- **The law holds** with values that begin with a time scale or a cable delay. -/
theorem configListLaw (ids : CustomIds) (maxKv : ℕ) :
    ConfigListLaw lib ids maxKv (BeginsWithTimeScale ids) BeginsWithCableDelay where
  keyed := keyed_cfgDbReached lib maxKv
  kept := prefix_cfgDbAdd lib
  none _ allocated _ _ _ hbegins hfailed :=
    getDefaultValueFromConfig_of_failed hbegins hfailed allocated
  returned _ _ _ _ h := keyed_getDefaultValueFromConfig h
  timeScale lines config :=
    customLaw_setPreferredTimeScale ids config (keyed_cfgDbReached lib maxKv lines).nodup
  cableDelay lines config :=
    customLaw_setCableDelay ids config (keyed_cfgDbReached lib maxKv lines).nodup

/-- The items of a receiver. -/
def receiverIds : CustomIds where
  timegridId := 0x2005000c
  gps := 1
  gal := 4
  glo := 2
  bds := 3
  utc := 0
  cableDelayId := 0x30050001

/-- A library that knows the ports of a receiver and, for the time grid, one of its names. -/
def timegridLibrary : Ubloxcfg :=
  { portLibrary with
    getItemByName := fun name =>
      if name = ascii "CFG-TP-TIMEGRID_TP1" then some ⟨receiverIds.timegridId, .e1⟩ else none
    valueFromString := fun text _ _ =>
      if text = ascii "GPS" then some receiverIds.gps.toUInt64 else none }

/-- A line of the default configuration. -/
def timegridLine : List UInt8 := ascii "CFG-TP-TIMEGRID_TP1                GPS"

/-- A cable delay with a remark, as in the example of a configuration. -/
example : setCableDelay receiverIds [ascii "gnss-cable-delay=85 # 85ns of cable delay"]
    [⟨0x30050001, 50⟩] = (true, [⟨0x30050001, 85⟩]) := by decide

/-- A value that is not a time scale, but begins with one, changes the list. -/
theorem configListLaw_fails_galileo :
    ¬ ConfigListLaw timegridLibrary receiverIds 1280 (HasTimeScale receiverIds) HasCableDelay := by
  intro hlaw
  have hcustom := hlaw.timeScale [timegridLine] [ascii "gnss-preferred-time-scale=GALILEO"]
  have hlist : (cfgDbReached timegridLibrary 1280 [timegridLine]).kv = [⟨0x2005000c, 1⟩] := by
    decide
  dsimp only at hcustom
  rw [hlist] at hcustom
  have hnone : ¬ HasTimeScale receiverIds [ascii "gnss-preferred-time-scale=GALILEO"] := by
    rw [HasTimeScale]
    decide
  have hchanged : (setPreferredTimeScale receiverIds [ascii "gnss-preferred-time-scale=GALILEO"]
      [⟨0x2005000c, 1⟩]).2 ≠ [⟨0x2005000c, 1⟩] := by decide
  exact hchanged (hcustom.invalid hnone)

end Oscillatord
