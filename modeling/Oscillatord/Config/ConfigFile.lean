import Oscillatord.Eeprom.EepromConfig
import Oscillatord.Library.Envz
import Oscillatord.Library.Lists

/-!
# The configuration file

`config_init` reads the whole file into a buffer of its size, which no byte terminates, and makes
an environment vector of its lines, without the comments. `config_save` writes the vector back: it
joins the entries in a buffer of 1024 bytes, which a longer text leaves without a terminator too,
and writes the string it finds there, a terminator and a newline. What follows either buffer in
memory is an argument here.

The daemon saves its configuration once it has calibrated, with `calibrate_first` set to `false`.
`ConfigSaveLaw` is what this should do to the user's file: the next start finds the same values,
but for that key, and the save succeeds only when the file is complete. It holds exactly when the
text is shorter than the buffer, no second line for the key is left, and the file cannot be opened
or all of the text is written (`configSaveLaw_iff`).
-/

namespace Oscillatord

/-! ### Bytes -/

/-- The bytes of a text. -/
def ascii (text : String) : List UInt8 := text.toList.map fun c => UInt8.ofNat c.toNat

/-- The separators of lines, and of names and values. -/
def newline : UInt8 := 10

def equals : UInt8 := 61

/-- The string at the beginning of some memory. -/
def stringAt (memory : List UInt8) : List UInt8 := memory.takeWhile fun byte => decide (byte ≠ 0)

/-! ### Reading -/

/-- How a file is read: an operation fails before it is, with its `errno`; the file is read short,
at its end or by an error; or all of it is read. -/
inductive ConfigRead
  | failed (errno : ℕ)
  | short (eof : Bool)
  | complete (content : List UInt8)
  deriving Repr, DecidableEq

/-- `EIO`. -/
def eio : ℤ := 5

/-- The entry is a comment. -/
def isComment (entry : List UInt8) : Bool := decide (entry.head? = some 35)

/-- The loop over the entries: each comment is deleted, and the search starts again. -/
def removeComments (argz : List (List UInt8)) : List (List UInt8) :=
  if argz.any isComment then removeComments (argz.eraseP isComment) else argz
termination_by argz.length
decreasing_by
  rename_i hany
  obtain ⟨entry, hmem, hcomment⟩ := List.any_eq_true.mp hany
  have hlength := List.length_eraseP_of_mem hmem hcomment
  have hpos := List.length_pos_of_mem hmem
  omega

/-- `config_init`, and its `read_file`: the return value, and the vector. `heap` is what follows the
buffer. A read cut short by an error returns the `0` of the last `fseek`. -/
def configInit (heap : List UInt8) : ConfigRead → ℤ × List (List UInt8)
  | .failed errno => (-errno, [])
  | .short eof => (if eof then -eio else 0, [])
  | .complete content =>
    (0, removeComments (Envz.createSep newline (stringAt (content ++ heap))))

/-- `config_get`. -/
def configGet (argz : List (List UInt8)) (key : List UInt8) : Option (List UInt8) :=
  Envz.get equals argz key

/-- `config_set`. -/
def configSet (argz : List (List UInt8)) (key value : List UInt8) : List (List UInt8) :=
  Envz.add equals argz key value

/-! ### Writing -/

/-- `config_dump`: what it copies to a buffer of `bufLen` bytes. -/
def configDump (argz : List (List UInt8)) (bufLen : ℕ) : List UInt8 :=
  (Envz.stringify newline argz ++ [0]).take bufLen

/-- The size of the buffer of `config_save`. -/
def configSaveSize : ℕ := 1024

/-- What `config_save` writes, when all of it is written; `stack` is what follows its buffer. -/
def configSaveBytes (argz : List (List UInt8)) (stack : List UInt8) : List UInt8 :=
  let dump := configDump argz configSaveSize
  let data := dump ++ List.replicate (configSaveSize - dump.length) 0
  stringAt (data ++ stack) ++ [0] ++ [newline]

/-- `config_save`: the return value, and the file. The results of its writes are not looked at. -/
def configSave (outcome : WriteOutcome) (file : EepromFile) (argz : List (List UInt8))
    (stack : List UInt8) : ℤ × EepromFile :=
  match outcome with
  | .openFails => (-einval, file)
  | .written count => (0, some ((configSaveBytes argz stack).take count))

/-! ### The law -/

/-- The key the daemon sets, and its value. -/
def calibrateFirst : List UInt8 := ascii "calibrate_first"

def falseText : List UInt8 := ascii "false"

/-- The configuration the daemon saves. -/
def withoutCalibration (argz : List (List UInt8)) : List (List UInt8) :=
  configSet argz calibrateFirst falseText

/-- **The law of the save**, whatever follows the buffers in memory: once all is written the next
start finds the value that was set and the other values of the configuration, and `0` is returned
only if the file holds all of its text. -/
structure ConfigSaveLaw (argz : List (List UInt8)) (outcome : WriteOutcome) (file : EepromFile) :
    Prop where
  disabled : ∀ stack heap,
    configGet (configInit heap (.complete (configSaveBytes (withoutCalibration argz) stack))).2
      calibrateFirst = some falseText
  others : ∀ stack heap key, Envz.name equals key ≠ calibrateFirst →
    configGet (configInit heap (.complete (configSaveBytes (withoutCalibration argz) stack))).2 key
      = configGet argz key
  saved : ∀ stack, (configSave outcome file (withoutCalibration argz) stack).1 = 0 →
    ∃ content, (configSave outcome file (withoutCalibration argz) stack).2 = some content ∧
      stringAt content = Envz.stringify newline (withoutCalibration argz)

/-- What the law needs. -/
structure ConfigSaveKept (argz : List (List UInt8)) (outcome : WriteOutcome) : Prop where
  fits : (Envz.stringify newline (withoutCalibration argz)).length < configSaveSize
  single : ∀ entry, (Envz.remove equals argz calibrateFirst).find?
      (Envz.matchesKey equals calibrateFirst) = some entry →
    Envz.value equals entry = some falseText
  written : outcome = .openFails ∨ ∃ count, outcome = .written count ∧
    (Envz.stringify newline (withoutCalibration argz)).length ≤ count

/-! ### What is read -/

/-- The loop removes all comments. -/
theorem removeComments_eq_filter (argz : List (List UInt8)) :
    removeComments argz = argz.filter fun entry => !isComment entry := by
  fun_induction removeComments argz with
  | case1 argz hany ih => rw [ih, Lists.filter_not_eraseP]
  | case2 argz hany =>
    refine (List.filter_eq_self.mpr fun entry hmem => ?_).symm
    simp only [List.any_eq_true, not_exists, not_and] at hany
    simpa using hany entry hmem

/-- What a vector that was read looks like: one line an entry, and no comments. -/
structure ConfigVector (argz : List (List UInt8)) : Prop where
  compact : Envz.Compact argz
  line : ∀ entry ∈ argz, newline ∉ entry ∧ 0 ∉ entry
  comment : ∀ entry ∈ argz, isComment entry = false

theorem zero_not_mem_stringAt (memory : List UInt8) : 0 ∉ stringAt memory := by
  intro h
  have hne := List.mem_takeWhile_imp h
  simp at hne

theorem stringAt_of_not_mem {text : List UInt8} (h : 0 ∉ text) (rest : List UInt8) :
    stringAt (text ++ rest) = text ++ stringAt rest := by
  refine List.takeWhile_append_of_pos fun byte hmem => ?_
  refine decide_eq_true fun hzero => h ?_
  rwa [← hzero]

theorem configVector_configInit {heap : List UInt8} {read : ConfigRead} {ret : ℤ}
    {argz : List (List UInt8)} (h : configInit heap read = (ret, argz)) : ConfigVector argz := by
  have hempty : ConfigVector [] := ⟨List.Pairwise.nil, nofun, nofun⟩
  cases read with
  | failed errno => exact (Prod.mk.inj h).2 ▸ hempty
  | short eof => exact (Prod.mk.inj h).2 ▸ hempty
  | complete content =>
    obtain ⟨-, rfl⟩ := Prod.mk.inj h
    rw [removeComments_eq_filter]
    refine ⟨(Envz.compact_createSep _).sublist List.filter_sublist, fun entry hmem => ?_,
      fun entry hmem => ?_⟩
    · have hentry := (List.mem_filter.mp hmem).1
      exact ⟨fun hnl => (Envz.mem_of_mem_createSep hentry hnl).2 rfl, fun hzero =>
        zero_not_mem_stringAt _ (Envz.mem_of_mem_createSep hentry hzero).1⟩
    · simpa using (List.mem_filter.mp hmem).2

/-- What is read of a text and its terminator. -/
theorem configInit_of_terminated {text : List UInt8} (h : 0 ∉ text) (heap : List UInt8) :
    (configInit heap (.complete (text ++ [0] ++ [newline]))).2
      = (Envz.createSep newline text).filter fun entry => !isComment entry := by
  have hstring : stringAt (text ++ [0] ++ [newline] ++ heap) = text := by
    rw [List.append_assoc, List.append_assoc, stringAt_of_not_mem h]
    exact List.append_nil text
  rw [configInit, hstring, removeComments_eq_filter]

/-! ### What is written -/

variable {argz : List (List UInt8)}

/-- The entry the daemon adds. -/
def calibrationEntry : List UInt8 := calibrateFirst ++ equals :: falseText

theorem line_remove {entry : List UInt8} (hmem : entry ∈ Envz.remove equals argz calibrateFirst) :
    entry ∈ argz :=
  List.mem_of_mem_eraseP hmem

/-- The text that is saved has no terminator in it. -/
theorem zero_not_mem_text (hargz : ConfigVector argz) :
    0 ∉ Envz.stringify newline (withoutCalibration argz) := by
  intro hzero
  rcases Envz.mem_of_mem_stringify hzero with hdelim | ⟨entry, hmem, hentry⟩
  · exact absurd hdelim (by decide)
  · rcases List.mem_append.mp hmem with hmem | hmem
    · exact (hargz.line entry (line_remove hmem)).2 hentry
    · rw [List.mem_singleton.mp hmem] at hentry
      exact absurd hentry (by decide)

/-- A text that fits is written with its terminator, whatever follows the buffer. -/
theorem configSaveBytes_of_fits (hzero : 0 ∉ Envz.stringify newline argz)
    (hfits : (Envz.stringify newline argz).length < configSaveSize) (stack : List UInt8) :
    configSaveBytes argz stack = Envz.stringify newline argz ++ [0] ++ [newline] := by
  have hdump : configDump argz configSaveSize = Envz.stringify newline argz ++ [0] :=
    List.take_of_length_le (by simp; omega)
  simp only [configSaveBytes, hdump, List.append_assoc]
  rw [stringAt_of_not_mem hzero]
  simp [stringAt]

/-- A text that does not fit is cut, and what follows the buffer is written after it. -/
theorem configSaveBytes_of_not_fits (hzero : 0 ∉ Envz.stringify newline argz)
    (hfits : configSaveSize ≤ (Envz.stringify newline argz).length) {stack : List UInt8}
    (hstack : 0 ∉ stack) :
    configSaveBytes argz stack
      = (Envz.stringify newline argz).take configSaveSize ++ stack ++ [0] ++ [newline] := by
  have hdump : configDump argz configSaveSize
      = (Envz.stringify newline argz).take configSaveSize := List.take_append_of_le_length hfits
  have hlength : ((Envz.stringify newline argz).take configSaveSize).length = configSaveSize :=
    List.length_take_of_le hfits
  have hcut : 0 ∉ (Envz.stringify newline argz).take configSaveSize :=
    fun h => hzero (List.mem_of_mem_take h)
  simp only [configSaveBytes, hdump, hlength, Nat.sub_self, List.replicate_zero, List.append_nil]
  rw [stringAt_of_not_mem hcut, ← List.append_nil stack, stringAt_of_not_mem hstack]
  rfl

/-! ### The next start -/

/-- What the next start makes of a text that fits: the entries, less the empty ones. -/
theorem configInit_of_fits (hargz : ConfigVector argz)
    (hfits : (Envz.stringify newline (withoutCalibration argz)).length < configSaveSize)
    (stack heap : List UInt8) :
    (configInit heap (.complete (configSaveBytes (withoutCalibration argz) stack))).2
      = (Envz.remove equals argz calibrateFirst).filter (fun part => decide (part ≠ []))
          ++ [calibrationEntry] := by
  have hzero := zero_not_mem_text hargz
  rw [configSaveBytes_of_fits hzero hfits, configInit_of_terminated hzero]
  have hcreate : Envz.createSep newline (Envz.stringify newline (withoutCalibration argz)) = _ :=
    Envz.createSep_stringify (fun entry hmem => (hargz.line entry (line_remove hmem)).1)
      (by decide) (by decide)
  rw [hcreate, List.filter_append]
  congr 1
  refine List.filter_eq_self.mpr fun entry hmem => ?_
  simpa using hargz.comment entry (line_remove (List.mem_filter.mp hmem).1)

/-- The next start finds the values the daemon had in memory. -/
theorem configGet_of_fits (hargz : ConfigVector argz)
    (hfits : (Envz.stringify newline (withoutCalibration argz)).length < configSaveSize)
    (stack heap key : List UInt8) :
    configGet (configInit heap (.complete (configSaveBytes (withoutCalibration argz) stack))).2 key
      = configGet (withoutCalibration argz) key := by
  rw [configInit_of_fits hargz hfits, configGet]
  exact Envz.get_filter_append (hargz.compact.sublist List.eraseP_sublist) (by decide) key

/-- A key longer than everything there is. -/
def longKey (argz : List (List UInt8)) : List UInt8 :=
  List.replicate (configSaveSize + argz.flatten.length + 1) 122

theorem name_longKey (argz : List (List UInt8)) :
    Envz.name equals (longKey argz) = longKey argz := by
  refine List.takeWhile_eq_self_iff.mpr fun byte hmem => ?_
  rw [List.eq_of_mem_replicate hmem]
  rfl

/-- No entry that is shorter has the name of the key. -/
theorem not_matchesKey_longKey {entry : List UInt8}
    (h : entry.length ≤ configSaveSize + argz.flatten.length) :
    ¬ Envz.matchesKey equals (longKey argz) entry = true := by
  rw [Envz.matchesKey_iff, name_longKey]
  intro hname
  have hlength : (Envz.name equals entry).length ≤ entry.length :=
    List.Sublist.length_le (List.takeWhile_sublist _)
  rw [hname, longKey, List.length_replicate] at hlength
  omega

/-- What the next start makes of a text that does not fit, when an entry follows the buffer: the
lines of the text that was cut, and that entry. -/
theorem configInit_of_not_fits (hargz : ConfigVector argz)
    (hfits : configSaveSize ≤ (Envz.stringify newline (withoutCalibration argz)).length)
    {entry : List UInt8} (hnewline : newline ∉ entry) (hzero : 0 ∉ entry)
    (hcomment : isComment entry = false) :
    (configInit [] (.complete (configSaveBytes (withoutCalibration argz) (newline :: entry)))).2
      = ((((Envz.stringify newline (withoutCalibration argz)).take configSaveSize).splitOn
          newline).filter (fun part => decide (part ≠ []))).filter (fun part => !isComment part)
        ++ [entry] := by
  have htext := zero_not_mem_text hargz
  have hstack : 0 ∉ newline :: entry := by
    intro h
    rcases List.mem_cons.mp h with h | h
    · exact absurd h (by decide)
    · exact hzero h
  have hcut : 0 ∉ (Envz.stringify newline (withoutCalibration argz)).take configSaveSize
      ++ newline :: entry := by
    intro h
    rcases List.mem_append.mp h with h | h
    · exact htext (List.mem_of_mem_take h)
    · exact hstack h
  rw [configSaveBytes_of_not_fits htext hfits hstack, configInit_of_terminated hcut,
    Envz.createSep_append hnewline, List.filter_append]
  congr 1
  exact List.filter_cons_of_pos (by rw [hcomment]; rfl)

/-- **A text that does not fit**: what follows the buffer can give a key a value it did not
have. -/
theorem configGet_of_not_fits (hargz : ConfigVector argz)
    (hfits : configSaveSize ≤ (Envz.stringify newline (withoutCalibration argz)).length) :
    ∃ stack, configGet
        (configInit [] (.complete (configSaveBytes (withoutCalibration argz) stack))).2
          (longKey argz) = some [49] ∧ configGet argz (longKey argz) = none := by
  have hkey : ∀ byte ∈ longKey argz, byte = 122 := fun byte => List.eq_of_mem_replicate
  have hentry : ∀ byte, byte ∉ [122, equals, 49] → byte ∉ longKey argz ++ equals :: [49] := by
    intro byte hbyte hmem
    rcases List.mem_append.mp hmem with hmem | hmem
    · exact hbyte (by simp [hkey byte hmem])
    · exact hbyte (List.mem_cons_of_mem _ hmem)
  refine ⟨newline :: (longKey argz ++ equals :: [49]), ?_, ?_⟩
  · -- no line of the text that was cut is long enough to have the name of the key
    have hlines : ∀ line ∈ (((Envz.stringify newline (withoutCalibration argz)).take
        configSaveSize).splitOn newline), ¬ Envz.matchesKey equals (longKey argz) line = true := by
      intro line hmem
      have hlength := Envz.length_le_of_mem_splitOn hmem
      rw [List.length_take_of_le hfits] at hlength
      exact not_matchesKey_longKey (hlength.trans (Nat.le_add_right _ _))
    have hmatch : Envz.matchesKey equals (longKey argz) (longKey argz ++ equals :: [49]) = true :=
      Envz.matchesKey_iff.mpr (Envz.name_append _ _)
    have hequals : equals ∉ longKey argz := fun h => absurd (hkey equals h) (by decide)
    rw [configInit_of_not_fits hargz hfits (hentry newline (by decide)) (hentry 0 (by decide)) rfl,
      configGet, Envz.get_append, if_neg]
    · rw [Envz.get, List.find?_cons_of_pos hmatch, Option.bind_some, Envz.value_append hequals]
    · intro hany
      obtain ⟨line, hmem, hline⟩ := List.any_eq_true.mp hany
      exact hlines line (List.mem_filter.mp (List.mem_filter.mp hmem).1).1 hline
  · have hnone : argz.find? (Envz.matchesKey equals (longKey argz)) = none := by
      refine List.find?_eq_none.mpr fun entry hmem => not_matchesKey_longKey ?_
      have hlength := (List.sublist_flatten_of_mem hmem).length_le
      omega
    rw [configGet, Envz.get, hnone, Option.bind_none]

/-! ### When the law holds -/

/-- The entry that is added names the key. -/
theorem name_calibrateFirst : Envz.name equals calibrateFirst = calibrateFirst := by decide

/-- All of the text is in the file exactly when all of it was written. -/
theorem stringAt_take_iff {text : List UInt8} (hzero : 0 ∉ text) (count : ℕ) :
    stringAt ((text ++ [0] ++ [newline]).take count) = text ↔ text.length ≤ count := by
  constructor
  · intro h
    by_contra hlt
    have htake : (text ++ [0] ++ [newline]).take count = text.take count := by
      rw [List.append_assoc, List.take_append_of_le_length (by omega)]
    have hlength := congrArg List.length h
    have hle := List.Sublist.length_le
      (List.takeWhile_sublist (l := text.take count) fun byte => decide (byte ≠ 0))
    rw [htake, stringAt] at hlength
    rw [List.length_take] at hle
    omega
  · intro hle
    obtain ⟨more, rfl⟩ := Nat.exists_eq_add_of_le hle
    rw [List.append_assoc, List.take_length_add_append, stringAt_of_not_mem hzero]
    rcases more with _ | more
    · exact List.append_nil text
    · exact List.append_nil text

/-- The law for a text that fits. -/
theorem configSaveLaw_iff_of_fits (hargz : ConfigVector argz)
    (hfits : (Envz.stringify newline (withoutCalibration argz)).length < configSaveSize)
    (outcome : WriteOutcome) (file : EepromFile) :
    ConfigSaveLaw argz outcome file ↔ ConfigSaveKept argz outcome := by
  have hzero := zero_not_mem_text hargz
  have hget := configGet_of_fits hargz hfits
  have hbytes := configSaveBytes_of_fits hzero hfits
  have hself : configGet (withoutCalibration argz) calibrateFirst = some falseText ↔ _ :=
    Envz.get_add_self_iff (by decide)
  constructor
  · intro h
    refine ⟨hfits, hself.mp ?_, ?_⟩
    · rw [← hget [] []]
      exact h.disabled [] []
    · rcases outcome with _ | count
      · exact .inl rfl
      · obtain ⟨content, hcontent, hstring⟩ := h.saved [] rfl
        obtain rfl := Option.some.inj hcontent
        rw [hbytes] at hstring
        exact .inr ⟨count, rfl, (stringAt_take_iff hzero count).mp hstring⟩
  · rintro ⟨-, hsingle, hwritten⟩
    refine ⟨fun stack heap => ?_, fun stack heap key hkey => ?_, fun stack hret => ?_⟩
    · rw [hget]
      exact hself.mpr hsingle
    · rw [hget]
      refine Envz.get_add_of_ne ?_
      rw [name_calibrateFirst]
      exact hkey
    · rcases hwritten with rfl | ⟨count, rfl, hle⟩
      · have heinval : -einval = 0 := hret
        exact absurd heinval (by decide)
      · refine ⟨_, rfl, ?_⟩
        rw [hbytes]
        exact (stringAt_take_iff hzero count).mpr hle

/-- The law fails for a text that does not fit. -/
theorem not_configSaveLaw_of_not_fits (hargz : ConfigVector argz)
    (hfits : configSaveSize ≤ (Envz.stringify newline (withoutCalibration argz)).length)
    (outcome : WriteOutcome) (file : EepromFile) : ¬ ConfigSaveLaw argz outcome file := by
  intro h
  obtain ⟨stack, hsome, hnone⟩ := configGet_of_not_fits hargz hfits
  have hother : Envz.name equals (longKey argz) ≠ calibrateFirst := by
    intro hname
    have hlength := congrArg List.length hname
    rw [name_longKey, longKey, List.length_replicate] at hlength
    have hshort : calibrateFirst.length = 15 := by decide
    rw [hshort, configSaveSize] at hlength
    omega
  rw [h.others stack [] _ hother, hnone] at hsome
  cases hsome

/-- **Saving the configuration preserves it** exactly under the condition, for every configuration
that was read and every outcome of the save. -/
theorem configSaveLaw_iff {heap : List UInt8} {read : ConfigRead} {argz : List (List UInt8)}
    (hinit : configInit heap read = (0, argz)) (outcome : WriteOutcome) (file : EepromFile) :
    ConfigSaveLaw argz outcome file ↔ ConfigSaveKept argz outcome := by
  have hargz : ConfigVector argz := configVector_configInit hinit
  rcases Nat.lt_or_ge (Envz.stringify newline (withoutCalibration argz)).length configSaveSize
    with hfits | hfits
  · exact configSaveLaw_iff_of_fits hargz hfits outcome file
  · exact iff_of_false (not_configSaveLaw_of_not_fits hargz hfits outcome file)
      (fun h => absurd h.fits (not_lt.mpr hfits))

/-- A file with one line for the key, which does not end in a newline. -/
theorem configSaveLaw_debug :
    ConfigSaveLaw [ascii "calibrate_first=true", ascii "debug=1"] (.written 1024) none := by
  have hinit : configInit [0] (.complete (ascii "calibrate_first=true\n#first\ndebug=1"))
      = (0, [ascii "calibrate_first=true", ascii "debug=1"]) := by
    rw [configInit, removeComments_eq_filter]
    decide
  have hsingle : (Envz.remove equals [ascii "calibrate_first=true", ascii "debug=1"]
      calibrateFirst).find? (Envz.matchesKey equals calibrateFirst) = none := by decide
  refine (configSaveLaw_iff hinit _ _).mpr ⟨by decide, fun entry hentry => ?_,
    .inr ⟨_, rfl, by decide⟩⟩
  rw [hsingle] at hentry
  cases hentry

/-- A file that has the key twice: the second line is the one the next start finds. -/
theorem configSaveLaw_fails_twice :
    ¬ ∀ heap content argz, configInit heap (.complete content) = (0, argz) →
      ∀ outcome file, ConfigSaveLaw argz outcome file := by
  intro h
  have hinit : configInit [0] (.complete (ascii "calibrate_first=true\ncalibrate_first=true"))
      = (0, [ascii "calibrate_first=true", ascii "calibrate_first=true"]) := by
    rw [configInit, removeComments_eq_filter]
    decide
  have hget := (h _ _ _ hinit (.written 1024) none).disabled [] []
  rw [configGet_of_fits (configVector_configInit hinit) (by decide)] at hget
  exact absurd hget (by decide)

end Oscillatord
