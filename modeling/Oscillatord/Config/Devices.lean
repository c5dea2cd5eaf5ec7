import Oscillatord.Config.ConfigFile
import Oscillatord.Library.CText
import Oscillatord.Library.DirectoryTree

/-!
# The devices of the card

The driver of the card shows its devices in one directory of sysfs, the path of which is configured.
`config_discover_devices` goes once through the entries of this directory, in the order in which the
system lists them, and leaves the path of each device it knows by name; the serial ports may also be
in a directory `tty`. For the two files of the EEPROM it only learns that they are there, and looks
for them again with `find_file`, from the top.

Where no name occurs twice in the directory and its `tty`, the order does not count: each path is
that of the entry of its name, the two files are the first of their name below the directory, and
the discovery fails exactly when a `tty` lacks one of the ports (`configDiscoverDevices_law`).
-/

namespace Oscillatord

open DirectoryTree CText

/-! ### Entries -/

/-- What is not a directory: a link, with the path it stands for, or a file. Of the links and files
only those of devices are looked into, and these resolve and can be read. -/
inductive SysfsData
  | link (realpath : List UInt8)
  | file (content : List UInt8)

/-- An entry of a directory in sysfs. -/
abbrev SysfsEntry := Node (List UInt8) SysfsData

/-- The name in `/dev`: the last part of what a link stands for, or what is in the file. -/
def devName : SysfsEntry → List UInt8
  | .leaf _ (.link realpath) => (strtok 47 realpath).getLast?.getD []
  | .leaf _ (.file content) => cString (content.take 100)
  | .dir _ _ => []

/-- `find_dev_path`, where `dev_name` holds the name and its final NUL. -/
def findDevPath (entry : SysfsEntry) : List UInt8 := ascii "/dev/" ++ devName entry

/-- A path below a directory. -/
def joinPath (path : List UInt8) (names : List (List UInt8)) : List UInt8 :=
  names.foldl (fun path name => path ++ ascii "/" ++ name) path

mutual

/-- `find_file`, in an entry. -/
def findFileIn (name path : List UInt8) : SysfsEntry → Option (List UInt8)
  | .leaf entry _ => if entry = name then some (path ++ ascii "/" ++ entry) else none
  | .dir entry entries => findFile name (path ++ ascii "/" ++ entry) entries

/-- `find_file`: the path of the file, if there is one. -/
def findFile (name path : List UInt8) : List SysfsEntry → Option (List UInt8)
  | [] => none
  | entry :: entries =>
    match findFileIn name path entry with
    | some file => some file
    | none => findFile name path entries

end

/-- The fields of `struct devices_path` that are filled. -/
inductive DevicePath
  | discipliningConfig
  | gnss
  | mac
  | mro
  | pps
  | ptp
  | temperatureTable
  deriving Repr, DecidableEq

/-- `struct devices_path`. -/
abbrev DevicesPath := DevicePath → List UInt8

/-- The devices looked for in the directory. -/
def deviceNamed (name : List UInt8) : Option DevicePath :=
  if name = ascii "mro50" then some .mro
  else if name = ascii "ptp" then some .ptp
  else if name = ascii "pps" then some .pps
  else if name = ascii "ttyGNSS" then some .gnss
  else if name = ascii "ttyMAC" then some .mac
  else none

/-- The devices looked for in its `tty`. -/
def ttyNamed (name : List UInt8) : Option DevicePath :=
  if name = ascii "ttyGNSS" then some .gnss
  else if name = ascii "ttyMAC" then some .mac
  else none

/-- The files looked for again. -/
def fileNamed (name : List UInt8) : Option DevicePath :=
  if name = ascii "disciplining_config" then some .discipliningConfig
  else if name = ascii "temperature_table" then some .temperatureTable
  else none

/-- `fill_tty_devices`, from the count `ret` on. -/
def fillTtyDevices : List SysfsEntry → ℕ → DevicesPath → DevicesPath × ℕ
  | [], ret, dp => (dp, ret)
  | entry :: entries, ret, dp =>
    if ret < 2 then
      match ttyNamed entry.name with
      | some field =>
        fillTtyDevices entries (ret + 1) (Function.update dp field (findDevPath entry))
      | none => fillTtyDevices entries ret dp
    else (dp, ret)

/-- The entries of a directory `tty`. -/
def ttyEntries : SysfsEntry → Option (List SysfsEntry)
  | .dir name entries => if name = ascii "tty" then some entries else none
  | .leaf _ _ => none

/-- One entry of the directory `root`: the paths, and whether the loop goes on. -/
def discoverEntry (sysfsPath : List UInt8) (root : List SysfsEntry) (dp : DevicesPath)
    (entry : SysfsEntry) : DevicesPath × Bool :=
  match deviceNamed entry.name with
  | some field => (Function.update dp field (findDevPath entry), true)
  | none =>
    match ttyEntries entry with
    | some entries =>
      let filled := fillTtyDevices entries 0 dp
      (filled.1, decide (filled.2 = 2))
    | none =>
      match fileNamed entry.name with
      | some field =>
        (match findFile entry.name sysfsPath root with
          | some file => Function.update dp field file
          | none => dp, true)
      | none => (dp, true)

/-- The sizes of `dev_name`, and of `dev_repository` and `subpath`. -/
def devNameLen : ℕ := 100

def subpathLen : ℕ := 1024

/-- A directory of sysfs that the buffers hold: the paths below it, and the names of the devices in
it and in its `tty`. The source takes both for granted and copies without a look at the sizes. -/
structure SysfsDir (path : List UInt8) where
  entries : List SysfsEntry
  paths : ∀ below ∈ paths entries, (joinPath path below).length < subpathLen
  names : ∀ entry ∈ entries ++ entries.flatMap fun entry => (ttyEntries entry).getD [],
    (deviceNamed entry.name).isSome → (devName entry).length < devNameLen

/-- The loop of `config_discover_devices`. -/
def discoverEntries (sysfsPath : List UInt8) (root : List SysfsEntry) :
    List SysfsEntry → DevicesPath → DevicesPath × Bool
  | [], dp => (dp, true)
  | entry :: entries, dp =>
    let next := discoverEntry sysfsPath root dp entry
    if next.2 then discoverEntries sysfsPath root entries next.1 else next

/-- `config_discover_devices`. -/
def configDiscoverDevices (opendir : (path : List UInt8) → Except ℕ (SysfsDir path))
    (argz : List (List UInt8)) (devicesPath : DevicesPath) : DevicesPath × ℤ :=
  match configGet argz (ascii "sysfs-path") with
  | none => (devicesPath, -22)
  | some sysfsPath =>
    match opendir sysfsPath with
    | .error errno => (devicesPath, -errno)
    | .ok root =>
      let found := discoverEntries sysfsPath root.entries root.entries devicesPath
      (found.1, if found.2 then 0 else -22)

/-! ### The search -/

mutual

theorem findFileIn_eq (name : List UInt8) : ∀ (path : List UInt8) (entry : SysfsEntry),
    findFileIn name path entry = (entry.search name).map (joinPath path)
  | path, .leaf entry _ => by
    rw [findFileIn, Node.search]
    split_ifs <;> rfl
  | path, .dir entry entries => by
    rw [findFileIn, Node.search, findFile_eq, Option.map_map]
    rfl

/-- `find_file` is the search for the first file of the name. -/
theorem findFile_eq (name : List UInt8) : ∀ (path : List UInt8) (entries : List SysfsEntry),
    findFile name path entries = (search name entries).map (joinPath path)
  | path, [] => rfl
  | path, entry :: entries => by
    rw [findFile, search, findFileIn_eq, findFile_eq]
    cases entry.search name <;> rfl

end

/-- What `find_file` finds is a file of the name, below the directory. -/
theorem holds_of_findFile {name path found : List UInt8} {entries : List SysfsEntry}
    (h : findFile name path entries = some found) :
    ∃ below data, Holds entries below data ∧ below.getLast? = some name ∧
      found = joinPath path below := by
  rw [findFile_eq] at h
  obtain ⟨below, hsearch, rfl⟩ := Option.map_eq_some_iff.mp h
  obtain ⟨data, hholds, hname⟩ := holds_of_search hsearch
  exact ⟨below, data, hholds, hname, rfl⟩

/-- `find_file` finds a file of the name if there is one, however deep. -/
theorem findFile_isSome_iff {name path : List UInt8} {entries : List SysfsEntry} :
    (findFile name path entries).isSome = true ↔
      ∃ below data, Holds entries below data ∧ below.getLast? = some name := by
  rw [findFile_eq, Option.isSome_map, search_isSome_iff]

/-! ### What is assigned -/

/-- The entry that a field is of. -/
def DevicePath.entry : DevicePath → List UInt8
  | .discipliningConfig => ascii "disciplining_config"
  | .gnss => ascii "ttyGNSS"
  | .mac => ascii "ttyMAC"
  | .mro => ascii "mro50"
  | .pps => ascii "pps"
  | .ptp => ascii "ptp"
  | .temperatureTable => ascii "temperature_table"

theorem deviceNamed_eq_some_iff {name : List UInt8} {field : DevicePath} :
    deviceNamed name = some field ↔
      field ∈ [.mro, .ptp, .pps, .gnss, .mac] ∧ name = field.entry := by
  simp only [deviceNamed]
  split_ifs <;> cases field <;> simp_all [DevicePath.entry] <;> decide

theorem ttyNamed_eq_some_iff {name : List UInt8} {field : DevicePath} :
    ttyNamed name = some field ↔ field ∈ [.gnss, .mac] ∧ name = field.entry := by
  simp only [ttyNamed]
  split_ifs <;> cases field <;> simp_all [DevicePath.entry]
  decide

theorem fileNamed_eq_some_iff {name : List UInt8} {field : DevicePath} :
    fileNamed name = some field ↔
      field ∈ [.discipliningConfig, .temperatureTable] ∧ name = field.entry := by
  simp only [fileNamed]
  split_ifs <;> cases field <;> simp_all [DevicePath.entry]
  decide

/-- Fields that are assigned one after another. -/
def assign (dp : DevicesPath) (ws : List (DevicePath × List UInt8)) : DevicesPath :=
  ws.foldl (fun dp w => Function.update dp w.1 w.2) dp

/-- What `fill_tty_devices` assigns if it is not stopped. -/
def ttyWrites (entries : List SysfsEntry) : List (DevicePath × List UInt8) :=
  entries.filterMap fun entry => (ttyNamed entry.name).map fun field => (field, findDevPath entry)

/-- What an entry of the directory assigns. -/
def entryWrites (sysfsPath : List UInt8) (root : List SysfsEntry) (entry : SysfsEntry) :
    List (DevicePath × List UInt8) :=
  match deviceNamed entry.name with
  | some field => [(field, findDevPath entry)]
  | none =>
    match ttyEntries entry with
    | some entries => (ttyWrites entries).take 2
    | none =>
      match fileNamed entry.name with
      | some field => ((findFile entry.name sysfsPath root).map fun file => (field, file)).toList
      | none => []

/-- A directory `tty` has both ports. -/
def Complete (entry : SysfsEntry) : Prop :=
  ∀ entries ∈ ttyEntries entry, 2 ≤ (ttyWrites entries).length

theorem fillTtyDevices_eq (entries : List SysfsEntry) {ret : ℕ} (hret : ret ≤ 2)
    (dp : DevicesPath) :
    fillTtyDevices entries ret dp = (assign dp ((ttyWrites entries).take (2 - ret)),
      ret + min (2 - ret) (ttyWrites entries).length) := by
  induction entries generalizing ret dp with
  | nil => simp [fillTtyDevices, ttyWrites, assign]
  | cons entry entries ih =>
    rw [fillTtyDevices]
    split_ifs with hmore
    · obtain ⟨left, hleft⟩ : ∃ left, 2 - ret = left + 1 := ⟨1 - ret, by omega⟩
      rcases hfield : ttyNamed entry.name with _ | field
      · simp only [ih hret, ttyWrites, List.filterMap_cons, hfield, Option.map_none]
      · have hrest := ih (show ret + 1 ≤ 2 by omega) (Function.update dp field (findDevPath entry))
        simp only [hrest, ttyWrites, List.filterMap_cons, hfield, Option.map_some, hleft,
          show 2 - (ret + 1) = left by omega, List.take_succ_cons, List.length_cons]
        refine Prod.ext rfl ?_
        simp only
        omega
    · obtain rfl : ret = 2 := by omega
      simp [assign]

theorem ne_tty_of_deviceNamed {entry : SysfsEntry} {field : DevicePath}
    (h : deviceNamed entry.name = some field) : ttyEntries entry = none := by
  obtain ⟨hfield, hname⟩ := deviceNamed_eq_some_iff.mp h
  cases entry with
  | leaf name data => rfl
  | dir name entries =>
    obtain rfl : name = field.entry := hname
    rw [ttyEntries, if_neg]
    cases field <;> decide

/-- An entry assigns what it assigns, and stops the loop if it is a `tty` without both ports. -/
theorem discoverEntry_eq (sysfsPath : List UInt8) (root : List SysfsEntry) (dp : DevicesPath)
    (entry : SysfsEntry) :
    (discoverEntry sysfsPath root dp entry).1 = assign dp (entryWrites sysfsPath root entry) ∧
      ((discoverEntry sysfsPath root dp entry).2 = true ↔ Complete entry) := by
  simp only [discoverEntry, entryWrites, Complete]
  rcases hdevice : deviceNamed entry.name with _ | field
  · rcases htty : ttyEntries entry with _ | entries
    · rcases fileNamed entry.name with _ | field
      · simp [assign]
      · cases findFile entry.name sysfsPath root <;> simp [assign]
    · simp [fillTtyDevices_eq entries (Nat.zero_le 2)]
  · simp [ne_tty_of_deviceNamed hdevice, assign]

theorem discoverEntries_eq (sysfsPath : List UInt8) (root entries : List SysfsEntry)
    (dp : DevicesPath) :
    ((discoverEntries sysfsPath root entries dp).2 = true ↔ ∀ entry ∈ entries, Complete entry) ∧
      ((∀ entry ∈ entries, Complete entry) → (discoverEntries sysfsPath root entries dp).1
        = assign dp (entries.flatMap (entryWrites sysfsPath root))) := by
  induction entries generalizing dp with
  | nil => simp [discoverEntries, assign]
  | cons entry entries ih =>
    obtain ⟨hassigned, hcomplete⟩ := discoverEntry_eq sysfsPath root dp entry
    rw [discoverEntries, List.forall_mem_cons, List.flatMap_cons]
    by_cases hentry : Complete entry
    · obtain ⟨hall, hrest⟩ := ih (discoverEntry sysfsPath root dp entry).1
      simp only [hcomplete.mpr hentry, if_true, hentry, true_and, hall]
      intro h
      rw [hrest h, hassigned, assign, assign, assign, List.foldl_append]
    · have hstop : (discoverEntry sysfsPath root dp entry).2 = false := by
        rw [← Bool.not_eq_true, hcomplete]
        exact hentry
      simp [hstop, hentry]

/-! ### Distinct names -/

/-- The name of an entry, and those in it if it is a `tty`. -/
def entryNames (entry : SysfsEntry) : List (List UInt8) :=
  entry.name :: ((ttyEntries entry).getD []).map Node.name

theorem ttyWrites_cons (entry : SysfsEntry) (entries : List SysfsEntry) :
    ttyWrites (entry :: entries)
      = ((ttyNamed entry.name).map fun field => (field, findDevPath entry)).toList
        ++ ttyWrites entries := by
  cases hfield : ttyNamed entry.name <;> simp [ttyWrites, hfield]

theorem map_entry_ttyWrites (entries : List SysfsEntry) :
    ((ttyWrites entries).map fun w => w.1.entry).Sublist (entries.map Node.name) := by
  induction entries with
  | nil => exact .slnil
  | cons entry entries ih =>
    rw [ttyWrites_cons, List.map_cons]
    rcases hfield : ttyNamed entry.name with _ | field
    · exact ih.cons entry.name
    · obtain ⟨-, hname⟩ := ttyNamed_eq_some_iff.mp hfield
      rw [hname]
      exact ih.cons_cons field.entry

/-- Each assignment is of a field whose entry is there. -/
theorem map_entry_entryWrites (sysfsPath : List UInt8) (root : List SysfsEntry)
    (entry : SysfsEntry) :
    ((entryWrites sysfsPath root entry).map fun w => w.1.entry).Sublist (entryNames entry) := by
  simp only [entryWrites, entryNames]
  rcases hdevice : deviceNamed entry.name with _ | field
  · rcases ttyEntries entry with _ | entries
    · rcases hfile : fileNamed entry.name with _ | field
      · simp
      · obtain ⟨-, hname⟩ := fileNamed_eq_some_iff.mp hfile
        cases findFile entry.name sysfsPath root <;> simp [hname]
    · exact ((List.take_sublist 2 _).map _).trans ((map_entry_ttyWrites entries).cons entry.name)
  · obtain ⟨-, hname⟩ := deviceNamed_eq_some_iff.mp hdevice
    simp [hname]

/-- No field is assigned twice. -/
theorem nodup_flatMap_entryWrites {sysfsPath : List UInt8} {root : List SysfsEntry}
    (entries : List SysfsEntry) (hnames : (entries.flatMap entryNames).Nodup) :
    ((entries.flatMap (entryWrites sysfsPath root)).map Prod.fst).Nodup := by
  have hsub : ((entries.flatMap (entryWrites sysfsPath root)).map fun w => w.1.entry).Sublist
      (entries.flatMap entryNames) := by
    clear hnames
    induction entries with
    | nil => exact .slnil
    | cons entry entries ih =>
      rw [List.flatMap_cons, List.flatMap_cons, List.map_append]
      exact (map_entry_entryWrites sysfsPath root entry).append ih
  have hmap := hnames.sublist hsub
  rw [← Function.comp_def, ← List.map_map] at hmap
  exact hmap.of_map _

theorem assign_of_notMem {dp : DevicesPath} {ws : List (DevicePath × List UInt8)}
    {field : DevicePath} (hnot : field ∉ ws.map Prod.fst) : assign dp ws field = dp field := by
  induction ws generalizing dp with
  | nil => rfl
  | cons w ws ih =>
    rw [List.map_cons, List.mem_cons, not_or] at hnot
    rw [assign, List.foldl_cons, ← assign, ih hnot.2, Function.update_of_ne hnot.1]

/-- A field that is assigned once has what it was assigned. -/
theorem assign_of_mem {dp : DevicesPath} {ws : List (DevicePath × List UInt8)}
    (hnodup : (ws.map Prod.fst).Nodup) {field : DevicePath} {path : List UInt8}
    (hmem : (field, path) ∈ ws) : assign dp ws field = path := by
  induction ws generalizing dp with
  | nil => cases hmem
  | cons w ws ih =>
    rw [List.map_cons, List.nodup_cons] at hnodup
    rw [assign, List.foldl_cons, ← assign]
    rcases List.mem_cons.mp hmem with rfl | hmem
    · rw [assign_of_notMem hnodup.1, Function.update_self]
    · exact ih hnodup.2 hmem

/-! ### The ports in `tty` -/

variable {entries : List SysfsEntry}

theorem mem_ttyWrites_iff {field : DevicePath} {path : List UInt8} :
    (field, path) ∈ ttyWrites entries ↔ field ∈ [.gnss, .mac] ∧
      ∃ entry ∈ entries, entry.name = field.entry ∧ findDevPath entry = path := by
  simp only [ttyWrites, List.mem_filterMap, Option.map_eq_some_iff, ttyNamed_eq_some_iff]
  constructor
  · rintro ⟨entry, hentry, field', ⟨hfield, hname⟩, heq⟩
    obtain ⟨rfl, rfl⟩ := Prod.mk.inj heq
    exact ⟨hfield, entry, hentry, hname, rfl⟩
  · rintro ⟨hfield, entry, hentry, hname, rfl⟩
    exact ⟨entry, hentry, field, ⟨hfield, hname⟩, rfl⟩

/-- The fields assigned are ports, each once. -/
theorem ttyWrites_fields (hnames : (entries.map Node.name).Nodup) :
    ((ttyWrites entries).map Prod.fst).Nodup ∧
      (ttyWrites entries).map Prod.fst ⊆ [.gnss, .mac] := by
  constructor
  · have hmap := hnames.sublist (map_entry_ttyWrites entries)
    rw [← Function.comp_def, ← List.map_map] at hmap
    exact hmap.of_map _
  · intro field hfield
    obtain ⟨⟨field, path⟩, hw, rfl⟩ := List.mem_map.mp hfield
    exact (mem_ttyWrites_iff.mp hw).1

theorem length_ttyWrites_le (hnames : (entries.map Node.name).Nodup) :
    (ttyWrites entries).length ≤ 2 := by
  obtain ⟨hnodup, hsub⟩ := ttyWrites_fields hnames
  simpa using (List.subperm_of_subset hnodup hsub).length_le

/-- Both ports are there. -/
theorem two_le_length_ttyWrites_iff (hnames : (entries.map Node.name).Nodup) :
    2 ≤ (ttyWrites entries).length ↔
      ∀ field ∈ [DevicePath.gnss, .mac], ∃ entry ∈ entries, entry.name = field.entry := by
  obtain ⟨hnodup, hsub⟩ := ttyWrites_fields hnames
  have hmem : ∀ field ∈ [DevicePath.gnss, .mac],
      (field ∈ (ttyWrites entries).map Prod.fst ↔
        ∃ entry ∈ entries, entry.name = field.entry) := by
    intro field hfield
    constructor
    · intro h
      obtain ⟨⟨field, path⟩, hw, rfl⟩ := List.mem_map.mp h
      obtain ⟨-, entry, hentry, hname, -⟩ := mem_ttyWrites_iff.mp hw
      exact ⟨entry, hentry, hname⟩
    · rintro ⟨entry, hentry, hname⟩
      exact List.mem_map.mpr ⟨(field, findDevPath entry),
        mem_ttyWrites_iff.mpr ⟨hfield, entry, hentry, hname, rfl⟩, rfl⟩
  have hports := List.subperm_of_subset hnodup hsub
  rw [← List.length_map Prod.fst]
  constructor
  · intro hlength field hfield
    exact (hmem field hfield).mp ((hports.perm_of_length_le hlength).mem_iff.mpr hfield)
  · intro h
    have hall : [DevicePath.gnss, .mac] ⊆ (ttyWrites entries).map Prod.fst :=
      fun field hfield => (hmem field hfield).mpr (h field hfield)
    exact (List.subperm_of_subset (by decide) hall).length_le

/-! ### What is found -/

/-- The entry of a name. -/
def entryNamed (name : List UInt8) (entries : List SysfsEntry) : Option SysfsEntry :=
  entries.find? fun entry => decide (entry.name = name)

/-- What is to be found: a port in the directory or in its `tty`, another device in the directory,
and a file, if it is in the directory, as the first one of its name below it. -/
def found (sysfsPath : List UInt8) (root : List SysfsEntry) (field : DevicePath) :
    Option (List UInt8) :=
  if field ∈ [.discipliningConfig, .temperatureTable] then
    if (entryNamed field.entry root).isSome then
      (search field.entry root).map (joinPath sysfsPath)
    else none
  else if field ∈ [.gnss, .mac] then
    (entryNamed field.entry
      (root ++ root.flatMap fun entry => (ttyEntries entry).getD [])).map findDevPath
  else (entryNamed field.entry root).map findDevPath

/-- Names are looked up where they are distinct. -/
theorem entryNamed_eq_some_iff (hnames : (entries.map Node.name).Nodup) {name : List UInt8}
    {entry : SysfsEntry} :
    entryNamed name entries = some entry ↔ entry ∈ entries ∧ entry.name = name := by
  constructor
  · intro h
    have hname := List.find?_some h
    exact ⟨List.mem_of_find?_eq_some h, of_decide_eq_true hname⟩
  · rintro ⟨hentry, hname⟩
    have hsome : (entryNamed name entries).isSome = true := by
      rw [entryNamed, List.find?_isSome]
      exact ⟨entry, hentry, decide_eq_true hname⟩
    obtain ⟨other, hother⟩ := Option.isSome_iff_exists.mp hsome
    have hsame := List.find?_some hother
    rw [decide_eq_true_eq, ← hname] at hsame
    rw [hother, List.inj_on_of_nodup_map hnames (List.mem_of_find?_eq_some hother) hentry hsame]

theorem map_findDevPath_entryNamed (hnames : (entries.map Node.name).Nodup)
    {name path : List UInt8} :
    (entryNamed name entries).map findDevPath = some path ↔
      ∃ entry ∈ entries, entry.name = name ∧ findDevPath entry = path := by
  simp only [Option.map_eq_some_iff, entryNamed_eq_some_iff hnames, and_assoc]

theorem entryNamed_isSome_iff {name : List UInt8} :
    (entryNamed name entries).isSome = true ↔ ∃ entry ∈ entries, entry.name = name := by
  simp [entryNamed, List.find?_isSome]

variable {sysfsPath : List UInt8} {root : List SysfsEntry}

theorem fileNamed_of_deviceNamed {name : List UInt8} {field : DevicePath}
    (h : deviceNamed name = some field) : fileNamed name = none := by
  obtain ⟨hfield, rfl⟩ := deviceNamed_eq_some_iff.mp h
  revert hfield
  cases field <;> decide

theorem fileNamed_of_ttyEntries {entry : SysfsEntry} (h : ttyEntries entry = some entries) :
    fileNamed entry.name = none := by
  cases entry with
  | leaf name data => cases h
  | dir name entries' =>
    rw [ttyEntries] at h
    split_ifs at h with hname
    rw [Node.name_dir, hname]
    decide

/-- What an entry assigns. -/
theorem mem_entryWrites_iff {entry : SysfsEntry}
    (hnames : (((ttyEntries entry).getD []).map Node.name).Nodup) {field : DevicePath}
    {path : List UInt8} :
    (field, path) ∈ entryWrites sysfsPath root entry ↔
      deviceNamed entry.name = some field ∧ findDevPath entry = path ∨
        (field, path) ∈ ttyWrites ((ttyEntries entry).getD []) ∨
          fileNamed entry.name = some field ∧ findFile entry.name sysfsPath root = some path := by
  simp only [entryWrites]
  rcases hdevice : deviceNamed entry.name with _ | device
  · rcases htty : ttyEntries entry with _ | entries
    · rcases hfile : fileNamed entry.name with _ | file
      · simp [ttyWrites]
      · cases findFile entry.name sysfsPath root <;> simp [ttyWrites, eq_comm, and_comm]
    · rw [htty] at hnames
      simp only [Option.getD_some] at hnames ⊢
      rw [List.take_of_length_le (length_ttyWrites_le hnames), fileNamed_of_ttyEntries htty]
      simp
  · simp [ne_tty_of_deviceNamed hdevice, fileNamed_of_deviceNamed hdevice, ttyWrites, eq_comm]

/-- A field is of a file, of a port or of another device. -/
theorem DevicePath.kind (field : DevicePath) :
    field ∈ [.discipliningConfig, .temperatureTable] ∧ field ∉ [.mro, .ptp, .pps, .gnss, .mac] ∧
        field ∉ [.gnss, .mac] ∨
      field ∉ [.discipliningConfig, .temperatureTable] ∧ field ∈ [.mro, .ptp, .pps, .gnss, .mac] ∧
        field ∈ [.gnss, .mac] ∨
      field ∉ [.discipliningConfig, .temperatureTable] ∧ field ∈ [.mro, .ptp, .pps, .gnss, .mac] ∧
        field ∉ [.gnss, .mac] := by
  cases field <;> decide

/-- A file that is in the directory is looked for from the top. -/
theorem exists_findFile_iff {name path : List UInt8} :
    (∃ entry ∈ root, entry.name = name ∧ findFile entry.name sysfsPath root = some path) ↔
      (if (entryNamed name root).isSome then (search name root).map (joinPath sysfsPath)
        else none) = some path := by
  split_ifs with hsome
  · rw [← findFile_eq]
    constructor
    · rintro ⟨entry, -, rfl, hfound⟩
      exact hfound
    · intro hfound
      obtain ⟨entry, hentry, rfl⟩ := entryNamed_isSome_iff.mp hsome
      exact ⟨entry, hentry, rfl, hfound⟩
  · refine iff_of_false ?_ (by simp)
    rintro ⟨entry, hentry, hname, -⟩
    exact hsome (entryNamed_isSome_iff.mpr ⟨entry, hentry, hname⟩)

/-- A port is in the directory or in a `tty`. -/
theorem exists_port_iff {P : SysfsEntry → Prop} :
    (∃ entry ∈ root, P entry ∨ ∃ port ∈ (ttyEntries entry).getD [], P port) ↔
      ∃ port ∈ root ++ root.flatMap fun entry => (ttyEntries entry).getD [], P port := by
  constructor
  · rintro ⟨entry, hentry, hp | ⟨port, hport, hp⟩⟩
    · exact ⟨entry, List.mem_append_left _ hentry, hp⟩
    · exact ⟨port, List.mem_append_right _ (List.mem_flatMap.mpr ⟨entry, hentry, hport⟩), hp⟩
  · rintro ⟨port, hport, hp⟩
    rcases List.mem_append.mp hport with hport | hport
    · exact ⟨port, hport, .inl hp⟩
    · obtain ⟨entry, hentry, hport⟩ := List.mem_flatMap.mp hport
      exact ⟨entry, hentry, .inr ⟨port, hport, hp⟩⟩

/-- What the directory assigns is what is to be found. -/
theorem mem_flatMap_entryWrites_iff (hnames : (root.flatMap entryNames).Nodup)
    {field : DevicePath} {path : List UInt8} :
    (field, path) ∈ root.flatMap (entryWrites sysfsPath root) ↔
      found sysfsPath root field = some path := by
  have htty : ∀ entry ∈ root, (((ttyEntries entry).getD []).map Node.name).Nodup :=
    fun entry hentry => (List.nodup_cons.mp ((List.nodup_flatMap.mp hnames).1 entry hentry)).2
  have hperm := List.map_append_flatMap_perm root Node.name fun entry =>
    ((ttyEntries entry).getD []).map Node.name
  have hall : ((root ++ root.flatMap fun entry => (ttyEntries entry).getD []).map
      Node.name).Nodup := by
    rw [List.map_append, List.map_flatMap]
    exact hperm.nodup_iff.mpr hnames
  have hroot : (root.map Node.name).Nodup := (List.map_append ▸ hall).of_append_left
  have hentry : (field, path) ∈ root.flatMap (entryWrites sysfsPath root) ↔ ∃ entry ∈ root,
      deviceNamed entry.name = some field ∧ findDevPath entry = path ∨
        (field, path) ∈ ttyWrites ((ttyEntries entry).getD []) ∨
          fileNamed entry.name = some field ∧ findFile entry.name sysfsPath root = some path := by
    rw [List.mem_flatMap]
    exact exists_congr fun entry => and_congr_right fun h => mem_entryWrites_iff (htty entry h)
  rw [hentry]
  simp only [deviceNamed_eq_some_iff, mem_ttyWrites_iff, fileNamed_eq_some_iff, found]
  rcases field.kind with ⟨hfile, hdevice, hport⟩ | ⟨hfile, hdevice, hport⟩ | ⟨hfile, hdevice, hport⟩
  · simp only [hdevice, hport, hfile, if_true, false_and, false_or, true_and]
    exact exists_findFile_iff
  · simp only [hdevice, hport, hfile, if_false, if_true, false_and, or_false, true_and,
      map_findDevPath_entryNamed hall]
    exact exists_port_iff
  · simp only [hdevice, hport, hfile, if_false, false_and, or_false, true_and,
      map_findDevPath_entryNamed hroot]

/-- **The discovery.** In a directory that the buffers hold and in which, with its `tty`, no name
occurs twice, it fails exactly when a `tty` lacks one of the ports, and otherwise each field has
what is to be found for it, whatever the order of the entries, or is left as it was. -/
theorem configDiscoverDevices_law {opendir : (path : List UInt8) → Except ℕ (SysfsDir path)}
    {argz : List (List UInt8)} (hget : configGet argz (ascii "sysfs-path") = some sysfsPath)
    {root : SysfsDir sysfsPath} (hopen : opendir sysfsPath = .ok root)
    (hnames : (root.entries.flatMap entryNames).Nodup) (devicesPath : DevicesPath) :
    ((configDiscoverDevices opendir argz devicesPath).2 = 0 ↔
        ∀ entry ∈ root.entries, ∀ entries ∈ ttyEntries entry, ∀ field ∈ [DevicePath.gnss, .mac],
          ∃ port ∈ entries, port.name = field.entry) ∧
      ((configDiscoverDevices opendir argz devicesPath).2 = 0 → ∀ field,
        (configDiscoverDevices opendir argz devicesPath).1 field
          = (found sysfsPath root.entries field).getD (devicesPath field)) := by
  have htty : ∀ entry ∈ root.entries, ∀ entries ∈ ttyEntries entry,
      (entries.map Node.name).Nodup := by
    intro entry hentry entries htty
    have hall := (List.nodup_cons.mp ((List.nodup_flatMap.mp hnames).1 entry hentry)).2
    rwa [Option.mem_def.mp htty] at hall
  obtain ⟨hcomplete, hassigned⟩ :=
    discoverEntries_eq sysfsPath root.entries root.entries devicesPath
  have hrun : configDiscoverDevices opendir argz devicesPath
      = ((discoverEntries sysfsPath root.entries root.entries devicesPath).1,
        if (discoverEntries sysfsPath root.entries root.entries devicesPath).2 then 0
        else -22) := by
    simp only [configDiscoverDevices, hget, hopen]
  have hreturn : (configDiscoverDevices opendir argz devicesPath).2 = 0 ↔
      ∀ entry ∈ root.entries, Complete entry := by
    rw [hrun, ← hcomplete]
    cases (discoverEntries sysfsPath root.entries root.entries devicesPath).2 <;> simp
  refine ⟨hreturn.trans ?_, ?_⟩
  · exact forall₂_congr fun entry hentry => forall₂_congr fun entries hentries =>
      two_le_length_ttyWrites_iff (htty entry hentry entries hentries)
  · intro hsuccess field
    rw [hrun, hassigned (hreturn.mp hsuccess)]
    rcases hfound : found sysfsPath root.entries field with _ | path
    · refine assign_of_notMem fun hmem => ?_
      obtain ⟨⟨field, path⟩, hw, rfl⟩ := List.mem_map.mp hmem
      rw [(mem_flatMap_entryWrites_iff hnames).mp hw] at hfound
      cases hfound
    · exact assign_of_mem (nodup_flatMap_entryWrites root.entries hnames)
        ((mem_flatMap_entryWrites_iff hnames).mpr hfound)

/-- A card with its two ports in `tty`, and one of the files of its EEPROM twice. -/
def sysfsCard : List SysfsEntry :=
  [.leaf (ascii "ptp") (.link (ascii "/sys/ptp/ptp2")),
    .dir (ascii "tty") [.leaf (ascii "ttyMAC") (.link (ascii "/sys/tty/ttyS6")),
      .leaf (ascii "ttyGNSS") (.file (ascii "ttyS5"))],
    .dir (ascii "i2c") [.leaf (ascii "disciplining_config") (.file [])],
    .leaf (ascii "disciplining_config") (.file [])]

/-- The card is found at `/sys/ocp0`. -/
def opendirCard (path : List UInt8) : Except ℕ (SysfsDir path) :=
  if h : path = ascii "/sys/ocp0" then
    .ok ⟨sysfsCard, h ▸ by decide, by decide⟩
  else .error 2

theorem configDiscoverDevices_law_sysfsCard :
    let discovered :=
      configDiscoverDevices opendirCard [ascii "sysfs-path=/sys/ocp0"] (fun _ => [])
    discovered.2 = 0 ∧ discovered.1 .mac = ascii "/dev/ttyS6" ∧
      discovered.1 .discipliningConfig = ascii "/sys/ocp0/i2c/disciplining_config" ∧
      discovered.1 .mro = [] := by
  obtain ⟨hreturn, hfields⟩ := @configDiscoverDevices_law (ascii "/sys/ocp0") opendirCard
    [ascii "sysfs-path=/sys/ocp0"] (by decide) ⟨sysfsCard, by decide, by decide⟩ rfl (by decide)
    fun _ => []
  have hsuccess := hreturn.mpr (by decide)
  exact ⟨hsuccess, (hfields hsuccess .mac).trans (by decide),
    (hfields hsuccess .discipliningConfig).trans (by decide),
    (hfields hsuccess .mro).trans (by decide)⟩

end Oscillatord
