import Oscillatord.Eeprom.RoundTrip
import Oscillatord.Library.Runs

/-!
# Saves that run at the same time

A save opens and truncates `disciplining_config`, writes it, and does the same with
`temperature_table`. The main loop makes one itself and starts threads for others, without a lock,
so the file steps of any number of saves interleave, with each other and with the two reads of a
`READ_EEPROM`. A run is any such interleaving, of saves whose writes all succeed.

`SavesLaw` is what there should be of a snapshot: with no save in progress both files hold the
halves of one, and a read that succeeds returns the halves of one. It is a matter of the order of
the steps: it holds throughout the runs in which a save that ends when no other is halfway was also
the last one to touch the first file, and the two files a read looks at were last touched by the
same save, which has written both (`savesLaw_throughout`). Two saves that end in the other order
than they wrote the first file leave the halves of two snapshots (`savesLaw_fails_crossed`).
-/

namespace Oscillatord

open ObjectRep StepRun

variable (M : Minipod)

/-! ### Saves and reads -/

/-- The next file step of a save. -/
inductive SavePoint
  | openConfig
  | writeConfig
  | openTable
  | writeTable
  | done
  deriving Repr, DecidableEq

/-- A save: by the main loop itself or by a thread it has started, with its snapshot. -/
structure SaveJob where
  byMain : Bool
  snapshot : DiscipliningParameters M.toMinipodTypes
  point : SavePoint

/-- Where the content of a file is from: the daemon has found it, a save has truncated the file, or
save `i` has written it. -/
inductive FileSource
  | found
  | truncated
  | written (i : ℕ)
  deriving Repr, DecidableEq

/-- A read of the monitoring thread: the buffers and the parameters it starts with. -/
structure EepromRead where
  dscConfigData : Bytes discipliningConfigFileSize
  tempTable : Bytes temperatureTableFileSize
  dscParams : DiscipliningParameters M.toMinipodTypes

/-- The files and where they are from, the saves started so far, the read that has read the first
file, with what it found there and where that was from, and the reads that ended, with their
results. -/
structure SavesState where
  files : EepromFile × EepromFile
  sources : FileSource × FileSource
  jobs : List (SaveJob M)
  reading : Option (EepromRead M × Bytes discipliningConfigFileSize × FileSource)
  reads : List (EepromRead M × Option (ℤ × DiscipliningParameters M.toMinipodTypes))

/-- A step: a save is started, a save takes its next file step, a read reads the first file, or the
second one. -/
inductive SavesEvent
  | start (byMain : Bool) (snapshot : DiscipliningParameters M.toMinipodTypes)
  | save (i : ℕ)
  | readConfig (read : EepromRead M)
  | readTable

/-- A write of an image at the beginning of a file. -/
def overwrite {n : ℕ} (image : Bytes n) (file : EepromFile) : EepromFile :=
  some (List.ofFn image ++ (file.getD []).drop n)

variable {M}

/-- The next file step of a save: the files, and where the save is then. -/
def SaveJob.step (job : SaveJob M) (files : EepromFile × EepromFile) :
    Option ((EepromFile × EepromFile) × SavePoint) :=
  match job.point with
  | .openConfig => some ((some [], files.2), .writeConfig)
  | .writeConfig =>
    some ((overwrite (configImage M job.snapshot.dscConfig) files.1, files.2), .openTable)
  | .openTable => some ((files.1, some []), .writeTable)
  | .writeTable =>
    some ((files.1, overwrite (tableImage M job.snapshot.tempTable) files.2), .done)
  | .done => none

/-- Where the files are from after that step of save `i`. -/
def SavePoint.touch (i : ℕ) (sources : FileSource × FileSource) :
    SavePoint → FileSource × FileSource
  | .openConfig => (.truncated, sources.2)
  | .writeConfig => (.written i, sources.2)
  | .openTable => (sources.1, .truncated)
  | .writeTable => (sources.1, .written i)
  | .done => sources

/-- One step. The main loop starts nothing during its own save, and the monitoring thread makes one
read at a time. -/
def savesStep (s : SavesState M) : SavesEvent M → SavesState M
  | .start byMain snapshot =>
    if s.jobs.any fun job => job.byMain && decide (job.point ≠ .done) then s
    else { s with jobs := s.jobs ++ [{ byMain, snapshot, point := .openConfig }] }
  | .save i =>
    match s.jobs[i]? with
    | none => s
    | some job =>
      match job.step s.files with
      | none => s
      | some (files, point) =>
        { s with
          files
          sources := job.point.touch i s.sources
          jobs := s.jobs.set i { job with point } }
  | .readConfig read =>
    match s.reading with
    | some _ => s
    | none =>
      let dscConfigData := (readFile s.files.1 read.dscConfigData).2
      { s with reading := some (read, dscConfigData, s.sources.1) }
  | .readTable =>
    match s.reading with
    | none => s
    | some (read, dscConfigData, _) =>
      let result :=
        decodeBuffers M dscConfigData (readFile s.files.2 read.tempTable).2 read.dscParams
      { s with reading := none, reads := (read, result) :: s.reads }

/-- The daemon before the first save, with the files it finds. -/
def savesStart (files : EepromFile × EepromFile) : SavesState M :=
  { files, sources := (.found, .found), jobs := [], reading := none, reads := [] }

/-! ### The law -/

/-- The snapshots of the saves started so far. -/
def SavesState.snapshots (s : SavesState M) : List (DiscipliningParameters M.toMinipodTypes) :=
  s.jobs.map SaveJob.snapshot

/-- Both files are as the daemon found them, or hold the halves of one of the snapshots. -/
def OneSnapshot (found : EepromFile × EepromFile)
    (snapshots : List (DiscipliningParameters M.toMinipodTypes))
    (files : EepromFile × EepromFile) : Prop :=
  files = found ∨ ∃ snapshot ∈ snapshots, files = imageFiles M snapshot

/-- A read that succeeds has returned what is in one such pair of files. -/
def ReadsOneSnapshot (found : EepromFile × EepromFile) (s : SavesState M) : Prop :=
  ∀ read p, (read, some (0, p)) ∈ s.reads →
    ∃ files, OneSnapshot found s.snapshots files ∧
      readDiscipliningParametersFromEeprom M files.1 files.2 read.dscConfigData read.tempTable
        (some read.dscParams) = some (0, some p)

/-- **The law of the saves.** -/
structure SavesLaw (found : EepromFile × EepromFile) (s : SavesState M) : Prop where
  files : (∀ job ∈ s.jobs, job.point = .done) → OneSnapshot found s.snapshots s.files
  reads : ReadsOneSnapshot found s

/-- The save has taken its first file step and not yet its last one. -/
def SaveJob.Halfway (job : SaveJob M) : Prop := job.point ≠ .openConfig ∧ job.point ≠ .done

/-- A save that ends when no other is halfway was the last one to touch the first file; and the
files a read looks at were last touched by the same save, which has written them, or by none. -/
def SavesKept (s : SavesState M) : SavesEvent M → Prop
  | .save i => ∀ job, s.jobs[i]? = some job → job.point = .writeTable →
      (∀ j other, s.jobs[j]? = some other → other.Halfway → j = i) → s.sources.1 = .written i
  | .readTable => ∀ read dscConfigData source, s.reading = some (read, dscConfigData, source) →
      source = s.sources.2 ∧ source ≠ .truncated
  | .start _ _ | .readConfig _ => True

/-! ### The invariant -/

/-- A file that a save has truncated is no longer than what is written in it. -/
def Truncated (n : ℕ) (file : EepromFile) : Prop :=
  ∃ content, file = some content ∧ content.length ≤ n

theorem overwrite_of_truncated {n : ℕ} {image : Bytes n} {file : EepromFile}
    (h : Truncated n file) : overwrite image file = some (List.ofFn image) := by
  obtain ⟨content, rfl, hlength⟩ := h
  rw [overwrite, Option.getD_some, List.drop_eq_nil_of_le hlength, List.append_nil]

theorem truncated_ofFn {n : ℕ} (image : Bytes n) : Truncated n (some (List.ofFn image)) :=
  ⟨_, rfl, (List.length_ofFn).le⟩

/-- No save is halfway. -/
def Settled (jobs : List (SaveJob M)) : Prop := ∀ job ∈ jobs, ¬ job.Halfway

/-- What a file of the given source holds: what the daemon has found, or the image of its half of
a snapshot. -/
def HeldFrom {n : ℕ} (image : DiscipliningParameters M.toMinipodTypes → Bytes n)
    (foundFile : EepromFile) (snapshots : List (DiscipliningParameters M.toMinipodTypes))
    (file : EepromFile) : FileSource → Prop
  | .found => file = foundFile
  | .truncated => True
  | .written i => ∃ snapshot, snapshots[i]? = some snapshot ∧
      file = some (List.ofFn (image snapshot))

/-- The halves of a snapshot, as they are in the two files. -/
def configOf (snapshot : DiscipliningParameters M.toMinipodTypes) :
    Bytes discipliningConfigFileSize :=
  configImage M snapshot.dscConfig

def tableOf (snapshot : DiscipliningParameters M.toMinipodTypes) :
    Bytes temperatureTableFileSize :=
  tableImage M snapshot.tempTable

/-- The invariant: the files are what their sources say, and so is what a read has found in the
first one; with no save halfway both files are from the same save or from none; the reads that
ended obey the law; and a file is truncated once a save has opened it. -/
structure SavesInv (found : EepromFile × EepromFile) (s : SavesState M) : Prop where
  config : HeldFrom configOf found.1 s.snapshots s.files.1 s.sources.1
  table : HeldFrom tableOf found.2 s.snapshots s.files.2 s.sources.2
  settled : Settled s.jobs → s.sources.1 = s.sources.2 ∧ s.sources.1 ≠ .truncated
  reading : ∀ read dscConfigData source, s.reading = some (read, dscConfigData, source) →
    ∃ file, HeldFrom configOf found.1 s.snapshots file source ∧
      dscConfigData = (readFile file read.dscConfigData).2
  reads : ReadsOneSnapshot found s
  configTruncated : (∃ job ∈ s.jobs, job.point ≠ .openConfig) →
    Truncated discipliningConfigFileSize s.files.1
  tableTruncated : (∃ job ∈ s.jobs, job.point = .writeTable ∨ job.point = .done) →
    Truncated temperatureTableFileSize s.files.2

variable {found : EepromFile × EepromFile} {s : SavesState M}
  {snapshots : List (DiscipliningParameters M.toMinipodTypes)}

/-- Files of one source hold one snapshot, or what the daemon has found. -/
theorem oneSnapshot_of_heldFrom {config table : EepromFile} {source : FileSource}
    (hconfig : HeldFrom configOf found.1 snapshots config source)
    (htable : HeldFrom tableOf found.2 snapshots table source) (hsource : source ≠ .truncated) :
    OneSnapshot found snapshots (config, table) := by
  rcases source with _ | _ | i
  · exact .inl (Prod.ext hconfig htable)
  · exact absurd rfl hsource
  · obtain ⟨snapshot, hsnapshot, rfl⟩ := hconfig
    obtain ⟨snapshot', hsnapshot', rfl⟩ := htable
    obtain rfl := Option.some.inj (hsnapshot.symm.trans hsnapshot')
    exact .inr ⟨snapshot, List.mem_of_getElem? hsnapshot, rfl⟩

theorem SavesInv.law (h : SavesInv found s) : SavesLaw found s := by
  refine ⟨fun hdone => ?_, h.reads⟩
  obtain ⟨hsame, hsource⟩ :=
    h.settled fun job hmem hhalfway => hhalfway.2 (hdone job hmem)
  have htable := h.table
  rw [← hsame] at htable
  exact oneSnapshot_of_heldFrom h.config htable hsource

theorem HeldFrom.append {n : ℕ} {image : DiscipliningParameters M.toMinipodTypes → Bytes n}
    {foundFile file : EepromFile} {source : FileSource}
    (h : HeldFrom image foundFile snapshots file source)
    (more : List (DiscipliningParameters M.toMinipodTypes)) :
    HeldFrom image foundFile (snapshots ++ more) file source := by
  rcases source with _ | _ | i
  · exact h
  · trivial
  · obtain ⟨snapshot, hsnapshot, hfile⟩ := h
    refine ⟨snapshot, ?_, hfile⟩
    rw [List.getElem?_append_left (List.getElem?_eq_some_iff.mp hsnapshot).1]
    exact hsnapshot

theorem OneSnapshot.append {files : EepromFile × EepromFile}
    (h : OneSnapshot found snapshots files)
    (more : List (DiscipliningParameters M.toMinipodTypes)) :
    OneSnapshot found (snapshots ++ more) files := by
  rcases h with hfound | ⟨snapshot, hmem, hfiles⟩
  · exact .inl hfound
  · exact .inr ⟨snapshot, List.mem_append_left _ hmem, hfiles⟩

/-- Reads that ended are not affected by the saves that are started later. -/
theorem ReadsOneSnapshot.of_append {s' : SavesState M} (h : ReadsOneSnapshot found s)
    (hreads : s'.reads = s.reads) {more : List (DiscipliningParameters M.toMinipodTypes)}
    (hsnapshots : s'.snapshots = s.snapshots ++ more) : ReadsOneSnapshot found s' := by
  intro read p hread
  rw [hreads] at hread
  obtain ⟨files, hone, hresult⟩ := h read p hread
  refine ⟨files, ?_, hresult⟩
  rw [hsnapshots]
  exact hone.append more

/-! ### A file step -/

section Step

variable {jobs : List (SaveJob M)} {job : SaveJob M} {i : ℕ} {point : SavePoint}

theorem map_snapshot_set (hjob : jobs[i]? = some job) :
    (jobs.set i { job with point }).map SaveJob.snapshot = jobs.map SaveJob.snapshot := by
  obtain ⟨hi, rfl⟩ := List.getElem?_eq_some_iff.mp hjob
  have hi' : i < (jobs.map SaveJob.snapshot).length := by rwa [List.length_map]
  have hsnapshot : (jobs.map SaveJob.snapshot)[i] = jobs[i].snapshot := List.getElem_map _
  rw [List.map_set, ← hsnapshot]
  exact List.set_getElem_self hi'

/-- The other saves are as they were. -/
theorem mem_set_iff (hjob : jobs[i]? = some job) {other : SaveJob M} :
    other ∈ jobs.set i { job with point } ↔
      other = { job with point } ∨ ∃ j, j ≠ i ∧ jobs[j]? = some other := by
  have hi : i < jobs.length := (List.getElem?_eq_some_iff.mp hjob).1
  constructor
  · intro h
    obtain ⟨j, hj⟩ := List.mem_iff_getElem?.mp h
    by_cases hij : i = j
    · subst hij
      rw [List.getElem?_set_self hi] at hj
      exact .inl (Option.some.inj hj).symm
    · rw [List.getElem?_set_ne hij] at hj
      exact .inr ⟨j, Ne.symm hij, hj⟩
  · rintro (rfl | ⟨j, hj, hother⟩)
    · exact List.mem_set hi _
    · refine List.mem_iff_getElem?.mpr ⟨j, ?_⟩
      rw [List.getElem?_set_ne hj.symm]
      exact hother

/-- A save among those that are left was there before, where it was. -/
theorem exists_of_mem_set (hjob : jobs[i]? = some job) {P : SavePoint → Prop} (hpoint : ¬ P point)
    (h : ∃ other ∈ jobs.set i { job with point }, P other.point) :
    ∃ other ∈ jobs, P other.point := by
  obtain ⟨other, hmem, hP⟩ := h
  rcases (mem_set_iff hjob).mp hmem with rfl | ⟨j, -, hother⟩
  · exact absurd hP hpoint
  · exact ⟨other, List.mem_of_getElem? hother, hP⟩

/-- The save that has taken a step is halfway, or has ended. -/
theorem not_settled_set (hjob : jobs[i]? = some job)
    (hhalfway : SaveJob.Halfway { job with point }) :
    ¬ Settled (jobs.set i { job with point }) :=
  fun h => h _ ((mem_set_iff hjob).mpr (.inl rfl)) hhalfway

end Step

/-- **A file step** of a save that meets the condition. -/
theorem savesInv_save (h : SavesInv found s) (i : ℕ) (hkept : SavesKept s (.save i)) :
    SavesInv found (savesStep s (.save i)) := by
  rcases hjob : s.jobs[i]? with _ | job
  · simpa only [savesStep, hjob] using h
  have hmem : job ∈ s.jobs := List.mem_of_getElem? hjob
  have hsnapshots : ∀ point, (s.jobs.set i { job with point }).map SaveJob.snapshot
      = s.snapshots := fun point => map_snapshot_set hjob
  have hwritten : s.snapshots[i]? = some job.snapshot := by
    rw [SavesState.snapshots, List.getElem?_map, hjob, Option.map_some]
  have hunsettled : ∀ {point} {P : Prop}, SaveJob.Halfway { job with point } →
      Settled (s.jobs.set i { job with point }) → P := fun hhalfway hsettled =>
    absurd hsettled (not_settled_set hjob hhalfway)
  have htruncated : ∀ point, ¬ (point = .writeTable ∨ point = .done) →
      (∃ other ∈ s.jobs.set i { job with point },
        other.point = .writeTable ∨ other.point = .done) →
      Truncated temperatureTableFileSize s.files.2 := fun point hother hopened =>
    h.tableTruncated (exists_of_mem_set (P := fun point => point = .writeTable ∨ point = .done)
      hjob hother hopened)
  cases hpoint : job.point
  case done => simpa only [savesStep, hjob, SaveJob.step, hpoint] using h
  all_goals
    simp only [savesStep, hjob, SaveJob.step, hpoint, SavePoint.touch]
    have hreads : ∀ files sources point, ReadsOneSnapshot found
        { s with files, sources, jobs := s.jobs.set i { job with point } } :=
      fun files sources point =>
        h.reads.of_append rfl ((hsnapshots point).trans (List.append_nil _).symm)
  case openConfig =>
    refine ⟨trivial, ?_, hunsettled ⟨nofun, nofun⟩, ?_, hreads _ _ _,
      fun _ => ⟨[], rfl, Nat.zero_le _⟩, htruncated _ (by simp)⟩
    · simpa only [SavesState.snapshots, hsnapshots] using h.table
    · simpa only [SavesState.snapshots, hsnapshots] using h.reading
  all_goals
    have hconfig : Truncated discipliningConfigFileSize s.files.1 :=
      h.configTruncated ⟨job, hmem, by simp [hpoint]⟩
  case writeConfig =>
    rw [overwrite_of_truncated hconfig]
    refine ⟨⟨job.snapshot, ?_, rfl⟩, ?_, hunsettled ⟨nofun, nofun⟩, ?_, hreads _ _ _,
      fun _ => truncated_ofFn _, htruncated _ (by simp)⟩
    · simpa only [SavesState.snapshots, hsnapshots] using hwritten
    · simpa only [SavesState.snapshots, hsnapshots] using h.table
    · simpa only [SavesState.snapshots, hsnapshots] using h.reading
  case openTable =>
    refine ⟨?_, trivial, hunsettled ⟨nofun, nofun⟩, ?_, hreads _ _ _, fun _ => hconfig,
      fun _ => ⟨[], rfl, Nat.zero_le _⟩⟩
    · simpa only [SavesState.snapshots, hsnapshots] using h.config
    · simpa only [SavesState.snapshots, hsnapshots] using h.reading
  case writeTable =>
    have htable : Truncated temperatureTableFileSize s.files.2 :=
      h.tableTruncated ⟨job, hmem, .inl hpoint⟩
    rw [overwrite_of_truncated htable]
    refine ⟨?_, ⟨job.snapshot, ?_, rfl⟩, fun hsettled => ?_, ?_, hreads _ _ _, fun _ => hconfig,
      fun _ => truncated_ofFn _⟩
    · simpa only [SavesState.snapshots, hsnapshots] using h.config
    · simpa only [SavesState.snapshots, hsnapshots] using hwritten
    · -- the last save halfway: it was the last one to touch the first file
      have hsource : s.sources.1 = .written i := by
        refine hkept job hjob hpoint fun j other hother hhalfway => ?_
        by_contra hne
        exact hsettled other ((mem_set_iff hjob).mpr (.inr ⟨j, hne, hother⟩)) hhalfway
      exact ⟨hsource, fun htrunc => by rw [hsource] at htrunc; cases htrunc⟩
    · simpa only [SavesState.snapshots, hsnapshots] using h.reading

/-- A save that is started has not touched the files. -/
theorem savesInv_start (h : SavesInv found s) (byMain : Bool)
    (snapshot : DiscipliningParameters M.toMinipodTypes) :
    SavesInv found
      { s with jobs := s.jobs ++ [{ byMain, snapshot, point := SavePoint.openConfig }] } := by
  have hsnapshots : (s.jobs ++ [SaveJob.mk byMain snapshot .openConfig]).map SaveJob.snapshot
      = s.snapshots ++ [snapshot] := by
    rw [List.map_append]
    rfl
  have hsettled :
      Settled (s.jobs ++ [SaveJob.mk byMain snapshot .openConfig]) ↔ Settled s.jobs := by
    simp [Settled, SaveJob.Halfway, or_imp, forall_and]
  have hopened : ∀ {P : SavePoint → Prop}, ¬ P .openConfig →
      (∃ job ∈ s.jobs ++ [SaveJob.mk byMain snapshot .openConfig], P job.point) →
      ∃ job ∈ s.jobs, P job.point := by
    rintro P hnew ⟨job, hmem, hpoint⟩
    rcases List.mem_append.mp hmem with hmem | hmem
    · exact ⟨job, hmem, hpoint⟩
    · obtain rfl := List.mem_singleton.mp hmem
      exact absurd hpoint hnew
  constructor
  · simpa only [SavesState.snapshots, hsnapshots] using h.config.append [snapshot]
  · simpa only [SavesState.snapshots, hsnapshots] using h.table.append [snapshot]
  · exact fun h' => h.settled (hsettled.mp h')
  · intro read dscConfigData source hreading
    obtain ⟨file, hfile, hdata⟩ := h.reading read dscConfigData source hreading
    refine ⟨file, ?_, hdata⟩
    simpa only [SavesState.snapshots, hsnapshots] using hfile.append [snapshot]
  · exact h.reads.of_append rfl hsnapshots
  · exact fun hex => h.configTruncated (hopened (P := fun point => point ≠ .openConfig)
      (not_not.mpr rfl) hex)
  · exact fun hex => h.tableTruncated
      (hopened (P := fun point => point = .writeTable ∨ point = .done) (by simp) hex)

/-- A read that looks at the second file returns the halves of one snapshot, if it succeeds. -/
theorem savesInv_readTable (h : SavesInv found s) {read : EepromRead M}
    {dscConfigData : Bytes discipliningConfigFileSize} {source : FileSource}
    (hreading : s.reading = some (read, dscConfigData, source)) (hsame : source = s.sources.2)
    (hsource : source ≠ .truncated) :
    SavesInv found { s with
      reading := none
      reads := (read, decodeBuffers M dscConfigData (readFile s.files.2 read.tempTable).2
        read.dscParams) :: s.reads } := by
  refine ⟨h.config, h.table, h.settled, nofun, ?_, h.configTruncated, h.tableTruncated⟩
  intro read' p hread
  rcases List.mem_cons.mp hread with heq | hread
  · obtain ⟨rfl, hresult⟩ := Prod.mk.inj heq
    obtain ⟨file, hfile, rfl⟩ := h.reading _ _ _ hreading
    have htable := h.table
    rw [← hsame] at htable
    refine ⟨(file, s.files.2), oneSnapshot_of_heldFrom hfile htable hsource, ?_⟩
    rw [readDiscipliningParametersFromEeprom, ← hresult]
    rfl
  · exact h.reads read' p hread

/-- **One step** that meets the condition keeps the invariant. -/
theorem savesInv_step (s : SavesState M) (e : SavesEvent M) (h : SavesInv found s)
    (hkept : SavesKept s e) : SavesInv found (savesStep s e) := by
  cases e with
  | start byMain snapshot =>
    rw [savesStep]
    split_ifs
    · exact h
    · exact savesInv_start h byMain snapshot
  | save i => exact savesInv_save h i hkept
  | readConfig read =>
    rcases hreading : s.reading with _ | reading
    · simp only [savesStep, hreading]
      refine ⟨h.config, h.table, h.settled, ?_, h.reads, h.configTruncated, h.tableTruncated⟩
      intro read' dscConfigData source heq
      cases heq
      exact ⟨s.files.1, h.config, rfl⟩
    · simpa only [savesStep, hreading] using h
  | readTable =>
    rcases hreading : s.reading with _ | ⟨read, dscConfigData, source⟩
    · simpa only [savesStep, hreading] using h
    · simp only [savesStep, hreading]
      obtain ⟨hsame, hsource⟩ := hkept read dscConfigData source hreading
      exact savesInv_readTable h hreading hsame hsource

/-- **A consistent snapshot.** Whatever the files the daemon finds and however saves and reads
interleave: in every run in which a save that ends when no other is halfway was the last one to
touch the first file, and the files a read looks at were last touched by the same save, which has
written them, or by none, the files hold the halves of one snapshot whenever no save is in
progress, and every read that succeeds returns the halves of one. -/
theorem savesLaw_throughout (M : Minipod) (found : EepromFile × EepromFile)
    (es : List (SavesEvent M)) (h : EachStep savesStep SavesKept (savesStart found) es) :
    Throughout savesStep (SavesLaw found) (savesStart (M := M) found) es := by
  have hinit : SavesInv found (savesStart (M := M) found) :=
    ⟨rfl, rfl, fun _ => ⟨rfl, nofun⟩, nofun, nofun, by simp [savesStart], by simp [savesStart]⟩
  have hinv := throughout_of_eachStep hinit savesInv_step h
  exact fun pre hpre => (hinv pre hpre).law

/-- A save, and a read once it has ended. -/
def saveThenRead (p : DiscipliningParameters M.toMinipodTypes) (read : EepromRead M) :
    List (SavesEvent M) :=
  [.start false p, .save 0, .save 0, .save 0, .save 0, .readConfig read, .readTable]

theorem eachStep_saveThenRead (found : EepromFile × EepromFile)
    (p : DiscipliningParameters M.toMinipodTypes) (read : EepromRead M) :
    EachStep savesStep SavesKept (savesStart found) (saveThenRead p read) := by
  simp [saveThenRead, SavesKept, savesStep, savesStart, SaveJob.step, SavePoint.touch]

theorem savesLaw_saveThenRead :
    Throughout savesStep (SavesLaw (none, none)) (savesStart (M := packed) (none, none))
      (saveThenRead parametersBlank ⟨zeros _, zeros _, parametersBlank⟩) :=
  savesLaw_throughout packed (none, none) _ (eachStep_saveThenRead _ _ _)

/-! ### Two saves that cross -/

/-- The images tell parameters apart. -/
theorem imageFiles_injective {p q : DiscipliningParameters M.toMinipodTypes}
    (h : imageFiles M p = imageFiles M q) : p = q := by
  obtain ⟨hconfig, htable⟩ := Prod.mk.inj h
  have hconfig := List.ofFn_injective (Option.some.inj hconfig)
  have htable := List.ofFn_injective (Option.some.inj htable)
  refine DiscipliningParameters.ext ?_ ?_
  · rw [← symm_prefixOf_configImage p.dscConfig, hconfig, symm_prefixOf_configImage]
  · rw [← symm_prefixOf_tableImage p.tempTable, htable, symm_prefixOf_tableImage]

/-- One save begins when another one has written the first file, and ends before it. -/
def crossedSaves (p q : DiscipliningParameters M.toMinipodTypes) : List (SavesEvent M) :=
  [.start false p, .start false q, .save 0, .save 0, .save 1, .save 1, .save 1, .save 1, .save 0,
    .save 0]

/-- The configuration is the one of the second save, and the temperature table the one of the
first. -/
theorem after_crossedSaves (found : EepromFile × EepromFile)
    (p q : DiscipliningParameters M.toMinipodTypes) :
    after savesStep (savesStart found) (crossedSaves p q) =
      { files := imageFiles M ⟨q.dscConfig, p.tempTable⟩, sources := (.written 1, .written 0)
        jobs := [⟨false, p, .done⟩, ⟨false, q, .done⟩], reading := none, reads := [] } := by
  simp [crossedSaves, savesStep, savesStart, SaveJob.step, SavePoint.touch, overwrite, imageFiles,
    -List.ofFn_succ]

/-- Parameters of the packed layout with a calibration, or without one. -/
def snapshotOf (calibrated : UInt8) : DiscipliningParameters packed.toMinipodTypes where
  dscConfig := { parametersBlank.dscConfig with
    header := packed.headerMagic, version := 1, calibrationValid := calibrated }
  tempTable := { parametersBlank.tempTable with
    header := packed.headerMagic, version := 1
    meanFineOverTemperature := fun _ => ![calibrated, 0] }

/-- Two threads save the parameters before and after a calibration, one within the other: the files
hold a half of each. -/
theorem savesLaw_fails_crossed :
    ¬ Throughout savesStep (SavesLaw (imageFiles packed (snapshotOf 0)))
        (savesStart (imageFiles packed (snapshotOf 0)))
        (crossedSaves (snapshotOf 0) (snapshotOf 1)) := by
  intro h
  have hlast := h.last.files
  rw [after_crossedSaves] at hlast
  have hone := hlast (by simp)
  have hmixed : DiscipliningParameters.mk (snapshotOf 1).dscConfig (snapshotOf 0).tempTable
      = snapshotOf 0 ∨
      DiscipliningParameters.mk (snapshotOf 1).dscConfig (snapshotOf 0).tempTable
        = snapshotOf 1 := by
    rcases hone with hfound | ⟨snapshot, hmem, hfiles⟩
    · exact .inl (imageFiles_injective hfound)
    · simp only [SavesState.snapshots, List.map_cons, List.map_nil, List.mem_cons,
        List.not_mem_nil, or_false] at hmem
      rcases hmem with rfl | rfl
      · exact .inl (imageFiles_injective hfiles)
      · exact .inr (imageFiles_injective hfiles)
  rcases hmixed with hmixed | hmixed
  · have hvalid : (1 : UInt8) = 0 := congrArg (fun p => p.dscConfig.calibrationValid) hmixed
    exact absurd hvalid (by decide)
  · have hmean : (0 : UInt8) = 1 :=
      congrArg (fun p => p.tempTable.meanFineOverTemperature (0 : Fin 12) (0 : Fin 2)) hmixed
    exact absurd hmean (by decide)

end Oscillatord
