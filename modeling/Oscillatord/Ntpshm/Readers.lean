import Mathlib.Data.UInt
import Oscillatord.Library.SeqlockConsumers
import Oscillatord.Ntpshm.Segment

/-!
# A segment that is read while it is written

The segment is shared with other processes: the NTP daemon, which consumes what it reads, and
programs that look on. No lock is taken. `segmentStep` lets `ntp_write` and any number of
`ntp_read` go on access by access, in any order, in a segment of mode `1`; `samples` are the pairs
put, oldest first.

What `ntp_read` accepts is judged against the versions of the segment, the first of which is what it
held to begin with (`SegmentRun.versions`). Every word of an accepted copy is current at the first
look at `count`; and the copy is one version, so that the reader is told one pair, when `count` did
not move since the look at `valid` (`read_law`). The condition is needed: `ntp_read` does not ask
whether the count it finds is even, so that an update that begins between its look at `valid` and
its look at `count`, and does not end before the copy does, is not noticed (`exists_torn`).
-/

namespace Oscillatord

open Seqlock StepRun

universe u

variable {ι : Type u}

/-! ### The accesses -/

/-- A call of `ntp_write`. -/
structure ShmSample where
  td : TimedeltaT
  precision : ℤ
  leapNotify : LeapNotify
  deriving DecidableEq

/-- What it stores. -/
def ShmSample.record (sample : ShmSample) : ShmRecord :=
  ntpRecord sample.td sample.precision sample.leapNotify

/-- An access: `ntp_write` is called or makes its next store; `ntp_read` looks at `valid`, looks at
`count`, copies the next word, clears `valid`, or looks at `count` again. -/
inductive ShmAccess (ι : Type u)
  | puts (sample : ShmSample)
  | stores
  | looks (i : ι)
  | opens (i : ι) (order : Sweep ShmWord)
  | copies (i : ι)
  | consumes (i : ι)
  | closes (i : ι)

/-- The access in the terms of the protocol. -/
def ShmAccess.event : ShmAccess ι → Event (fun _ : ShmWord => ℤ) ι
  | .puts sample => .begins sample.record ntpWriteOrder
  | .stores => .stores
  | .looks i => .looks i
  | .opens i order => .opens i order
  | .copies i => .copies i
  | .consumes i => .consumes i
  | .closes i => .closes i

/-- The segment with those at it, and the pairs put. -/
structure SegmentRun (ι : Type u) where
  system : System UInt32 (fun _ : ShmWord => ℤ) ι
  samples : List ShmSample

/-- A segment nobody is at. -/
def SegmentRun.start (shm : ShmTime) : SegmentRun ι := ⟨.start shm.cell, []⟩

/-- The versions of the segment. -/
def SegmentRun.versions (shm : ShmTime) (s : SegmentRun ι) : List ShmRecord :=
  shm.cell.word :: s.samples.map ShmSample.record

/-- The pair that is put, if none is being put. -/
def ShmAccess.sample (writer : List (Store fun _ : ShmWord => ℤ)) : ShmAccess ι → List ShmSample
  | .puts sample => if writer.isEmpty then [sample] else []
  | _ => []

/-- One access. -/
def segmentStep [DecidableEq ι] (s : SegmentRun ι) (e : ShmAccess ι) : SegmentRun ι :=
  { system := step countIncr s.system e.event
    samples := s.samples ++ e.sample s.system.writer }

/-- The values a reader has copied. -/
def shmCopy (r : Read (fun _ : ShmWord => ℤ) ι) : ShmRecord := fun w => (r.words w).getD 0

variable {s : SegmentRun ι} {shm : ShmTime} {r : Read (fun _ : ShmWord => ℤ) ι}

/-! ### What a copy tells -/

/-- A time whose nanoseconds are stored so that they can be read back. -/
structure Timespec.Storable (ts : Timespec) : Prop where
  normal : ts.Normal
  nonneg : 0 ≤ ts.tvNsec

/-- What a copy of the version of number `k` tells: what was there to begin with, or a pair that was
put. -/
def SegmentRun.Tells (s : SegmentRun ι) (shm : ShmTime) (r : Read (fun _ : ShmWord => ℤ) ι) :
    ℕ → Prop
  | 0 => shmCopy r = shm.cell.word
  | k + 1 => ∃ sample, s.samples[k]? = some sample ∧ shmCopy r = sample.record ∧
    (sample.td.real.Storable → sample.td.clock.Storable →
      ∀ stat, Delivered sample.td sample.precision sample.leapNotify
        (ntpStat shm.mode (shmCopy r) stat))

/-- A copy of one version tells one pair. -/
theorem tells_of_exact (hmode : shm.mode = 1) (hexact : r.Exact (s.versions shm)) :
    s.Tells shm r (r.first / 2) := by
  obtain ⟨record, hrecord, hwords⟩ := hexact
  have hcopy : shmCopy r = record := funext fun w => by rw [shmCopy, hwords, Option.getD_some]
  rcases hk : r.first / 2 with _ | k <;> rw [hk] at hrecord
  · exact hcopy.trans (Option.some.inj hrecord).symm
  · rw [SegmentRun.versions, List.getElem?_cons_succ, List.getElem?_map] at hrecord
    obtain ⟨sample, hsample, rfl⟩ := Option.map_eq_some_iff.mp hrecord
    refine ⟨sample, hsample, hcopy, fun hreal hclock stat => ?_⟩
    rw [hcopy]
    exact (delivered_ntpStat_iff (.inr hmode) hreal.normal hclock.normal stat).mpr
      ⟨hreal.nonneg, hclock.nonneg⟩

/-! ### The calls, alone -/

variable [DecidableEq ι] {es : List (ShmAccess ι)}

/-- Reader `i` is called with `consume` set: it clears `valid` before it looks at `count` again. -/
def Consumes (i : ι) (s : SegmentRun ι) (e : ShmAccess ι) : Prop :=
  Consumer i s.system e.event

instance (i : ι) (s : SegmentRun ι) (e : ShmAccess ι) : Decidable (Consumes i s e) :=
  inferInstanceAs (Decidable (Consumer i s.system e.event))

/-- The accesses are those of the protocol. -/
theorem after_segmentStep (s : SegmentRun ι) (es : List (ShmAccess ι)) :
    (after segmentStep s es).system
      = after (step countIncr) s.system (es.map ShmAccess.event) := by
  rw [after, after, List.foldl_map]
  exact after_hom SegmentRun.system fun _ _ => rfl

theorem eachStep_segmentStep {i : ι} (h : EachStep segmentStep (Consumes i) s es) :
    EachStep (step countIncr) (Consumer i) s.system (es.map ShmAccess.event) := by
  induction es generalizing s with
  | nil => exact eachStep_nil
  | cons e es ih =>
    rw [eachStep_cons] at h
    rw [List.map_cons, eachStep_cons]
    exact ⟨h.1, ih h.2⟩

/-- `ntp_write` alone makes the stores of `ntpWrite`. -/
theorem ntpWrite_alone (hwriter : s.system.writer = []) (hcell : s.system.cell = shm.cell)
    (sample : ShmSample) :
    (after segmentStep s (.puts sample :: List.replicate 12 .stores)).system.cell
      = (ntpWrite shm sample.td sample.precision sample.leapNotify).cell := by
  have hbegun : (segmentStep s (.puts sample)).system
      = { s.system with
          writer := ntpWriteStores sample.td sample.precision sample.leapNotify
          versions := s.system.versions ++ [sample.record] } := by
    simp only [segmentStep, ShmAccess.event, step, hwriter]
    rfl
  rw [after_cons, after_segmentStep, List.map_replicate, hbegun]
  rw [ntpWrite, ← hcell]
  exact after_stores (ntpWriteStores sample.td sample.precision
    sample.leapNotify) rfl

/-- The accesses of `ntp_read`. -/
def ntpReadAccesses (i : ι) (order : Sweep ShmWord) (consume : Bool) : List (ShmAccess ι) :=
  .looks i :: .opens i order :: (List.replicate order.words.length (.copies i)
    ++ (if consume then [.consumes i] else []) ++ [.closes i])

/-- `ntp_read` alone, at a segment that is valid, accepts its copy, and makes of it what `ntpRead`
does. -/
theorem ntpRead_alone {i : ι} (hidle : s.system.reader i = .idle)
    (hcell : s.system.cell = shm.cell) (hvalid : shm.cell.valid = true) (order : Sweep ShmWord)
    (consume : Bool) (stat : ShmStatT) :
    ∃ r, (after segmentStep s (ntpReadAccesses i order consume)).system.reads
        = r :: s.system.reads ∧
      ntpRead (some shm) stat consume
        = (ntpStat shm.mode (shmCopy r) { stat with tvc := ⟨0, 0⟩ },
          some { shm with
            cell := (after segmentStep s (ntpReadAccesses i order consume)).system.cell }) := by
  have hevents : (ntpReadAccesses i order consume).map ShmAccess.event
      = readAlone i order consume := by
    cases consume <;> simp [ntpReadAccesses, readAlone, ShmAccess.event]
  rw [← hcell] at hvalid
  rw [after_segmentStep, hevents, after_readAlone hidle hvalid]
  refine ⟨_, rfl, ?_⟩
  rw [hcell] at hvalid ⊢
  simp only [ntpRead, hvalid]
  rfl

/-! ### In any order -/

/-- The versions are what the segment held to begin with and then the pairs put. -/
theorem versions_eq (shm : ShmTime) (es : List (ShmAccess ι)) :
    (after segmentStep (SegmentRun.start shm) es).system.versions
      = (after segmentStep (SegmentRun.start shm) es).versions shm := by
  refine after_induction (P := fun s : SegmentRun ι => s.system.versions = s.versions shm) rfl
    fun s e hversions => ?_
  have hsample : (e.sample s.system.writer).map ShmSample.record
      = e.event.versions s.system.writer := by
    cases e with
    | puts sample => cases s.system.writer <;> rfl
    | stores | looks | opens | copies | consumes | closes => rfl
  rw [segmentStep, versions_step, hversions, SegmentRun.versions, SegmentRun.versions,
    List.map_append, hsample, List.cons_append]

/-- `count` comes round after `2 ^ 32` ticks. -/
theorem iterate_countIncr (count : UInt32) (n : ℕ) :
    countIncr^[n] count = count + UInt32.ofNat n := by
  induction n with
  | zero => simp
  | succ n ih =>
    rw [Function.iterate_succ_apply', ih, countIncr, UInt32.ofNat_add, UInt32.add_assoc]
    rfl

/-- Fewer ticks are seen. -/
theorem eq_of_iterate_countIncr {count : UInt32} {first last : ℕ} (hle : first ≤ last)
    (hround : last < first + 2 ^ 32) (heq : countIncr^[first] count = countIncr^[last] count) :
    first = last := by
  rw [iterate_countIncr, iterate_countIncr] at heq
  have hmod := congrArg UInt32.toNat ((UInt32.add_right_inj count).mp heq)
  simp only [UInt32.toNat_ofNat'] at hmod
  omega

/-- A copy that is accepted, and the versions. -/
theorem read_versions (hr : r ∈ (after segmentStep (SegmentRun.start shm) es).system.reads)
    (hround : r.last < r.first + 2 ^ 32) :
    r.Genuine ((after segmentStep (SegmentRun.start shm) es).versions shm) ∧
      (r.first % 2 = 0 → r.Exact ((after segmentStep (SegmentRun.start shm) es).versions shm)) ∧
      (r.first = r.seen → r.first % 2 = 0) := by
  have hversions := versions_eq shm es
  rw [after_segmentStep] at hr hversions
  have hlaw := accepted shm.cell hr fun hle heq => eq_of_iterate_countIncr hle hround heq
  have hsystem : (SegmentRun.start shm : SegmentRun ι).system = System.start shm.cell := rfl
  rw [hsystem] at hversions
  rw [← hversions]
  exact hlaw

/-- **What `ntp_read` accepts.** However `ntp_write` and any number of `ntp_read` go on together,
every word of a copy that is accepted was current at the first look at `count`; the copy tells one
pair, that of the last update finished then, unless an update was in progress; and none was if
`count` did not move since the look at `valid`. The counter has `32` bits, so that a reader must not
be overtaken by `2 ^ 31` updates. -/
theorem read_law (hmode : shm.mode = 1)
    (hr : r ∈ (after segmentStep (SegmentRun.start shm) es).system.reads)
    (hround : r.last < r.first + 2 ^ 32) :
    r.Genuine ((after segmentStep (SegmentRun.start shm) es).versions shm) ∧
      (r.first % 2 = 0 →
        (after segmentStep (SegmentRun.start shm) es).Tells shm r (r.first / 2)) ∧
      (r.first = r.seen → r.first % 2 = 0) := by
  obtain ⟨hgenuine, hexact, heven⟩ := read_versions hr hround
  exact ⟨hgenuine, fun h => tells_of_exact hmode (hexact h), heven⟩

/-- A pair is put. -/
def putExample : ShmSample := ⟨⟨⟨1, 5000⟩, ⟨2, 7000⟩⟩, -20, .noWarning⟩

/-- A segment as it is when nothing was put. -/
def emptySegment : ShmTime := ⟨1, 3, ⟨false, 0, fun _ => 0⟩⟩

/-- The pair is put, and is consumed. -/
def putAndConsumed : List (ShmAccess Unit) :=
  .puts putExample :: List.replicate 12 .stores ++ ntpReadAccesses () ntpWriteOrder true

theorem read_law_putExample :
    ∃ r ∈ (after segmentStep (SegmentRun.start emptySegment) putAndConsumed).system.reads,
      (after segmentStep (SegmentRun.start emptySegment) putAndConsumed).Tells emptySegment r 1 :=
  ⟨_, List.mem_cons_self, (read_law rfl List.mem_cons_self (by decide)).2.1 (by decide)⟩

/-- The update of `putExample` begins after the look at `valid`, and makes its first store before
the copy. -/
def overtaken : List (ShmAccess Unit) :=
  [.looks (), .puts putExample, .stores, .stores, .stores, .opens () ntpWriteOrder]
    ++ List.replicate 8 (.copies ()) ++ [.closes ()]

/-- **A copy that is accepted may tell no pair at all**, although it was not overtaken by a whole
update. -/
theorem exists_torn :
    ∃ shm : ShmTime, ∃ es : List (ShmAccess Unit),
      ∃ r ∈ (after segmentStep (SegmentRun.start shm) es).system.reads,
        shm.mode = 1 ∧ r.first = r.last ∧
          ∀ k, ¬ (after segmentStep (SegmentRun.start shm) es).Tells shm r k := by
  refine ⟨{ emptySegment with cell := ⟨true, 0, fun _ => 0⟩ }, overtaken, _, List.mem_cons_self,
    rfl, rfl, fun k htells => ?_⟩
  match k with
  | 0 =>
    have hsec := congrFun htells .clockTimeStampSec
    exact absurd hsec (by decide)
  | 1 =>
    obtain ⟨sample, hsample, hcopy, -⟩ := htells
    obtain rfl := Option.some.inj (hsample : some putExample = some sample)
    have husec := congrFun hcopy .clockTimeStampUSec
    exact absurd husec (by decide)
  | k + 2 =>
    obtain ⟨sample, hsample, -⟩ := htells
    cases hsample

/-- **What the NTP daemon consumes.** A reader that consumes accepts no more copies than pairs were
put, and one more if the segment was valid to begin with, whatever other readers do, consuming or
not; and among the copies that are accepted with `count` standing still from the look at `valid`,
no two tell the same pair, and the pairs come in the order in which they were put. -/
theorem consumer_law {i : ι}
    (h : EachStep segmentStep (Consumes i) (SegmentRun.start shm) es) :
    let s := after segmentStep (SegmentRun.start shm) es
    s.system.accepted i ≤ s.samples.length + shm.cell.valid.toNat ∧
      ((s.system.taken i).map (· / 2)).Pairwise (· > ·) := by
  have hsystem := after_segmentStep (SegmentRun.start shm) es
  have hlength := congrArg List.length (versions_eq shm es)
  have hevents := eachStep_segmentStep h
  have hfinished := finished_lt countIncr shm.cell (es.map ShmAccess.event)
  have hle := accepted_le shm.cell hevents
  have hstart : (SegmentRun.start shm : SegmentRun ι).system = System.start shm.cell := rfl
  rw [hstart] at hsystem
  rw [← hsystem] at hfinished hle
  simp only [SegmentRun.versions, List.length_cons, List.length_map] at hlength
  refine ⟨by omega, ?_⟩
  rw [hsystem]
  exact taken_decreasing shm.cell hevents

theorem consumer_law_putExample :
    let s := after segmentStep (SegmentRun.start emptySegment) putAndConsumed
    s.system.accepted () ≤ s.samples.length + emptySegment.cell.valid.toNat ∧
      ((s.system.taken ()).map (· / 2)).Pairwise (· > ·) := by
  exact consumer_law (by decide)

end Oscillatord
