import Oscillatord.Library.CNumbers
import Oscillatord.Library.Seqlock
import Oscillatord.Ntpshm.Gmtime
import Oscillatord.Ntpshm.Timespec

/-!
# The shared segment of the NTP service

A segment (`ShmTime`) holds a pair of times: that of a clock to follow, and that of the system clock
at the same moment, each in seconds, microseconds and nanoseconds. `ntpWrite` puts a pair into it
and `ntpRead` takes one out, here without anyone else at the segment; `ntpWriteStores` are the
stores of the first, one by one.

The nanoseconds are stored twice, and `ntp_read` believes the second copy when it continues the
first. What it delivers is the pair that was put exactly when both times have nonnegative
nanoseconds (`ntpRead_ntpWrite_iff`), as times after the epoch have.
-/

namespace Oscillatord

open CNumber Seqlock

/-! ### The segment -/

/-- `struct timedelta_t`: the time of the reference and that of the system clock. -/
structure TimedeltaT where
  real : Timespec
  clock : Timespec
  deriving Repr, DecidableEq

/-- The fields of `struct shmTime` that an update stores. -/
inductive ShmWord
  | clockTimeStampSec
  | clockTimeStampUSec
  | clockTimeStampNSec
  | receiveTimeStampSec
  | receiveTimeStampUSec
  | receiveTimeStampNSec
  | leap
  | precision
  deriving Repr, DecidableEq

instance : Nonempty ShmWord := ⟨.leap⟩

/-- The values of these fields. -/
abbrev ShmRecord := ShmWord → ℤ

/-- `struct shmTime`. Its `count` is an `int`, that is, a number of 32 bits; the cell has it with
the fields of `ShmWord` and with `valid`. -/
structure ShmTime where
  mode : ℤ
  nsamples : ℤ
  cell : Cell UInt32 (fun _ : ShmWord => ℤ)

/-- `count++`. -/
def countIncr (count : UInt32) : UInt32 := count + 1

/-- The `LEAP_*` codes. -/
def LeapNotify.code : LeapNotify → ℤ
  | .noWarning => 0
  | .addSecond => 1
  | .delSecond => 2
  | .notInSync => 3

/-! ### Writing -/

/-- The leap second notice that is stored: only in June and in December another one than
`LEAP_NOWARNING`. -/
def ntpLeapNotify (td : TimedeltaT) (leapNotify : LeapNotify) : LeapNotify :=
  let tm := gmtimeR td.real.tvSec
  if 5 ≠ tm.tmMon ∧ 11 ≠ tm.tmMon then .noWarning else leapNotify

/-- The stores of `ntp_write`, one by one. -/
def ntpWriteStores (td : TimedeltaT) (precision : ℤ) (leapNotify : LeapNotify) :
    List (Store fun _ : ShmWord => ℤ) :=
  let leapNotify := ntpLeapNotify td leapNotify
  let real := tsNorm td.real
  let clock := tsNorm td.clock
  [ .valid false
  , .tick
  , .word .clockTimeStampSec real.tvSec
  , .word .clockTimeStampUSec (toSigned 32 (real.tvNsec.tdiv 1000))
  , .word .clockTimeStampNSec (toUnsigned 32 real.tvNsec)
  , .word .receiveTimeStampSec clock.tvSec
  , .word .receiveTimeStampUSec (toSigned 32 (clock.tvNsec.tdiv 1000))
  , .word .receiveTimeStampNSec (toUnsigned 32 clock.tvNsec)
  , .word .leap leapNotify.code
  , .word .precision precision
  , .tick
  , .valid true ]

/-- `ntp_write`, alone at the segment. -/
def ntpWrite (shmseg : ShmTime) (td : TimedeltaT) (precision : ℤ) (leapNotify : LeapNotify) :
    ShmTime :=
  { shmseg with
    cell := (ntpWriteStores td precision leapNotify).foldl (Store.apply countIncr) shmseg.cell }

/-! ### Reading -/

/-- `enum segstat_t`. -/
inductive SegstatT
  | ok
  | noSegment
  | notReady
  | badMode
  | clash
  deriving Repr, DecidableEq

/-- `struct shm_stat_t`. -/
structure ShmStatT where
  status : SegstatT
  tvc : Timespec
  tvr : Timespec
  tvt : Timespec
  precision : ℤ
  leap : ℤ
  deriving Repr, DecidableEq

/-- The two times of a copy of the segment, for the modes `0` and `1`: the microseconds, or the
nanoseconds when both continue the microseconds. -/
def ntpTimes (shmcopy : ShmRecord) : Timespec × Timespec :=
  let tvr : Timespec := ⟨shmcopy .receiveTimeStampSec,
    toSigned 32 (shmcopy .receiveTimeStampUSec * 1000)⟩
  let rnsNew := shmcopy .receiveTimeStampNSec
  let tvt : Timespec := ⟨shmcopy .clockTimeStampSec,
    toSigned 32 (shmcopy .clockTimeStampUSec * 1000)⟩
  let cnsNew := shmcopy .clockTimeStampNSec
  if toUnsigned 32 (cnsNew - toUnsigned 32 tvt.tvNsec) < 1000
      ∧ toUnsigned 32 (rnsNew - toUnsigned 32 tvr.tvNsec) < 1000 then
    ({ tvt with tvNsec := cnsNew }, { tvr with tvNsec := rnsNew })
  else (tvt, tvr)

/-- What `ntp_read` makes of a copy that was not overtaken. -/
def ntpStat (mode : ℤ) (shmcopy : ShmRecord) (stat : ShmStatT) : ShmStatT :=
  let stat :=
    if mode = 0 ∨ mode = 1 then
      { stat with
        status := .ok
        tvt := (ntpTimes shmcopy).1
        tvr := (ntpTimes shmcopy).2 }
    else { stat with status := .badMode }
  { stat with leap := shmcopy .leap, precision := shmcopy .precision }

/-- `ntp_read`, alone at the segment: the counter is the same before and after. -/
def ntpRead (shmIn : Option ShmTime) (stat : ShmStatT) (consume : Bool) :
    ShmStatT × Option ShmTime :=
  match shmIn with
  | none => ({ stat with status := .noSegment }, none)
  | some shm =>
    let stat := { stat with tvc := ⟨0, 0⟩ }
    if !shm.cell.valid then ({ stat with status := .notReady }, some shm)
    else
      (ntpStat shm.mode shm.cell.word stat,
        some { shm with cell := { shm.cell with valid := !consume } })

/-! ### What is put is what is read -/

/-- The order of the stores of `ntp_write`. -/
def ntpWriteOrder : Sweep ShmWord where
  words := [.clockTimeStampSec, .clockTimeStampUSec, .clockTimeStampNSec, .receiveTimeStampSec,
    .receiveTimeStampUSec, .receiveTimeStampNSec, .leap, .precision]
  complete := fun w => by cases w <;> decide

/-- The record a pair of times is stored as. -/
def ntpRecord (td : TimedeltaT) (precision : ℤ) (leapNotify : LeapNotify) : ShmRecord
  | .clockTimeStampSec => (tsNorm td.real).tvSec
  | .clockTimeStampUSec => toSigned 32 ((tsNorm td.real).tvNsec.tdiv 1000)
  | .clockTimeStampNSec => toUnsigned 32 (tsNorm td.real).tvNsec
  | .receiveTimeStampSec => (tsNorm td.clock).tvSec
  | .receiveTimeStampUSec => toSigned 32 ((tsNorm td.clock).tvNsec.tdiv 1000)
  | .receiveTimeStampNSec => toUnsigned 32 (tsNorm td.clock).tvNsec
  | .leap => (ntpLeapNotify td leapNotify).code
  | .precision => precision

variable {td : TimedeltaT} {precision : ℤ} {leapNotify : LeapNotify} {shm : ShmTime}

/-- `ntp_write` is an update of the protocol. -/
theorem ntpWriteStores_eq (td : TimedeltaT) (precision : ℤ) (leapNotify : LeapNotify) :
    ntpWriteStores td precision leapNotify
      = update (ntpRecord td precision leapNotify) ntpWriteOrder := rfl

/-- A segment after an update. -/
theorem ntpWrite_eq (shm : ShmTime) (td : TimedeltaT) (precision : ℤ) (leapNotify : LeapNotify) :
    ntpWrite shm td precision leapNotify
      = { shm with
          cell := ⟨true, shm.cell.count + 1 + 1, ntpRecord td precision leapNotify⟩ } := by
  rw [ntpWrite, ntpWriteStores_eq, foldl_update]
  rfl

section Nanoseconds

variable {nsec : ℤ}

theorem tmod_thousand (nsec : ℤ) :
    nsec = nsec.tdiv 1000 * 1000 + nsec.tmod 1000 ∧ -1000 < nsec.tmod 1000 ∧
      nsec.tmod 1000 < 1000 ∧ (0 ≤ nsec → 0 ≤ nsec.tmod 1000) ∧
      (nsec ≤ 0 → nsec.tmod 1000 ≤ 0) := by
  have hsplit := Int.mul_tdiv_add_tmod nsec 1000
  refine ⟨by linarith, Int.lt_tmod_of_pos nsec (by decide), Int.tmod_lt_of_pos nsec (by decide),
    fun h => Int.tmod_nonneg 1000 h, fun h => ?_⟩
  have hneg : 0 ≤ (-nsec).tmod 1000 := Int.tmod_nonneg 1000 (by omega)
  rw [Int.neg_tmod] at hneg
  omega

/-- The microseconds are stored and read as they are. -/
theorem toSigned_usec (hlower : -nsInSec < nsec) (hupper : nsec < nsInSec) :
    toSigned 32 (toSigned 32 (nsec.tdiv 1000) * 1000) = nsec.tdiv 1000 * 1000 := by
  obtain ⟨hsplit, hlo, hhi, -, -⟩ := tmod_thousand nsec
  simp only [nsInSec] at hlower hupper
  have husec : toSigned 32 (nsec.tdiv 1000) = nsec.tdiv 1000 :=
    toSigned_eq_self (by decide) (by omega) (by omega)
  rw [husec]
  exact toSigned_eq_self (by decide) (by omega) (by omega)

/-- The nanoseconds continue the microseconds where nothing negative was cut off. -/
theorem continues_iff (nsec : ℤ) :
    toUnsigned 32 (toUnsigned 32 nsec - toUnsigned 32 (nsec.tdiv 1000 * 1000)) < 1000 ↔
      0 ≤ nsec.tmod 1000 := by
  obtain ⟨hsplit, hlo, hhi, -, -⟩ := tmod_thousand nsec
  simp only [toUnsigned]
  norm_num
  omega

end Nanoseconds

/-- The times of a record. -/
theorem ntpTimes_ntpRecord (hreal : td.real.Normal) (hclock : td.clock.Normal) :
    ntpTimes (ntpRecord td precision leapNotify) =
      if 0 ≤ td.real.tvNsec.tmod 1000 ∧ 0 ≤ td.clock.tvNsec.tmod 1000 then
        (⟨td.real.tvSec, toUnsigned 32 td.real.tvNsec⟩,
          ⟨td.clock.tvSec, toUnsigned 32 td.clock.tvNsec⟩)
      else
        (⟨td.real.tvSec, td.real.tvNsec.tdiv 1000 * 1000⟩,
          ⟨td.clock.tvSec, td.clock.tvNsec.tdiv 1000 * 1000⟩) := by
  simp only [ntpTimes, ntpRecord, tsNorm_of_normal hreal, tsNorm_of_normal hclock,
    toSigned_usec hreal.lower hreal.upper, toSigned_usec hclock.lower hclock.upper, continues_iff]

/-- **Both times are read as they were put** exactly when neither has negative nanoseconds. -/
theorem ntpTimes_ntpRecord_iff (hreal : td.real.Normal) (hclock : td.clock.Normal) :
    ntpTimes (ntpRecord td precision leapNotify) = (td.real, td.clock) ↔
      0 ≤ td.real.tvNsec ∧ 0 ≤ td.clock.tvNsec := by
  obtain ⟨hrsplit, hrlo, hrhi, hrpos, hrneg⟩ := tmod_thousand td.real.tvNsec
  obtain ⟨hcsplit, hclo, hchi, hcpos, hcneg⟩ := tmod_thousand td.clock.tvNsec
  have hrlower := hreal.lower
  have hrupper := hreal.upper
  have hclower := hclock.lower
  have hcupper := hclock.upper
  rw [ntpTimes_ntpRecord hreal hclock]
  obtain ⟨⟨rSec, rNsec⟩, cSec, cNsec⟩ := td
  simp only [nsInSec] at *
  split_ifs with hcontinues
  · simp only [Prod.mk.injEq, Timespec.mk.injEq, true_and, toUnsigned]
    norm_num
    omega
  · simp only [Prod.mk.injEq, Timespec.mk.injEq, true_and]
    omega

/-- What the reader of a pair is told: the pair, the precision and the notice. -/
structure Delivered (td : TimedeltaT) (precision : ℤ) (leapNotify : LeapNotify)
    (stat : ShmStatT) : Prop where
  status : stat.status = .ok
  tvt : stat.tvt = td.real
  tvr : stat.tvr = td.clock
  precision : stat.precision = precision
  leap : stat.leap = (ntpLeapNotify td leapNotify).code

/-- **A record is decoded to the pair it was made from** exactly when neither time has negative
nanoseconds. -/
theorem delivered_ntpStat_iff {mode : ℤ} (hmode : mode = 0 ∨ mode = 1) (hreal : td.real.Normal)
    (hclock : td.clock.Normal) (stat : ShmStatT) :
    Delivered td precision leapNotify
        (ntpStat mode (ntpRecord td precision leapNotify) stat) ↔
      0 ≤ td.real.tvNsec ∧ 0 ≤ td.clock.tvNsec := by
  rw [← @ntpTimes_ntpRecord_iff td precision leapNotify hreal hclock]
  simp only [ntpStat, if_pos hmode]
  constructor
  · intro h
    exact Prod.ext h.tvt h.tvr
  · intro h
    exact
      { status := rfl, tvt := congrArg Prod.fst h, tvr := congrArg Prod.snd h
        precision := rfl, leap := rfl }

/-- The notice is passed on in June and in December. -/
theorem ntpLeapNotify_eq {t : Tm} (hvalid : t.Valid) (hsec : t.tmSec < 60)
    (htime : td.real.tvSec = posixTime t) (leapNotify : LeapNotify) :
    ntpLeapNotify td leapNotify
      = if t.tmMon = 5 ∨ t.tmMon = 11 then leapNotify else .noWarning := by
  simp only [ntpLeapNotify, htime, gmtimeR_posixTime hvalid hsec]
  split_ifs with hother hmonth hmonth <;> first | rfl | omega

/-- **Round trip.** What `ntp_read` delivers after `ntp_write`, in a segment of mode `0` or `1`
with any content, is the pair that was put, with its precision and its notice, exactly when both
times have nonnegative nanoseconds; and the segment can be read again unless it was consumed. -/
theorem ntpRead_ntpWrite_iff (hmode : shm.mode = 0 ∨ shm.mode = 1) (hreal : td.real.Normal)
    (hclock : td.clock.Normal) (stat : ShmStatT) (consume : Bool) :
    let result := ntpRead (some (ntpWrite shm td precision leapNotify)) stat consume
    (Delivered td precision leapNotify result.1 ↔
        0 ≤ td.real.tvNsec ∧ 0 ≤ td.clock.tvNsec) ∧
      ∃ shm', result.2 = some shm' ∧
        (ntpRead (some shm') stat true).1.status = if consume then .notReady else .ok := by
  rw [ntpWrite_eq]
  refine ⟨delivered_ntpStat_iff hmode hreal hclock _, _, rfl, ?_⟩
  cases consume
  · simp [ntpRead, ntpStat, hmode]
  · simp [ntpRead]

/-- A pair with a time just before the epoch. -/
def tdBefore : TimedeltaT := ⟨⟨-1, -5000⟩, ⟨2, 7000⟩⟩

theorem ntpRead_ntpWrite_iff_tdBefore :
    let result := ntpRead (some (ntpWrite ⟨1, 3, ⟨false, 0, fun _ => 0⟩⟩ tdBefore (-20)
      .noWarning)) ⟨.noSegment, ⟨0, 0⟩, ⟨0, 0⟩, ⟨0, 0⟩, 0, 0⟩ true
    (Delivered tdBefore (-20) .noWarning result.1 ↔
        0 ≤ tdBefore.real.tvNsec ∧ 0 ≤ tdBefore.clock.tvNsec) ∧
      ∃ shm', result.2 = some shm' ∧
        (ntpRead (some shm') ⟨.noSegment, ⟨0, 0⟩, ⟨0, 0⟩, ⟨0, 0⟩, 0, 0⟩ true).1.status
          = if true then .notReady else .ok :=
  ntpRead_ntpWrite_iff (.inr rfl) (by constructor <;> decide) (by constructor <;> decide)
    ⟨.noSegment, ⟨0, 0⟩, ⟨0, 0⟩, ⟨0, 0⟩, 0, 0⟩ true

end Oscillatord
