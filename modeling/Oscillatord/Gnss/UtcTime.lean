import Oscillatord.Gnss.TaiConversion
import Mathlib.Tactic.IntervalCases

/-!
# The UTC time of a fix

`gnss_get_utc_time` has the C library read a UTC date and time as local time, and adds the offset
in force at the instant it is given. Of the library it is assumed what POSIX says of `mktime` with
`tm_isdst = -1` (`PosixHost`): a date and time that exists in local time is converted to an
instant with that local time, one of two where it is repeated. Of one that a change of the offset
skips, nothing is assumed.

The result is the POSIX time of the UTC date and time exactly when that date and time exists in
local time on the host (`utcTimeLaw_iff`). A repeated hour does no harm: either instant brings its
own offset.
-/

namespace Oscillatord

/-! ### POSIX time -/

/-- A year, as `tm_year` counts it, with a 29th of February. -/
def isLeapTmYear (tmYear : ℤ) : Prop :=
  (tmYear + 1900) % 4 = 0 ∧ ((tmYear + 1900) % 100 ≠ 0 ∨ (tmYear + 1900) % 400 = 0)

instance (tmYear : ℤ) : Decidable (isLeapTmYear tmYear) := inferInstanceAs (Decidable (_ ∧ _))

/-- The days of the year before a month, in a common year. -/
def daysBeforeMonth (tmMon : ℤ) : ℤ :=
  [0, 31, 59, 90, 120, 151, 181, 212, 243, 273, 304, 334].getD tmMon.toNat 0

/-- `tm_yday`. -/
def tmYday (t : Tm) : ℤ :=
  daysBeforeMonth t.tmMon + t.tmMday - 1 + if isLeapTmYear t.tmYear ∧ 2 ≤ t.tmMon then 1 else 0

/-- Seconds since the epoch of a UTC date and time, by the formula of POSIX. -/
def posixTime (t : Tm) : ℤ :=
  t.tmSec + t.tmMin * 60 + t.tmHour * 3600 + tmYday t * 86400 + (t.tmYear - 70) * 31536000
    + (t.tmYear - 69) / 4 * 86400 - (t.tmYear - 1) / 100 * 86400
    + (t.tmYear + 299) / 400 * 86400

/-- The days of so many Gregorian years, from the first of March of the year 0. -/
def daysOfYears (years : ℤ) : ℤ := years * 365 + years / 4 - years / 100 + years / 400

theorem daysOfYears_of_eras (years : ℤ) :
    years / 400 * 146097 + ((years - years / 400 * 400) * 365 + (years - years / 400 * 400) / 4
      - (years - years / 400 * 400) / 100) = daysOfYears years := by
  rw [daysOfYears]
  omega

theorem daysOfYears_succ (tmYear : ℤ) :
    daysOfYears (tmYear + 1900) =
      daysOfYears (tmYear + 1899) + 365 + if isLeapTmYear tmYear then 1 else 0 := by
  simp only [daysOfYears, isLeapTmYear]
  split_ifs <;> omega

theorem posixDays_eq (tmYear : ℤ) :
    (tmYear - 70) * 365 + (tmYear - 69) / 4 - (tmYear - 1) / 100 + (tmYear + 299) / 400 =
      daysOfYears (tmYear + 1899) - 719162 := by
  rw [daysOfYears]
  omega

/-- The days of a year that begins in March, before a month of one that begins in January. -/
theorem marchDays_eq {tmMon : ℤ} (hlo : 0 ≤ tmMon) (hhi : tmMon < 12) :
    (153 * (tmMon + 1 + if 2 < tmMon + 1 then -3 else 9) + 2) / 5 =
      daysBeforeMonth tmMon + if 2 ≤ tmMon then -59 else 306 := by
  interval_cases tmMon <;> decide

/-- The count of days in eras and the formula of POSIX agree. -/
theorem utcSeconds_eq_posixTime {t : Tm} (hlo : 0 ≤ t.tmMon) (hhi : t.tmMon < 12) :
    utcSeconds t = posixTime t := by
  have hposix := posixDays_eq t.tmYear
  simp only [utcSeconds, posixTime, tmYday, marchDays_eq hlo hhi]
  by_cases hmarch : 2 ≤ t.tmMon
  · have heras := daysOfYears_of_eras (t.tmYear + 1900)
    have hleap := daysOfYears_succ t.tmYear
    simp only [hmarch, and_true, if_true, if_neg (show ¬ t.tmMon + 1 ≤ 2 by omega), sub_zero]
    omega
  · have heras := daysOfYears_of_eras (t.tmYear + 1899)
    simp only [hmarch, and_false, if_false, if_pos (show t.tmMon + 1 ≤ 2 by omega),
      show t.tmYear + 1900 - 1 = t.tmYear + 1899 by ring]
    omega

/-! ### Epochs -/

/-- The fields of a date and time, with a second that may have been rounded up to 60. -/
structure Tm.Valid (t : Tm) : Prop where
  year : 80 ≤ t.tmYear ∧ t.tmYear ≤ 199
  mon : 0 ≤ t.tmMon ∧ t.tmMon < 12
  mday : 1 ≤ t.tmMday ∧ t.tmMday ≤ daysInMonth (t.tmYear + 1900).toNat (t.tmMon + 1).toNat
  hour : 0 ≤ t.tmHour ∧ t.tmHour < 24
  min : 0 ≤ t.tmMin ∧ t.tmMin < 60
  sec : 0 ≤ t.tmSec ∧ t.tmSec ≤ 60

/-- The `struct tm` of `gnss_get_utc_time`, with this second. -/
def EpochT.tm (epoch : EpochT) (tmSec : ℤ) : Tm :=
  { tmYear := epoch.year - 1900
    tmMon := epoch.month - 1
    tmMday := epoch.day
    tmHour := epoch.hour
    tmMin := epoch.minute
    tmSec := tmSec
    tmIsdst := -1 }

/-- An epoch with a UTC date and time of the years 1980 to 2099. -/
structure EpochT.ValidUtc (epoch : EpochT) : Prop where
  date : (epoch.tm 0).Valid
  second : 0 ≤ epoch.second ∧ epoch.second < 60

/-- The `struct tm` handed to `mktime`. -/
def EpochT.utcTm (epoch : EpochT) : Tm := epoch.tm (CNumber.round epoch.second)

/-- The instant of an epoch, the fraction of the second included. -/
def EpochT.instant (epoch : EpochT) : ℚ := posixTime (epoch.tm 0) + epoch.second

/-- The POSIX time of an epoch is the second nearest to its instant. -/
theorem posixTime_utcTm {epoch : EpochT} (hvalid : epoch.ValidUtc) :
    posixTime epoch.utcTm = ⌊epoch.instant + 1 / 2⌋ := by
  have hround : CNumber.round epoch.second = ⌊epoch.second + 1 / 2⌋ :=
    if_pos hvalid.second.1
  have hsec : posixTime epoch.utcTm = posixTime (epoch.tm 0) + CNumber.round epoch.second := by
    have hyday : tmYday epoch.utcTm = tmYday (epoch.tm 0) := rfl
    rw [posixTime, posixTime, hyday]
    simp only [EpochT.utcTm, EpochT.tm]
    ring
  rw [hsec, hround, EpochT.instant, add_assoc, Int.floor_intCast_add]

theorem EpochT.ValidUtc.utcTm {epoch : EpochT} (hvalid : epoch.ValidUtc) : epoch.utcTm.Valid := by
  have hround : CNumber.round epoch.second = ⌊epoch.second + 1 / 2⌋ :=
    if_pos hvalid.second.1
  have hlo : 0 ≤ ⌊epoch.second + 1 / 2⌋ := Int.floor_nonneg.mpr (by linarith [hvalid.second.1])
  have hhi : ⌊epoch.second + 1 / 2⌋ < 61 :=
    Int.floor_lt.mpr (by push_cast; linarith [hvalid.second.2])
  exact
    { year := hvalid.date.year, mon := hvalid.date.mon, mday := hvalid.date.mday
      hour := hvalid.date.hour, min := hvalid.date.min
      sec := by simp only [EpochT.utcTm, EpochT.tm, hround]; omega }

/-! ### The host -/

/-- The date and time exists in the local time of the host: some instant has it. -/
def Host.Reads (host : Host) (t : Tm) : Prop := ∃ time, time + host.gmtoff time = posixTime t

/-- `mktime` and `localtime` of POSIX: a date and time that exists in local time is converted to
an instant that has it. -/
def PosixHost (host : Host) : Prop :=
  ∀ t : Tm, t.Valid → t.tmIsdst = -1 → host.Reads t →
    host.mktime t + host.gmtoff (host.mktime t) = posixTime t

/-- What `ntp_latch` hands to the thread of the pulses. -/
def ntpLatch (session : GpsDeviceT) : Option Timespec :=
  if 0 < session.lastFixUtcTime.tvSec then some session.lastFixUtcTime else none

/-- **The law of the UTC time**: the result is the POSIX time of the UTC date and time, so the
time of the last fix increases with the epochs, and the thread of the pulses is given the same
one on every host. -/
structure UtcTimeLaw (host : Host) (epoch : EpochT) : Prop where
  posix : gnssGetUtcTime host epoch = posixTime epoch.utcTm
  monotone : ∀ later : EpochT, later.ValidUtc → host.Reads later.utcTm →
    epoch.instant ≤ later.instant → gnssGetUtcTime host epoch ≤ gnssGetUtcTime host later
  increases : ∀ later : EpochT, later.ValidUtc → host.Reads later.utcTm →
    epoch.instant + 1 ≤ later.instant → gnssGetUtcTime host epoch < gnssGetUtcTime host later
  latch : ∀ (session : GpsDeviceT) (other : Host), PosixHost other → other.Reads epoch.utcTm →
    ntpLatch (gnssThreadEpoch other session epoch).1
      = ntpLatch (gnssThreadEpoch host session epoch).1

/-- Where the date and time exists in local time, it is recovered. -/
theorem gnssGetUtcTime_of_reads {host : Host} (hposix : PosixHost host) {epoch : EpochT}
    (hvalid : epoch.ValidUtc) (hreads : host.Reads epoch.utcTm) :
    gnssGetUtcTime host epoch = posixTime epoch.utcTm :=
  hposix epoch.utcTm hvalid.utcTm rfl hreads

/-- The session after an epoch depends on the host through the time of the fix alone. -/
theorem gnssThreadEpoch_congr {host other : Host} {epoch : EpochT}
    (h : gnssGetUtcTime other epoch = gnssGetUtcTime host epoch) (session : GpsDeviceT) :
    gnssThreadEpoch other session epoch = gnssThreadEpoch host session epoch := by
  simp only [gnssThreadEpoch, h]

/-- Such values are those of the instants, rounded to the nearest second. -/
theorem utcTimeLaw_of_reads {host : Host} (hposix : PosixHost host) {epoch : EpochT}
    (hvalid : epoch.ValidUtc) (hreads : host.Reads epoch.utcTm) : UtcTimeLaw host epoch := by
  have hvalue := gnssGetUtcTime_of_reads hposix hvalid hreads
  have hnearest := hvalue.trans (posixTime_utcTm hvalid)
  refine { posix := hvalue, monotone := ?_, increases := ?_, latch := ?_ }
  · intro later hlater hreads' hle
    rw [hnearest, gnssGetUtcTime_of_reads hposix hlater hreads', posixTime_utcTm hlater]
    exact Int.floor_le_floor (by linarith)
  · intro later hlater hreads' hle
    rw [hnearest, gnssGetUtcTime_of_reads hposix hlater hreads', posixTime_utcTm hlater,
      ← Int.add_one_le_iff, ← Int.floor_add_one]
    exact Int.floor_le_floor (by linarith)
  · intro session other hother hreads'
    have hsame : gnssGetUtcTime other epoch = gnssGetUtcTime host epoch := by
      rw [gnssGetUtcTime_of_reads hother hvalid hreads', hvalue]
    rw [gnssThreadEpoch_congr hsame]

/-- **UTC time of a fix.** On every host and for every valid UTC date and time, the law holds
exactly when that date and time, read as local time, is not skipped by a change of the offset. -/
theorem utcTimeLaw_iff {host : Host} (hposix : PosixHost host) {epoch : EpochT}
    (hvalid : epoch.ValidUtc) : UtcTimeLaw host epoch ↔ host.Reads epoch.utcTm := by
  constructor
  · intro h
    -- The result is a local time of the host, so it can only be right for one that exists.
    exact ⟨host.mktime epoch.utcTm, h.posix⟩
  · intro hreads
    exact utcTimeLaw_of_reads hposix hvalid hreads

/-! ### A host in UTC -/

/-- Every date and time exists in UTC. -/
theorem reads_hostUtc (t : Tm) : hostUtc.Reads t := ⟨posixTime t, add_zero _⟩

theorem posixHost_hostUtc : PosixHost hostUtc := by
  intro t hvalid _ _
  exact (add_zero _).trans (utcSeconds_eq_posixTime hvalid.mon.1 hvalid.mon.2)

/-! ### A host with summer time -/

/-- The offset of central European time in 2024. -/
def centralGmtoff (time : ℤ) : ℤ :=
  if 1711846800 ≤ time ∧ time < 1729990800 then 7200 else 3600

/-- A host with this offset: summer time where it fits, winter time otherwise, so that a skipped
local time is moved forward by an hour. -/
def hostCentral : Host :=
  { gmtoff := centralGmtoff
    mktime := fun t =>
      let summer := posixTime t - 7200
      if 1711846800 ≤ summer ∧ summer < 1729990800 then summer else posixTime t - 3600 }

theorem posixHost_hostCentral : PosixHost hostCentral := by
  rintro t - - ⟨time, htime⟩
  simp only [hostCentral, centralGmtoff] at htime ⊢
  split_ifs at htime ⊢ <;> omega

/-- 2024-03-31 02:30:00 UTC, a time central Europe skips. -/
def epochSkipped : EpochT :=
  { epochFixed with month := 3, day := 31, hour := 2, minute := 30 }

/-- An hour too much. -/
theorem utcTimeLaw_fails_skipped : ¬ UtcTimeLaw hostCentral epochSkipped := by
  intro h
  exact absurd h.posix (by decide +kernel)

/-- An hour later all is well. -/
theorem utcTimeLaw_central : UtcTimeLaw hostCentral { epochSkipped with hour := 3 } :=
  (utcTimeLaw_iff posixHost_hostCentral
    { date :=
        { year := by decide, mon := by decide, mday := by decide, hour := by decide
          min := by decide, sec := by decide }
      second := by decide +kernel }).mpr ⟨1711848600, by decide +kernel⟩

end Oscillatord
