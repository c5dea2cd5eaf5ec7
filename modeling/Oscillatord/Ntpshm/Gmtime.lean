import Oscillatord.Gnss.UtcTime
import Oscillatord.Library.CivilCalendar

/-!
# `gmtime_r`

The broken-down time of an instant, which `ntp_write` asks for the month. It is the inverse of the
POSIX formula for the instant of a date and time (`gmtimeR_posixTime`).
-/

namespace Oscillatord

open CivilCalendar

/-- `gmtime_r`: days are counted in eras of 400 years that begin in March. -/
def gmtimeR (time : ℤ) : Tm :=
  let day := time / 86400 + 719468
  let second := time % 86400
  let era := day / 146097
  let year := yearOfEra (day % 146097)
  let dayOfYear := day % 146097 - daysBefore year
  let marchMonth := monthOfYear dayOfYear
  let mon := if marchMonth < 10 then marchMonth + 2 else marchMonth - 10
  { tmYear := era * 400 + year - 1900 + if mon < 2 then 1 else 0
    tmMon := mon
    tmMday := dayOfYear - daysBeforeMarchMonth marchMonth + 1
    tmHour := second / 3600
    tmMin := second % 3600 / 60
    tmSec := second % 60
    tmIsdst := 0 }

section

variable {t : Tm}

/-- The month counted from March. -/
def marchMonthOf (t : Tm) : ℤ := if t.tmMon < 2 then t.tmMon + 10 else t.tmMon - 2

/-- The year that begins in March. -/
def marchYearOf (t : Tm) : ℤ := t.tmYear + 1900 - if t.tmMon < 2 then 1 else 0

theorem mday_lt (h : t.Valid) :
    t.tmMday - 1 < daysOfMarchMonth (marchMonthOf t) ∧
      (marchMonthOf t = 11 → t.tmMday - 1 = 28 → IsLong (marchYearOf t % 400)) := by
  obtain ⟨tmYear, tmMon, tmMday, _, _, _, _⟩ := t
  obtain ⟨⟨hyear, -⟩, ⟨hlo, hhi⟩, ⟨-, hmday⟩, -, -, -⟩ := h
  dsimp only at hyear hlo hhi hmday
  have hleap : tmMon = 1 → tmMday = 29 → isLeapYear (tmYear + 1900).toNat = true := by
    rintro rfl rfl
    by_contra hcommon
    simp [daysInMonth, hcommon] at hmday
  constructor
  · rcases hleapYear : isLeapYear (tmYear + 1900).toNat <;>
      interval_cases tmMon <;>
      simp [daysInMonth, hleapYear, marchMonthOf, daysOfMarchMonth, daysBeforeMarchMonth]
        at hmday ⊢ <;> omega
  · intro hmonth hday
    have hmon : tmMon = 1 := by
      simp only [marchMonthOf] at hmonth
      split_ifs at hmonth <;> omega
    have hlong := hleap hmon (by dsimp only at hday; omega)
    simp only [isLeapYear, Bool.and_eq_true, Bool.or_eq_true, decide_eq_true_eq] at hlong
    subst hmon
    simp only [IsLong, marchYearOf]
    norm_num
    omega

/-- **The broken-down time of the instant of a date and time** is that date and time. -/
theorem gmtimeR_posixTime (h : t.Valid) (hsec : t.tmSec < 60) :
    gmtimeR (posixTime t) = { t with tmIsdst := 0 } := by
  obtain ⟨hmday, hlong⟩ := mday_lt h
  have hmonth : 0 ≤ marchMonthOf t ∧ marchMonthOf t < 12 := by
    have hlo := h.mon.1
    have hhi := h.mon.2
    rw [marchMonthOf]
    split_ifs <;> omega
  have hmday0 : 0 ≤ t.tmMday - 1 := Int.sub_nonneg_of_le h.mday.1
  have hyear : 0 ≤ marchYearOf t % 400 ∧ marchYearOf t % 400 < 400 :=
    ⟨Int.emod_nonneg _ (by decide), Int.emod_lt_of_pos _ (by decide)⟩
  obtain ⟨hnonneg, hle, hlast⟩ := dayOfYear_bounds hmonth ⟨hmday0, hmday⟩
  set dayOfYear := daysBeforeMarchMonth (marchMonthOf t) + (t.tmMday - 1) with hdayOfYear
  obtain ⟨hera, hera'⟩ := day_lt_era hyear ⟨hnonneg, hle⟩
  -- the count of days by eras
  have htime : posixTime t = (marchYearOf t / 400 * 146097
      + (daysBefore (marchYearOf t % 400) + dayOfYear) - 719468) * 86400
      + (t.tmHour * 3600 + t.tmMin * 60 + t.tmSec) := by
    rw [← utcSeconds_eq_posixTime h.mon.1 h.mon.2]
    simp only [utcSeconds, hdayOfYear, marchYearOf, marchMonthOf, daysBefore, daysBeforeMarchMonth]
    by_cases hmarch : t.tmMon < 2
    · simp only [hmarch, if_pos (show t.tmMon + 1 ≤ 2 by omega),
        if_neg (show ¬ 2 < t.tmMon + 1 by omega), if_true]
      omega
    · simp only [hmarch, if_neg (show ¬ t.tmMon + 1 ≤ 2 by omega),
        if_pos (show 2 < t.tmMon + 1 by omega), if_false]
      omega
  have hhour := h.hour
  have hmin := h.min
  have hsecond := h.sec
  have hday : posixTime t / 86400 + 719468 = marchYearOf t / 400 * 146097
      + (daysBefore (marchYearOf t % 400) + dayOfYear) := by omega
  have hsecondOfDay : posixTime t % 86400 = t.tmHour * 3600 + t.tmMin * 60 + t.tmSec := by omega
  have heraOf : (posixTime t / 86400 + 719468) / 146097 = marchYearOf t / 400 := by omega
  have hdayOf : (posixTime t / 86400 + 719468) % 146097
      = daysBefore (marchYearOf t % 400) + dayOfYear := by omega
  have hyearOf := yearOfEra_eq hyear ⟨hnonneg, hle⟩ fun heq =>
    hlong (hlast heq).1 (hlast heq).2
  have hmonthOf : monthOfYear dayOfYear = marchMonthOf t := monthOfYear_eq hmonth ⟨hmday0, hmday⟩
  simp only [gmtimeR, heraOf, hdayOf, hsecondOfDay, hyearOf, add_sub_cancel_left, hmonthOf,
    Tm.mk.injEq]
  have hmon : (if marchMonthOf t < 10 then marchMonthOf t + 2 else marchMonthOf t - 10)
      = t.tmMon := by
    have hlo := h.mon.1
    have hhi := h.mon.2
    simp only [marchMonthOf]
    split_ifs <;> omega
  rw [hmon]
  refine ⟨?_, rfl, by rw [hdayOfYear]; ring, by omega, by omega, by omega, trivial⟩
  rw [marchYearOf]
  split_ifs <;> omega

end

end Oscillatord
