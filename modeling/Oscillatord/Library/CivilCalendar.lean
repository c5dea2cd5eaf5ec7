import Mathlib.Tactic.IntervalCases
import Mathlib.Tactic.Linarith
import Mathlib.Tactic.Ring

/-!
# The civil calendar by eras

The days of the Gregorian calendar are counted in eras of 400 years that begin on the first of
March, so that a day that is put in is the last one of its year. A day of an era determines its
year (`yearOfEra_eq`) and the day of that year, and this its month, numbered from March
(`monthOfYear_eq`).
-/

namespace CivilCalendar

/-- The days of an era before a year of it. -/
def daysBefore (year : ℤ) : ℤ := year * 365 + year / 4 - year / 100

/-- The year of a day of an era. -/
def yearOfEra (day : ℤ) : ℤ := (day - day / 1460 + day / 36524 - day / 146096) / 365

/-- The days of a year before a month. -/
def daysBeforeMarchMonth (month : ℤ) : ℤ := (153 * month + 2) / 5

/-- The month of a day of a year. -/
def monthOfYear (day : ℤ) : ℤ := (5 * day + 2) / 153

/-- The days of a month: the last one has the day that is put in, if there is one. -/
def daysOfMarchMonth (month : ℤ) : ℤ :=
  if month = 11 then 29 else daysBeforeMarchMonth (month + 1) - daysBeforeMarchMonth month

/-- The years of an era that have 366 days, the next one being a leap year. -/
def IsLong (year : ℤ) : Prop := (year + 1) % 4 = 0 ∧ ((year + 1) % 100 ≠ 0 ∨ (year + 1) % 400 = 0)

/-- A year by centuries, groups of four and what is left. -/
private theorem yearOfEra_of_parts {a b c d : ℤ} (ha : 0 ≤ a ∧ a < 4) (hb : 0 ≤ b ∧ b < 25)
    (hc : 0 ≤ c ∧ c < 4) (hd : 0 ≤ d ∧ d ≤ 365)
    (hlong : d = 365 → a = 3 ∧ (b ≠ 24 ∨ c = 3)) :
    yearOfEra (36524 * c + 1461 * b + 365 * a + d) = 100 * c + 4 * b + a := by
  have hfours : (36524 * c + 1461 * b + 365 * a + d) / 1460
      = 25 * c + b + (24 * c + b + 365 * a + d) / 1460 := by omega
  have hcenturies : (36524 * c + 1461 * b + 365 * a + d) / 36524
      = c + (1461 * b + 365 * a + d) / 36524 := by omega
  have hera : (36524 * c + 1461 * b + 365 * a + d) / 146096
      = (1461 * b + 365 * a + d) / 36524 := by omega
  -- the last day of a group of four years is counted once too often
  have hle : (24 * c + b + 365 * a + d) / 1460 ≤ d := by omega
  have hlast : d = 365 → (24 * c + b + 365 * a + d) / 1460 = 1 := by omega
  rw [yearOfEra, hfours, hcenturies, hera]
  omega

/-- **The year of a day.** -/
theorem yearOfEra_eq {year day : ℤ} (hyear : 0 ≤ year ∧ year < 400) (hday : 0 ≤ day ∧ day ≤ 365)
    (hlong : day = 365 → IsLong year) : yearOfEra (daysBefore year + day) = year := by
  have hlast : day = 365 → year % 4 = 3 ∧ (year % 100 / 4 ≠ 24 ∨ year / 100 = 3) := by
    intro heq
    obtain ⟨hfour, hcentury⟩ := hlong heq
    omega
  have hparts := yearOfEra_of_parts (a := year % 4) (b := year % 100 / 4) (c := year / 100)
    (by omega) (by omega) (by omega) hday hlast
  have hdays : 36524 * (year / 100) + 1461 * (year % 100 / 4) + 365 * (year % 4) + day
      = daysBefore year + day := by
    rw [daysBefore]
    omega
  rw [hdays] at hparts
  rw [hparts]
  omega

/-- **The month of a day.** -/
theorem monthOfYear_eq {month day : ℤ} (hmonth : 0 ≤ month ∧ month < 12)
    (hday : 0 ≤ day ∧ day < daysOfMarchMonth month) :
    monthOfYear (daysBeforeMarchMonth month + day) = month := by
  obtain ⟨hlo, hhi⟩ := hmonth
  simp only [monthOfYear, daysBeforeMarchMonth, daysOfMarchMonth] at hday ⊢
  interval_cases month <;> norm_num at hday ⊢ <;> omega

/-- A day of a year, and the one it is the last of. -/
theorem dayOfYear_bounds {month day : ℤ} (hmonth : 0 ≤ month ∧ month < 12)
    (hday : 0 ≤ day ∧ day < daysOfMarchMonth month) :
    0 ≤ daysBeforeMarchMonth month + day ∧ daysBeforeMarchMonth month + day ≤ 365 ∧
      (daysBeforeMarchMonth month + day = 365 → month = 11 ∧ day = 28) := by
  obtain ⟨hlo, hhi⟩ := hmonth
  simp only [daysBeforeMarchMonth, daysOfMarchMonth] at hday ⊢
  interval_cases month <;> norm_num at hday ⊢ <;> omega

/-- The days of an era are those of its years. -/
theorem day_lt_era {year day : ℤ} (hyear : 0 ≤ year ∧ year < 400) (hday : 0 ≤ day ∧ day ≤ 365) :
    0 ≤ daysBefore year + day ∧ daysBefore year + day < 146097 := by
  rw [daysBefore]
  omega

end CivilCalendar
