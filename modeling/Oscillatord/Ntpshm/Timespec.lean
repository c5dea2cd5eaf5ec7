import Oscillatord.Gnss.Session

/-!
# The arithmetic of `timespec.h`

A time of the NTP service is normalised when its nanoseconds are below a second and have the sign
of its seconds (`Timespec.Normal`): unlike the representation of the kernel, a negative time has
negative nanoseconds. `TS_NORM` borrows or carries one second, once. That is enough for every sum
and every difference of two normalised times (`tsNorm_add`, `tsSub_spec`).
-/

namespace Oscillatord

/-! ### The macros -/

/-- `NS_IN_SEC`. -/
def nsInSec : ℤ := 1000000000

/-- `TS_NORM`. -/
def tsNorm (ts : Timespec) : Timespec :=
  if 1 ≤ ts.tvSec ∨ (0 = ts.tvSec ∧ 0 ≤ ts.tvNsec) then
    -- the result is positive
    if nsInSec ≤ ts.tvNsec then { tvSec := ts.tvSec + 1, tvNsec := ts.tvNsec - nsInSec }
    else if 0 > ts.tvNsec then { tvSec := ts.tvSec - 1, tvNsec := ts.tvNsec + nsInSec }
    else ts
  else
    -- the result is negative
    if -nsInSec ≥ ts.tvNsec then { tvSec := ts.tvSec - 1, tvNsec := ts.tvNsec + nsInSec }
    else if 0 < ts.tvNsec then { tvSec := ts.tvSec + 1, tvNsec := ts.tvNsec - nsInSec }
    else ts

/-- `timespec_diff_ns`. -/
def timespecDiffNs (x y : Timespec) : ℤ := (x.tvSec - y.tvSec) * nsInSec + x.tvNsec - y.tvNsec

/-- `TS_SUB`. -/
def tsSub (ts1 ts2 : Timespec) : Timespec :=
  tsNorm { tvSec := ts1.tvSec - ts2.tvSec, tvNsec := ts1.tvNsec - ts2.tvNsec }

/-! ### Normalised times -/

/-- The nanoseconds of a time. -/
def Timespec.toNs (ts : Timespec) : ℤ := ts.tvSec * nsInSec + ts.tvNsec

/-- The nanoseconds are below a second and have the sign of the seconds. -/
structure Timespec.Normal (ts : Timespec) : Prop where
  lower : -nsInSec < ts.tvNsec
  upper : ts.tvNsec < nsInSec
  pos : 0 < ts.tvSec → 0 ≤ ts.tvNsec
  neg : ts.tvSec < 0 → ts.tvNsec ≤ 0

variable {a b ts : Timespec}

theorem Timespec.normal_zero : Timespec.Normal ⟨0, 0⟩ := by
  constructor <;> decide

/-- A second is borrowed or carried without a change of the value. -/
@[simp] theorem toNs_tsNorm (ts : Timespec) : (tsNorm ts).toNs = ts.toNs := by
  rw [tsNorm]
  split_ifs <;> simp only [Timespec.toNs] <;> ring

theorem tsNorm_of_normal (h : ts.Normal) : tsNorm ts = ts := by
  obtain ⟨hlower, hupper, hpos, hneg⟩ := h
  rw [tsNorm]
  split_ifs with hsign hcarry hborrow hcarry hborrow
  · omega
  · omega
  · rfl
  · omega
  · omega
  · rfl

/-- **One carry is enough** where the nanoseconds are below two seconds, and below one second where
a second was lost or gained against the sign. -/
theorem normal_tsNorm (hlower : -2 * nsInSec < ts.tvNsec) (hupper : ts.tvNsec < 2 * nsInSec)
    (hpos : 0 < ts.tvSec → -nsInSec < ts.tvNsec) (hneg : ts.tvSec < 0 → ts.tvNsec < nsInSec) :
    (tsNorm ts).Normal := by
  simp only [nsInSec] at *
  rw [tsNorm]
  split_ifs with hsign hcarry hborrow hcarry hborrow <;> constructor <;>
    simp only [nsInSec] at * <;> omega

/-- **Sums.** -/
theorem tsNorm_add (ha : a.Normal) (hb : b.Normal) :
    (tsNorm ⟨a.tvSec + b.tvSec, a.tvNsec + b.tvNsec⟩).Normal ∧
      (tsNorm ⟨a.tvSec + b.tvSec, a.tvNsec + b.tvNsec⟩).toNs = a.toNs + b.toNs := by
  obtain ⟨halower, haupper, hapos, haneg⟩ := ha
  obtain ⟨hblower, hbupper, hbpos, hbneg⟩ := hb
  refine ⟨normal_tsNorm ?_ ?_ ?_ ?_, ?_⟩
  · dsimp only
    omega
  · dsimp only
    omega
  · dsimp only
    intro hsum
    omega
  · dsimp only
    intro hsum
    omega
  · rw [toNs_tsNorm]
    simp only [Timespec.toNs]
    ring

theorem Timespec.Normal.opposite (h : ts.Normal) : Timespec.Normal ⟨-ts.tvSec, -ts.tvNsec⟩ := by
  obtain ⟨hlower, hupper, hpos, hneg⟩ := h
  constructor <;> dsimp only <;> omega

/-- **Differences.** -/
theorem tsSub_spec (ha : a.Normal) (hb : b.Normal) :
    (tsSub a b).Normal ∧ (tsSub a b).toNs = a.toNs - b.toNs := by
  have hsum := tsNorm_add ha hb.opposite
  have hopposite : Timespec.toNs ⟨-b.tvSec, -b.tvNsec⟩ = -b.toNs := by
    simp only [Timespec.toNs]
    ring
  rw [hopposite] at hsum
  exact hsum

theorem timespecDiffNs_eq (x y : Timespec) : timespecDiffNs x y = x.toNs - y.toNs := by
  simp only [timespecDiffNs, Timespec.toNs]
  ring

end Oscillatord
