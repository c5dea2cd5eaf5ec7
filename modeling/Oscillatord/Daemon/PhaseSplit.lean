import Oscillatord.Daemon.PhaseSign
import Oscillatord.Library.SignedArith

/-!
# Phase offsets in machine arithmetic

`applyPhaseOffset` and `fillInput` split a number of nanoseconds into seconds and nanoseconds on
the integers. Here the same expressions are written with the operations C evaluates them with: a
`long` of 64 bits divided and reduced with truncation, the quotient converted to `double` for
`floor` and back to `long long`, the remainder converted to `double` for the comparison with
`0.0`. An operation that overflows has no result.

Three copies of the split are in the source: the two halves of `struct timex` in
`apply_phase_offset`, the same text in the PTP device test, and the plain quotient and remainder
the main loop gives to `od_process`.
-/

namespace Oscillatord

open CNumber

variable {D : Type}

/-! ### The split -/

/-- `time.tv_sec` and `time.tv_usec` of an `ADJ_SETOFFSET`, from an offset that is an `int64_t`. -/
def setOffsetTimex (offset : ℤ) : Option Timex := do
  let quotient ← divS 64 offset nsInSecond
  let remainder ← remS 64 offset nsInSecond
  let seconds ← ofDouble 64 (⌊toDouble quotient⌋ : ℤ)
  if 0 < offset ∨ toDouble remainder = 0 then
    return { tvSec := seconds, tvUsec := remainder }
  else
    return { tvSec := ← subS 64 seconds 1, tvUsec := ← addS 64 remainder nsInSecond }

/-- The `struct timex` of `apply_phase_offset`. -/
def applyPhaseOffsetTimex (phaseError : Int64) : Option Timex := setOffsetTimex phaseError.toInt

/-- The `struct timex` of `test_ptp_adjtime`. -/
def testPtpAdjtimeTimex (adjustNs : Int64) : Option Timex := setOffsetTimex adjustNs.toInt

/-- `input.phase_error` of the main loop: the product is computed before the division and before
the remainder. -/
def inputPhaseError (sign phaseError : ℤ) : Option Timespec := do
  let signed ← mulS 64 sign phaseError
  return { tvSec := ← divS 64 signed nsInSecond, tvNsec := ← remS 64 signed nsInSecond }

/-! ### Exactness -/

theorem inSigned_int64 (x : Int64) : InSigned 64 x.toInt :=
  ⟨x.le_toInt, x.toInt_lt⟩

/-- The quotient has 34 bits, the remainder 30: both are held by a `double`. -/
private theorem abs_split_lt {x : ℤ} (hx : InSigned 64 x) :
    |x.tdiv nsInSecond| < 2 ^ 53 ∧ |x.tmod nsInSecond| < 2 ^ 53 := by
  obtain ⟨hlo, hhi⟩ := hx
  have hsplit := Int.mul_tdiv_add_tmod x nsInSecond
  have hrem : |x.tmod nsInSecond| < nsInSecond := by
    rw [← Int.natCast_natAbs, Int.natAbs_tmod]
    exact Int.ofNat_lt.mpr (Nat.mod_lt _ (by decide))
  simp only [nsInSecond] at hsplit hrem ⊢
  obtain ⟨hlow, hhigh⟩ := abs_lt.mp hrem
  exact ⟨abs_lt.mpr ⟨by omega, by omega⟩, hrem.trans (by decide)⟩

/-- **The floating-point detour is exact**: on every `int64_t` the expressions of the source give
the split of the integers, and no operation overflows. -/
theorem setOffsetTimex_eq {offset : ℤ} (hoffset : InSigned 64 offset) :
    setOffsetTimex offset = some (applyPhaseOffset offset) := by
  obtain ⟨hquot, hrem⟩ := abs_split_lt hoffset
  have hns : 1 < nsInSecond := by decide
  have hfloor := ofDouble_floor_toDouble (hoffset.tdiv hns) hquot
  have hzero : toDouble (offset.tmod nsInSecond) = 0 ↔ offset.tmod nsInSecond = 0 := by
    rw [toDouble_eq hrem, Int.cast_eq_zero]
  simp only [setOffsetTimex, divS_eq hoffset hns, remS_eq hoffset hns, Option.bind_eq_bind,
    Option.bind_some, hfloor, hzero, applyPhaseOffset]
  split_ifs with hsign
  · rfl
  · obtain ⟨hqlo, hqhi⟩ := abs_lt.mp hquot
    obtain ⟨hrlo, hrhi⟩ := abs_lt.mp hrem
    have hsub : InSigned 64 (offset.tdiv nsInSecond - 1) := ⟨by omega, by omega⟩
    have hadd : InSigned 64 (offset.tmod nsInSecond + nsInSecond) := by
      simp only [InSigned, nsInSecond] at hrlo hrhi ⊢
      omega
    simp [subS, addS, hsub, hadd]

/-- The nanoseconds are those of a floor division. -/
theorem tvUsec_applyPhaseOffset (offset : ℤ) :
    0 ≤ (applyPhaseOffset offset).tvUsec ∧ (applyPhaseOffset offset).tvUsec < nsInSecond := by
  have hlt : offset.tmod nsInSecond < nsInSecond := Int.tmod_lt_of_pos _ (by decide)
  have hgt : -nsInSecond < offset.tmod nsInSecond := Int.lt_tmod_of_pos _ (by decide)
  rw [applyPhaseOffset]
  split_ifs with hsign
  · refine ⟨?_, hlt⟩
    rcases hsign with hpos | hzero
    · exact Int.tmod_nonneg _ hpos.le
    · exact hzero.ge
  · -- A negative remainder is moved up by one second.
    obtain ⟨hnonpos, hnonzero⟩ := not_or.mp hsign
    have hneg : offset.tmod nsInSecond ≤ 0 := by
      have hge := Int.tmod_nonneg (a := -offset) nsInSecond (by omega)
      rw [Int.neg_tmod] at hge
      omega
    simp only
    omega

/-- The pair of the main loop, for every phase error an `int32_t` holds. -/
theorem inputPhaseError_eq (oppositePhaseError : Bool) (phaseError : Int32) :
    inputPhaseError (discipliningSign oppositePhaseError) phaseError.toInt
      = some ⟨(discipliningSign oppositePhaseError * phaseError.toInt).tdiv nsInSecond,
          (discipliningSign oppositePhaseError * phaseError.toInt).tmod nsInSecond⟩ := by
  have hlo := phaseError.le_toInt
  have hhi := phaseError.toInt_lt
  have hns : 1 < nsInSecond := by decide
  have hsigned : InSigned 64 (discipliningSign oppositePhaseError * phaseError.toInt) := by
    cases oppositePhaseError
    · exact ⟨by simp [discipliningSign]; omega, by simp [discipliningSign]; omega⟩
    · exact ⟨by simp [discipliningSign]; omega, by simp [discipliningSign]; omega⟩
  simp [inputPhaseError, mulS, hsigned, divS_eq hsigned hns, remS_eq hsigned hns]

/-- The input of the algorithm carries the phase of this iteration. -/
theorem phaseError_of_processed {cfg : MainConfig} {env : MainEnv D} {st : MainState D}
    {request : MonitoringRequest} {effect : MainEffect D} {input : OdInput}
    (hmem : effect ∈ (mainIteration cfg env st request).effects)
    (hinput : effect.processed = some input) :
    input.phaseError
      = ⟨(cfg.sign * env.phasemeter.phaseError).tdiv nsInSecond,
          (cfg.sign * env.phasemeter.phaseError).tmod nsInSecond⟩ := by
  obtain ⟨-, st', hacquire, rfl⟩ := acquire_of_processed hmem hinput
  obtain ⟨-, -, epoch, oscAttr, -, hattributes, rfl⟩ := acquire_eq_proceed_iff.mp hacquire
  have hphase := phaseError_parseAttributes hattributes
  simp only [acquired, fillInput, hphase]

/-- **Phase offsets are split exactly.** For every `int64_t` offset the expressions of
`apply_phase_offset` are computed without overflow, give nanoseconds in `[0, 1000000000)` and sum
up to the offset, and those of the PTP device test give the same pair; and for every phase error
and both signs, the pair given to `od_process` is computed without overflow and sums up to the
signed phase error. -/
theorem phaseOffset_split_exact :
    (∀ offset : Int64, ∃ timex, applyPhaseOffsetTimex offset = some timex ∧
      0 ≤ timex.tvUsec ∧ timex.tvUsec < 1000000000 ∧
      timex.tvSec * 1000000000 + timex.tvUsec = offset.toInt ∧
      testPtpAdjtimeTimex offset = some timex) ∧
    ∀ (cfg : MainConfig) (env : MainEnv D) (st : MainState D) (request : MonitoringRequest)
      (oppositePhaseError : Bool) (status : PhasemeterStatus) (phaseError : Int32)
      (effect : MainEffect D) (input : OdInput),
      effect ∈ (mainIteration { cfg with sign := discipliningSign oppositePhaseError }
        { env with phasemeter := ⟨status, phaseError.toInt⟩ } st request).effects →
      effect.processed = some input →
      inputPhaseError (discipliningSign oppositePhaseError) phaseError.toInt
          = some input.phaseError ∧
        input.phaseError.tvSec * 1000000000 + input.phaseError.tvNsec
          = discipliningSign oppositePhaseError * phaseError.toInt := by
  refine ⟨fun offset => ?_, ?_⟩
  · have hsplit := setOffsetTimex_eq (inSigned_int64 offset)
    obtain ⟨hlo, hhi⟩ := tvUsec_applyPhaseOffset offset.toInt
    exact ⟨applyPhaseOffset offset.toInt, hsplit, hlo, hhi,
      offset_applyPhaseOffset offset.toInt, hsplit⟩
  · intro cfg env st request oppositePhaseError status phaseError effect input hmem hinput
    have hphase := phaseError_of_processed hmem hinput
    have hsum := Int.mul_tdiv_add_tmod (discipliningSign oppositePhaseError * phaseError.toInt)
      nsInSecond
    refine ⟨?_, ?_⟩
    · rw [inputPhaseError_eq, hphase]
    · rw [hphase, mul_comm]
      exact hsum

theorem phaseOffset_split_exact_opposite :
    inputPhaseError (-1) (-400000001) = some ⟨0, 400000001⟩ ∧
      (0 : ℤ) * 1000000000 + 400000001 = -1 * -400000001 :=
  phaseOffset_split_exact.2 (mainConfigDisciplining true)
    { mainEnvCalibrate 0 0 with odProcess := some ⟨.noOp, 0, 0⟩ } (mainStateZero ()) .none true
    .bothTimestamps (-400000001) _
    { odInputZero with
      phaseError := ⟨0, 400000001⟩, phasemeterStatus := .bothTimestamps, valid := true
      surveyCompleted := true, lock := true, fineSetpoint := 2400, coarseSetpoint := 2000000
      temperature := 40 }
    (.head _) rfl

end Oscillatord
