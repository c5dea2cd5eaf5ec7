import Oscillatord.Gnss.Session
import Oscillatord.Library.Runs

/-!
# Setting the PHC to the time of the receiver

`gnss_set_ptp_clock_time` goes around a loop with two flags: while `clock_set` is off it sets the
PHC to the next TAI time, or finds it there already, and once it is on it checks the PHC against
another TAI time; a check that fails turns it off again. One pass of the loop is a step here, and
the passes made so far are kept, the last one first.

`SetClockLaw` is what a caller may rely on: a success comes right after a reading of the PHC that
agrees with the receiver, in a check made after the PHC was set; a PHC that cannot be read ends the
function; and a failed check is made good before a success. It holds after every number of passes
(`setClockLaw_throughout`), where a pass that finds the PHC at the right time makes good what one
that sets it does: the function does not set a clock that needs no setting
(`setClockLaw_fails_already_set`).
-/

namespace Oscillatord

open StepRun

/-! ### The loop -/

/-- What one pass of the loop is given by its calls. -/
structure ClockEnv where
  /-- The flag `loop`, where the pass tests it. -/
  loop : Bool
  /-- The flag `gnss_get_epoch_data` delivers to the loop, and to the check. -/
  valid : Bool
  checkValid : Bool
  /-- The time `gnss_get_next_fix_tai_time` returns. -/
  taiTime : ℤ
  /-- What `clock_gettime` reads, `none` when it fails. -/
  getTime : Option Timespec
  /-- Whether `clock_settime` succeeds. -/
  setTime : Bool
  deriving Repr, DecidableEq

/-- What one pass did. A setting pass has its TAI time, the reading of the PHC and the time it
wrote, with the success of the write; a check its TAI time and reading, if it got to them, and its
verdict. -/
inductive ClockPass
  | wait
  | set (taiTime : ℤ) (reading : Option Timespec) (written : Option (Timespec × Bool))
  | check (taken : Option (ℤ × Option Timespec)) (verdict : Bool)
  deriving Repr, DecidableEq

/-- The function under way: its flag `clock_set`, the flag `loop` when last tested, the value
returned, if any, and the passes made, the last one first. -/
structure SetClockState where
  clockSet : Bool
  loop : Bool
  result : Option ℤ
  passes : List ClockPass
  deriving Repr, DecidableEq

/-- `gnss_check_ptp_clock_time`. The `-1` it returns for a bad descriptor is `true` as a `bool`. -/
def gnssCheckPtpClockTime (fdClock : ℤ) (env : ClockEnv) :
    Option (ℤ × Option Timespec) × Bool :=
  if fdClock < 0 then (none, true)
  else if env.checkValid then
    match env.getTime with
    | some ts => (some (env.taiTime, some ts), decide (ts.tvSec = env.taiTime))
    | none => (some (env.taiTime, none), false)
  else (none, false)

/-- One pass of the loop. The PHC keeps its nanoseconds when it is set. -/
def setPtpClockPass (fdClock : ℤ) (env : ClockEnv) (s : SetClockState) : SetClockState :=
  if env.valid then
    if s.clockSet = false then
      match env.getTime with
      | some ts =>
        if ts.tvSec = env.taiTime then
          { s with clockSet := true, passes := .set env.taiTime (some ts) none :: s.passes }
        else
          let written := { ts with tvSec := env.taiTime }
          { s with
            clockSet := env.setTime
            passes := .set env.taiTime (some ts) (some (written, env.setTime)) :: s.passes }
      | none => { s with result := some (-1), passes := .set env.taiTime none none :: s.passes }
    else
      let (taken, verdict) := gnssCheckPtpClockTime fdClock env
      if verdict then { s with result := some 0, passes := .check taken verdict :: s.passes }
      else { s with clockSet := false, passes := .check taken verdict :: s.passes }
  else { s with passes := .wait :: s.passes }

/-- The loop, up to its next pass: it ends by itself when `loop` is off. -/
def setPtpClockStep (fdClock : ℤ) (s : SetClockState) (env : ClockEnv) : SetClockState :=
  if s.result = none then
    if env.loop then setPtpClockPass fdClock env s
    else { s with loop := false, result := some 0 }
  else s

/-- `gnss_set_ptp_clock_time` up to its loop, for the descriptor of its argument, `none` for a null
pointer. -/
def setPtpClockStart (gnss : Option ℤ) : SetClockState :=
  { clockSet := false, loop := true, passes := []
    result := match gnss with
      | none => some (-1)
      | some fdClock => if fdClock < 0 then some (-1) else none }

/-! ### The law -/

/-- The pass set the PHC. -/
def ClockPass.Sets : ClockPass → Prop
  | .set _ (some _) (some (_, done)) => done = true
  | _ => False

/-- The pass set the PHC, or found it at the time to set. -/
def ClockPass.Settles : ClockPass → Prop
  | .set taiTime (some ts) none => ts.tvSec = taiTime
  | .set _ (some _) (some (_, done)) => done = true
  | _ => False

/-- **The law of `gnss_set_ptp_clock_time`**, where `Again` is what has to follow a failed check
before a success. -/
structure SetClockLaw (Again : ClockPass → Prop) (s : SetClockState) : Prop where
  success : s.result = some 0 → s.loop = true → ∃ taiTime ts earlier,
    s.passes = .check (some (taiTime, some ts)) true :: earlier ∧ ts.tvSec = taiTime ∧
      ∃ pass ∈ earlier, pass.Settles
  unread : ∀ taiTime written later earlier,
    s.passes = later ++ .set taiTime none written :: earlier →
      later = [] ∧ written = none ∧ s.result = some (-1)
  again : s.result = some 0 → s.loop = true → ∀ taken later earlier,
    s.passes = later ++ .check taken false :: earlier → ∃ pass ∈ later, Again pass

/-! ### What the passes leave behind -/

/-- A pass has settled the PHC since the last check. -/
def SettledSince (passes : List ClockPass) : Prop :=
  ∃ since earlier, passes = since ++ earlier ∧ (∃ pass ∈ since, pass.Settles) ∧
    ∀ taken verdict, .check taken verdict ∉ since

theorem SettledSince.exists {passes : List ClockPass} (h : SettledSince passes) :
    ∃ pass ∈ passes, pass.Settles := by
  obtain ⟨since, earlier, rfl, ⟨pass, hmem, hsettles⟩, -⟩ := h
  exact ⟨pass, List.mem_append_left _ hmem, hsettles⟩

/-- A pass that settles the PHC since the last check comes after every check. -/
theorem SettledSince.exists_later {passes later earlier : List ClockPass}
    {taken : Option (ℤ × Option Timespec)} {verdict : Bool} (h : SettledSince passes)
    (hpasses : passes = later ++ .check taken verdict :: earlier) :
    ∃ pass ∈ later, pass.Settles := by
  obtain ⟨since, before, rfl, ⟨pass, hmem, hsettles⟩, hnone⟩ := h
  refine ⟨pass, ?_, hsettles⟩
  rcases List.append_eq_append_iff.mp hpasses with ⟨between, rfl, -⟩ | ⟨rest, rfl, hrest⟩
  · exact List.mem_append_left _ hmem
  · -- the check would be among the passes since the last one
    rcases rest with _ | ⟨first, rest⟩
    · rwa [List.append_nil] at hmem
    · obtain ⟨rfl, -⟩ := List.cons_eq_cons.mp hrest
      exact absurd (List.mem_append_right later List.mem_cons_self) (hnone taken verdict)

theorem SettledSince.cons {passes : List ClockPass} {pass : ClockPass} (h : SettledSince passes)
    (hcheck : ∀ taken verdict, pass ≠ .check taken verdict) : SettledSince (pass :: passes) := by
  obtain ⟨since, earlier, rfl, ⟨settling, hmem, hsettles⟩, hnone⟩ := h
  refine ⟨pass :: since, earlier, rfl, ⟨settling, List.mem_cons_of_mem _ hmem, hsettles⟩, ?_⟩
  intro taken verdict hcons
  rcases List.mem_cons.mp hcons with hpass | hsince
  · exact hcheck taken verdict hpass.symm
  · exact hnone taken verdict hsince

theorem ClockPass.Settles.since {passes : List ClockPass} {pass : ClockPass} (h : pass.Settles) :
    SettledSince (pass :: passes) := by
  refine ⟨[pass], passes, rfl, ⟨pass, List.mem_cons_self, h⟩, fun taken verdict hmem => ?_⟩
  rw [← List.mem_singleton.mp hmem] at h
  exact h

/-- The invariant of the loop: while it goes on, `clock_set` says that a pass has settled the PHC
since the last check, and every setting pass could read the PHC. -/
structure SetClockInv (fdClock : ℤ) (s : SetClockState) : Prop where
  descriptor : 0 ≤ fdClock
  result : s.result = none
  clockSet : s.clockSet = true → SettledSince s.passes
  read : ∀ taiTime written, .set taiTime none written ∉ s.passes

variable {fdClock : ℤ} {s : SetClockState}

/-- No setting pass of the history could not read the PHC. -/
theorem SetClockInv.passes_ne (h : SetClockInv fdClock s) (taiTime : ℤ)
    (written : Option (Timespec × Bool)) (later earlier : List ClockPass) :
    s.passes ≠ later ++ .set taiTime none written :: earlier := by
  intro hpasses
  refine h.read taiTime written ?_
  rw [hpasses]
  exact List.mem_append_right _ List.mem_cons_self

/-- While the loop goes on nothing is promised yet. -/
theorem SetClockInv.law {Again : ClockPass → Prop} (h : SetClockInv fdClock s) :
    SetClockLaw Again s := by
  refine ⟨fun hzero => ?_, fun taiTime written later earlier hpasses => ?_, fun hzero => ?_⟩
  · cases h.result.symm.trans hzero
  · exact absurd hpasses (h.passes_ne taiTime written later earlier)
  · cases h.result.symm.trans hzero

theorem SetClockInv.not_mem_cons {pass : ClockPass} (h : SetClockInv fdClock s)
    (hpass : ∀ taiTime written, pass ≠ .set taiTime none written) (taiTime : ℤ)
    (written : Option (Timespec × Bool)) : .set taiTime none written ∉ pass :: s.passes := by
  intro hmem
  rcases List.mem_cons.mp hmem with heq | hmem
  · exact hpass taiTime written heq.symm
  · exact h.read taiTime written hmem

/-- A setting pass that could not read the PHC can only be the one just made. -/
theorem SetClockInv.eq_of_passes (h : SetClockInv fdClock s) {pass : ClockPass}
    {later earlier : List ClockPass} {taiTime : ℤ} {written : Option (Timespec × Bool)}
    (hpasses : pass :: s.passes = later ++ .set taiTime none written :: earlier) :
    later = [] ∧ pass = .set taiTime none written := by
  rcases later with _ | ⟨first, later⟩
  · exact ⟨rfl, (List.cons_eq_cons.mp hpasses).1⟩
  · obtain ⟨-, hrest⟩ := List.cons_eq_cons.mp hpasses
    exact absurd hrest (h.passes_ne taiTime written later earlier)

/-- What holds in every state: the loop goes on, or the function has returned as the law says. -/
def SetClockReached (fdClock : ℤ) (s : SetClockState) : Prop :=
  SetClockInv fdClock s ∨ (s.result ≠ none ∧ SetClockLaw ClockPass.Settles s)

/-! ### One pass -/

/-- A check that succeeds has read the time of the receiver. -/
theorem gnssCheckPtpClockTime_eq_true {env : ClockEnv} (hfd : 0 ≤ fdClock)
    {taken : Option (ℤ × Option Timespec)} (h : gnssCheckPtpClockTime fdClock env = (taken, true)) :
    ∃ ts, taken = some (env.taiTime, some ts) ∧ ts.tvSec = env.taiTime := by
  rw [gnssCheckPtpClockTime, if_neg (not_lt.mpr hfd)] at h
  split_ifs at h
  · rcases hread : env.getTime with _ | ts
    · simp [hread] at h
    · simp only [hread, Prod.mk.injEq, decide_eq_true_eq] at h
      exact ⟨ts, h.1.symm, h.2⟩
  · simp at h

/-- The PHC cannot be read: the function ends. -/
theorem SetClockInv.reached_unread (h : SetClockInv fdClock s) (taiTime : ℤ) :
    SetClockReached fdClock
      { s with result := some (-1), passes := .set taiTime none none :: s.passes } := by
  refine .inr ⟨nofun, nofun, fun time written later earlier hpasses => ?_, nofun⟩
  obtain ⟨rfl, hpass⟩ := h.eq_of_passes hpasses
  cases hpass
  exact ⟨rfl, rfl, rfl⟩

/-- The check succeeds: the function ends. -/
theorem SetClockInv.reached_checked (h : SetClockInv fdClock s) (hset : s.clockSet = true)
    {taiTime : ℤ} {ts : Timespec} (hequal : ts.tvSec = taiTime) :
    SetClockReached fdClock
      { s with
        result := some 0
        passes := .check (some (taiTime, some ts)) true :: s.passes } := by
  have hsettled := h.clockSet hset
  refine .inr ⟨nofun, fun _ _ => ⟨taiTime, ts, s.passes, rfl, hequal, hsettled.exists⟩,
    fun time written later earlier hpasses => ?_, fun _ _ taken later earlier hpasses => ?_⟩
  · cases (h.eq_of_passes hpasses).2
  · -- this check succeeded, so the failed one is among the passes before it
    rcases later with _ | ⟨first, later⟩
    · cases (List.cons_eq_cons.mp hpasses).1
    · obtain ⟨-, hrest⟩ := List.cons_eq_cons.mp hpasses
      obtain ⟨pass, hmem, hsettles⟩ := hsettled.exists_later hrest
      exact ⟨pass, List.mem_cons_of_mem _ hmem, hsettles⟩

/-- A pass of the loop. -/
theorem setPtpClockPass_reached (h : SetClockInv fdClock s) (env : ClockEnv) :
    SetClockReached fdClock (setPtpClockPass fdClock env s) := by
  rw [setPtpClockPass]
  split_ifs with hvalid hset
  · rcases env.getTime with _ | ts
    · exact h.reached_unread env.taiTime
    · dsimp only
      split_ifs with hequal
      · exact .inl ⟨h.descriptor, h.result, fun _ => ClockPass.Settles.since hequal,
          h.not_mem_cons fun _ _ => nofun⟩
      · exact .inl ⟨h.descriptor, h.result, fun hdone => ClockPass.Settles.since hdone,
          h.not_mem_cons fun _ _ => nofun⟩
  · rcases hcheck : gnssCheckPtpClockTime fdClock env with ⟨taken, verdict⟩
    cases verdict
    · exact .inl ⟨h.descriptor, h.result, nofun, h.not_mem_cons fun _ _ => nofun⟩
    · obtain ⟨ts, rfl, hequal⟩ := gnssCheckPtpClockTime_eq_true h.descriptor hcheck
      exact h.reached_checked (Bool.not_eq_false _ ▸ hset) hequal
  · exact .inl ⟨h.descriptor, h.result, fun hset => (h.clockSet hset).cons fun _ _ => nofun,
      h.not_mem_cons fun _ _ => nofun⟩

theorem setPtpClockStep_reached (s : SetClockState) (env : ClockEnv)
    (h : SetClockReached fdClock s) : SetClockReached fdClock (setPtpClockStep fdClock s env) := by
  rw [setPtpClockStep]
  rcases h with hinv | ⟨hreturned, hlaw⟩
  · rw [if_pos hinv.result]
    split_ifs
    · exact setPtpClockPass_reached hinv env
    · -- `loop` is off: the passes are those of a loop that went on
      exact .inr ⟨nofun, nofun, fun taiTime written later earlier hpasses =>
        absurd hpasses (hinv.passes_ne taiTime written later earlier), nofun⟩
  · rw [if_neg hreturned]
    exact .inr ⟨hreturned, hlaw⟩

theorem setPtpClockStart_reached (fdClock : ℤ) :
    SetClockReached fdClock (setPtpClockStart (some fdClock)) := by
  rcases lt_or_ge fdClock 0 with hneg | hfd
  · have hresult : (setPtpClockStart (some fdClock)).result = some (-1) := if_pos hneg
    refine .inr ⟨by simp [hresult], by simp [hresult], ?_, by simp [hresult]⟩
    simp [setPtpClockStart]
  · exact .inl ⟨hfd, if_neg (not_lt.mpr hfd), nofun, fun _ _ => List.not_mem_nil⟩

/-- **The postcondition of `gnss_set_ptp_clock_time`**, for every descriptor and whatever its calls
deliver: the law holds after every number of passes. -/
theorem setClockLaw_throughout (fdClock : ℤ) (envs : List ClockEnv) :
    Throughout (setPtpClockStep fdClock) (SetClockLaw ClockPass.Settles)
      (setPtpClockStart (some fdClock)) envs := by
  intro pre _
  have hreached : SetClockReached fdClock
      (after (setPtpClockStep fdClock) (setPtpClockStart (some fdClock)) pre) :=
    after_induction (setPtpClockStart_reached fdClock) setPtpClockStep_reached
  rcases hreached with hinv | ⟨-, hlaw⟩
  · exact hinv.law
  · exact hlaw

/-- The PHC is at the right time all along, and the receiver has no valid epoch during the first
check: the function succeeds at the second one and never sets the PHC. -/
theorem setClockLaw_fails_already_set :
    ¬ SetClockLaw ClockPass.Sets (after (setPtpClockStep 3) (setPtpClockStart (some 3))
        [⟨true, true, true, 100, some ⟨100, 0⟩, true⟩, ⟨true, true, false, 101, none, true⟩,
          ⟨true, true, true, 102, some ⟨102, 0⟩, true⟩,
          ⟨true, true, true, 103, some ⟨103, 0⟩, true⟩]) := by
  intro h
  obtain ⟨pass, hmem, hsets⟩ := h.again rfl rfl none
    [.check (some (103, some ⟨103, 0⟩)) true, .set 102 (some ⟨102, 0⟩) none]
    [.set 100 (some ⟨100, 0⟩) none] rfl
  simp only [List.mem_cons, List.not_mem_nil, or_false] at hmem
  rcases hmem with rfl | rfl <;> exact hsets

end Oscillatord
