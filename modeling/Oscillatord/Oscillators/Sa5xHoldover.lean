import Oscillatord.Oscillators.Sa5x

/-!
# What the SA5x driver reports in holdover and after a latch

Three laws of the status the driver reports, each over every run of polls and GNSS pushes.

* `HoldoverLaw`: a poll under the holdover condition reports holdover, keeps the disciplining
  phase and sends no time constant. The classification does so, but the phase advance and the
  adjustment that follow it are not guarded: `sa5xOscillatorGetCtrl_quiet` and
  `sa5xOscillatorGetCtrl_adjusts` say that the poll obeys the law exactly when neither the latch
  sequence nor an elapsed interval sets `adjust_tau`.
* `HoldoverFromLockLaw`: a poll leaves the class `HOLDOVER` only if it found `LOCK` or
  `HOLDOVER`. The classification asks whether the class is `CALIBRATING`, so a clock already
  `UNCALIBRATED` becomes `HOLDOVER` at the next holdover poll.
* `LatchLaw`: a poll that starts the latch procedure reports what the branch on it writes. The
  procedure sets `adjust_tau`, and the adjustment writes the same fields last
  (`status_getCtrl_of_latchStarted`).
-/

namespace Oscillatord

open StepRun

/-! ### The stages of a poll -/

/-- The latch sequence changes nothing but the time of the last latch. -/
theorem sa5xOscillatorLatch_fst (sa5x : Sa5xOscillator) (a : Sa5xAttributes)
    (replies : Sa5xLatchReplies) :
    ∃ t, (sa5xOscillatorLatch sa5x a replies).1 = { sa5x with macLastLatch := t } := by
  unfold sa5xOscillatorLatch
  split
  · exact ⟨_, rfl⟩
  · exact ⟨_, rfl⟩
  · split_ifs
    · exact ⟨_, rfl⟩
    · exact ⟨_, rfl⟩

theorem setTau_notMem_queries (pps ctrl status : Bool) (tau : ℤ) :
    .setTau tau ∉ sa5xQueries pps ctrl status := by
  cases pps <;> cases ctrl <;> cases status <;> simp [sa5xQueries]

theorem setTau_notMem_readPhase (mask : Sa5xMask) (replies : Sa5xReplies) (a : Sa5xAttributes)
    (off : Bool) (tau : ℤ) : .setTau tau ∉ (sa5xReadPhase mask replies a off).2 := by
  unfold sa5xReadPhase
  split
  · dsimp only
    split <;> simp
  · simp

theorem setTau_notMem_readTemperature (mask : Sa5xMask) (replies : Sa5xReplies)
    (a : Sa5xAttributes) (tau : ℤ) :
    .setTau tau ∉ (sa5xReadTemperature mask replies a).2.2 := by
  unfold sa5xReadTemperature
  split_ifs <;> simp

/-- Reading the attributes sends no time constant. -/
theorem setTau_notMem_getAttributes (mask : Sa5xMask) (replies : Sa5xReplies) (tau : ℤ) :
    .setTau tau ∉ (sa5xOscillatorGetAttributes mask replies).cmds := by
  unfold sa5xOscillatorGetAttributes
  split
  · exact setTau_notMem_queries _ _ _ tau
  · simp only [List.mem_append, not_or]
    exact ⟨⟨setTau_notMem_queries _ _ _ tau, setTau_notMem_readPhase _ _ _ _ tau⟩,
      setTau_notMem_readTemperature _ _ _ tau⟩

/-- The adjustment reports `CALIBRATING` or `LOCK` and sends one time constant. -/
theorem sa5xAdjustTau_true (sa5x : Sa5xOscillator) :
    (sa5xAdjustTau sa5x true).1.status.clockClass ≠ .holdover ∧
      .setTau (tauValues sa5x.discipliningPhase) ∈ (sa5xAdjustTau sa5x true).2 := by
  by_cases hphase : sa5x.discipliningPhase = 0 <;>
    simp [sa5xAdjustTau, Sa5xOscillator.report, hphase]

/-- Without `adjust_tau` and without an elapsed interval the last two stages do nothing. -/
theorem sa5xAdjust_idle {sa5x : Sa5xOscillator} {ts : Timespec} (hdue : tauDue sa5x ts = false) :
    sa5xAdvancePhase sa5x ts false = (sa5x, false) := by
  simp [sa5xAdvancePhase, hdue]

/-- With `adjust_tau` set or an interval elapsed, the advance leaves `adjust_tau` set. -/
theorem sa5xAdvancePhase_snd (sa5x : Sa5xOscillator) (ts : Timespec) (adjustTau : Bool) :
    (sa5xAdvancePhase sa5x ts adjustTau).2 = (tauDue sa5x ts || adjustTau) := by
  unfold sa5xAdvancePhase
  split_ifs with hdue <;> simp [hdue]

/-- The class a holdover poll classifies the clock into. -/
def holdoverClass (sa5x : Sa5xOscillator) (ts : Timespec) : Sa5xClockClass :=
  if sa5x.status.clockClass = .calibrating ∨ 24 * 3600 < ts.tvSec - sa5x.gnssLastFix.tvSec then
    .uncalibrated
  else .holdover

/-- The attributes were read and the holdover condition holds. -/
def HoldoverPoll (sa5x : Sa5xOscillator) (env : GetCtrlEnv) : Prop :=
  env.scan.err = 0 ∧ holdoverCondition sa5x env.scan.attributes env.now = true

/-- The poll adjusts the time constant although it keeps the holdover status: the latch sequence
or the time elapsed asks for it. -/
def adjustDue (sa5x : Sa5xOscillator) (env : GetCtrlEnv) : Bool :=
  latchNeeded sa5x env.scan.attributes env.now || tauDue sa5x env.now

variable {sa5x : Sa5xOscillator} {env : GetCtrlEnv}

/-- **A quiet holdover poll** changes the reported status and nothing else. -/
theorem sa5xOscillatorGetCtrl_quiet (h : HoldoverPoll sa5x env)
    (hquiet : adjustDue sa5x env = false) :
    (sa5xOscillatorGetCtrl sa5x env).sa5x = sa5x.report (holdoverClass sa5x env.now) .holdover ∧
      (sa5xOscillatorGetCtrl sa5x env).cmds = env.scan.cmds := by
  obtain ⟨herr, hhold⟩ := h
  obtain ⟨hlatch, hdue⟩ : latchNeeded sa5x env.scan.attributes env.now = false ∧
      tauDue sa5x env.now = false := by simpa [adjustDue] using hquiet
  have hdue' : tauDue (sa5x.report (holdoverClass sa5x env.now) .holdover) env.now = false := hdue
  have hclassify : sa5xClassify sa5x env.scan.attributes env.now false
      = (sa5x.report (holdoverClass sa5x env.now) .holdover, false) := by
    rw [sa5xClassify, if_pos hhold]
    rfl
  simp only [sa5xOscillatorGetCtrl, herr, ne_eq, not_true_eq_false, if_false, hlatch,
    Bool.false_eq_true, hclassify, sa5xAdjust_idle hdue', sa5xAdjustTau, List.append_nil, and_self]

/-- Whether or not a poll issues the latch sequence, it goes on with the driver as it was but for
the time of the last latch. -/
theorem latched_fst (sa5x : Sa5xOscillator) (env : GetCtrlEnv) :
    ∃ t, (if latchNeeded sa5x env.scan.attributes env.now then
      sa5xOscillatorLatch sa5x env.scan.attributes env.latch else (sa5x, [])).1
        = { sa5x with macLastLatch := t } := by
  split_ifs
  · exact sa5xOscillatorLatch_fst ..
  · exact ⟨sa5x.macLastLatch, rfl⟩

/-- The classification of a holdover poll leaves `adjust_tau` to the latch sequence, whatever
time the sequence recorded. -/
theorem sa5xClassify_holdover (t : Timespec) (latch : Bool)
    (hhold : holdoverCondition sa5x env.scan.attributes env.now = true) :
    sa5xClassify { sa5x with macLastLatch := t } env.scan.attributes env.now latch
      = ({ sa5x with macLastLatch := t }.report (holdoverClass sa5x env.now) .holdover, latch) := by
  have hhold' : holdoverCondition { sa5x with macLastLatch := t } env.scan.attributes env.now
      = true := hhold
  rw [sa5xClassify, if_pos hhold']
  rfl

/-- The commands of a poll that read its attributes end with those of the adjustment, which is
the last stage to write the reported class. -/
theorem sa5xOscillatorGetCtrl_adjusts (h : HoldoverPoll sa5x env)
    (hadjust : adjustDue sa5x env = true) :
    (sa5xOscillatorGetCtrl sa5x env).sa5x.status.clockClass ≠ .holdover ∧
      ∃ tau, .setTau tau ∈ (sa5xOscillatorGetCtrl sa5x env).cmds := by
  obtain ⟨herr, hhold⟩ := h
  obtain ⟨t, ht⟩ := latched_fst sa5x env
  simp only [sa5xOscillatorGetCtrl, herr, ne_eq, not_true_eq_false, if_false, ht,
    sa5xClassify_holdover t _ hhold]
  set classified := { sa5x with macLastLatch := t }.report (holdoverClass sa5x env.now) .holdover
  have hsnd : (sa5xAdvancePhase classified env.now
      (latchNeeded sa5x env.scan.attributes env.now)).2 = true := by
    rw [sa5xAdvancePhase_snd, Bool.or_comm]
    exact hadjust
  obtain ⟨hclass, htau⟩ := sa5xAdjustTau_true (sa5xAdvancePhase classified env.now
    (latchNeeded sa5x env.scan.attributes env.now)).1
  rw [hsnd]
  exact ⟨hclass, _, List.mem_append_right _ htau⟩

/-- Outside holdover the classification leaves a class other than `HOLDOVER`, or sets
`adjust_tau`. -/
theorem sa5xClassify_of_not_holdover {sa5x : Sa5xOscillator} {a : Sa5xAttributes} {ts : Timespec}
    (latch : Bool) (hhold : holdoverCondition sa5x a ts = false) :
    (sa5xClassify sa5x a ts latch).1.status.clockClass ≠ .holdover := by
  simp only [sa5xClassify, hhold, Bool.false_eq_true, if_false]
  split_ifs <;> simp_all [Sa5xOscillator.report]

/-- The last two stages report the class `HOLDOVER` only when they leave the status alone. -/
theorem clockClass_sa5xAdjust {sa5x : Sa5xOscillator} (ts : Timespec) (adjustTau : Bool)
    (h : sa5x.status.clockClass ≠ .holdover) :
    (sa5xAdjustTau (sa5xAdvancePhase sa5x ts adjustTau).1
      (sa5xAdvancePhase sa5x ts adjustTau).2).1.status.clockClass ≠ .holdover := by
  cases hsnd : (sa5xAdvancePhase sa5x ts adjustTau).2
  · have hdue : tauDue sa5x ts = false := by
      rw [sa5xAdvancePhase_snd, Bool.or_eq_false_iff] at hsnd
      exact hsnd.1
    simpa [sa5xAdjustTau, sa5xAdvancePhase, hdue] using h
  · exact (sa5xAdjustTau_true _).1

/-- Outside holdover no poll reports the class `HOLDOVER`. -/
theorem clockClass_getCtrl_of_not_holdover (herr : env.scan.err = 0)
    (hhold : holdoverCondition sa5x env.scan.attributes env.now = false) :
    (sa5xOscillatorGetCtrl sa5x env).sa5x.status.clockClass ≠ .holdover := by
  obtain ⟨t, ht⟩ := latched_fst sa5x env
  simp only [sa5xOscillatorGetCtrl, herr, ne_eq, not_true_eq_false, if_false, ht]
  have hhold' : holdoverCondition { sa5x with macLastLatch := t } env.scan.attributes env.now
      = false := hhold
  exact clockClass_sa5xAdjust _ _ (sa5xClassify_of_not_holdover _ hhold')

/-! ### Honest status in holdover -/

/-- **The holdover law** of one call: a poll under the holdover condition reports `HOLDOVER` or
`UNCALIBRATED` with the status `SA5X_HOLDOVER`, keeps the disciplining phase and sends no time
constant. -/
def HoldoverLaw (sa5x : Sa5xOscillator) : Sa5xEvent → Prop
  | .getCtrl env => HoldoverPoll sa5x env →
      let result := sa5xOscillatorGetCtrl sa5x env
      (result.sa5x.status.clockClass = .holdover ∨
          result.sa5x.status.clockClass = .uncalibrated) ∧
        result.sa5x.status.status = .holdover ∧
        result.sa5x.discipliningPhase = sa5x.discipliningPhase ∧
        ∀ tau, .setTau tau ∉ result.cmds
  | .pushGnssInfo .. => True

/-- No holdover poll finds the latch sequence needed or an interval elapsed. -/
def HoldoverUndisturbed (sa5x : Sa5xOscillator) : Sa5xEvent → Prop
  | .getCtrl env => HoldoverPoll sa5x env → adjustDue sa5x env = false
  | .pushGnssInfo .. => True

/-- **The holdover law of one call** holds exactly when the call is not a holdover poll that
adjusts the time constant. -/
theorem holdoverLaw_iff (sa5x : Sa5xOscillator) (e : Sa5xEvent) :
    HoldoverLaw sa5x e ↔ HoldoverUndisturbed sa5x e := by
  rcases e with env | _
  · refine forall_congr' fun hpoll => ?_
    cases hadjust : adjustDue sa5x env
    · obtain ⟨hstate, hcmds⟩ := sa5xOscillatorGetCtrl_quiet hpoll hadjust
      refine iff_of_true ⟨?_, ?_, ?_, fun tau => ?_⟩ rfl
      · rw [hstate]
        simp only [Sa5xOscillator.report, holdoverClass]
        split_ifs <;> simp
      · rw [hstate]
        rfl
      · rw [hstate]
        rfl
      · rw [hcmds]
        exact setTau_notMem_getAttributes _ _ tau
    · obtain ⟨-, tau, htau⟩ := sa5xOscillatorGetCtrl_adjusts hpoll hadjust
      exact iff_of_false (fun h => h.2.2.2 tau htau) (by simp)
  · exact Iff.rfl

/-- **Status in holdover.** Over every run of the driver, every poll under the holdover condition
obeys the holdover law exactly when no such poll finds the latch sequence needed or the interval
of the current disciplining phase elapsed. -/
theorem holdoverLaw_eachStep_iff (version : Option (ℤ × ℤ)) (phaselimit : IntReading)
    (now : Timespec) (es : List Sa5xEvent) :
    EachStep sa5xStep HoldoverLaw (sa5xOscillatorNew version phaselimit now).1 es ↔
      EachStep sa5xStep HoldoverUndisturbed (sa5xOscillatorNew version phaselimit now).1 es :=
  eachStep_congr (J := fun _ => True) trivial (fun _ _ _ => trivial)
    fun sa5x e _ => holdoverLaw_iff sa5x e

/-! ### Holdover only after a lock -/

/-- A poll that leaves the class `HOLDOVER` found `LOCK` or `HOLDOVER`. -/
def HoldoverFromLockLaw (sa5x : Sa5xOscillator) : Sa5xEvent → Prop
  | .getCtrl env => (sa5xOscillatorGetCtrl sa5x env).sa5x.status.clockClass = .holdover →
      sa5x.status.clockClass = .lock ∨ sa5x.status.clockClass = .holdover
  | .pushGnssInfo .. => True

/-- From a class other than `LOCK` and `HOLDOVER`, the class is not `HOLDOVER` as long as it has
not been `LOCK`. -/
def HoldoverOnlyAfterLock (sa5x : Sa5xOscillator) (es : List Sa5xEvent) : Prop :=
  ∀ pre mid, pre ++ mid <+: es →
    (after sa5xStep sa5x pre).status.clockClass ≠ .holdover →
    (∀ m, m <+: mid → (after sa5xStep sa5x (pre ++ m)).status.clockClass ≠ .lock) →
    (after sa5xStep sa5x (pre ++ mid)).status.clockClass ≠ .holdover

/-- No holdover poll that leaves the time constant alone finds the class `UNCALIBRATED` within 24
hours of the last fix. -/
def UncalibratedKept (sa5x : Sa5xOscillator) : Sa5xEvent → Prop
  | .getCtrl env => HoldoverPoll sa5x env → adjustDue sa5x env = false →
      sa5x.status.clockClass = .uncalibrated →
      24 * 3600 < env.now.tvSec - sa5x.gnssLastFix.tvSec
  | .pushGnssInfo .. => True

/-- The class a quiet holdover poll reports is `HOLDOVER` exactly when the clock was not
calibrating and has had a fix within the last 24 hours. -/
theorem holdoverClass_eq_holdover_iff {ts : Timespec} :
    holdoverClass sa5x ts = .holdover ↔
      sa5x.status.clockClass ≠ .calibrating ∧ ts.tvSec - sa5x.gnssLastFix.tvSec ≤ 24 * 3600 := by
  simp only [holdoverClass]
  split_ifs with h
  · refine iff_of_false (by simp) fun hno => ?_
    rcases h with h | h
    · exact hno.1 h
    · omega
  · rw [not_or, not_lt] at h
    exact iff_of_true rfl h

/-- A poll that could not read its attributes leaves the driver as it was. -/
theorem sa5xOscillatorGetCtrl_failed (herr : env.scan.err ≠ 0) :
    (sa5xOscillatorGetCtrl sa5x env).sa5x = sa5x := by
  simp [sa5xOscillatorGetCtrl, herr]

/-- **The class law of one call** holds exactly when the call does not turn `UNCALIBRATED` into
`HOLDOVER`. -/
theorem holdoverFromLockLaw_iff (sa5x : Sa5xOscillator) (e : Sa5xEvent) :
    HoldoverFromLockLaw sa5x e ↔ UncalibratedKept sa5x e := by
  rcases e with env | _
  · simp only [HoldoverFromLockLaw, UncalibratedKept]
    by_cases herr : env.scan.err = 0
    · cases hhold : holdoverCondition sa5x env.scan.attributes env.now
      · refine iff_of_true (fun h => ?_) fun hpoll => ?_
        · exact absurd h (clockClass_getCtrl_of_not_holdover herr hhold)
        · rw [HoldoverPoll, hhold] at hpoll
          simp at hpoll
      · have hpoll : HoldoverPoll sa5x env := ⟨herr, hhold⟩
        cases hadjust : adjustDue sa5x env
        · rw [(sa5xOscillatorGetCtrl_quiet hpoll hadjust).1]
          have hclass : holdoverClass sa5x env.now = .holdover ↔ _ := holdoverClass_eq_holdover_iff
          simp only [Sa5xOscillator.report, hclass, hpoll, forall_const]
          -- only an uncalibrated clock makes the two conditions differ
          cases sa5x.status.clockClass <;> simp
          omega
        · refine iff_of_true (fun h => ?_) fun _ h => by simp at h
          exact absurd h (sa5xOscillatorGetCtrl_adjusts hpoll hadjust).1
    · rw [sa5xOscillatorGetCtrl_failed herr]
      exact iff_of_true Or.inr fun hpoll => absurd hpoll.1 herr
  · exact Iff.rfl

/-- A GNSS push leaves the status alone. -/
theorem status_sa5xOscillatorPushGnssInfo (sa5x : Sa5xOscillator) (fixOk : Bool)
    (utc : Option Timespec) (now : Timespec) :
    (sa5xOscillatorPushGnssInfo sa5x fixOk utc now).status = sa5x.status := by
  cases fixOk <;> cases utc <;> rfl

/-- The class law of every call gives the law of whole runs, one call at a time. -/
theorem HoldoverOnlyAfterLock.of_eachStep {es : List Sa5xEvent}
    (h : EachStep sa5xStep HoldoverFromLockLaw sa5x es) : HoldoverOnlyAfterLock sa5x es := by
  intro pre mid hpre hstart hlock
  induction mid using List.reverseRecOn with
  | nil => simpa using hstart
  | append_singleton mid e ih =>
    have hbefore := ih ((List.append_assoc pre mid [e] ▸ List.prefix_append _ _).trans hpre)
      fun m hm => hlock m (hm.trans (List.prefix_append _ _))
    have hnotLock := hlock mid (List.prefix_append _ _)
    have hlaw := h (pre ++ mid) e (by rw [List.append_assoc]; exact hpre)
    rw [← List.append_assoc, after_append, after_cons, after_nil]
    rcases e with env | ⟨fixOk, utc, now⟩
    · intro hclass
      rcases hlaw hclass with hl | hh
      · exact hnotLock hl
      · exact hbefore hh
    · rw [sa5xStep, status_sa5xOscillatorPushGnssInfo]
      exact hbefore

/-- **Holdover only after a lock.** Over every run of the driver, every poll that reports the
class `HOLDOVER` found `LOCK` or `HOLDOVER`, and so no clock that has lost its reference is
reported in holdover before it has locked, exactly when no quiet holdover poll finds the class
`UNCALIBRATED` within 24 hours of the last fix. -/
theorem holdoverFromLock_iff (version : Option (ℤ × ℤ)) (phaselimit : IntReading)
    (now : Timespec) (es : List Sa5xEvent) :
    (EachStep sa5xStep HoldoverFromLockLaw (sa5xOscillatorNew version phaselimit now).1 es ∧
        HoldoverOnlyAfterLock (sa5xOscillatorNew version phaselimit now).1 es) ↔
      EachStep sa5xStep UncalibratedKept (sa5xOscillatorNew version phaselimit now).1 es := by
  have hcongr :
      EachStep sa5xStep HoldoverFromLockLaw (sa5xOscillatorNew version phaselimit now).1 es ↔
        EachStep sa5xStep UncalibratedKept (sa5xOscillatorNew version phaselimit now).1 es :=
    eachStep_congr (J := fun _ => True) trivial (fun _ _ _ => trivial)
      fun sa5x e _ => holdoverFromLockLaw_iff sa5x e
  constructor
  · rintro ⟨h, -⟩
    exact hcongr.mp h
  · intro h
    exact ⟨hcongr.mpr h, .of_eachStep (hcongr.mpr h)⟩

/-! ### Polls without a PPS input -/

/-- A poll at `seconds` of a device in good order that detects no PPS input. -/
def pollWithoutPps (seconds : ℤ) : Sa5xEvent :=
  .getCtrl
    { replies :=
        { disciplineLocked := .value 1, gnssPps := .value 0, digitalTuning := .value 0
          locked := .value 1, tau := .value 50, lastcorrection := .value 12, alarms := .value 0
          disciplining := .value 1, phase := .value 3, temperature := .value 40000, junk := 0 }
      now := ⟨seconds, 0⟩
      latch :=
        { disable := fun _ => (true, .value 0), latch := .value 1, now := ⟨0, 0⟩, junk := 0 } }

/-- The first poll finds the PPS input lost after more than 600 seconds: the clock is reported
locked and is sent a new time constant. -/
theorem holdoverLaw_fails_interval_elapsed :
    ¬ EachStep sa5xStep HoldoverLaw (sa5xOscillatorNew (some (1, 1)) (.value 100000) ⟨30, 0⟩).1
        [pollWithoutPps 700] := by
  intro h
  have hlaw := h [] (pollWithoutPps 700) (List.prefix_refl _) (by constructor <;> decide)
  exact absurd hlaw.2.1 (by decide)

/-- Two polls find the PPS input lost while the clock is still calibrating: it is reported
`UNCALIBRATED`, then `HOLDOVER`. -/
theorem holdoverFromLock_fails_second_poll :
    ¬ EachStep sa5xStep HoldoverFromLockLaw
        (sa5xOscillatorNew (some (1, 1)) (.value 100000) ⟨30, 0⟩).1
        [pollWithoutPps 100, pollWithoutPps 101] := by
  intro h
  have hlaw := h [pollWithoutPps 100] (pollWithoutPps 101) (List.prefix_refl _) (by decide)
  exact absurd hlaw (by decide)

/-! ### After a latch -/

/-- The attributes were read and the poll starts the latch procedure. -/
def LatchStarted (sa5x : Sa5xOscillator) (env : GetCtrlEnv) : Prop :=
  env.scan.err = 0 ∧ latchNeeded sa5x env.scan.attributes env.now = true

/-- What the branches on the holdover condition and on the latch leave in the status: holdover,
and the class `UNCALIBRATED` or the one the holdover condition gives. -/
def LatchReport (sa5x : Sa5xOscillator) (env : GetCtrlEnv) : Prop :=
  let status := (sa5xOscillatorGetCtrl sa5x env).sa5x.status
  status.status = .holdover ∧
    (status.clockClass = .uncalibrated ∨
      holdoverCondition sa5x env.scan.attributes env.now = true ∧
        status.clockClass = holdoverClass sa5x env.now)

/-- **The latch law** of one call. -/
def LatchLaw (sa5x : Sa5xOscillator) : Sa5xEvent → Prop
  | .getCtrl env => LatchStarted sa5x env → LatchReport sa5x env
  | .pushGnssInfo .. => True

/-- The call does not start the latch procedure. -/
def NoLatch (sa5x : Sa5xOscillator) : Sa5xEvent → Prop
  | .getCtrl env => ¬ LatchStarted sa5x env
  | .pushGnssInfo .. => True

/-- The adjustment reports the phase it finds, as tracking or as locked. -/
theorem status_sa5xAdjustTau (sa5x : Sa5xOscillator) :
    (sa5xAdjustTau sa5x true).1.status.clockClass
        = (if sa5x.discipliningPhase = 0 then .calibrating else .lock) ∧
      (sa5xAdjustTau sa5x true).1.status.status
        = if sa5x.discipliningPhase = 0 then .tracking else .calibration := by
  simp only [sa5xAdjustTau, if_true, Sa5xOscillator.report]
  split_ifs <;> exact ⟨rfl, rfl⟩

/-- The classification hands the request of the latch procedure on. -/
theorem sa5xClassify_latch (sa5x : Sa5xOscillator) (a : Sa5xAttributes) (ts : Timespec) :
    (sa5xClassify sa5x a ts true).2 = true := by
  simp only [sa5xClassify, if_true]
  split_ifs <;> rfl

/-- **A poll that starts the latch procedure** goes on to adjust the time constant, and reports
what the adjustment does. -/
theorem status_getCtrl_of_latchStarted (h : LatchStarted sa5x env) :
    ∃ phase : ℕ,
      (sa5xOscillatorGetCtrl sa5x env).sa5x.status.clockClass
          = (if phase = 0 then .calibrating else .lock) ∧
        (sa5xOscillatorGetCtrl sa5x env).sa5x.status.status
          = if phase = 0 then .tracking else .calibration := by
  obtain ⟨herr, hlatch⟩ := h
  simp only [sa5xOscillatorGetCtrl, herr, ne_eq, not_true_eq_false, if_false, hlatch, if_true]
  set classified := sa5xClassify (sa5xOscillatorLatch sa5x env.scan.attributes env.latch).1
    env.scan.attributes env.now true with hclassified
  have hsnd : (sa5xAdvancePhase classified.1 env.now classified.2).2 = true := by
    rw [sa5xAdvancePhase_snd, hclassified, sa5xClassify_latch, Bool.or_true]
  rw [hsnd]
  exact ⟨_, status_sa5xAdjustTau _⟩

/-- The report of the latch procedure never reaches the caller. -/
theorem not_latchReport (h : LatchStarted sa5x env) : ¬ LatchReport sa5x env := by
  obtain ⟨phase, -, hstatus⟩ := status_getCtrl_of_latchStarted h
  rintro ⟨hholdover, -⟩
  rw [hstatus] at hholdover
  split_ifs at hholdover

/-- **Status after a latch.** Over every run of the driver, every call that starts the latch
procedure obeys the law exactly when no call of the run starts it. -/
theorem latchLaw_eachStep_iff (version : Option (ℤ × ℤ)) (phaselimit : IntReading)
    (now : Timespec) (es : List Sa5xEvent) :
    EachStep sa5xStep LatchLaw (sa5xOscillatorNew version phaselimit now).1 es ↔
      EachStep sa5xStep NoLatch (sa5xOscillatorNew version phaselimit now).1 es := by
  refine eachStep_congr (J := fun _ => True) trivial (fun _ _ _ => trivial) fun sa5x e _ => ?_
  cases e with
  | getCtrl env => exact ⟨fun hlaw h => not_latchReport h (hlaw h), fun hno h => absurd h hno⟩
  | pushGnssInfo fixOk utc now => exact Iff.rfl

/-- A poll at `seconds` of a device with its PPS input, whose digital tuning is out of range. -/
def pollOutOfRange (seconds : ℤ) : Sa5xEvent :=
  .getCtrl
    { replies :=
        { disciplineLocked := .value 1, gnssPps := .value 1, digitalTuning := .value 20000000
          locked := .value 1, tau := .value 50, lastcorrection := .value 0
          alarms := .value (2 ^ 18), disciplining := .value 1, phase := .value 3
          temperature := .value 40000, junk := 0 }
      now := ⟨seconds, 0⟩
      latch :=
        { disable := fun _ => (true, .value 0), latch := .value 1, now := ⟨0, 0⟩, junk := 0 } }

/-- The first poll, with a fix and the PPS input there, latches: the clock is reported calibrating
and tracking. -/
theorem latchLaw_fails_first_poll :
    ¬ EachStep sa5xStep LatchLaw (sa5xOscillatorNew (some (1, 0)) (.value 100000) ⟨30, 0⟩).1
        [.pushGnssInfo true (some ⟨90, 0⟩) ⟨100, 0⟩, pollOutOfRange 101] := by
  intro h
  have hlaw := h [.pushGnssInfo true (some ⟨90, 0⟩) ⟨100, 0⟩] (pollOutOfRange 101)
    (List.prefix_refl _) (by constructor <;> decide)
  exact absurd hlaw.1 (by decide)

end Oscillatord
