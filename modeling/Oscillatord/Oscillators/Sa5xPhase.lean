import Oscillatord.Oscillators.Sa5xHoldover

/-!
# The disciplining phase of the SA5x driver

The phase, the class and the flag `holdover_ready` are written by different stages of a poll, some
of them under `adjust_tau` and some not. `PhaseLaw` says how they and the last time constant the
driver tried to set hang together between two calls.

Within a poll they do not: a classification that restarts the disciplining sets the phase back and
leaves the flag and the time constant to the adjustment. What the stages before the adjustment keep
is `Pending`: either the adjustment is still to come, or the status agrees with the phase and the
phase is the one the poll found. The adjustment settles both cases (`statusAgrees_sa5xAdjustTau`),
so the law holds in every reachable state (`phaseLaw_throughout`).
-/

namespace Oscillatord

open StepRun

/-! ### The law -/

/-- The time constant the driver last tried to set, after some commands. -/
def lastTau (tau : Option ℤ) : List Sa5xCmd → Option ℤ
  | [] => tau
  | .setTau new :: cmds => lastTau (some new) cmds
  | _ :: cmds => lastTau tau cmds

/-- The driver, with the time constant it last tried to set. -/
structure ObservedSa5x where
  sa5x : Sa5xOscillator
  tau : Option ℤ

/-- A call of the driver, observed. -/
def observedSa5xStep (o : ObservedSa5x) : Sa5xEvent → ObservedSa5x
  | .getCtrl env =>
    let result := sa5xOscillatorGetCtrl o.sa5x env
    { sa5x := result.sa5x, tau := lastTau o.tau result.cmds }
  | .pushGnssInfo fixOk utc now =>
    { o with sa5x := sa5xOscillatorPushGnssInfo o.sa5x fixOk utc now }

/-- The driver as `sa5x_oscillator_new` leaves it. -/
def observedSa5xNew (version : Option (ℤ × ℤ)) (phaselimit : IntReading) (now : Timespec) :
    ObservedSa5x :=
  let new := sa5xOscillatorNew version phaselimit now
  { sa5x := new.1, tau := lastTau none new.2 }

/-- The driver of an observed run is the driver of the run. -/
theorem sa5x_after_observedSa5xStep (o : ObservedSa5x) (es : List Sa5xEvent) :
    (after observedSa5xStep o es).sa5x = after sa5xStep o.sa5x es :=
  after_hom ObservedSa5x.sa5x fun _ e => by cases e <;> rfl

/-- The reported status agrees with the disciplining phase. -/
structure StatusAgrees (sa5x : Sa5xOscillator) : Prop where
  phase : sa5x.discipliningPhase < discipliningPhases
  holdoverReady :
    sa5x.status.holdoverReady = decide (sa5x.discipliningPhase = discipliningPhases - 1)
  calibrating : sa5x.status.clockClass = .calibrating → sa5x.discipliningPhase = 0
  lock : sa5x.status.clockClass = .lock → 1 ≤ sa5x.discipliningPhase

/-- **The phase law**: the status agrees with the phase, and so does the time constant the driver
last tried to set. -/
structure PhaseLaw (o : ObservedSa5x) : Prop where
  status : StatusAgrees o.sa5x
  tau : o.tau = some (tauValues o.sa5x.discipliningPhase)

/-! ### The commands -/

theorem lastTau_append (tau : Option ℤ) (cmds cmds' : List Sa5xCmd) :
    lastTau tau (cmds ++ cmds') = lastTau (lastTau tau cmds) cmds' := by
  induction cmds generalizing tau with
  | nil => rfl
  | cons cmd cmds ih => cases cmd <;> exact ih _

/-- Commands that set no time constant leave the last one. -/
theorem lastTau_of_notMem {tau : Option ℤ} {cmds : List Sa5xCmd}
    (h : ∀ new, .setTau new ∉ cmds) : lastTau tau cmds = tau := by
  induction cmds with
  | nil => rfl
  | cons cmd cmds ih =>
    have hrest : lastTau tau cmds = tau := ih fun new hmem => h new (List.mem_cons_of_mem _ hmem)
    cases cmd
    case setTau new => exact absurd List.mem_cons_self (h new)
    all_goals exact hrest

/-! ### The stages of a poll -/

/-- What holds between the classification and the adjustment: `adjust_tau` is set, or the latch
sequence was not issued, the status agrees with the phase and the phase is still the one the poll
found. -/
structure Pending (found : ℕ) (latch : Bool) (stage : Sa5xOscillator × Bool) : Prop where
  phase : stage.1.discipliningPhase < discipliningPhases
  idle : stage.2 = false →
    latch = false ∧ StatusAgrees stage.1 ∧ stage.1.discipliningPhase = found

/-- Reporting a class that says nothing of the phase keeps the agreement. -/
theorem StatusAgrees.report {sa5x : Sa5xOscillator} (h : StatusAgrees sa5x)
    {clockClass : Sa5xClockClass} (status : Sa5xDiscipliningState)
    (hcalibrating : clockClass ≠ .calibrating) (hlock : clockClass ≠ .lock) :
    StatusAgrees (sa5x.report clockClass status) :=
  ⟨h.phase, h.holdoverReady, fun hc => absurd hc hcalibrating, fun hl => absurd hl hlock⟩

/-- The classification. -/
theorem pending_sa5xClassify {sa5x : Sa5xOscillator} (h : StatusAgrees sa5x)
    (a : Sa5xAttributes) (ts : Timespec) (latch : Bool) :
    Pending sa5x.discipliningPhase latch (sa5xClassify sa5x a ts latch) := by
  have hzero : 0 < discipliningPhases := by decide
  by_cases hhold : holdoverCondition sa5x a ts = true
  · -- the class in holdover says nothing of the phase
    simp only [sa5xClassify, hhold, if_true]
    refine ⟨h.phase, fun hlatch => ⟨hlatch, h.report _ ?_ ?_, rfl⟩⟩
    · split_ifs <;> simp
    · split_ifs <;> simp
  · rw [Bool.not_eq_true] at hhold
    cases latch
    · -- a restart sets the phase back, and sets `adjust_tau` with it
      simp only [sa5xClassify, hhold, Bool.false_eq_true, if_false]
      by_cases hclass : sa5x.status.clockClass = .holdover ∨ sa5x.status.clockClass = .uncalibrated
      · simp only [if_pos hclass]
        split_ifs <;> exact ⟨hzero, fun hidle => by simp at hidle⟩
      · simp only [if_neg hclass]
        split_ifs
        · exact ⟨h.phase, fun _ => ⟨rfl, h, rfl⟩⟩
        · exact ⟨hzero, fun hidle => by simp at hidle⟩
        · refine ⟨h.phase, fun _ => ⟨rfl, ?_, rfl⟩⟩
          exact ⟨h.phase, h.holdoverReady, h.calibrating, h.lock⟩
    · simp only [sa5xClassify, hhold, Bool.false_eq_true, if_false, if_true]
      exact ⟨h.phase, fun hidle => by simp at hidle⟩

/-- The advance of the phase stays below the last phase. -/
theorem Pending.sa5xAdvancePhase {found : ℕ} {latch : Bool} {stage : Sa5xOscillator × Bool}
    (h : Pending found latch stage) (ts : Timespec) :
    Pending found latch (sa5xAdvancePhase stage.1 ts stage.2) := by
  rw [Oscillatord.sa5xAdvancePhase]
  split_ifs with hdue
  · have hlt : stage.1.discipliningPhase < discipliningPhases - 1 := by
      simp only [tauDue, Bool.and_eq_true, decide_eq_true_eq] at hdue
      exact hdue.1
    exact ⟨Nat.lt_sub_iff_add_lt.mp hlt, fun hidle => by simp at hidle⟩
  · exact h

/-- **The adjustment** makes the status agree with the phase, and sets its time constant. -/
theorem statusAgrees_sa5xAdjustTau {sa5x : Sa5xOscillator}
    (hphase : sa5x.discipliningPhase < discipliningPhases) :
    StatusAgrees (sa5xAdjustTau sa5x true).1 ∧
      (sa5xAdjustTau sa5x true).1.discipliningPhase = sa5x.discipliningPhase ∧
      (sa5xAdjustTau sa5x true).2 = [.setTau (tauValues sa5x.discipliningPhase)] := by
  by_cases hzero : sa5x.discipliningPhase = 0
  · simp only [sa5xAdjustTau, if_true, if_pos hzero]
    refine ⟨⟨hphase, rfl, fun _ => hzero, fun hlock => ?_⟩, rfl, trivial⟩
    simp [Sa5xOscillator.report] at hlock
  · simp only [sa5xAdjustTau, if_true, if_neg hzero]
    refine ⟨⟨hphase, rfl, fun hcalibrating => ?_, fun _ => ?_⟩, rfl, trivial⟩
    · simp [Sa5xOscillator.report] at hcalibrating
    · exact Nat.one_le_iff_ne_zero.mpr hzero

/-! ### The law over a run -/

/-- A poll keeps the law. -/
theorem PhaseLaw.getCtrl {o : ObservedSa5x} (h : PhaseLaw o) (env : GetCtrlEnv) :
    PhaseLaw (observedSa5xStep o (.getCtrl env)) := by
  have hscan : ∀ new, .setTau new ∉ env.scan.cmds :=
    fun new => setTau_notMem_getAttributes _ _ new
  by_cases herr : env.scan.err = 0
  · obtain ⟨t, ht⟩ := latched_fst o.sa5x env
    have hlatched : StatusAgrees { o.sa5x with macLastLatch := t } :=
      ⟨h.status.phase, h.status.holdoverReady, h.status.calibrating, h.status.lock⟩
    have hpending := (pending_sa5xClassify hlatched env.scan.attributes env.now
      (latchNeeded o.sa5x env.scan.attributes env.now)).sa5xAdvancePhase env.now
    simp only [observedSa5xStep, sa5xOscillatorGetCtrl, herr, ne_eq, not_true_eq_false, if_false,
      ht]
    generalize sa5xAdvancePhase _ _ _ = stage at hpending ⊢
    obtain ⟨sa5x, adjust⟩ := stage
    cases adjust
    · -- nothing was adjusted: no time constant was sent, and the phase is the one before
      obtain ⟨hlatch, hagrees, hphase⟩ := hpending.idle rfl
      refine ⟨hagrees, ?_⟩
      simp only [sa5xAdjustTau, hlatch, Bool.false_eq_true, if_false, List.append_nil,
        lastTau_of_notMem hscan]
      exact h.tau.trans (congrArg (some ∘ tauValues) hphase.symm)
    · obtain ⟨hagrees, hphase, hcmds⟩ := statusAgrees_sa5xAdjustTau hpending.phase
      refine ⟨hagrees, ?_⟩
      simp only [hcmds, lastTau_append, hphase]
      rfl
  · simp only [observedSa5xStep, sa5xOscillatorGetCtrl, herr, ne_eq, not_false_eq_true, if_true]
    exact ⟨h.status, (lastTau_of_notMem hscan).trans h.tau⟩

/-- A GNSS push keeps the law. -/
theorem PhaseLaw.pushGnssInfo {o : ObservedSa5x} (h : PhaseLaw o) (fixOk : Bool)
    (utc : Option Timespec) (now : Timespec) :
    PhaseLaw (observedSa5xStep o (.pushGnssInfo fixOk utc now)) := by
  obtain ⟨⟨hphase, hready, hcalibrating, hlock⟩, htau⟩ := h
  cases fixOk <;> cases utc <;> exact ⟨⟨hphase, hready, hcalibrating, hlock⟩, htau⟩

/-- The law holds of a new driver. -/
theorem phaseLaw_observedSa5xNew (version : Option (ℤ × ℤ)) (phaselimit : IntReading)
    (now : Timespec) : PhaseLaw (observedSa5xNew version phaselimit now) := by
  have hphase : 0 < discipliningPhases := by decide
  refine ⟨⟨hphase, rfl, fun _ => rfl, fun hlock => by cases hlock⟩, ?_⟩
  simp only [observedSa5xNew, sa5xOscillatorNew, lastTau_append]
  rfl

/-- **The phase bookkeeping.** Whatever the firmware, whatever the device answers, whatever is
pushed and whatever the times: the phase law holds in every state the driver reaches. -/
theorem phaseLaw_throughout (version : Option (ℤ × ℤ)) (phaselimit : IntReading)
    (now : Timespec) (es : List Sa5xEvent) :
    Throughout observedSa5xStep PhaseLaw (observedSa5xNew version phaselimit now) es := by
  refine fun pre _ => after_induction (phaseLaw_observedSa5xNew version phaselimit now) ?_
  intro o e h
  cases e with
  | getCtrl env => exact h.getCtrl env
  | pushGnssInfo fixOk utc now => exact h.pushGnssInfo fixOk utc now

end Oscillatord
