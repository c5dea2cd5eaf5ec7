import Oscillatord.Daemon.Effects
import Oscillatord.Daemon.PhaseSign
import Oscillatord.Library.Runs
import Oscillatord.Oscillators.Mro50Calibration

/-!
# What the disciplining algorithm is given

Every call of `od_process` should be given what its own iteration has read: an iteration may stop
half-way, after it has filled part of the input, and the next one goes on with that input. Two
things are handed over from one iteration to the next on purpose, a requested calibration and the
reading to be skipped after a phase jump.

`Seen` is the history the law is about: what the effects of the iterations so far say of
calibrations, fake holdover and jumps. It is computed from the effects alone. The local variables
agree with it between two iterations (`SeenAgrees`), each block keeps the agreement, and an
iteration that reaches `od_process` has made every call anew.

What it has called may have left the control values alone: `main` declares `ctrl_values` without a
value, and `oscillator_get_ctrl` of the `sim` and `dummy` drivers returns 0 having written `dac`
only. Over any run the law holds exactly as long as the driver fills both control values in every
iteration that comes to the algorithm (`freshInputLaw_eachStep_iff`). The drivers of the mRO50, the
SA3X and the SA5X always do.
-/

namespace Oscillatord

open StepRun

variable {D : Type} {cfg : MainConfig} {env : MainEnv D} {st : MainState D} {seen : Seen}

/-! ### The history -/

/-- What has happened so far: a calibration was taken since the last call of the algorithm, the
holdover is faked, and the clock was moved since the last reading. -/
structure Seen where
  calibrationTaken : Bool
  fakeHoldover : Bool
  jumped : Bool
  deriving Repr, DecidableEq

/-- The history after an effect. -/
def Seen.effect (seen : Seen) : MainEffect D → Seen
  | .odProcess _ => { seen with calibrationTaken := false }
  | .takeRequest .calibration => { seen with calibrationTaken := true }
  | .takeRequest .fakeHoldoverStart => { seen with fakeHoldover := true }
  | .takeRequest .fakeHoldoverStop => { seen with fakeHoldover := false }
  | .clockAdjtime _ => { seen with jumped := true }
  | _ => seen

/-- The history after the effects of an iteration that has taken its reading. -/
def Seen.effects (seen : Seen) (effects : List (MainEffect D)) : Seen :=
  effects.foldl Seen.effect seen

/-- The history after the reading of an iteration. -/
def Seen.reading (seen : Seen) : Seen := { seen with jumped := false }

/-- The main loop, with its history. -/
structure ObservedMain (D : Type) where
  main : MainState D
  running : Bool
  seen : Seen

/-- An iteration, observed: the slot holds `e.2` when it comes to look at it. -/
def observedMainStep (cfg : MainConfig) (o : ObservedMain D) (e : MainEnv D × MonitoringRequest) :
    ObservedMain D :=
  if o.running then
    let outcome := mainIteration cfg e.1 o.main e.2
    { main := outcome.state
      running := outcome.flow.again
      seen := o.seen.reading.effects outcome.effects }
  else o

/-- The main loop as it is entered, with the control values and the time it finds. -/
def observedMainStart (dscParams : D) (ctrlValues : OscillatorCtrl) (start : ℤ) :
    ObservedMain D :=
  { main :=
      { mainStateZero dscParams with ctrlValues, startSaveEepromParameters := start }
    running := true
    seen := ⟨false, false, false⟩ }

/-! ### The law -/

/-- An input that was obtained by the iteration that hands it over. -/
structure FreshInput (cfg : MainConfig) (env : MainEnv D) (seen : Seen) (input : OdInput) :
    Prop where
  phaseError : input.phaseError = ⟨(cfg.sign * env.phasemeter.phaseError).tdiv nsInSecond,
    (cfg.sign * env.phasemeter.phaseError).tmod nsInSecond⟩
  phasemeterStatus : input.phasemeterStatus = env.phasemeter.status
  gnss : ∃ epoch, env.epochData = some epoch ∧ input.surveyCompleted = epoch.survey ∧
    input.qErr = epoch.qErr ∧ input.valid = if seen.fakeHoldover then false else epoch.valid
  ctrl : env.ctrl.succeeded = true ∧ env.ctrl.coarseCtrl = some input.coarseSetpoint ∧
    env.ctrl.fineCtrl = some input.fineSetpoint
  attributes : env.attributes = .notImplemented ∧ input.temperature = 0 ∧ input.lock = false ∨
    env.attributes = .read input.temperature input.lock
  calibration : input.calibrationRequested = seen.calibrationTaken
  notAfterJump : seen.jumped = false

/-- **The law of the input**: whatever an iteration hands to the algorithm is fresh. -/
def FreshInputLaw (cfg : MainConfig) (o : ObservedMain D) (e : MainEnv D × MonitoringRequest) :
    Prop :=
  o.running = true → ∀ effect ∈ (mainIteration cfg e.1 o.main e.2).effects, ∀ input,
    effect.processed = some input → FreshInput cfg e.1 o.seen input

/-- The iteration comes to the algorithm: in disciplining mode everything is read, and the reading
is not one to be skipped. -/
structure ReachesAlgorithm (cfg : MainConfig) (env : MainEnv D) (st : MainState D) : Prop where
  disciplining : cfg.discipliningMode = true
  epochData : env.epochData ≠ none
  attributes : env.attributes ≠ .failed
  ctrl : env.ctrl.succeeded = true
  ignoreNextIrq : st.ignoreNextIrq = false

/-- The driver has written both control values. -/
structure CtrlReply.Fills (reply : CtrlReply) : Prop where
  fine : reply.fineCtrl.isSome = true
  coarse : reply.coarseCtrl.isSome = true

/-- An iteration that comes to the algorithm has had both control values filled. -/
def FreshInputKept (cfg : MainConfig) (o : ObservedMain D) (e : MainEnv D × MonitoringRequest) :
    Prop :=
  o.running = true → ReachesAlgorithm cfg e.1 o.main → e.1.ctrl.Fills

/-! ### The drivers -/

/-- `mRo50_oscillator_get_ctrl`: the coarse value is written before the fine one is asked for. -/
def mRo50CtrlReply (coarse fine : Exchange) : CtrlReply :=
  match readHexadecimal coarse with
  | none => { succeeded := false, fineCtrl := none, coarseCtrl := none }
  | some coarseCtrl =>
    { succeeded := (readHexadecimal fine).isSome
      fineCtrl := readHexadecimal fine
      coarseCtrl := some coarseCtrl }

/-- The reply is what the driver does to the structure. -/
theorem mRo50CtrlValues_eq (coarse fine : Exchange) (ctrl : OscillatorCtrl) :
    mRo50CtrlValues coarse fine ctrl
      = (if (mRo50CtrlReply coarse fine).succeeded then 0 else -1,
          (mRo50CtrlReply coarse fine).store ctrl) := by
  rw [mRo50CtrlValues, mRo50CtrlReply]
  rcases readHexadecimal coarse with _ | coarseCtrl
  · rfl
  · rcases readHexadecimal fine with _ | fineCtrl <;> rfl

/-- The mRO50 fills both values where its driver returns 0. -/
theorem fills_mRo50CtrlReply {coarse fine : Exchange}
    (h : (mRo50CtrlReply coarse fine).succeeded = true) : (mRo50CtrlReply coarse fine).Fills := by
  rw [mRo50CtrlReply] at h ⊢
  rcases hcoarse : readHexadecimal coarse with _ | coarseCtrl
  · rw [hcoarse] at h
    cases h
  · rw [hcoarse] at h
    exact ⟨h, rfl⟩

/-- The SA5X fills both values, whether its attributes could be read or not. -/
def GetCtrlResult.reply (result : GetCtrlResult) : CtrlReply :=
  { succeeded := true
    fineCtrl := some result.ctrl.fineCtrl
    coarseCtrl := some result.ctrl.coarseCtrl }

theorem fills_reply (result : GetCtrlResult) : result.reply.Fills := ⟨rfl, rfl⟩

theorem fills_sa3xOscillatorGetCtrl : sa3xOscillatorGetCtrl.Fills := ⟨rfl, rfl⟩

/-! ### The local variables agree with the history -/

/-- The local variables hold what the history says. -/
structure SeenAgrees (st : MainState D) (seen : Seen) : Prop where
  calibration : st.input.calibrationRequested = seen.calibrationTaken
  fakeHoldover : st.fakeHoldoverActivated = seen.fakeHoldover
  jumped : seen.jumped = true → st.ignoreNextIrq = true

theorem effects_append (seen : Seen) (effects effects' : List (MainEffect D)) :
    seen.effects (effects ++ effects') = (seen.effects effects).effects effects' :=
  List.foldl_append

/-- Reading, complete or not, keeps the agreement. -/
theorem SeenAgrees.acquire (h : SeenAgrees st seen) (cfg : MainConfig) (env : MainEnv D) :
    SeenAgrees (acquire cfg env st).1 seen.reading := by
  obtain ⟨hcalibration, hfake, -⟩ := h
  have hno : seen.reading.jumped = true → ∀ b : Bool, b = true := fun hjumped => by cases hjumped
  simp only [Oscillatord.acquire]
  rcases env.epochData with _ | epoch
  · exact ⟨hcalibration, hfake, fun hjumped => hno hjumped _⟩
  rcases parseAttributes
      { st.oscAttr with phaseError := env.phasemeter.phaseError } env.attributes with _ | oscAttr
  · exact ⟨hcalibration, hfake, fun hjumped => hno hjumped _⟩
  simp only
  split_ifs <;> exact ⟨hcalibration, hfake, fun hjumped => hno hjumped _⟩

/-- Carrying out the output of the algorithm keeps the agreement, unless the loop is left. -/
theorem SeenAgrees.applyAction (h : SeenAgrees st seen) (cfg : MainConfig) (env : MainEnv D)
    (output : OdOutput) (hagain : (applyAction cfg env st output).2.2.again = true) :
    SeenAgrees (applyAction cfg env st output).1
      (seen.effects (applyAction cfg env st output).2.1) := by
  obtain ⟨hcalibration, hfake, hjumped⟩ := h
  obtain ⟨action, setpoint, valuePhaseCtrl⟩ := output
  cases action
  case phaseJump =>
    -- the one effect that asks for a reading to be skipped
    simp only [Oscillatord.applyAction] at hagain ⊢
    split_ifs at hagain ⊢
    · exact ⟨hcalibration, hfake, fun _ => rfl⟩
    · cases hagain
  case calibrate =>
    simp only [Oscillatord.applyAction]
    split
    · split_ifs <;> exact ⟨hcalibration, hfake, hjumped⟩
    · split <;> split_ifs <;> exact ⟨hcalibration, hfake, hjumped⟩
  all_goals exact ⟨hcalibration, hfake, hjumped⟩

/-- The periodic save keeps the agreement. -/
theorem SeenAgrees.periodicSave (h : SeenAgrees st seen) (env : MainEnv D) :
    SeenAgrees (periodicSave env st).1 (seen.effects (periodicSave env st).2) := by
  rw [Oscillatord.periodicSave]
  split_ifs
  · exact ⟨h.calibration, h.fakeHoldover, h.jumped⟩
  · exact h

/-- The block of the algorithm keeps the agreement, unless the loop is left: the input is emptied
when the algorithm was called. -/
theorem SeenAgrees.process (h : SeenAgrees st seen) (cfg : MainConfig) (env : MainEnv D)
    (hagain : (process cfg env st).2.2.again = true) :
    SeenAgrees (process cfg env st).1 (seen.effects (process cfg env st).2.1) := by
  simp only [Oscillatord.process] at hagain ⊢
  generalize env.odProcess = reply at hagain ⊢
  rcases reply with _ | output
  · cases hagain
  have hcalled : SeenAgrees { st with input := odInputZero }
      (seen.effects [MainEffect.odProcess (D := D) st.input]) :=
    ⟨rfl, h.fakeHoldover, h.jumped⟩
  have hcarried := hcalled.applyAction cfg env output
  simp only at hagain ⊢
  generalize Oscillatord.applyAction cfg env { st with input := odInputZero } output = applied
    at hagain hcarried ⊢
  obtain ⟨applied, effects, flow⟩ := applied
  cases flow
  case proceed =>
    rw [effects_append, effects_append]
    exact (hcarried rfl).periodicSave env
  case continueLoop =>
    rw [effects_append]
    exact hcarried rfl
  all_goals cases hagain

/-- Carrying out a request keeps the agreement. -/
theorem SeenAgrees.executeRequest (h : SeenAgrees st seen) (request : MonitoringRequest) :
    SeenAgrees (executeRequest st request).1
      (seen.effects (.takeRequest request :: (executeRequest st request).2)) := by
  obtain ⟨hcalibration, hfake, hjumped⟩ := h
  cases request <;> constructor <;> first | exact hcalibration | exact hfake | exact hjumped | rfl

/-- The monitoring block keeps the agreement. -/
theorem SeenAgrees.monitoringPart (h : SeenAgrees st seen) (cfg : MainConfig) (env : MainEnv D)
    (request : MonitoringRequest) :
    SeenAgrees (monitoringPart cfg env st request).1
      (seen.effects (monitoringPart cfg env st request).2.2) := by
  rw [Oscillatord.monitoringPart]
  split_ifs
  · have hst : SeenAgrees { st with oscAttr := (publishedData cfg env st.oscAttr).1 } seen :=
      ⟨h.calibration, h.fakeHoldover, h.jumped⟩
    exact hst.executeRequest request
  · exact h

/-- The block without disciplining keeps the agreement. -/
theorem SeenAgrees.monitorOnly (h : SeenAgrees st seen) (cfg : MainConfig) (env : MainEnv D) :
    SeenAgrees (monitorOnly cfg env st).1
      (seen.effects (monitorOnly cfg env st).2.1) := by
  have hpushed : seen.effects (if cfg.phaseErrorSupported then
      [MainEffect.pushGnssInfo (D := D) env.fixInfo.1 env.fixInfo.2] else []) = seen := by
    split_ifs <;> rfl
  simp only [Oscillatord.monitorOnly]
  rcases parseAttributes st.oscAttr env.attributes with _ | oscAttr
  · exact h
  · simp only
    rw [hpushed]
    exact ⟨h.calibration, h.fakeHoldover, h.jumped⟩

/-- The end of the body keeps the agreement. -/
theorem SeenAgrees.finishIteration {body : MainState D × List (MainEffect D) × Flow}
    (request : MonitoringRequest)
    (h : (finishIteration cfg env request body).flow.again = true →
      SeenAgrees body.1 (seen.effects body.2.1))
    (hagain : (finishIteration cfg env request body).flow.again = true) :
    SeenAgrees (finishIteration cfg env request body).state
      (seen.effects (finishIteration cfg env request body).effects) := by
  obtain ⟨st', effects, flow⟩ := body
  have hbody := h hagain
  cases flow
  case proceed =>
    simp only [Oscillatord.finishIteration]
    rw [effects_append]
    exact hbody.monitoringPart cfg env request
  all_goals exact hbody

/-- **An iteration keeps the agreement**, unless it is the last one. -/
theorem SeenAgrees.mainIteration (h : SeenAgrees st seen) (request : MonitoringRequest)
    (hagain : (mainIteration cfg env st request).flow.again = true) :
    SeenAgrees (mainIteration cfg env st request).state
      (seen.reading.effects (mainIteration cfg env st request).effects) := by
  have hreading : SeenAgrees st seen.reading :=
    ⟨h.calibration, h.fakeHoldover, fun hjumped => by cases hjumped⟩
  rw [Oscillatord.mainIteration] at hagain ⊢
  refine SeenAgrees.finishIteration request (fun hagain => ?_) hagain
  split_ifs at hagain ⊢
  · have hacquired := h.acquire cfg env
    rcases hacquire : Oscillatord.acquire cfg env st with ⟨st', flow⟩
    rw [hacquire] at hacquired
    cases flow
    case proceed =>
      rw [hacquire] at hagain
      refine hacquired.process cfg env ?_
      rcases hprocess : Oscillatord.process cfg env st' with ⟨st'', effects, flow⟩
      simp only [hprocess] at hagain
      cases flow <;> first | rfl | exact hagain
    all_goals exact hacquired
  · exact hreading.monitorOnly cfg env

/-! ### The law over a run -/

/-- An input that was handed over holds what the iteration has read, once the driver has filled the
control values. -/
theorem freshInput_acquired (h : SeenAgrees st seen) {epoch : EpochData}
    {oscAttr : OscillatorAttributes} (hignore : st.ignoreNextIrq = false)
    (hepoch : env.epochData = some epoch)
    (hattributes : parseAttributes { st.oscAttr with phaseError := env.phasemeter.phaseError }
      env.attributes = some oscAttr)
    (hctrl : env.ctrl.succeeded = true) (hfills : env.ctrl.Fills) :
    FreshInput cfg env seen (acquired cfg env st epoch oscAttr).input := by
  have hphase : oscAttr.phaseError = env.phasemeter.phaseError :=
    phaseError_parseAttributes hattributes
  obtain ⟨fine, hfine⟩ := Option.isSome_iff_exists.mp hfills.fine
  obtain ⟨coarse, hcoarse⟩ := Option.isSome_iff_exists.mp hfills.coarse
  refine
    { phaseError := by simp only [acquired, fillInput, hphase]
      phasemeterStatus := rfl
      gnss := ⟨epoch, hepoch, rfl, rfl, by simp only [acquired, fillInput, h.fakeHoldover]⟩
      ctrl := ⟨hctrl, ?_, ?_⟩
      attributes := ?_
      calibration := h.calibration
      notAfterJump := ?_ }
  · simp [acquired, fillInput, CtrlReply.store, hcoarse]
  · simp [acquired, fillInput, CtrlReply.store, hfine]
  · rcases hreply : env.attributes with _ | _ | ⟨temperature, locked⟩
    · rw [hreply] at hattributes
      obtain rfl := Option.some.inj hattributes
      exact .inl ⟨rfl, rfl, rfl⟩
    · rw [hreply] at hattributes
      cases hattributes
    · rw [hreply] at hattributes
      obtain rfl := Option.some.inj hattributes
      exact .inr rfl
  · -- after a jump the reading would have been skipped
    rw [Bool.eq_false_iff]
    intro hjumped
    rw [h.jumped hjumped] at hignore
    cases hignore

/-- An iteration that hands an input over has come to the algorithm. -/
theorem reaches_of_acquire (hmode : cfg.discipliningMode = true) {st' : MainState D}
    (h : acquire cfg env st = (st', .proceed)) : ReachesAlgorithm cfg env st := by
  obtain ⟨hattributes, hctrl, hignore, hepoch⟩ :=
    (acquire_proceed_iff cfg env st).mp (congrArg Prod.snd h)
  exact ⟨hmode, hepoch, hattributes, hctrl, hignore⟩

/-- An iteration that comes to the algorithm hands an input over. -/
theorem ReachesAlgorithm.exists_odProcess (h : ReachesAlgorithm cfg env st)
    (request : MonitoringRequest) :
    ∃ input, .odProcess input ∈ (mainIteration cfg env st request).effects := by
  have hproceed := (acquire_proceed_iff cfg env st).mpr
    ⟨h.attributes, h.ctrl, h.ignoreNextIrq, h.epochData⟩
  exact ⟨_, odProcess_mem_mainIteration h.disciplining (Prod.ext rfl hproceed) request⟩

/-- The local variables agree with the history between two iterations. -/
def ObservedMain.Agrees (o : ObservedMain D) : Prop := o.running = true → SeenAgrees o.main o.seen

theorem agrees_observedMainStep (cfg : MainConfig) (o : ObservedMain D)
    (e : MainEnv D × MonitoringRequest) (h : o.Agrees) : (observedMainStep cfg o e).Agrees := by
  rw [observedMainStep]
  split_ifs with hrunning
  · exact fun hagain => (h hrunning).mainIteration e.2 hagain
  · exact h

theorem agrees_observedMainStart (dscParams : D) (ctrlValues : OscillatorCtrl) (start : ℤ) :
    (observedMainStart dscParams ctrlValues start).Agrees :=
  fun _ => ⟨rfl, rfl, fun hjumped => by cases hjumped⟩

/-- **The step of the law**: where the local variables agree with the history, what an iteration
hands over is fresh exactly when the driver has filled the control values. -/
theorem freshInputLaw_iff (cfg : MainConfig) (o : ObservedMain D)
    (e : MainEnv D × MonitoringRequest) (h : o.Agrees) :
    FreshInputLaw cfg o e ↔ FreshInputKept cfg o e := by
  refine forall_congr' fun hrunning => ⟨fun hlaw hreaches => ?_, fun hkept => ?_⟩
  · obtain ⟨input, hmem⟩ := hreaches.exists_odProcess e.2
    obtain ⟨-, hcoarse, hfine⟩ := (hlaw _ hmem input rfl).ctrl
    exact ⟨Option.isSome_of_eq_some hfine, Option.isSome_of_eq_some hcoarse⟩
  · intro effect hmem input hinput
    obtain ⟨hmode, st', hacquire, rfl⟩ := acquire_of_processed hmem hinput
    have hfills := hkept (reaches_of_acquire hmode hacquire)
    obtain ⟨hignore, hctrl, epoch, oscAttr, hepoch, hattributes, rfl⟩ :=
      acquire_eq_proceed_iff.mp hacquire
    exact freshInput_acquired (h hrunning) hignore hepoch hattributes hctrl hfills

/-- **Fresh input.** Whatever the configuration and whatever the calls and the peers do, over every
run of the main loop: the input of every call of `od_process` is fresh exactly when, in every
iteration that comes to the algorithm, the driver has filled both control values. -/
theorem freshInputLaw_eachStep_iff (cfg : MainConfig) (dscParams : D)
    (ctrlValues : OscillatorCtrl) (start : ℤ) (es : List (MainEnv D × MonitoringRequest)) :
    EachStep (observedMainStep cfg) (FreshInputLaw cfg)
        (observedMainStart dscParams ctrlValues start) es ↔
      EachStep (observedMainStep cfg) (FreshInputKept cfg)
        (observedMainStart dscParams ctrlValues start) es :=
  eachStep_congr (agrees_observedMainStart dscParams ctrlValues start)
    (agrees_observedMainStep cfg) (freshInputLaw_iff cfg)

/-- An iteration with the simulated oscillator: everything succeeds. -/
def mainEnvSim : MainEnv D := { mainEnvCalibrate 0 0 with ctrl := simOscillatorGetCtrl }

/-- With the simulated oscillator, the first call of `od_process` is given what the variables of
`main` happened to hold. -/
theorem freshInput_fails_sim :
    ¬ EachStep (observedMainStep (mainConfigDisciplining false))
        (FreshInputLaw (mainConfigDisciplining false))
        (observedMainStart () ⟨2400, 2000000⟩ 0) [(mainEnvSim, .none)] := by
  intro h
  have hlaw := h [] _ (List.prefix_refl _) rfl
  obtain ⟨-, hcoarse, -⟩ := (hlaw _ List.mem_cons_self _ rfl).ctrl
  cases hcoarse

/-- What the drivers of the atomic clocks reply. -/
inductive AtomicClockReply : CtrlReply → Prop
  | mRo50 (coarse fine : Exchange) : AtomicClockReply (mRo50CtrlReply coarse fine)
  | sa3x : AtomicClockReply sa3xOscillatorGetCtrl
  | sa5x (result : GetCtrlResult) : AtomicClockReply result.reply

theorem AtomicClockReply.fills {reply : CtrlReply} (h : AtomicClockReply reply)
    (hsucceeded : reply.succeeded = true) : reply.Fills := by
  cases h with
  | mRo50 coarse fine => exact fills_mRo50CtrlReply hsucceeded
  | sa3x => exact fills_sa3xOscillatorGetCtrl
  | sa5x result => exact fills_reply result

/-- **With an atomic clock the input is fresh**, over every run of the main loop. -/
theorem freshInput_of_atomicClock (cfg : MainConfig) (dscParams : D)
    (ctrlValues : OscillatorCtrl) (start : ℤ) {es : List (MainEnv D × MonitoringRequest)}
    (hdriver : ∀ e ∈ es, AtomicClockReply e.1.ctrl) :
    EachStep (observedMainStep cfg) (FreshInputLaw cfg)
      (observedMainStart dscParams ctrlValues start) es := by
  refine (eachStep_congr (agrees_observedMainStart dscParams ctrlValues start)
    (agrees_observedMainStep cfg) (freshInputLaw_iff cfg)).mpr fun pre e hpre _ hreaches => ?_
  exact (hdriver e (hpre.subset (by simp))).fills hreaches.ctrl

/-- What the drivers without an atomic clock reply. -/
inductive SimulatedReply : CtrlReply → Prop
  | sim : SimulatedReply simOscillatorGetCtrl
  | dummy : SimulatedReply dummyOscillatorGetCtrl

theorem SimulatedReply.not_fills {reply : CtrlReply} (h : SimulatedReply reply) :
    ¬ reply.Fills := by
  rintro ⟨hfine, -⟩
  cases h with
  | sim => cases hfine
  | dummy => cases hfine

/-- **Without one it is never fresh**: the law holds only of the runs in which no iteration comes to
the algorithm. -/
theorem freshInput_of_simulated_iff (cfg : MainConfig) (dscParams : D)
    (ctrlValues : OscillatorCtrl) (start : ℤ) {es : List (MainEnv D × MonitoringRequest)}
    (hdriver : ∀ e ∈ es, SimulatedReply e.1.ctrl) :
    EachStep (observedMainStep cfg) (FreshInputLaw cfg)
        (observedMainStart dscParams ctrlValues start) es ↔
      EachStep (observedMainStep cfg)
        (fun o e => o.running = true → ¬ ReachesAlgorithm cfg e.1 o.main)
        (observedMainStart dscParams ctrlValues start) es := by
  refine (eachStep_congr (agrees_observedMainStart dscParams ctrlValues start)
    (agrees_observedMainStep cfg) (freshInputLaw_iff cfg)).trans ?_
  refine forall_congr' fun pre => forall_congr' fun e => imp_congr_right fun hpre => ?_
  have hnot : ¬ e.1.ctrl.Fills := (hdriver e (hpre.subset (by simp))).not_fills
  exact imp_congr_right fun _ => ⟨fun hkept hreaches => hnot (hkept hreaches),
    fun hnone hreaches => absurd hreaches hnone⟩

end Oscillatord
