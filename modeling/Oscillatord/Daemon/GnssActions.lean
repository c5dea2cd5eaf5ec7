import Oscillatord.Daemon.Effects
import Oscillatord.Library.Runs

/-!
# The hand-over of GNSS actions

A request about the receiver goes from the main loop to the GNSS thread through `gnss->action`, a
slot of one place: the switch of the main loop calls `gnss_set_action`, which drops the actions it
does not know and overwrites the slot, and each pass of `gnss_thread` takes the action the slot
holds and performs it.

`ActionsLaw` is the conservation of commands: what was requested is what was performed and what the
slot still holds, in order, and nothing is left when the thread ends. It holds throughout exactly
the runs that take no request for a reset of the serial link, which `gnss_set_action` drops, take
a request only when the slot is empty, and do not begin the thread after its stop with an action in
the slot (`actionsLaw_throughout_iff`).
-/

namespace Oscillatord

open StepRun

variable {D : Type} {cfg : MainConfig}

/-! ### Actions and commands -/

/-- The resets of the receiver (`RX_RESET_*`). -/
inductive RxReset
  | gnssStart
  | gnssStop
  | soft
  | hard
  | cold
  deriving Repr, DecidableEq

/-- What the GNSS thread does to the receiver: a `rxReset`, or a reset of the serial link. -/
inductive GnssCommand
  | rxReset (reset : RxReset)
  | resetSerial
  deriving Repr, DecidableEq

/-- `gnss_set_action`, on what the slot holds; `none` is `GNSS_ACTION_NONE`. -/
def gnssSetAction (slot : Option GnssAction) (action : GnssAction) : Option GnssAction :=
  if action ≠ .start ∧ action ≠ .stop ∧ action ≠ .soft ∧ action ≠ .hard ∧ action ≠ .cold then slot
  else some action

/-- What `gnss_thread` performs for the action it has taken. -/
def gnssPerform : Option GnssAction → List GnssCommand
  | some .start => [.rxReset .gnssStart]
  | some .stop => [.rxReset .gnssStop]
  | some .soft => [.rxReset .soft]
  | some .hard => [.rxReset .hard]
  | some .cold => [.rxReset .cold]
  | some .resetSerial => [.resetSerial]
  | none => []

/-- The command a request of a peer asks for. -/
def MonitoringRequest.gnssCommand : MonitoringRequest → Option GnssCommand
  | .gnssStart => some (.rxReset .gnssStart)
  | .gnssStop => some (.rxReset .gnssStop)
  | .gnssSoft => some (.rxReset .soft)
  | .gnssHard => some (.rxReset .hard)
  | .gnssCold => some (.rxReset .cold)
  | .resetUbloxSerial => some .resetSerial
  | _ => Option.none

/-- The command of the request an effect takes from the mailbox. -/
def MainEffect.gnssCommand : MainEffect D → Option GnssCommand
  | .takeRequest request => request.gnssCommand
  | _ => none

/-! ### The two threads -/

/-- Where the GNSS thread is: it has not read `stop` yet, is in its loop, or has left it. -/
inductive ThreadPoint
  | starting
  | looping
  | ended
  deriving Repr, DecidableEq

/-- The main loop, `gnss->action`, `gnss->stop`, the GNSS thread, and the history: the commands of
the requests taken from the mailbox, and those performed. -/
structure ActionsState (D : Type) where
  main : MainState D
  running : Bool
  action : Option GnssAction
  stop : Bool
  thread : ThreadPoint
  requested : List GnssCommand
  performed : List GnssCommand

/-- A step: an iteration of the main loop, with what the mailbox holds; `gnss_stop`, which follows
the loop; or the GNSS thread, up to the end of its next pass. -/
inductive ActionsEvent (D : Type)
  | iteration (env : MainEnv D) (request : MonitoringRequest)
  | stop
  | pass

/-- One step. An iteration calls `gnss_set_action` once at most. -/
def actionsStep (cfg : MainConfig) (s : ActionsState D) : ActionsEvent D → ActionsState D
  | .iteration env request =>
    if s.running then
      let outcome := mainIteration cfg env s.main request
      { s with
        main := outcome.state
        running := outcome.flow.again
        action := (outcome.effects.filterMap MainEffect.gnssAction).foldl gnssSetAction s.action
        requested := s.requested ++ outcome.effects.filterMap MainEffect.gnssCommand }
    else s
  | .stop => { s with running := false, stop := true }
  | .pass =>
    let thread := if s.stop then ThreadPoint.ended else .looping
    match s.thread with
    | .starting => { s with thread }
    | .looping =>
      { s with thread, action := none, performed := s.performed ++ gnssPerform s.action }
    | .ended => s

/-- The daemon once `gnss_init` has started the thread. -/
def actionsStart (main : MainState D) : ActionsState D :=
  { main, running := true, action := none, stop := false, thread := .starting, requested := []
    performed := [] }

/-! ### Conservation -/

/-- **Conservation of commands.** -/
structure ActionsLaw (s : ActionsState D) : Prop where
  order : s.requested = s.performed ++ gnssPerform s.action
  ended : s.thread = .ended → s.performed = s.requested

/-- The step takes no request for a reset of the serial link, nor any command while the slot holds
an action, and does not end the thread at its beginning with an action in the slot. -/
def ActionsKept (cfg : MainConfig) (s : ActionsState D) : ActionsEvent D → Prop
  | .iteration env request => s.running = true →
      ∀ command ∈ (mainIteration cfg env s.main request).effects.filterMap MainEffect.gnssCommand,
        command ≠ .resetSerial ∧ s.action = none
  | .stop => True
  | .pass => s.thread = .starting → s.stop = true → s.action = none

/-- The thread ends after `gnss_stop`, and `gnss_stop` after the loop. -/
structure ActionsInv (s : ActionsState D) : Prop where
  stopped : s.thread = .ended → s.stop = true
  left : s.stop = true → s.running = false

theorem actionsInv_step (cfg : MainConfig) (s : ActionsState D) (e : ActionsEvent D)
    (h : ActionsInv s) : ActionsInv (actionsStep cfg s e) := by
  cases e with
  | iteration env request =>
    rw [actionsStep]
    split_ifs with hrunning
    · refine ⟨h.stopped, fun hstop => ?_⟩
      rw [h.left hstop] at hrunning
      cases hrunning
    · exact h
  | stop => exact ⟨fun _ => rfl, fun _ => rfl⟩
  | pass =>
    have hstopped : (if s.stop = true then ThreadPoint.ended else .looping) = .ended →
        s.stop = true := by
      intro hended
      split_ifs at hended with hstop
      exact hstop
    simp only [actionsStep]
    split
    · exact ⟨hstopped, h.left⟩
    · exact ⟨hstopped, h.left⟩
    · exact h

theorem gnssPerform_eq_nil_iff {action : Option GnssAction} :
    gnssPerform action = [] ↔ action = none := by
  rcases action with _ | action
  · simp [gnssPerform]
  · cases action <;> simp [gnssPerform]

/-- What the law says of an iteration: the action `set` it may hand over. -/
theorem order_setAction_iff (set : Option GnssAction) {slot : Option GnssAction}
    {requested performed : List GnssCommand} (h : requested = performed ++ gnssPerform slot) :
    requested ++ gnssPerform set = performed ++ gnssPerform (set.toList.foldl gnssSetAction slot) ↔
      ∀ command ∈ gnssPerform set, command ≠ .resetSerial ∧ slot = none := by
  rw [h, List.append_assoc, List.append_cancel_left_eq]
  rcases set with _ | action
  · simp [gnssPerform]
  · have hset : (some action).toList.foldl gnssSetAction slot = gnssSetAction slot action := rfl
    rw [hset]
    rcases slot with _ | held
    · cases action <;> simp [gnssPerform, gnssSetAction]
    · -- a slot that holds an action already has no place for another command
      refine iff_of_false (fun heq => ?_) (fun hall => ?_)
      · have hlength := congrArg List.length heq
        have hone : ∀ action, (gnssPerform (some action)).length = 1 := by
          intro action
          cases action <;> rfl
        rw [List.length_append, hone, hone] at hlength
        rcases hslot : gnssSetAction (some held) action with _ | left
        · rw [hslot] at hlength
          simp [gnssPerform] at hlength
        · rw [hslot, hone] at hlength
          omega
      · obtain ⟨command, hcommand⟩ : ∃ command, command ∈ gnssPerform (some action) := by
          cases action <;> exact ⟨_, List.mem_singleton.mpr rfl⟩
        cases (hall command hcommand).2

/-- The monitoring block hands over the action of the request it takes. -/
theorem monitoringPart_actions (cfg : MainConfig) (env : MainEnv D) (st : MainState D)
    (request : MonitoringRequest) :
    ∃ set : Option GnssAction,
      (monitoringPart cfg env st request).2.2.filterMap MainEffect.gnssAction = set.toList ∧
        (monitoringPart cfg env st request).2.2.filterMap MainEffect.gnssCommand
          = gnssPerform set := by
  rw [monitoringPart]
  split_ifs
  · cases request with
    | gnssStart => exact ⟨some .start, rfl, rfl⟩
    | gnssStop => exact ⟨some .stop, rfl, rfl⟩
    | gnssSoft => exact ⟨some .soft, rfl, rfl⟩
    | gnssHard => exact ⟨some .hard, rfl, rfl⟩
    | gnssCold => exact ⟨some .cold, rfl, rfl⟩
    | resetUbloxSerial => exact ⟨some .resetSerial, rfl, rfl⟩
    | _ => exact ⟨none, rfl, rfl⟩
  · exact ⟨none, rfl, rfl⟩

/-- A request about the receiver is an action of the mailbox. -/
theorem gnssCommand_of_taken {effect : MainEffect D} (h : effect.taken = none) :
    effect.gnssCommand = none := by
  cases effect with
  | takeRequest request => cases request <;> first | rfl | cases h
  | _ => rfl

/-- **What an iteration hands over**: at most one action, the one its commands ask for. -/
theorem mainIteration_actions (cfg : MainConfig) (env : MainEnv D) (st : MainState D)
    (request : MonitoringRequest) :
    ∃ set : Option GnssAction,
      (mainIteration cfg env st request).effects.filterMap MainEffect.gnssAction = set.toList ∧
        (mainIteration cfg env st request).effects.filterMap MainEffect.gnssCommand
          = gnssPerform set := by
  obtain ⟨body, input, huses, hcases⟩ := mainIteration_effects cfg env st request
  have haction : body.filterMap MainEffect.gnssAction = [] :=
    List.filterMap_eq_nil_iff.mpr fun effect hmem => (huses effect hmem).gnssAction
  have hcommand : body.filterMap MainEffect.gnssCommand = [] :=
    List.filterMap_eq_nil_iff.mpr fun effect hmem => gnssCommand_of_taken (huses effect hmem).taken
  rcases hcases with ⟨heffects, -⟩ | ⟨st', heffects, -⟩
  · rw [heffects, haction, hcommand]
    exact ⟨none, rfl, rfl⟩
  · simp only [heffects, List.filterMap_append, haction, hcommand, List.nil_append]
    exact monitoringPart_actions cfg env st' request

/-- An iteration conserves the commands exactly when it takes none that is lost. -/
theorem actionsLaw_iteration_iff (cfg : MainConfig) {s : ActionsState D} (hinv : ActionsInv s)
    (h : ActionsLaw s) (env : MainEnv D) (request : MonitoringRequest) :
    ActionsLaw (actionsStep cfg s (.iteration env request)) ↔
      ActionsKept cfg s (.iteration env request) := by
  by_cases hrunning : s.running = true
  · obtain ⟨set, haction, hcommand⟩ := mainIteration_actions cfg env s.main request
    have horder := order_setAction_iff set h.order
    have hthread : s.thread ≠ .ended := by
      intro hended
      have hleft := hinv.left (hinv.stopped hended)
      rw [hrunning] at hleft
      cases hleft
    have hlaw : ActionsLaw (actionsStep cfg s (.iteration env request)) ↔
        s.requested ++ gnssPerform set
          = s.performed ++ gnssPerform (set.toList.foldl gnssSetAction s.action) := by
      simp only [actionsStep, hrunning, if_true, haction, hcommand]
      exact ⟨fun hlaw => hlaw.order, fun heq => ⟨heq, fun hended => absurd hended hthread⟩⟩
    rw [hlaw, horder]
    simp [ActionsKept, hrunning, hcommand]
  · simp [actionsStep, ActionsKept, hrunning, h]

/-- A thread that finds itself stopped at its beginning leaves what the slot holds. -/
theorem actionsLaw_pass_iff_of_starting (cfg : MainConfig) {s : ActionsState D}
    (h : ActionsLaw s) (hthread : s.thread = .starting) :
    ActionsLaw (actionsStep cfg s .pass) ↔ ActionsKept cfg s .pass := by
  have horder := h.order
  cases hstop : s.stop
  · refine iff_of_true ?_ (by simp [ActionsKept, hstop])
    simp only [actionsStep, hthread, hstop]
    exact ⟨horder, nofun⟩
  · simp only [actionsStep, hthread, hstop, ActionsKept, if_true, true_imp_iff]
    constructor
    · intro hlaw
      have hended : s.performed = s.requested := hlaw.ended rfl
      rw [← hended] at horder
      exact gnssPerform_eq_nil_iff.mp (List.append_right_eq_self.mp horder.symm)
    · intro hnone
      refine ⟨horder, fun _ => ?_⟩
      change s.performed = s.requested
      rw [horder, hnone]
      exact (List.append_nil _).symm

/-- **The step of the conservation law.** -/
theorem actionsLaw_step_iff (cfg : MainConfig) (s : ActionsState D) (e : ActionsEvent D)
    (hinv : ActionsInv s) (h : ActionsLaw s) :
    ActionsLaw (actionsStep cfg s e) ↔ ActionsKept cfg s e := by
  cases e with
  | iteration env request => exact actionsLaw_iteration_iff cfg hinv h env request
  | stop => exact iff_of_true ⟨h.order, h.ended⟩ trivial
  | pass =>
    rcases hthread : s.thread
    · exact actionsLaw_pass_iff_of_starting cfg h hthread
    · -- what the slot held is performed
      refine iff_of_true ?_ (by simp [ActionsKept, hthread])
      simp only [actionsStep, hthread]
      refine ⟨?_, fun _ => h.order.symm⟩
      rw [h.order]
      exact (List.append_nil _).symm
    · refine iff_of_true ?_ (by simp [ActionsKept, hthread])
      simp only [actionsStep, hthread]
      exact h

/-- **Every command is performed once, in order, and no other.** Whatever requests the main loop
takes and however its iterations and the passes of the GNSS thread interleave: commands are
conserved throughout a run exactly when no request for a reset of the serial link is taken, none is
taken while the slot holds an action, and the thread does not find itself stopped at its beginning
with an action in the slot. -/
theorem actionsLaw_throughout_iff (cfg : MainConfig) (main : MainState D)
    (es : List (ActionsEvent D)) :
    Throughout (actionsStep cfg) ActionsLaw (actionsStart main) es ↔
      EachStep (actionsStep cfg) (ActionsKept cfg) (actionsStart main) es :=
  throughout_iff_eachStep (J := ActionsInv) ⟨nofun, nofun⟩ ⟨rfl, nofun⟩
    (actionsInv_step cfg) (actionsLaw_step_iff cfg)

/-- The daemon only monitors its oscillator. -/
def mainConfigMonitorOnly : MainConfig :=
  { discipliningMode := false, monitoringMode := true, phaseErrorSupported := false, sign := 1 }

/-- An iteration in which every call of a daemon that only monitors succeeds. -/
def mainEnvMonitorOnly : MainEnv D :=
  { phasemeter := ⟨.init, 0⟩
    epochData := none
    attributes := .read 40 true
    ctrl := { succeeded := true, fineCtrl := some 2400, coarseCtrl := some 2000000 }
    odProcess := none
    clockAdjusted := true
    calibrationParameters := none
    calibrate := none
    loopAfterCalibrate := true
    odGetDiscipliningParameters := id
    endSaveEepromParameters := 0
    fixInfo := (true, ⟨0, 0⟩)
    odGetMonitoringData := none
    oscillatorPhaseError := id
    oscillatorDiscipliningStatus := id }

/-- A peer asks for a reset of the serial link, and the GNSS thread never hears of it. -/
theorem actionsLaw_fails_resetSerial :
    ¬ Throughout (actionsStep mainConfigMonitorOnly) ActionsLaw (actionsStart (mainStateZero ()))
        [.iteration mainEnvMonitorOnly .resetUbloxSerial, .pass, .pass] := by
  intro h
  have horder : [GnssCommand.resetSerial] = [] := h.last.order
  cases horder

end Oscillatord
