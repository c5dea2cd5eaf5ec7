import Oscillatord.Daemon.SaveThread
import Oscillatord.Eeprom.EepromConfig
import Oscillatord.Eeprom.PackedLayout

/-!
# The three ways the daemon saves its parameters

The main loop saves the disciplining parameters when the algorithm asks for it, a save thread when
it is started, and the shutdown once at the end. Each asks the library for the parameters and
writes them to the files; the thread and the shutdown write nothing when the library fails, and
the main loop goes on with whatever the call has left in its own variable.

A run is one of the daemon, with what each call of the library returns, the steps of the save
threads interleaved with those of the main thread. `SavePathsLaw` is that a save writes what the
library has returned to it, but for the date, and touches no file otherwise. It holds throughout
the runs in which the library does not fail at a save of the main loop, and in no others
(`savePathsLaw_throughout_iff`).
-/

namespace Oscillatord

open ObjectRep StepRun

/-! ### One save -/

/-- A call of `od_get_disciplining_parameters`: its return value, and what it leaves in its
output. -/
structure OdGet (D : Type) where
  ret : ℤ
  dscParams : D

variable (M : Minipod)

/-- What a save meets: the call of the library, the clock, and the writes of the two files. -/
structure SaveCall where
  get : OdGet (DiscipliningParameters M.toMinipodTypes)
  now : M.Date
  configOutcome : WriteOutcome
  tableOutcome : WriteOutcome

/-- A save that was made: the call of the library, the parameters handed to
`write_disciplining_parameters_in_eeprom`, if it was called, and the files before and after. -/
structure SaveOperation where
  get : OdGet (DiscipliningParameters M.toMinipodTypes)
  written : Option (DiscipliningParameters M.toMinipodTypes)
  before : EepromFile × EepromFile
  after : EepromFile × EepromFile

variable {M}

/-- The assignment of `calibration_date`. -/
def DiscipliningParameters.withDate {T : MinipodTypes} (p : DiscipliningParameters T)
    (date : T.Date) : DiscipliningParameters T :=
  { p with dscConfig := { p.dscConfig with calibrationDate := date } }

/-- `save_disciplining_parameters`, which the threads run, and the save of the shutdown: the
parameters they write, if they do. -/
def saveDiscipliningParameters {D : Type} (get : OdGet D) : Option D :=
  if get.ret ≠ 0 then none else some get.dscParams

/-- The main loop only logs the failure of the library: its variable is what the call has left, with
the date of the save. -/
def MainEnv.withSave (env : MainEnv (DiscipliningParameters M.toMinipodTypes)) (call : SaveCall M) :
    MainEnv (DiscipliningParameters M.toMinipodTypes) :=
  { env with odGetDiscipliningParameters := fun _ => call.get.dscParams.withDate call.now }

/-- The parameters an effect of the main loop writes. -/
def MainEffect.written {D : Type} : MainEffect D → Option D
  | .writeDiscipliningParameters dscParams => some dscParams
  | _ => none

/-! ### Runs of the daemon -/

variable (M) in
/-- The daemon, what each save thread is about to write, the files, and the saves made so far. -/
structure SavePathsState where
  life : LifecycleState (DiscipliningParameters M.toMinipodTypes)
  pending : ℕ → Option (OdGet (DiscipliningParameters M.toMinipodTypes))
  files : EepromFile × EepromFile
  saves : List (SaveOperation M)

variable (M) in
/-- A step: an iteration of the main loop, a signal, the next call of the shutdown, or one of the
two calls of a save thread. -/
inductive SavePathsEvent
  | iteration (env : MainEnv (DiscipliningParameters M.toMinipodTypes))
      (request : MonitoringRequest) (created : List Bool) (call : SaveCall M)
  | signal
  | shutdown (call : SaveCall M)
  | threadGet (i : ℕ) (get : OdGet (DiscipliningParameters M.toMinipodTypes))
  | threadWrite (i : ℕ) (configOutcome tableOutcome : WriteOutcome)

/-- A save is made: the files are written if there are parameters to write. -/
def SavePathsState.save (s : SavePathsState M)
    (get : OdGet (DiscipliningParameters M.toMinipodTypes))
    (configOutcome tableOutcome : WriteOutcome)
    (written : Option (DiscipliningParameters M.toMinipodTypes)) : SavePathsState M :=
  let files := match written with
    | none => s.files
    | some p => (writeDiscipliningParametersInEeprom M configOutcome tableOutcome s.files.1
        s.files.2 (some p)).2
  { s with files, saves := ⟨get, written, s.files, files⟩ :: s.saves }

/-- Save thread `i` has run to its end. -/
def SavePathsState.endThread (s : SavePathsState M) (cfg : MainConfig) (i : ℕ) :
    SavePathsState M :=
  { s with
    life := lifecycleStep cfg s.life (.terminate i)
    pending := Function.update s.pending i none }

/-- One step. -/
def savePathsStep (cfg : MainConfig) (s : SavePathsState M) : SavePathsEvent M → SavePathsState M
  | .iteration env request created call =>
    -- the variable of `main` is written, whether the call of the library has failed or not
    let env := env.withSave call
    let life := lifecycleStep cfg s.life (.iteration env request created)
    if s.life.point = .loop then
      let written :=
        (mainIteration cfg env s.life.main request).effects.filterMap MainEffect.written
      { written.foldl (fun s p => s.save call.get call.configOutcome call.tableOutcome (some p)) s
        with life }
    else { s with life }
  | .signal => { s with life := lifecycleStep cfg s.life .signal }
  | .shutdown call =>
    let life := lifecycleStep cfg s.life (.shutdown (decide (call.get.ret = 0)))
    if s.life.point = .write then
      { s.save call.get call.configOutcome call.tableOutcome (saveDiscipliningParameters call.get)
        with life }
    else { s with life }
  | .threadGet i get =>
    if s.life.threads.terminated[i]? = some false ∧ s.pending i = none then
      match saveDiscipliningParameters get with
      -- a thread whose call has failed ends without a write
      | none => (s.save get .openFails .openFails none).endThread cfg i
      | some _ => { s with pending := Function.update s.pending i (some get) }
    else s
  | .threadWrite i configOutcome tableOutcome =>
    match s.pending i with
    | none => s
    | some get => (s.save get configOutcome tableOutcome (some get.dscParams)).endThread cfg i

/-- The daemon as it enters the main loop. -/
def savePathsStart (cfg : MainConfig) (main : MainState (DiscipliningParameters M.toMinipodTypes))
    (files : EepromFile × EepromFile) : SavePathsState M :=
  { life := lifecycleStart cfg main, pending := fun _ => none, files, saves := [] }

/-! ### The law -/

/-- A save writes the parameters its own call of the library has returned, but for the date, and
touches no file when that call has failed. -/
structure SaveOperation.Lawful (op : SaveOperation M) : Prop where
  written : ∀ p, op.written = some p → op.get.ret = 0 ∧ ∃ date, p = op.get.dscParams.withDate date
  failed : op.get.ret ≠ 0 → op.after = op.before

/-- **The law of the save paths.** -/
def SavePathsLaw (s : SavePathsState M) : Prop := ∀ op ∈ s.saves, op.Lawful

/-- The iteration gets to a save: in disciplining mode everything is read, and the algorithm asks
for the save. -/
def SavesInIteration {D : Type} (cfg : MainConfig) (env : MainEnv D) (st : MainState D) : Prop :=
  cfg.discipliningMode = true ∧ (acquire cfg env st).2 = .proceed ∧
    ∃ output, env.odProcess = some output ∧ output.action = .saveDiscipliningParameters

/-- The library does not fail at a save of the main loop. -/
def SavePathsKept (cfg : MainConfig) (s : SavePathsState M) : SavePathsEvent M → Prop
  | .iteration env _ _ call => s.life.point = .loop →
      SavesInIteration cfg env s.life.main → call.get.ret = 0
  | .signal | .shutdown _ | .threadGet _ _ | .threadWrite _ _ _ => True

/-! ### What an iteration writes -/

section Iteration

variable {D : Type} {cfg : MainConfig} {env : MainEnv D} {st : MainState D}

theorem written_executeRequest (st : MainState D) (request : MonitoringRequest) :
    (executeRequest st request).2.filterMap MainEffect.written = [] := by
  cases request <;> rfl

theorem written_monitoringPart (cfg : MainConfig) (env : MainEnv D) (st : MainState D)
    (request : MonitoringRequest) :
    (monitoringPart cfg env st request).2.2.filterMap MainEffect.written = [] := by
  rw [monitoringPart]
  split_ifs
  · exact written_executeRequest _ request
  · rfl

theorem written_periodicSave (env : MainEnv D) (st : MainState D) :
    (periodicSave env st).2.filterMap MainEffect.written = [] := by
  rw [periodicSave]
  split_ifs <;> rfl

theorem written_monitorOnly (cfg : MainConfig) (env : MainEnv D) (st : MainState D) :
    (monitorOnly cfg env st).2.1.filterMap MainEffect.written = [] := by
  have hpushed : (if cfg.phaseErrorSupported then
      [MainEffect.pushGnssInfo (D := D) env.fixInfo.1 env.fixInfo.2] else []).filterMap
        MainEffect.written = [] := by
    split_ifs <;> rfl
  simp only [monitorOnly]
  rcases parseAttributes st.oscAttr env.attributes with _ | oscAttr
  · rfl
  · exact hpushed

/-- The branches on the action write when it is to save, and go on with the loop then. -/
theorem written_applyAction (cfg : MainConfig) (env : MainEnv D) (st : MainState D)
    (output : OdOutput) :
    (applyAction cfg env st output).2.1.filterMap MainEffect.written
      = if output.action = .saveDiscipliningParameters then
          [env.odGetDiscipliningParameters st.dscParams]
        else [] := by
  obtain ⟨action, setpoint, valuePhaseCtrl⟩ := output
  cases action with
  | phaseJump =>
    simp only [applyAction, reduceCtorEq, if_false]
    split_ifs <;> rfl
  | calibrate =>
    have hpublished : (if cfg.monitoringMode then [MainEffect.publishDisciplining (D := D)]
        else []).filterMap MainEffect.written = [] := by
      split_ifs <;> rfl
    simp only [applyAction, reduceCtorEq, if_false]
    cases env.calibrationParameters with
    | none => exact hpublished
    | some calibParams =>
      dsimp only
      split
      · simp only [List.filterMap_append, hpublished]
        rfl
      · simp only [List.filterMap_append, hpublished]
        rfl
  | saveDiscipliningParameters => rfl
  | noOp => rfl
  | adjustFine => rfl
  | adjustCoarse => rfl
  | unlisted code => rfl

theorem written_process (cfg : MainConfig) (env : MainEnv D) (st : MainState D) :
    (process cfg env st).2.1.filterMap MainEffect.written
      = match env.odProcess with
        | some output =>
          if output.action = .saveDiscipliningParameters then
            [env.odGetDiscipliningParameters st.dscParams]
          else []
        | none => [] := by
  simp only [process]
  cases env.odProcess with
  | none => rfl
  | some output =>
    have hwritten := written_applyAction cfg env { st with input := odInputZero } output
    rcases happly : applyAction cfg env { st with input := odInputZero } output
      with ⟨st', effects, flow⟩
    rw [happly] at hwritten
    dsimp only
    rw [happly]
    -- the call of `od_process` writes nothing, so that only the branches on its action are left
    have hcalled : ([MainEffect.odProcess st.input] ++ effects).filterMap MainEffect.written = _ :=
      hwritten
    cases flow with
    | proceed =>
      simp only [List.filterMap_append, written_periodicSave, List.append_nil]
      exact hcalled
    | continueLoop => exact hcalled
    | breakLoop => exact hcalled
    | exitProcess => exact hcalled

/-- The end of the body writes nothing. -/
theorem written_finishIteration (request : MonitoringRequest)
    (body : MainState D × List (MainEffect D) × Flow) :
    (finishIteration cfg env request body).effects.filterMap MainEffect.written
      = body.2.1.filterMap MainEffect.written := by
  obtain ⟨st', effects, flow⟩ := body
  cases flow with
  | proceed =>
    have hpart := written_monitoringPart cfg env st' request
    simp only [finishIteration, List.filterMap_append, hpart, List.append_nil]
  | continueLoop => rfl
  | breakLoop => rfl
  | exitProcess => rfl

variable (cfg env st) in
/-- **What an iteration writes** is what the call of the library has left, when it gets to a save,
and nothing otherwise. -/
theorem written_mainIteration (request : MonitoringRequest) :
    (SavesInIteration cfg env st ∧ ∃ dscParams,
        (mainIteration cfg env st request).effects.filterMap MainEffect.written
          = [env.odGetDiscipliningParameters dscParams]) ∨
      (¬ SavesInIteration cfg env st ∧
        (mainIteration cfg env st request).effects.filterMap MainEffect.written = []) := by
  rw [mainIteration, written_finishIteration]
  by_cases hmode : cfg.discipliningMode = true
  · rw [if_pos hmode]
    rcases hacquire : acquire cfg env st with ⟨st', flow⟩
    by_cases hflow : flow = .proceed
    · subst hflow
      have hprocess := written_process cfg env st'
      cases houtput : env.odProcess with
      | none =>
        rw [houtput] at hprocess
        refine .inr ⟨?_, hprocess⟩
        rintro ⟨-, -, output, hsome, -⟩
        rw [houtput] at hsome
        cases hsome
      | some output =>
        rw [houtput] at hprocess
        by_cases haction : output.action = .saveDiscipliningParameters
        · refine .inl ⟨⟨hmode, by rw [hacquire], output, houtput, haction⟩, st'.dscParams, ?_⟩
          exact hprocess.trans (if_pos haction)
        · refine .inr ⟨?_, hprocess.trans (if_neg haction)⟩
          rintro ⟨-, -, output', hsome, haction'⟩
          rw [houtput] at hsome
          obtain rfl := Option.some.inj hsome
          exact haction haction'
    -- the iteration leaves its body before `od_process`, in one of three ways
    · refine .inr ⟨?_, ?_⟩
      · rintro ⟨-, hproceed, -⟩
        rw [hacquire] at hproceed
        exact hflow hproceed
      · cases flow with
        | proceed => exact absurd rfl hflow
        | continueLoop => rfl
        | breakLoop => rfl
        | exitProcess => rfl
  · rw [if_neg hmode]
    exact .inr ⟨fun h => hmode h.1, written_monitorOnly cfg env st⟩

end Iteration

/-! ### What a step does to the saves -/

section Step

variable {cfg : MainConfig} {s : SavePathsState M}
  {get : OdGet (DiscipliningParameters M.toMinipodTypes)}
  {configOutcome tableOutcome : WriteOutcome}
  {written : Option (DiscipliningParameters M.toMinipodTypes)}

theorem DiscipliningParameters.withDate_self {T : MinipodTypes} (p : DiscipliningParameters T) :
    p.withDate p.dscConfig.calibrationDate = p := rfl

theorem saveDiscipliningParameters_eq_some {p : DiscipliningParameters M.toMinipodTypes} :
    saveDiscipliningParameters get = some p ↔ get.ret = 0 ∧ get.dscParams = p := by
  rw [saveDiscipliningParameters]
  by_cases hret : get.ret = 0 <;> simp [hret]

/-- The save made by `save`. -/
def SavePathsState.operation (s : SavePathsState M)
    (get : OdGet (DiscipliningParameters M.toMinipodTypes))
    (configOutcome tableOutcome : WriteOutcome)
    (written : Option (DiscipliningParameters M.toMinipodTypes)) : SaveOperation M :=
  ⟨get, written, s.files, (s.save get configOutcome tableOutcome written).files⟩

theorem savePathsLaw_save_iff (h : SavePathsLaw s) :
    SavePathsLaw (s.save get configOutcome tableOutcome written) ↔
      (s.operation get configOutcome tableOutcome written).Lawful := by
  constructor
  · intro hlaw
    exact hlaw _ List.mem_cons_self
  · intro hop op hmem
    rcases List.mem_cons.mp hmem with rfl | hmem
    · exact hop
    · exact h op hmem

/-- A save of what the library has returned is lawful. -/
theorem lawful_operation_of_ret {date : M.Date} (hret : get.ret = 0) :
    (s.operation get configOutcome tableOutcome (some (get.dscParams.withDate date))).Lawful where
  written p hp := by
    obtain rfl := Option.some.inj hp
    exact ⟨hret, date, rfl⟩
  failed hfailed := absurd hret hfailed

/-- A save that writes nothing is lawful. -/
theorem lawful_operation_none : (s.operation get configOutcome tableOutcome none).Lawful where
  written p hp := by cases hp
  failed _ := rfl

/-- The thread and the shutdown write nothing when the library fails. -/
theorem lawful_operation_saveDiscipliningParameters :
    (s.operation get configOutcome tableOutcome (saveDiscipliningParameters get)).Lawful := by
  rcases hsave : saveDiscipliningParameters get with _ | p
  · exact lawful_operation_none
  · obtain ⟨hret, rfl⟩ := saveDiscipliningParameters_eq_some.mp hsave
    exact lawful_operation_of_ret hret

/-- The law does not look at where the main thread is, nor at what is about to be written. -/
theorem savePathsLaw_congr {s' : SavePathsState M} (hsaves : s'.saves = s.saves) :
    SavePathsLaw s' ↔ SavePathsLaw s := by
  rw [SavePathsLaw, SavePathsLaw, hsaves]

/-- What a save thread is about to write was returned to it by the library. -/
def PendingReturned (s : SavePathsState M) : Prop :=
  ∀ i get, s.pending i = some get → get.ret = 0

theorem pendingReturned_update {s' : SavePathsState M} (h : PendingReturned s) {i : ℕ}
    {pending : Option (OdGet (DiscipliningParameters M.toMinipodTypes))}
    (hpending : s'.pending = Function.update s.pending i pending)
    (hret : ∀ get, pending = some get → get.ret = 0) : PendingReturned s' := by
  intro j get hj
  rw [hpending, Function.update_apply] at hj
  split_ifs at hj with hji
  · exact hret get hj
  · exact h j get hj

/-- The saves of the main loop leave what the threads are about to write. -/
theorem pending_foldl_save (get : OdGet (DiscipliningParameters M.toMinipodTypes))
    (configOutcome tableOutcome : WriteOutcome)
    (written : List (DiscipliningParameters M.toMinipodTypes)) (s : SavePathsState M) :
    (written.foldl (fun s p => s.save get configOutcome tableOutcome (some p)) s).pending
      = s.pending := by
  induction written generalizing s with
  | nil => rfl
  | cons p written ih => exact ih _

/-- Every step keeps what the threads are about to write returned. -/
theorem pendingReturned_step (cfg : MainConfig) (s : SavePathsState M) (e : SavePathsEvent M)
    (h : PendingReturned s) : PendingReturned (savePathsStep cfg s e) := by
  cases e with
  | iteration env request created call =>
    intro i get hi
    simp only [savePathsStep] at hi
    split_ifs at hi
    · exact h i get ((congrFun (pending_foldl_save _ _ _ _ s) i).symm.trans hi)
    · exact h i get hi
  | signal => exact h
  | shutdown call =>
    simp only [savePathsStep]
    split_ifs <;> exact h
  | threadGet i get =>
    simp only [savePathsStep]
    split_ifs
    · rcases hsave : saveDiscipliningParameters get with _ | p
      · exact pendingReturned_update h rfl nofun
      -- only here is anything kept for a later write, and only what was returned
      · refine pendingReturned_update h rfl fun get' hget => ?_
        obtain rfl := Option.some.inj hget
        exact (saveDiscipliningParameters_eq_some.mp hsave).1
    · exact h
  | threadWrite i configOutcome tableOutcome =>
    simp only [savePathsStep]
    split
    · exact h
    · exact pendingReturned_update h rfl nofun

/-- A save of the main loop is lawful exactly when the library has not failed. -/
theorem savePathsLaw_iteration_iff (hlaw : SavePathsLaw s)
    (env : MainEnv (DiscipliningParameters M.toMinipodTypes)) (request : MonitoringRequest)
    (created : List Bool) (call : SaveCall M) :
    SavePathsLaw (savePathsStep cfg s (.iteration env request created call)) ↔
      SavePathsKept cfg s (.iteration env request created call) := by
  by_cases hloop : s.life.point = .loop
  · simp only [savePathsStep, SavePathsKept, hloop, if_true, forall_const]
    rcases written_mainIteration cfg (env.withSave call) s.life.main request
      with ⟨hsaves, dscParams, hwritten⟩ | ⟨hnot, hwritten⟩
    · rw [hwritten, List.foldl_cons, List.foldl_nil]
      -- there is one save, whose parameters are those the call has left, with the date of the save
      refine (savePathsLaw_congr (s := s.save call.get _ _ _) rfl).trans ?_
      refine (savePathsLaw_save_iff hlaw).trans ?_
      constructor
      · intro hop _
        exact (hop.written _ rfl).1
      · intro hret
        exact lawful_operation_of_ret (hret hsaves)
    · rw [hwritten, List.foldl_nil, savePathsLaw_congr rfl]
      exact iff_of_true hlaw fun hsaves => absurd hsaves hnot
  · simp only [savePathsStep, if_neg hloop]
    exact iff_of_true hlaw fun hloop' => absurd hloop' hloop

/-- **One step** keeps the law exactly when the library does not fail at a save of the main
loop. -/
theorem savePathsLaw_step_iff (cfg : MainConfig) (s : SavePathsState M) (e : SavePathsEvent M)
    (hpending : PendingReturned s) (hlaw : SavePathsLaw s) :
    SavePathsLaw (savePathsStep cfg s e) ↔ SavePathsKept cfg s e := by
  cases e with
  | iteration env request created call =>
    exact savePathsLaw_iteration_iff hlaw env request created call
  | signal => exact iff_of_true hlaw trivial
  | shutdown call =>
    refine iff_of_true ?_ trivial
    simp only [savePathsStep]
    split_ifs
    · exact (savePathsLaw_congr rfl).mpr
        ((savePathsLaw_save_iff hlaw).mpr lawful_operation_saveDiscipliningParameters)
    · exact hlaw
  | threadGet i get =>
    refine iff_of_true ?_ trivial
    simp only [savePathsStep]
    split_ifs
    · split
      · refine (savePathsLaw_congr (s := s.save get .openFails .openFails none) rfl).mpr ?_
        exact (savePathsLaw_save_iff hlaw).mpr lawful_operation_none
      · exact hlaw
    · exact hlaw
  | threadWrite i configOutcome tableOutcome =>
    refine iff_of_true ?_ trivial
    simp only [savePathsStep]
    split
    · exact hlaw
    · rename_i get hget
      -- the call was an earlier step of the thread, and has succeeded by `PendingReturned`
      have hret : get.ret = 0 := hpending i get hget
      rw [← get.dscParams.withDate_self]
      exact (savePathsLaw_congr rfl).mpr
        ((savePathsLaw_save_iff hlaw).mpr (lawful_operation_of_ret hret))

end Step

/-- **The save paths.** For every mode, every interleaving of the main thread with the save
threads, and whatever the library and the writes return: every save of a run obeys the law exactly
when the library does not fail at a save of the main loop. -/
theorem savePathsLaw_throughout_iff (cfg : MainConfig)
    (main : MainState (DiscipliningParameters M.toMinipodTypes)) (files : EepromFile × EepromFile)
    (es : List (SavePathsEvent M)) :
    Throughout (savePathsStep cfg) SavePathsLaw (savePathsStart cfg main files) es ↔
      EachStep (savePathsStep cfg) (SavePathsKept cfg) (savePathsStart cfg main files) es := by
  refine throughout_iff_eachStep (J := PendingReturned) ?_ ?_ (pendingReturned_step cfg)
    (savePathsLaw_step_iff cfg)
  · intro i get hi
    cases hi
  · intro op hop
    cases hop

/-- The algorithm asks for a save, and the library fails to return the parameters. -/
def failedSaveEnv : MainEnv (DiscipliningParameters packed.toMinipodTypes) where
  phasemeter := { status := .bothTimestamps, phaseError := 0 }
  epochData := some { valid := true, survey := true, qErr := 0 }
  attributes := .read 0 true
  ctrl := { succeeded := true, fineCtrl := some 0, coarseCtrl := some 0 }
  odProcess := some { action := .saveDiscipliningParameters, setpoint := 0, valuePhaseCtrl := 0 }
  clockAdjusted := true
  calibrationParameters := none
  calibrate := .none
  loopAfterCalibrate := true
  odGetDiscipliningParameters := id
  endSaveEepromParameters := 0
  fixInfo := (true, ⟨0, 0⟩)
  odGetMonitoringData := none
  oscillatorPhaseError := id
  oscillatorDiscipliningStatus := id

/-- The library fails at the first save of the main loop: what is in the variable of `main` is
written. -/
theorem savePathsLaw_fails_library_failure :
    ¬ Throughout (savePathsStep ⟨true, true, false, 1⟩) SavePathsLaw
        (savePathsStart ⟨true, true, false, 1⟩ (mainStateZero parametersBlank) (none, none))
        [.iteration failedSaveEnv .none []
          ⟨⟨-1, parametersBlank⟩, fun _ => 0, .written 143, .written 26⟩] := by
  intro h
  have hop := h.last _ List.mem_cons_self
  have hret : (-1 : ℤ) = 0 := (hop.written _ rfl).1
  exact absurd hret (by decide)

end Oscillatord
