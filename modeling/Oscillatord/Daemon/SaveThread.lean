import Oscillatord.Daemon.Effects
import Oscillatord.Library.Runs

/-!
# The life of the save threads

The main loop starts a thread to save the parameters every hour, and for every request to save
them. One handle, `save_dsc_params_thread`, stands for all of them: each creation overwrites it,
and the shutdown in disciplining mode joins whatever it names before it writes the parameters a
last time and destroys the algorithm.

`LifecycleLaw` is what each step of a run should keep: a thread is only started while there is an
algorithm to save the parameters of, the join is on a thread that was created and not joined, and
the last write and the destruction find every thread terminated. It holds of a step exactly when
the step meets `LifecycleKept` (`lifecycleLaw_iff`): no request to save is taken without
disciplining, there is a thread to join, and no thread but the last one created outlives the join.
-/

namespace Oscillatord

open StepRun

variable {D : Type} {cfg : MainConfig} {env : MainEnv D} {st : MainState D}
  {request : MonitoringRequest}

/-! ### Threads and their handle -/

/-- The save threads: of each one created so far whether it has terminated, the one the handle
names, and those that were joined. Fresh memory, and a creation that fails, leave no thread in the
handle. -/
structure SaveThreads where
  terminated : List Bool
  handle : Option ℕ
  joined : List ℕ
  deriving Repr, DecidableEq

/-- `pthread_create`. -/
def SaveThreads.create (threads : SaveThreads) (created : Bool) : SaveThreads :=
  if created then
    { threads with
      terminated := threads.terminated ++ [false], handle := some threads.terminated.length }
  else { threads with handle := none }

/-- The threads an iteration starts; `created` gives the results of the calls, in order, and the
calls beyond it succeed. -/
def SaveThreads.start (threads : SaveThreads) :
    List (MainEffect D) → List Bool → SaveThreads
  | [], _ => threads
  | .startSaveThread :: effects, created =>
    (threads.create (created.headD true)).start effects created.tail
  | _ :: effects, created => threads.start effects created

/-- Thread `i` has run to its end. -/
def SaveThreads.HasTerminated (threads : SaveThreads) (i : ℕ) : Prop :=
  threads.terminated[i]? = some true

/-- Every thread created has run to its end. -/
def SaveThreads.AllTerminated (threads : SaveThreads) : Prop :=
  ∀ terminated ∈ threads.terminated, terminated = true

/-! ### The main thread -/

/-- Where the main thread is: in its loop, at one of the calls of the shutdown in disciplining
mode, or out of them. -/
inductive MainPoint
  | loop
  | join
  | stopPhasemeter
  | write
  | destroy
  | finished
  deriving Repr, DecidableEq

/-- The daemon: the main thread, whether there is an algorithm, and the save threads. -/
structure LifecycleState (D : Type) where
  main : MainState D
  point : MainPoint
  od : Bool
  threads : SaveThreads

/-- A step: an iteration of the main loop, with what the slot of requests holds and the results of
its creations; a signal, which ends the loop; the next call of the shutdown, with the outcome of
`od_get_disciplining_parameters`; or the end of a thread. -/
inductive LifecycleEvent (D : Type)
  | iteration (env : MainEnv D) (request : MonitoringRequest) (created : List Bool)
  | signal
  | shutdown (odGot : Bool)
  | terminate (i : ℕ)

/-- Where the main thread goes when it leaves the loop. -/
def leaveLoop (cfg : MainConfig) : MainPoint := if cfg.discipliningMode then .join else .finished

/-- Where an iteration leaves the main thread; `error` exits the process. -/
def pointAfter (cfg : MainConfig) : Flow → MainPoint
  | .proceed | .continueLoop => .loop
  | .breakLoop => leaveLoop cfg
  | .exitProcess => .finished

/-- The calls of the shutdown. `pthread_join` waits for its thread; without a thread in the handle
it is undefined, and goes on here. -/
def shutdownStep (s : LifecycleState D) : LifecycleState D :=
  match s.point with
  | .join =>
    match s.threads.handle with
    | none => { s with point := .stopPhasemeter }
    | some i =>
      if s.threads.terminated[i]? = some true then
        { s with
          point := .stopPhasemeter
          threads := { s.threads with joined := i :: s.threads.joined } }
      else s
  | .stopPhasemeter => { s with point := .write }
  | .write => { s with point := .destroy }
  | .destroy => { s with point := .finished, od := false }
  | .loop | .finished => s

/-- One step. -/
def lifecycleStep (cfg : MainConfig) (s : LifecycleState D) : LifecycleEvent D → LifecycleState D
  | .iteration env request created =>
    if s.point = .loop then
      let outcome := mainIteration cfg env s.main request
      { s with
        main := outcome.state
        point := pointAfter cfg outcome.flow
        threads := s.threads.start outcome.effects created }
    else s
  | .signal => if s.point = .loop then { s with point := leaveLoop cfg } else s
  | .shutdown _ => shutdownStep s
  | .terminate i =>
    { s with threads := { s.threads with terminated := s.threads.terminated.set i true } }

/-- The daemon as it enters the loop: there is an algorithm in disciplining mode only. -/
def lifecycleStart (cfg : MainConfig) (main : MainState D) : LifecycleState D :=
  { main, point := .loop, od := cfg.discipliningMode, threads := ⟨[], none, []⟩ }

/-! ### The law -/

/-- **The law of the save threads**, for one step. -/
def LifecycleLaw (cfg : MainConfig) (s : LifecycleState D) : LifecycleEvent D → Prop
  | .iteration env request created => s.point = .loop → s.od = false →
      (s.threads.start (mainIteration cfg env s.main request).effects created).terminated
        = s.threads.terminated
  | .shutdown odGot =>
    (s.point = .join →
        ∃ i < s.threads.terminated.length, s.threads.handle = some i ∧ i ∉ s.threads.joined) ∧
      (s.point = .write → odGot = true → s.threads.AllTerminated) ∧
      (s.point = .destroy → s.threads.AllTerminated)
  | .signal | .terminate _ => True

/-- Every thread but those that were joined has run to its end. -/
def SaveThreads.OthersTerminated (threads : SaveThreads) : Prop :=
  ∀ i < threads.terminated.length, i ∉ threads.joined → threads.HasTerminated i

/-- Without disciplining, no request to save is taken, unless no thread can be created for it; the
join finds a thread in its handle; and the last write and the destruction find every thread that
was not joined terminated. -/
def LifecycleKept (cfg : MainConfig) (s : LifecycleState D) : LifecycleEvent D → Prop
  | .iteration env request created => s.point = .loop → cfg.discipliningMode = false →
      .takeRequest .saveEeprom ∈ (mainIteration cfg env s.main request).effects →
        created.head? = some false
  | .shutdown odGot =>
    (s.point = .join → s.threads.handle ≠ none) ∧
      (s.point = .write → odGot = true → s.threads.OthersTerminated) ∧
      (s.point = .destroy → s.threads.OthersTerminated)
  | .signal | .terminate _ => True

/-! ### What the shutdown can rely on -/

/-- The handle names a thread that was created, and a joined thread has run to its end. -/
structure SaveThreads.Sound (threads : SaveThreads) : Prop where
  handle : ∀ i, threads.handle = some i → i < threads.terminated.length
  joined : ∀ i ∈ threads.joined, threads.HasTerminated i

/-- The invariant of a run. -/
structure LifecycleInv (cfg : MainConfig) (s : LifecycleState D) : Prop where
  threads : s.threads.Sound
  od : s.point = .loop → s.od = cfg.discipliningMode
  unjoined : s.point = .loop ∨ s.point = .join → s.threads.joined = []

theorem SaveThreads.HasTerminated.append {threads : SaveThreads} {i : ℕ}
    (h : threads.HasTerminated i) (rest : List Bool) :
    (threads.terminated ++ rest)[i]? = some true := by
  obtain ⟨hlt, htrue⟩ := List.getElem?_eq_some_iff.mp h
  rw [List.getElem?_append_left hlt]
  exact h

@[simp] theorem joined_create (threads : SaveThreads) (created : Bool) :
    (threads.create created).joined = threads.joined := by
  rw [SaveThreads.create]
  split_ifs <;> rfl

theorem SaveThreads.Sound.create {threads : SaveThreads} (h : threads.Sound) (created : Bool) :
    (threads.create created).Sound := by
  rw [SaveThreads.create]
  split_ifs
  · refine ⟨fun i hi => ?_, fun i hi => (h.joined i hi).append [false]⟩
    obtain rfl := Option.some.inj hi
    simp
  · refine ⟨fun i hi => ?_, h.joined⟩
    cases hi

/-- Starting threads keeps what was joined. -/
theorem SaveThreads.Sound.start {threads : SaveThreads} (h : threads.Sound)
    (effects : List (MainEffect D)) (created : List Bool) :
    (threads.start effects created).Sound ∧
      (threads.start effects created).joined = threads.joined := by
  fun_induction SaveThreads.start threads effects created with
  | case1 => exact ⟨h, rfl⟩
  | case2 threads effects created ih =>
    obtain ⟨hsound, hjoined⟩ := ih (h.create _)
    exact ⟨hsound, hjoined.trans (joined_create _ _)⟩
  | case3 _ _ _ _ _ ih => exact ih h

theorem SaveThreads.Sound.terminate {threads : SaveThreads} (h : threads.Sound) (i : ℕ) :
    SaveThreads.Sound { threads with terminated := threads.terminated.set i true } := by
  refine ⟨fun j hj => ?_, fun j hj => ?_⟩
  · rw [List.length_set]
    exact h.handle j hj
  · have hlt : j < threads.terminated.length :=
      (List.getElem?_eq_some_iff.mp (h.joined j hj)).1
    rw [SaveThreads.HasTerminated]
    by_cases hij : i = j
    · subst hij
      simp [hlt]
    · rw [List.getElem?_set_ne hij]
      exact h.joined j hj

/-- The thread in the handle is joined once it has run to its end. -/
theorem SaveThreads.Sound.join {threads : SaveThreads} (h : threads.Sound) {i : ℕ}
    (hterminated : threads.HasTerminated i) :
    SaveThreads.Sound { threads with joined := i :: threads.joined } := by
  refine ⟨h.handle, fun j hj => ?_⟩
  rcases List.mem_cons.mp hj with rfl | hj
  · exact hterminated
  · exact h.joined j hj

/-- Past the loop and the join, the invariant is about the threads only. -/
theorem LifecycleInv.of_point {s : LifecycleState D} (h : s.threads.Sound)
    (hloop : s.point ≠ .loop) (hjoin : s.point ≠ .join) : LifecycleInv cfg s :=
  ⟨h, fun hp => absurd hp hloop, fun hp => absurd hp (not_or.mpr ⟨hloop, hjoin⟩)⟩

/-- The calls of the shutdown keep the invariant. -/
theorem lifecycleInv_shutdown {s : LifecycleState D} (h : LifecycleInv cfg s) :
    LifecycleInv cfg (shutdownStep s) := by
  rw [shutdownStep]
  split
  · split
    · exact .of_point h.threads nofun nofun
    · split_ifs with hterminated
      · exact .of_point (h.threads.join hterminated) nofun nofun
      · exact h
  · exact .of_point h.threads nofun nofun
  · exact .of_point h.threads nofun nofun
  · exact .of_point h.threads nofun nofun
  · exact h
  · exact h

/-- Every step keeps the invariant. -/
theorem lifecycleInv_step (cfg : MainConfig) (s : LifecycleState D) (e : LifecycleEvent D)
    (h : LifecycleInv cfg s) : LifecycleInv cfg (lifecycleStep cfg s e) := by
  cases e with
  | iteration env request created =>
    rw [lifecycleStep]
    split_ifs with hloop
    · obtain ⟨hstarted, hjoined⟩ :=
        h.threads.start (mainIteration cfg env s.main request).effects created
      exact ⟨hstarted, fun _ => h.od hloop, fun _ => hjoined.trans (h.unjoined (.inl hloop))⟩
    · exact h
  | signal =>
    rw [lifecycleStep]
    split_ifs with hloop
    · exact ⟨h.threads, fun _ => h.od hloop, fun _ => h.unjoined (.inl hloop)⟩
    · exact h
  | shutdown odGot => exact lifecycleInv_shutdown h
  | terminate i => exact ⟨h.threads.terminate i, h.od, h.unjoined⟩

/-! ### When the law holds -/

/-- Joined threads have run to their end, so all threads have exactly when the others have. -/
theorem SaveThreads.Sound.allTerminated_iff {threads : SaveThreads} (h : threads.Sound) :
    threads.AllTerminated ↔ threads.OthersTerminated := by
  constructor
  · intro hall i hi _
    rw [SaveThreads.HasTerminated, List.getElem?_eq_getElem hi]
    exact congrArg some (hall _ (List.getElem_mem hi))
  · intro hothers terminated hmem
    obtain ⟨i, hi, rfl⟩ := List.mem_iff_getElem.mp hmem
    have hterminated : threads.HasTerminated i := by
      by_cases hjoined : i ∈ threads.joined
      · exact h.joined i hjoined
      · exact hothers i hi hjoined
    rw [SaveThreads.HasTerminated, List.getElem?_eq_getElem hi] at hterminated
    exact Option.some.inj hterminated

/-- The only thread the switch on the request starts is for a request to save. -/
theorem start_executeRequest (st : MainState D) (request : MonitoringRequest)
    (threads : SaveThreads) (created : List Bool) :
    threads.start (executeRequest st request).2 created
      = if request = .saveEeprom then threads.create (created.headD true) else threads := by
  cases request <;> rfl

/-- The monitoring block starts a thread exactly when it takes a request to save, and the thread
can be created. -/
theorem terminated_start_monitoringPart_iff (cfg : MainConfig) (env : MainEnv D)
    (st : MainState D) (request : MonitoringRequest) (threads : SaveThreads)
    (created : List Bool) :
    (threads.start (monitoringPart cfg env st request).2.2 created).terminated
        = threads.terminated ↔
      (.takeRequest .saveEeprom ∈ (monitoringPart cfg env st request).2.2 →
        created.head? = some false) := by
  rw [monitoringPart]
  split_ifs
  · have hstart := start_executeRequest
      { st with oscAttr := (publishedData cfg env st.oscAttr).1 } request threads created
    simp only [SaveThreads.start, hstart]
    by_cases hsave : request = .saveEeprom
    · subst hsave
      rcases created with _ | ⟨_ | _, created⟩ <;> simp [SaveThreads.create]
    · -- no other request leaves an effect that takes one to save
      have htaken : .takeRequest .saveEeprom ∉ (executeRequest
          { st with oscAttr := (publishedData cfg env st.oscAttr).1 } request).2 := by
        cases request <;> simp [executeRequest]
      simp [hsave, htaken, Ne.symm hsave]
  · simp [SaveThreads.start]

/-- Without disciplining, an iteration starts a thread exactly when it takes a request to save, and
the thread can be created. -/
theorem terminated_start_iff (hmode : cfg.discipliningMode = false) (threads : SaveThreads)
    (created : List Bool) :
    (threads.start (mainIteration cfg env st request).effects created).terminated
        = threads.terminated ↔
      (.takeRequest .saveEeprom ∈ (mainIteration cfg env st request).effects →
        created.head? = some false) := by
  simp only [mainIteration, hmode, Bool.false_eq_true, if_false, monitorOnly]
  cases parseAttributes st.oscAttr env.attributes with
  | none => simp [finishIteration, SaveThreads.start]
  | some oscAttr =>
    simp only
    have hpart := terminated_start_monitoringPart_iff cfg env
      { st with oscAttr, ctrlValues := env.ctrl.store st.ctrlValues } request threads created
    cases env.ctrl.succeeded with
    | false =>
      rw [if_neg Bool.false_ne_true]
      split_ifs <;> simp [finishIteration, SaveThreads.start]
    | true =>
      rw [if_pos rfl]
      split_ifs
      · simpa [finishIteration, SaveThreads.start] using hpart
      · exact hpart

/-- **The law of one step** holds exactly when the step meets the condition. -/
theorem lifecycleLaw_iff (cfg : MainConfig) (s : LifecycleState D) (e : LifecycleEvent D)
    (h : LifecycleInv cfg s) : LifecycleLaw cfg s e ↔ LifecycleKept cfg s e := by
  cases e with
  | iteration env request created =>
    refine forall_congr' fun hloop => ?_
    rw [h.od hloop]
    refine forall_congr' fun hmode => ?_
    exact terminated_start_iff hmode s.threads created
  | shutdown odGot =>
    have hall := h.threads.allTerminated_iff
    refine and_congr (forall_congr' fun hjoin => ?_) (by rw [hall])
    rw [h.unjoined (.inr hjoin)]
    constructor
    · rintro ⟨i, -, hi, -⟩ hnone
      rw [hnone] at hi
      cases hi
    · intro hsome
      obtain ⟨i, hi⟩ := Option.ne_none_iff_exists'.mp hsome
      exact ⟨i, h.threads.handle i hi, hi, List.not_mem_nil⟩
  | signal => exact Iff.rfl
  | terminate i => exact Iff.rfl

/-- **The life of the save threads.** Whatever the mode, the number and the timing of the saves
and of the shutdown: every step of a run obeys the law exactly when no request to save is taken
without disciplining, the shutdown in disciplining mode finds a thread to join, and the last write
and the destruction find every thread that was not joined terminated. -/
theorem lifecycleLaw_eachStep_iff (cfg : MainConfig) (main : MainState D)
    (es : List (LifecycleEvent D)) :
    EachStep (lifecycleStep cfg) (LifecycleLaw cfg) (lifecycleStart cfg main) es ↔
      EachStep (lifecycleStep cfg) (LifecycleKept cfg) (lifecycleStart cfg main) es := by
  refine eachStep_congr (J := LifecycleInv cfg) ?_ (lifecycleInv_step cfg)
    (lifecycleLaw_iff cfg)
  exact ⟨⟨nofun, nofun⟩, fun _ => rfl, fun _ => rfl⟩

/-- The daemon is stopped in its first hour, and no peer has asked for a save: the shutdown joins
a thread that was never created. -/
theorem lifecycleLaw_fails_first_hour :
    ¬ EachStep (lifecycleStep ⟨true, true, true, 1⟩) (LifecycleLaw ⟨true, true, true, 1⟩)
        (lifecycleStart ⟨true, true, true, 1⟩ (mainStateZero ())) [.signal, .shutdown true] := by
  intro h
  obtain ⟨i, hi, -⟩ := (h [.signal] (.shutdown true) (List.prefix_refl _)).1 rfl
  exact absurd hi (Nat.not_lt_zero i)

end Oscillatord
