import Oscillatord.Library.Runs

/-!
# The lifecycle of the GNSS object

`gnss_init` allocates `struct gnss`, fills its fields one after the other and creates two threads
on it: the one that accepts RTCM clients, before `mutex_data` is initialised, and `gnss_thread`,
before `main` has assigned `gnss_info`. `gnss_thread` releases the object when it ends, and
`gnss_stop` reads it again after it has joined that thread.

Each of the three threads is a sequence of stages; an event of `gnssLifecycleStep` says which thread
goes on and, where its stage has an outcome, which one. `touches` says what the step a thread is
about to take does to the object, and `GnssLifecycleLaw` what it may do. A step obeys the law
exactly when it is `InTime` (`gnssLifecycleLaw_eachStep_iff`): the first client of the accept
thread, the first report of `gnss_thread` and everything after its end come late enough, or never.
No run in which `gnss_stop` returns is of that kind (`not_eachStep_gnssLifecycleLaw_of_done`).
-/

namespace Oscillatord

open StepRun

/-! ### The threads -/

/-- Where the main thread is: in `gnss_init` up to `gnssThread`, before the assignment of
`gnss_info`, in the rest of `main`, in `gnss_stop` from `joining` to `reading`, and in
`rtcm_sock_cleanup`. The error paths of `gnss_init` end the process; they are left before or after
`mutex_data` is initialised. -/
inductive MainStage
  | receiver
  | rtcm
  | configuring
  | socket
  | acceptThread
  | reset
  | mutex
  | gnssThread
  | info
  | running
  | joining
  | waiting
  | reading
  | closing
  | joiningAccept
  | waitingAccept
  | taking
  | done
  | failing (afterMutex : Bool)
  | exiting (afterMutex : Bool)
  deriving Repr, DecidableEq

/-- Where `gnss_thread` is: before the test ahead of its loop, before it receives, forwards an RTCM
frame or drops the client, before it processes the message, reports to `gnss_info` and tests
`stop`, at the end of an iteration, and before it releases the object. -/
inductive GnssStage
  | absent
  | starting
  | receiving
  | forwarding
  | dropping
  | processing
  | reporting
  | testing
  | acting (stop : Bool)
  | releasing
  | finished
  deriving Repr, DecidableEq

/-- Where `rtcm_accept_thread_fn` is: before the test of its loop, before it reads the listening
descriptor, in `accept`, after an error of it, before it swaps in the new client, before it closes
the old one. -/
inductive AcceptStage
  | absent
  | testing
  | calling
  | accepting
  | failed
  | swapping
  | closing
  | finished
  deriving Repr, DecidableEq

/-- The pointer `gnss_info`: null, whatever else `malloc` has left there, or the one `main` has
assigned. -/
inductive InfoPointer
  | null
  | garbage
  | assigned
  deriving Repr, DecidableEq

/-- Who has freed the object: an error path of `gnss_init` or the end of `gnss_thread`. -/
inductive Releaser
  | gnssInit
  | gnssThread
  deriving Repr, DecidableEq

/-- The object and its three threads. A listening descriptor is one that is not `-1`, and a field
keeps its value when the object is freed. -/
structure GnssLifecycle where
  monitoring : Bool
  gnssInfo : InfoPointer
  rtcmEnabled : Bool
  listening : Bool
  rtcmAcceptRunning : Bool
  stop : Bool
  main : MainStage
  gnss : GnssStage
  accept : AcceptStage
  mutexInitialised : Bool
  infoAssigned : Bool
  acceptJoined : Bool
  released : Option Releaser
  deriving Repr, DecidableEq

/-- The fields `malloc` leaves as they were, as far as they are read later. -/
structure GnssContent where
  gnssInfo : Bool
  rtcmEnabled : Bool
  listening : Bool
  rtcmAcceptRunning : Bool
  stop : Bool
  deriving Repr, DecidableEq

/-- The object `malloc` has returned to `gnss_init`, with or without monitoring. -/
def gnssLifecycleStart (monitoring : Bool) (content : GnssContent) : GnssLifecycle :=
  { monitoring
    gnssInfo := if content.gnssInfo then .garbage else .null
    rtcmEnabled := content.rtcmEnabled
    listening := content.listening
    rtcmAcceptRunning := content.rtcmAcceptRunning
    stop := content.stop
    main := .receiver
    gnss := .absent
    accept := .absent
    mutexInitialised := false
    infoAssigned := false
    acceptJoined := false
    released := none }

/-- One step: the thread that goes on and the outcome at its stage, where it has one. -/
inductive GnssLifecycleEvent
  | main (outcome : Bool)
  | gnss (outcome : Bool)
  | accept (outcome : Bool)
  deriving Repr, DecidableEq

/-- A step of `main`, `gnss_init`, `gnss_stop` or `rtcm_sock_cleanup`. The outcome is the success of
the call a stage makes, that RTCM output is configured at `rtcm`, and that `main` goes on using the
object at `running`. -/
def mainStageStep (s : GnssLifecycle) (outcome : Bool) : GnssLifecycle :=
  match s.main with
  | .receiver => { s with main := if outcome then .rtcm else .failing false }
  | .rtcm =>
    { s with
      rtcmEnabled := false
      listening := false
      rtcmAcceptRunning := false
      main := if outcome then .configuring else .reset }
  | .configuring =>
    if outcome then { s with rtcmEnabled := true, main := .socket } else { s with main := .reset }
  | .socket =>
    if outcome then
      { s with listening := true, rtcmAcceptRunning := true, main := .acceptThread }
    else { s with listening := false, main := .reset }
  | .acceptThread =>
    if outcome then { s with accept := .testing, main := .reset }
    else { s with rtcmAcceptRunning := false, listening := false, main := .reset }
  | .reset => { s with stop := false, main := if outcome then .mutex else .failing false }
  | .mutex => { s with mutexInitialised := true, main := .gnssThread }
  | .gnssThread =>
    if outcome then { s with gnss := .starting, main := .info }
    else { s with main := .failing true }
  | .info =>
    if s.monitoring then { s with gnssInfo := .assigned, infoAssigned := true, main := .running }
    else { s with main := .running }
  | .running => if outcome then s else { s with stop := true, main := .joining }
  | .joining => { s with main := .waiting }
  | .waiting => if s.gnss = .finished then { s with main := .reading } else s
  | .reading => { s with main := if s.rtcmEnabled then .closing else .done }
  | .closing => { s with rtcmAcceptRunning := false, listening := false, main := .joiningAccept }
  | .joiningAccept => { s with main := .waitingAccept }
  | .waitingAccept =>
    if s.accept = .absent ∨ s.accept = .finished then
      { s with acceptJoined := true, main := .taking }
    else s
  | .taking => { s with main := .done }
  | .done => s
  | .failing afterMutex =>
    { s with released := some .gnssInit, main := .exiting afterMutex }
  -- `error` ends the process and with it the accept thread
  | .exiting afterMutex => { s with accept := .absent, main := .exiting afterMutex }

/-- A step of `gnss_thread`. The outcome is an RTCM frame at `receiving` and a failed `send` at
`forwarding`. -/
def gnssStageStep (s : GnssLifecycle) (outcome : Bool) : GnssLifecycle :=
  match s.gnss with
  | .starting => { s with gnss := if s.stop then .releasing else .receiving }
  | .receiving =>
    { s with gnss := if outcome && s.rtcmEnabled then .forwarding else .processing }
  | .forwarding => { s with gnss := if outcome then .dropping else .processing }
  | .dropping => { s with gnss := .processing }
  | .processing => { s with gnss := .reporting }
  | .reporting => { s with gnss := .testing }
  | .testing => { s with gnss := .acting s.stop }
  | .acting stop => { s with gnss := if stop then .releasing else .receiving }
  | .releasing => { s with gnss := .finished, released := some .gnssThread }
  | .absent | .finished => s

/-- A step of `rtcm_accept_thread_fn`. The outcome is a new client at `accepting` and a closed
socket at `failed`. -/
def acceptStageStep (s : GnssLifecycle) (outcome : Bool) : GnssLifecycle :=
  match s.accept with
  | .testing => { s with accept := if s.rtcmAcceptRunning then .calling else .finished }
  | .calling => { s with accept := .accepting }
  | .accepting => { s with accept := if outcome then .swapping else .failed }
  | .failed => { s with accept := if outcome then .finished else .testing }
  | .swapping => { s with accept := .closing }
  | .closing => { s with accept := .testing }
  | .absent | .finished => s

/-- One step of the three threads. -/
def gnssLifecycleStep (s : GnssLifecycle) : GnssLifecycleEvent → GnssLifecycle
  | .main outcome => mainStageStep s outcome
  | .gnss outcome => gnssStageStep s outcome
  | .accept outcome => acceptStageStep s outcome

/-! ### What a step does to the object -/

/-- What a step does to the object: it accesses a field, locks `mutex_data`, dereferences
`gnss_info` or joins the accept thread. -/
inductive Touch
  | field
  | lock
  | deref
  | join
  deriving Repr, DecidableEq

def MainStage.touches (monitoring : Bool) : MainStage → List Touch
  | .info => if monitoring then [.field] else []
  | .running | .taking => [.lock]
  | .joiningAccept => [.join]
  | .waiting | .waitingAccept | .done | .exiting _ => []
  | _ => [.field]

def GnssStage.touches (gnssInfo : InfoPointer) : GnssStage → List Touch
  | .absent | .finished => []
  | .starting | .forwarding | .dropping | .processing | .testing => [.lock]
  | .reporting => if gnssInfo = .null then [.field] else [.deref]
  | _ => [.field]

def AcceptStage.touches : AcceptStage → List Touch
  | .testing | .calling => [.field]
  | .swapping => [.lock]
  | _ => []

/-- What the step does to the object. -/
def touches (s : GnssLifecycle) : GnssLifecycleEvent → List Touch
  | .main _ => s.main.touches s.monitoring
  | .gnss _ => s.gnss.touches s.gnssInfo
  | .accept _ => s.accept.touches

/-- **The law of the lifecycle** of a step: the mutex is locked after it was initialised,
`gnss_info` dereferenced after it was assigned, the accept thread joined only when it was created
and always before `gnss_stop` returns, and the object not touched after `gnss_thread` has released
it. -/
structure GnssLifecycleLaw (s : GnssLifecycle) (e : GnssLifecycleEvent) : Prop where
  locked : .lock ∈ touches s e → s.mutexInitialised = true
  deref : .deref ∈ touches s e → s.infoAssigned = true
  created : .join ∈ touches s e → s.accept ≠ .absent
  joined : (gnssLifecycleStep s e).main = .done → s.accept ≠ .absent → s.acceptJoined = true
  released : touches s e ≠ [] → s.released ≠ some .gnssThread

/-! ### What every schedule keeps -/

/-- `mutex_data` is initialised. -/
def MainStage.afterMutex : MainStage → Bool
  | .receiver | .rtcm | .configuring | .socket | .acceptThread | .reset | .mutex => false
  | .failing afterMutex | .exiting afterMutex => afterMutex
  | _ => true

/-- `gnss_stop` has set `stop`. -/
def MainStage.stopping : MainStage → Bool
  | .joining | .waiting | .reading | .closing | .joiningAccept | .waitingAccept | .taking
  | .done => true
  | _ => false

/-- `gnss_thread` is created. -/
def MainStage.afterGnss : MainStage → Bool
  | .info | .running => true
  | m => m.stopping

/-- `stop` is cleared. -/
def MainStage.afterReset : MainStage → Bool
  | .mutex | .gnssThread => true
  | m => m.afterGnss

/-- `gnss_stop` has joined `gnss_thread`. -/
def MainStage.afterJoin : MainStage → Bool
  | .joining | .waiting => false
  | m => m.stopping

/-- `gnss_thread` has read `stop` set. -/
def GnssStage.leaving : GnssStage → Bool
  | .acting stop => stop
  | .releasing | .finished => true
  | _ => false

/-- What every schedule keeps. -/
structure GnssLifecycleInv (s : GnssLifecycle) : Prop where
  mutex : s.mutexInitialised = s.main.afterMutex
  info : s.infoAssigned = true ↔ s.gnssInfo = .assigned
  started : s.gnss ≠ .absent → s.main.afterGnss = true
  stop : s.main.afterReset = true → s.stop = true → s.main.stopping = true
  leaving : s.gnss.leaving = true → s.stop = true
  released : s.released = some .gnssThread ↔ s.gnss = .finished
  ended : s.main.afterJoin = true → s.gnss = .finished

variable {s s' : GnssLifecycle} {e : GnssLifecycleEvent} {m : MainStage}

theorem afterMutex_of_afterGnss (h : m.afterGnss = true) : m.afterMutex = true := by
  cases m <;> first | rfl | cases h

theorem afterGnss_of_afterJoin (h : m.afterJoin = true) : m.afterGnss = true := by
  cases m <;> first | rfl | cases h

/-- The part of the state the invariant reads, the main thread apart. -/
def GnssLifecycle.core (s : GnssLifecycle) :
    GnssStage × Bool × InfoPointer × Bool × Bool × Option Releaser :=
  (s.gnss, s.stop, s.gnssInfo, s.infoAssigned, s.mutexInitialised, s.released)

/-- The main thread goes on without a change to what the invariant reads. -/
theorem GnssLifecycleInv.move (h : GnssLifecycleInv s) (hcore : s'.core = s.core)
    (hmutex : s'.main.afterMutex = s.main.afterMutex)
    (hgnss : s.main.afterGnss = true → s'.main.afterGnss = true)
    (hreset : s'.main.afterReset = true → s.main.afterReset = true)
    (hstop : s.main.stopping = true → s'.main.stopping = true)
    (hjoin : s'.main.afterJoin = true → s.main.afterJoin = true) : GnssLifecycleInv s' := by
  simp only [GnssLifecycle.core, Prod.mk.injEq] at hcore
  obtain ⟨hg, hs, hi, ha, hm, hr⟩ := hcore
  refine ⟨?_, ?_, ?_, ?_, ?_, ?_, ?_⟩
  · rw [hm, hmutex]
    exact h.mutex
  · rw [ha, hi]
    exact h.info
  · rw [hg]
    exact fun hne => hgnss (h.started hne)
  · rw [hs]
    exact fun hr hset => hstop (h.stop (hreset hr) hset)
  · rw [hg, hs]
    exact h.leaving
  · rw [hr, hg]
    exact h.released
  · rw [hg]
    exact fun hj => h.ended (hjoin hj)

/-- Before `gnss_thread` is created there is none. -/
theorem GnssLifecycleInv.absent (h : GnssLifecycleInv s) (hmain : s.main.afterGnss = false) :
    s.gnss = .absent := by
  by_contra hne
  exact Bool.false_ne_true (hmain.symm.trans (h.started hne))

theorem GnssLifecycleInv.not_released (h : GnssLifecycleInv s) (hgnss : s.gnss ≠ .finished) :
    s.released ≠ some .gnssThread := mt h.released.mp hgnss

/-- Before `gnss_thread` is created, only the mutex, `stop` and the release change. -/
theorem GnssLifecycleInv.before (h : GnssLifecycleInv s) (habsent : s'.gnss = .absent)
    (hinfo : s'.gnssInfo = s.gnssInfo) (hassigned : s'.infoAssigned = s.infoAssigned)
    (hmutex : s'.mutexInitialised = s'.main.afterMutex)
    (hstop : s'.main.afterReset = true → s'.stop = true → s'.main.stopping = true)
    (hreleased : s'.released ≠ some .gnssThread) (hgnss : s'.main.afterGnss = false) :
    GnssLifecycleInv s' := by
  have hjoin : s'.main.afterJoin ≠ true := fun hjoin => by
    rw [afterGnss_of_afterJoin hjoin] at hgnss
    cases hgnss
  refine ⟨hmutex, ?_, fun hne => absurd habsent hne, hstop, fun hl => ?_, ?_,
    fun hj => absurd hj hjoin⟩
  · rw [hassigned, hinfo]
    exact h.info
  · rw [habsent] at hl
    cases hl
  · rw [habsent]
    exact iff_of_false hreleased nofun

theorem GnssLifecycleInv.main (h : GnssLifecycleInv s) (outcome : Bool) :
    GnssLifecycleInv (mainStageStep s outcome) := by
  cases hmain : s.main with
  | receiver | rtcm | configuring | socket | acceptThread | joining | closing | joiningAccept
    | taking | exiting afterMutex =>
    simp only [mainStageStep, hmain]
    cases outcome <;> refine h.move rfl ?_ ?_ ?_ ?_ ?_ <;>
      simp [hmain, MainStage.afterMutex, MainStage.afterGnss, MainStage.afterReset,
        MainStage.stopping, MainStage.afterJoin]
  | reading =>
    simp only [mainStageStep, hmain]
    cases s.rtcmEnabled <;> refine h.move rfl ?_ ?_ ?_ ?_ ?_ <;>
      simp [hmain, MainStage.afterMutex, MainStage.afterGnss, MainStage.afterReset,
        MainStage.stopping, MainStage.afterJoin]
  | waitingAccept =>
    simp only [mainStageStep, hmain]
    split
    · refine h.move rfl ?_ ?_ ?_ ?_ ?_ <;>
        simp [hmain, MainStage.afterMutex, MainStage.afterGnss, MainStage.afterReset,
          MainStage.stopping, MainStage.afterJoin]
    · exact h
  | reset =>
    have habsent := h.absent (by rw [hmain]; rfl)
    have hmutex := h.mutex
    rw [hmain] at hmutex
    simp only [mainStageStep, hmain]
    refine h.before habsent rfl rfl ?_ ?_ ?_ ?_
    · exact hmutex.trans (by cases outcome <;> rfl)
    · nofun
    · exact h.not_released (by rw [habsent]; nofun)
    · cases outcome <;> rfl
  | mutex =>
    have habsent := h.absent (by rw [hmain]; rfl)
    have hstop := h.stop
    rw [hmain] at hstop
    simp only [mainStageStep, hmain]
    exact h.before habsent rfl rfl rfl hstop (h.not_released (by rw [habsent]; nofun)) rfl
  | gnssThread =>
    have habsent := h.absent (by rw [hmain]; rfl)
    have hmutex := h.mutex
    have hstop := h.stop
    rw [hmain] at hmutex hstop
    have hnotReleased := h.not_released (by rw [habsent]; nofun)
    simp only [mainStageStep, hmain]
    cases outcome with
    | false => exact h.before habsent rfl rfl hmutex nofun hnotReleased rfl
    | true => exact
        { mutex := hmutex
          info := h.info
          started := fun _ => rfl
          stop := hstop
          leaving := nofun
          released := iff_of_false hnotReleased nofun
          ended := nofun }
  | info =>
    have hmutex := h.mutex
    have hstop := h.stop
    rw [hmain] at hmutex hstop
    simp only [mainStageStep, hmain]
    split
    · exact
        { mutex := hmutex
          info := iff_of_true rfl rfl
          started := fun _ => rfl
          stop := hstop
          leaving := h.leaving
          released := h.released
          ended := nofun }
    · exact
        { mutex := hmutex
          info := h.info
          started := fun _ => rfl
          stop := hstop
          leaving := h.leaving
          released := h.released
          ended := nofun }
  | running =>
    have hmutex := h.mutex
    rw [hmain] at hmutex
    simp only [mainStageStep, hmain]
    cases outcome with
    | false => exact
        { mutex := hmutex
          info := h.info
          started := fun _ => rfl
          stop := fun _ _ => rfl
          leaving := fun _ => rfl
          released := h.released
          ended := nofun }
    | true => exact h
  | waiting =>
    simp only [mainStageStep, hmain]
    split
    · rename_i hfinished
      exact
        { mutex := h.mutex.trans (by rw [hmain]; rfl)
          info := h.info
          started := fun _ => rfl
          stop := fun _ _ => rfl
          leaving := h.leaving
          released := h.released
          ended := fun _ => hfinished }
    · exact h
  | failing afterMutex =>
    have habsent := h.absent (by rw [hmain]; rfl)
    have hmutex := h.mutex
    rw [hmain] at hmutex
    simp only [mainStageStep, hmain]
    exact h.before habsent rfl rfl hmutex nofun nofun rfl
  | done =>
    simp only [mainStageStep, hmain]
    exact h

theorem GnssLifecycleInv.gnss (h : GnssLifecycleInv s) (outcome : Bool) :
    GnssLifecycleInv (gnssStageStep s outcome) := by
  -- a stage that is not the last one
  have hgo : ∀ g, s.gnss ≠ .absent → s.gnss ≠ .finished → g ≠ .finished →
      (g.leaving = true → s.stop = true) → GnssLifecycleInv { s with gnss := g } :=
    fun g habsent hfinished hg hleaving =>
      { mutex := h.mutex
        info := h.info
        started := fun _ => h.started habsent
        stop := h.stop
        leaving := hleaving
        released := iff_of_false (h.not_released hfinished) hg
        ended := fun hj => absurd (h.ended hj) hfinished }
  cases hgnss : s.gnss with
  | absent | finished =>
    simp only [gnssStageStep, hgnss]
    exact h
  | starting =>
    simp only [gnssStageStep, hgnss]
    refine hgo _ (by simp [hgnss]) (by simp [hgnss]) ?_ ?_
    · cases s.stop <;> nofun
    · cases s.stop <;> simp [GnssStage.leaving]
  | receiving | forwarding | dropping | processing | reporting =>
    simp only [gnssStageStep, hgnss]
    refine hgo _ (by simp [hgnss]) (by simp [hgnss]) ?_ ?_
    · first | split <;> nofun | nofun
    · first | split <;> nofun | nofun
  | testing =>
    simp only [gnssStageStep, hgnss]
    exact hgo _ (by simp [hgnss]) (by simp [hgnss]) nofun id
  | acting stop =>
    have hleaving := h.leaving
    rw [hgnss] at hleaving
    simp only [gnssStageStep, hgnss]
    refine hgo _ (by simp [hgnss]) (by simp [hgnss]) ?_ ?_
    · cases stop <;> nofun
    · cases stop
      · nofun
      · exact fun _ => hleaving rfl
  | releasing =>
    have habsent : s.gnss ≠ .absent := by simp [hgnss]
    have hset : s.stop = true := h.leaving (by rw [hgnss]; rfl)
    simp only [gnssStageStep, hgnss]
    exact
      { mutex := h.mutex
        info := h.info
        started := fun _ => h.started habsent
        stop := h.stop
        leaving := fun _ => hset
        released := iff_of_true rfl rfl
        ended := fun _ => rfl }

theorem GnssLifecycleInv.accept (h : GnssLifecycleInv s) (outcome : Bool) :
    GnssLifecycleInv (acceptStageStep s outcome) := by
  unfold acceptStageStep
  split <;> first | exact h | exact h.move rfl rfl id id id id

theorem GnssLifecycleInv.step (h : GnssLifecycleInv s) (e : GnssLifecycleEvent) :
    GnssLifecycleInv (gnssLifecycleStep s e) := by
  cases e with
  | main outcome => exact h.main outcome
  | gnss outcome => exact h.gnss outcome
  | accept outcome => exact h.accept outcome

theorem gnssLifecycleInv_start (monitoring : Bool) (content : GnssContent) :
    GnssLifecycleInv (gnssLifecycleStart monitoring content) where
  mutex := rfl
  info := iff_of_false nofun (by simp only [gnssLifecycleStart]; split <;> nofun)
  started := fun hne => absurd rfl hne
  stop := nofun
  leaving := nofun
  released := iff_of_false nofun nofun
  ended := nofun

/-! ### The steps that obey the law -/

/-- `gnss_stop` has read `rtcm_enabled`. -/
def MainStage.afterReading : MainStage → Bool
  | .reading => false
  | m => m.afterJoin

/-- The accept thread is in `accept` or works on variables of its own. -/
def AcceptStage.alone : AcceptStage → Bool
  | .testing | .calling | .swapping => false
  | _ => true

/-- The steps that come in time: a client is put in `rtcm_client_fd` once the mutex is initialised;
`gnss_thread` comes to its test of `gnss_info` when `malloc` left it null or `main` has assigned it;
and once `gnss_thread` has ended, the main thread only waits for it and the accept thread works
alone. -/
def InTime (s : GnssLifecycle) : GnssLifecycleEvent → Prop
  | .main _ => s.gnss = .finished → s.main = .waiting
  | .gnss _ => s.gnss = .reporting → s.gnssInfo ≠ .garbage
  | .accept _ =>
    (s.accept = .swapping → s.main.afterMutex = true) ∧
      (s.gnss = .finished → s.accept.alone = true)

/-- Once `gnss_thread` has ended, `gnss_stop` is running. -/
theorem GnssLifecycleInv.stopping (h : GnssLifecycleInv s) (hfinished : s.gnss = .finished) :
    s.main.stopping = true := by
  have hgnss : s.main.afterGnss = true := h.started (by rw [hfinished]; nofun)
  have hreset : s.main.afterReset = true := by
    revert hgnss
    cases s.main <;> first | exact id | exact fun _ => rfl
  exact h.stop hreset (h.leaving (by rw [hfinished]; rfl))

theorem main_gnssStageStep (s : GnssLifecycle) (outcome : Bool) :
    (gnssStageStep s outcome).main = s.main := by
  unfold gnssStageStep
  split <;> rfl

theorem main_acceptStageStep (s : GnssLifecycle) (outcome : Bool) :
    (acceptStageStep s outcome).main = s.main := by
  unfold acceptStageStep
  split <;> rfl

theorem touches_eq_nil_iff_alone (a : AcceptStage) : a.touches = [] ↔ a.alone = true := by
  cases a <;> simp [AcceptStage.touches, AcceptStage.alone]

/-- Before `rtcm_enabled` is read, a stage of `gnss_stop` is one of three. -/
theorem early_of_stopping (hstopping : m.stopping = true) (hearly : m.afterReading = false) :
    m = .joining ∨ m = .waiting ∨ m = .reading := by
  revert hstopping hearly
  cases m <;> simp [MainStage.stopping, MainStage.afterReading, MainStage.afterJoin]

/-- A stage of the main thread before `rtcm_enabled` is read locks the mutex only while it runs, and
joins nothing. -/
theorem touches_of_early (hearly : m.afterReading = false) (monitoring : Bool) :
    (.lock ∈ m.touches monitoring → m = .running) ∧ .deref ∉ m.touches monitoring ∧
      .join ∉ m.touches monitoring := by
  revert hearly
  cases m <;> cases monitoring <;>
    simp [MainStage.touches, MainStage.afterReading, MainStage.afterJoin, MainStage.stopping]

/-- The main thread gets past the reading of `rtcm_enabled` from there only. -/
theorem afterReading_mainStageStep (hearly : s.main.afterReading = false)
    (hne : s.main ≠ .reading) (outcome : Bool) :
    (mainStageStep s outcome).main.afterReading = false := by
  cases hmain : s.main with
  | receiver | rtcm | configuring | socket | acceptThread | reset | mutex | gnssThread | joining
    | failing _ | exiting _ =>
    simp only [mainStageStep, hmain]
    cases outcome <;> rfl
  | info =>
    simp only [mainStageStep, hmain]
    split <;> rfl
  | running =>
    simp only [mainStageStep, hmain]
    cases outcome
    · rfl
    · exact hearly
  | waiting =>
    simp only [mainStageStep, hmain]
    split
    · rfl
    · exact hearly
  | reading => exact absurd hmain hne
  | closing | joiningAccept | waitingAccept | taking | done =>
    rw [hmain] at hearly
    cases hearly

/-- When `gnss_thread` comes to its end in time, the main thread never reads `rtcm_enabled`. -/
theorem GnssLifecycleInv.not_reading (h : GnssLifecycleInv s) {outcome : Bool}
    (htime : InTime s (.main outcome)) : s.main ≠ .reading := by
  intro hmain
  have hfinished := h.ended (by rw [hmain]; rfl)
  exact absurd (hmain.symm.trans (htime hfinished)) nofun

theorem not_done_of_early (hearly : m.afterReading = false) : m ≠ .done := by
  rintro rfl
  cases hearly

/-- `gnss_thread` dereferences `gnss_info` when it reports, unless the pointer is null, and joins
nothing. -/
theorem deref_of_gnss {g : GnssStage} {gnssInfo : InfoPointer} :
    (.deref ∈ g.touches gnssInfo → g = .reporting ∧ gnssInfo ≠ .null) ∧
      .join ∉ g.touches gnssInfo := by
  cases g <;> cases gnssInfo <;> simp [GnssStage.touches]

/-- The accept thread locks the mutex when it swaps the client in, and neither dereferences
`gnss_info` nor joins a thread. -/
theorem lock_of_accept {a : AcceptStage} :
    (.lock ∈ a.touches → a = .swapping) ∧ .deref ∉ a.touches ∧ .join ∉ a.touches := by
  cases a <;> simp [AcceptStage.touches]

/-- A step of the main thread obeys the law exactly when it comes in time. -/
theorem gnssLifecycleLaw_main_iff (h : GnssLifecycleInv s) (hearly : s.main.afterReading = false)
    (outcome : Bool) : GnssLifecycleLaw s (.main outcome) ↔ InTime s (.main outcome) := by
  constructor
  · intro hlaw hfinished
    have hnone : s.main.touches s.monitoring = [] := by
      by_contra hne
      exact hlaw.released hne (h.released.mpr hfinished)
    rcases early_of_stopping (h.stopping hfinished) hearly with hmain | hmain | hmain
    · rw [hmain] at hnone
      cases hnone
    · exact hmain
    · rw [hmain] at hnone
      cases hnone
  · intro htime
    obtain ⟨hlock, hderef, hjoin⟩ := touches_of_early hearly s.monitoring
    refine ⟨fun hmem => ?_, fun hmem => absurd hmem hderef, fun hmem => absurd hmem hjoin,
      fun hdone => ?_, fun hne hreleased => ?_⟩
    · rw [h.mutex, hlock hmem]
      rfl
    · have hnext := afterReading_mainStageStep hearly (h.not_reading htime) outcome
      have hdone : (mainStageStep s outcome).main = .done := hdone
      rw [hdone] at hnext
      cases hnext
    · have hmain : s.main = .waiting := htime (h.released.mp hreleased)
      exact hne (by simp only [touches, hmain, MainStage.touches])

/-- A step of `gnss_thread` obeys the law exactly when it comes in time. -/
theorem gnssLifecycleLaw_gnss_iff (h : GnssLifecycleInv s) (hearly : s.main.afterReading = false)
    (outcome : Bool) : GnssLifecycleLaw s (.gnss outcome) ↔ InTime s (.gnss outcome) := by
  constructor
  · intro hlaw hgnss hgarbage
    have hmem : .deref ∈ touches s (.gnss outcome) := by
      simp [touches, hgnss, hgarbage, GnssStage.touches]
    have hassigned := h.info.mp (hlaw.deref hmem)
    exact absurd (hgarbage.symm.trans hassigned) nofun
  · intro htime
    have hdone : (gnssStageStep s outcome).main ≠ .done := by
      rw [main_gnssStageStep]
      exact not_done_of_early hearly
    refine ⟨fun hmem => ?_, fun hmem => ?_, fun hmem => ?_, fun h => absurd h hdone,
      fun hne hreleased => ?_⟩
    · have hstarted : s.gnss ≠ .absent := by
        intro habsent
        simp [touches, habsent, GnssStage.touches] at hmem
      rw [h.mutex]
      exact afterMutex_of_afterGnss (h.started hstarted)
    · obtain ⟨hgnss, hnull⟩ := deref_of_gnss.1 hmem
      refine h.info.mpr ?_
      cases hinfo : s.gnssInfo with
      | null => exact absurd hinfo hnull
      | garbage => exact absurd hinfo (htime hgnss)
      | assigned => rfl
    · exact absurd hmem deref_of_gnss.2
    · have hfinished := h.released.mp hreleased
      exact hne (by simp only [touches, hfinished, GnssStage.touches])

/-- A step of the accept thread obeys the law exactly when it comes in time. -/
theorem gnssLifecycleLaw_accept_iff (h : GnssLifecycleInv s) (hearly : s.main.afterReading = false)
    (outcome : Bool) : GnssLifecycleLaw s (.accept outcome) ↔ InTime s (.accept outcome) := by
  constructor
  · intro hlaw
    refine ⟨fun hswapping => ?_, fun hfinished => ?_⟩
    · rw [← h.mutex]
      exact hlaw.locked (by simp [touches, hswapping, AcceptStage.touches])
    · refine (touches_eq_nil_iff_alone _).mp ?_
      by_contra hne
      exact hlaw.released hne (h.released.mpr hfinished)
  · rintro ⟨hclient, hlate⟩
    have hdone : (acceptStageStep s outcome).main ≠ .done := by
      rw [main_acceptStageStep]
      exact not_done_of_early hearly
    refine ⟨fun hmem => ?_, fun hmem => ?_, fun hmem => ?_, fun h => absurd h hdone,
      fun hne hreleased => ?_⟩
    · rw [h.mutex]
      exact hclient (lock_of_accept.1 hmem)
    · exact absurd hmem lock_of_accept.2.1
    · exact absurd hmem lock_of_accept.2.2
    · exact hne ((touches_eq_nil_iff_alone _).mpr (hlate (h.released.mp hreleased)))

/-- Before `rtcm_enabled` is read, a step obeys the law exactly when it comes in time. -/
theorem gnssLifecycleLaw_iff (h : GnssLifecycleInv s) (hearly : s.main.afterReading = false)
    (e : GnssLifecycleEvent) : GnssLifecycleLaw s e ↔ InTime s e := by
  cases e with
  | main outcome => exact gnssLifecycleLaw_main_iff h hearly outcome
  | gnss outcome => exact gnssLifecycleLaw_gnss_iff h hearly outcome
  | accept outcome => exact gnssLifecycleLaw_accept_iff h hearly outcome

/-- A step that comes in time does not bring the main thread past the reading of `rtcm_enabled`. -/
theorem GnssLifecycleInv.afterReading (h : GnssLifecycleInv s)
    (hearly : s.main.afterReading = false) (htime : InTime s e) :
    (gnssLifecycleStep s e).main.afterReading = false := by
  cases e with
  | main outcome => exact afterReading_mainStageStep hearly (h.not_reading htime) outcome
  | gnss outcome =>
    simp only [gnssLifecycleStep, main_gnssStageStep]
    exact hearly
  | accept outcome =>
    simp only [gnssLifecycleStep, main_acceptStageStep]
    exact hearly

variable (monitoring : Bool) (content : GnssContent) (es : List GnssLifecycleEvent)

/-- **The lifecycle of the object.** Whatever `malloc` has left in it, with or without monitoring,
for every outcome of `gnss_init` and every schedule of the threads: all steps of the run obey the
law exactly when all come in time. -/
theorem gnssLifecycleLaw_eachStep_iff :
    EachStep gnssLifecycleStep GnssLifecycleLaw (gnssLifecycleStart monitoring content) es ↔
      EachStep gnssLifecycleStep InTime (gnssLifecycleStart monitoring content) es :=
  eachStep_congr_of_kept (J := fun s => GnssLifecycleInv s ∧ s.main.afterReading = false)
    ⟨gnssLifecycleInv_start monitoring content, rfl⟩
    (fun _ e h => gnssLifecycleLaw_iff h.1 h.2 e)
    (fun _ e h htime => ⟨h.1.step e, h.1.afterReading h.2 htime⟩)

/-- No run in which `gnss_stop` returns obeys the law. -/
theorem not_eachStep_gnssLifecycleLaw_of_done
    (hdone : (after gnssLifecycleStep (gnssLifecycleStart monitoring content) es).main = .done) :
    ¬ EachStep gnssLifecycleStep GnssLifecycleLaw (gnssLifecycleStart monitoring content) es := by
  intro hlaw
  have hkept : Throughout gnssLifecycleStep
      (fun s => GnssLifecycleInv s ∧ s.main.afterReading = false)
      (gnssLifecycleStart monitoring content) es :=
    throughout_of_eachStep ⟨gnssLifecycleInv_start monitoring content, rfl⟩
      (fun _ e h hstep =>
        ⟨h.1.step e, h.1.afterReading h.2 ((gnssLifecycleLaw_iff h.1 h.2 e).mp hstep)⟩) hlaw
  exact not_done_of_early hkept.last.2 hdone

/-- What `malloc` returns from fresh memory. -/
def contentZero : GnssContent :=
  { gnssInfo := false, rtcmEnabled := false, listening := false, rtcmAcceptRunning := false,
    stop := false }

/-- The daemon is started without RTCM output and stopped. -/
def ordinaryStop : List GnssLifecycleEvent :=
  [.main true, .main false, .main true, .main true, .main true, .main true, .main false,
    .main true, .gnss true, .gnss true, .main true, .main true]

/-- `gnss_stop` reads `rtcm_enabled` after `gnss_thread` has freed the object. -/
theorem gnssLifecycleLaw_fails_ordinary_stop :
    ¬ EachStep gnssLifecycleStep GnssLifecycleLaw (gnssLifecycleStart false contentZero)
        ordinaryStop :=
  not_eachStep_gnssLifecycleLaw_of_done false contentZero ordinaryStop rfl

end Oscillatord
